import ResilientCtp.Election.Gates
import ResilientCtp.Model.Compose
import Mathlib.Data.List.Forall2

/-!
# Records that the election cannot tell apart

Two records of one peer are alike (`Alike`) where they block alike and lead alike. A dead region
reads as stale over `mr` and as unreadable over `directApi` (`Dead`); under a failover signal the
two are alike.

* `dead_of_stale`: a heartbeat past its TTL, against a read of it that failed.
* `decide_congr`: alike records give the same decision, on statuses that feed back the same.
-/

namespace ResilientCtp

open Py Heartbeat

namespace Election

/-- The record of a dead peer, as `mr` reads it (`p`) and as `directApi` does (`q`). -/
structure Dead (p q : PeerLiveness) : Prop where
  cpId : p.cpId = q.cpId
  priority : p.priority = q.priority
  readable : p.readable = true
  stale : p.fresh = false
  unreadable : q.readable = false
  lost : q.fresh = false

/-- A heartbeat past its TTL, and a read of it that failed or was not done in time. -/
theorem dead_of_stale {m : Member} {tags : Dict} {k : String} {now ttl e : Int}
    (he : asInt (Dict.getD tags k .null) 0 = e) (hpos : 0 < e) (hold : ttl < now - e) :
    Dead (livenessFromTags m (some tags) k now ttl) (livenessFromTags m none k now ttl) ∧
      Dead (livenessFromTags m (some tags) k now ttl) (unreadablePeer m) := by
  have hstale : (livenessFromTags m (some tags) k now ttl).fresh = false := by
    apply Bool.eq_false_iff.mpr
    intro hf
    obtain ⟨-, hage⟩ := fresh_livenessFromTags.mp hf
    change now - asInt (Dict.getD tags k .null) 0 ≤ ttl at hage
    omega
  have hread : (livenessFromTags m (some tags) k now ttl).readable = true := by
    show isSome (Dict.getD tags k .null) = true
    cases hv : Dict.getD tags k .null with
    | null => rw [hv, asInt_null] at he; omega
    | _ => rfl
  exact ⟨⟨rfl, rfl, hread, hstale, rfl, rfl⟩, ⟨rfl, rfl, hread, hstale, rfl, rfl⟩⟩

/-! ## Two decisions -/

/-- The gates of the election cannot tell the records apart. -/
structure Alike (af : Bool) (p q : PeerLiveness) : Prop where
  priority : p.priority = q.priority
  blocks : blocks af p = none ↔ blocks af q = none
  leads : p.role = "leader" → p.fresh = true → q.role = "leader" ∧ q.fresh = true
  leads' : q.role = "leader" → q.fresh = true → p.role = "leader" ∧ p.fresh = true

theorem Alike.refl (af : Bool) (p : PeerLiveness) : Alike af p p :=
  ⟨rfl, Iff.rfl, fun h h' => ⟨h, h'⟩, fun h h' => ⟨h, h'⟩⟩

theorem Alike.symm {af : Bool} {p q : PeerLiveness} (h : Alike af p q) : Alike af q p :=
  ⟨h.priority.symm, h.blocks.symm, h.leads', h.leads⟩

/-- Under a failover signal a dead peer is passed over in both modes. -/
theorem Dead.alike {p q : PeerLiveness} (h : Dead p q) : Alike true p q where
  priority := h.priority
  blocks := by
    rw [blocks_eq_none, blocks_eq_none]
    exact ⟨fun _ => .inl ⟨h.unreadable, rfl⟩, fun _ => .inr (.inl ⟨h.readable, h.stale⟩)⟩
  leads _ hf := by rw [h.stale] at hf; cases hf
  leads' _ hf := by rw [h.lost] at hf; cases hf

variable {af : Bool} {ps qs : List PeerLiveness}

theorem exists_alike (h : List.Forall₂ (Alike af) ps qs) {q : PeerLiveness} (hq : q ∈ qs) :
    ∃ p ∈ ps, Alike af p q := by
  induction h with
  | nil => cases hq
  | cons hpq _ ih =>
    rcases List.mem_cons.mp hq with rfl | hq
    · exact ⟨_, List.mem_cons_self, hpq⟩
    · obtain ⟨p, hp, ha⟩ := ih hq
      exact ⟨p, List.mem_cons_of_mem _ hp, ha⟩

theorem alike_symm (h : List.Forall₂ (Alike af) ps qs) : List.Forall₂ (Alike af) qs ps :=
  List.Forall₂.flip (h.imp fun _ _ ha => ha.symm)

variable {identity : Identity} {gslb : GslbSignal} {strategy : String}

theorem clear_of_alike (h : List.Forall₂ (Alike (gslbActiveFailover gslb strategy)) ps qs)
    (hc : Clear identity gslb strategy ps) : Clear identity gslb strategy qs where
  healthy := hc.healthy
  active := hc.active
  unblocked q hq hlt := by
    obtain ⟨p, hp, ha⟩ := exists_alike h hq
    exact ha.blocks.mp (hc.unblocked p hp (ha.priority ▸ hlt))
  released q hq hlt hl := by
    obtain ⟨p, hp, ha⟩ := exists_alike h hq
    apply Bool.eq_false_iff.mpr
    intro hf
    obtain ⟨hpl, hpf⟩ := ha.leads' hl hf
    rw [hc.released p hp (ha.priority ▸ hlt) hpl] at hpf
    cases hpf

theorem clear_congr (h : List.Forall₂ (Alike (gslbActiveFailover gslb strategy)) ps qs) :
    Clear identity gslb strategy ps ↔ Clear identity gslb strategy qs :=
  ⟨clear_of_alike h, clear_of_alike (alike_symm h)⟩

theorem no_higher_of_alike (h : List.Forall₂ (Alike af) ps qs)
    (hn : ∀ p ∈ ps, ¬ p.priority < identity.priority) :
    ∀ q ∈ qs, ¬ q.priority < identity.priority := by
  intro q hq
  obtain ⟨p, hp, ha⟩ := exists_alike h hq
  rw [← ha.priority]
  exact hn p hp

variable {st st' : Dict} {hysteresis throttle now : Int} {iso iso' : String} {d d' : Decision}

/-- **Congruence.** Records that the gates cannot tell apart, on statuses with the same timer and
the same evidence of leadership, give the same role and timer. -/
theorem decide_congr (h : List.Forall₂ (Alike (gslbActiveFailover gslb strategy)) ps qs)
    (htimer : priorCandidateSince st = priorCandidateSince st')
    (hcont : ∀ w, continuousLeader st w now = continuousLeader st' w now)
    (hd : Election.decide identity gslb ps st hysteresis throttle now strategy iso = .ok d)
    (hd' : Election.decide identity gslb qs st' hysteresis throttle now strategy iso' = .ok d') :
    d.role = d'.role ∧ d.promotionCandidateSince = d'.promotionCandidateSince := by
  obtain ⟨cand, hc, h1⟩ := decide_cases hd
  obtain ⟨cand', hc', h2⟩ := decide_cases hd'
  rw [← htimer, hc] at hc'
  cases hc'
  have hserved : Served identity ps st (hysteresisWindow hysteresis throttle) now cand ↔
      Served identity qs st' (hysteresisWindow hysteresis throttle) now cand := by
    unfold Served
    rw [hcont]
    exact or_congr_left ⟨no_higher_of_alike h, no_higher_of_alike (alike_symm h)⟩
  rw [clear_congr h, hserved] at h1
  rcases h1 with ⟨a1, a2, a3, a4⟩ | ⟨a1, a2, a3, a4⟩ | ⟨a1, a3, a4⟩ <;>
    rcases h2 with ⟨b1, b2, b3, b4⟩ | ⟨b1, b2, b3, b4⟩ | ⟨b1, b3, b4⟩
  · exact ⟨a3.trans b3.symm, a4.trans b4.symm⟩
  · exact absurd a2 b2
  · exact absurd a1 b1
  · exact absurd b2 a2
  · exact ⟨a3.trans b3.symm, a4.trans b4.symm⟩
  · exact absurd a1 b1
  · exact absurd b1 a1
  · exact absurd b1 a1
  · exact ⟨a3.trans b3.symm, a4.trans b4.symm⟩

end Election

end ResilientCtp
