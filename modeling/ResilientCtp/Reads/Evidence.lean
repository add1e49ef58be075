import ResilientCtp.Election.Gates
import ResilientCtp.Model.Reconcile

/-!
# What makes a peer count as down

A peer is down where its heartbeat was read and is not fresh: the election passes it over, and the
status publishes `definitivelyDown`. The reading asks only that there is a value under the liveness
key; a value that is no epoch reads as epoch 0, which is not fresh, so the peer is down.

* `judged_iff`: a peer is judged on evidence exactly if there is no value or a positive epoch.
* `corrupt_reads_down`: a tag that is no number.
-/

namespace ResilientCtp

open Py Election

namespace Heartbeat

/-- The integer that a value reads as. -/
def epoch? : Value → Option Int
  | .str s => parseInt s
  | _ => none

theorem asInt_eq (v : Value) (dflt : Int) : asInt v dflt = (epoch? v).getD dflt := by
  cases v <;> rfl

/-- The state that the election passes over. -/
def Down (p : PeerLiveness) : Prop := p.readable = true ∧ p.fresh = false

theorem blocks_of_down {p : PeerLiveness} (h : Down p) (af : Bool) : blocks af p = none :=
  blocks_eq_none.mpr (.inr (.inl h))

/-- The status publishes it. -/
theorem definitivelyDown_iff (g : GslbSignal) (p : PeerLiveness) :
    (Status.peerStatus g p).get "definitivelyDown" .null = .ok (.bool true) ↔ Down p := by
  have hget : (Status.peerStatus g p).get "definitivelyDown" .null =
      .ok (.bool (p.readable && !p.fresh)) := rfl
  rw [hget, Down]
  cases p.readable <;> cases p.fresh <;> simp

/-- The tags hold an epoch that is positive and past the TTL. -/
def ShowsDown (tags : Dict) (tsTag : String) (now ttl : Int) : Prop :=
  ∃ e, epoch? (Dict.getD tags tsTag .null) = some e ∧ 0 < e ∧ ttl < now - e

/-- Nothing under the key reads as a positive epoch. -/
def HoldsNoEpoch (tags : Dict) (tsTag : String) : Prop :=
  ∀ e, epoch? (Dict.getD tags tsTag .null) = some e → e ≤ 0

/-- Without a failover signal the record holds every lower-priority control plane at standby. -/
def HoldsBack (p : PeerLiveness) : Prop :=
  ∀ (identity : Identity) (gslb : GslbSignal) (strategy : String) (peers : List PeerLiveness)
    (priorStatus : Dict) (hysteresis throttle now : Int) (isoNow : String) (d : Decision),
    gslbActiveFailover gslb strategy = false → p ∈ peers → p.priority < identity.priority →
      Election.decide identity gslb peers priorStatus hysteresis throttle now strategy isoNow =
        .ok d → d.role = .standby

theorem holdsBack_of_unreadable {p : PeerLiveness} (h : p.readable = false) : HoldsBack p := by
  intro identity gslb strategy peers priorStatus hysteresis throttle now isoNow d haf hp hlt hd
  rw [Role.eq_standby]
  intro hl
  obtain ⟨cand, hc, -⟩ := decide_cases hd
  obtain ⟨hclear, -⟩ := (decide_leader hd hc).mp hl
  obtain ⟨hr, -⟩ := hclear.higher_down haf hp hlt
  rw [h] at hr
  cases hr

/-- The peer is down only on evidence, and unknown where the tags hold no epoch. -/
structure Judged (m : Member) (tags : Dict) (tsTag : String) (now ttl : Int) : Prop where
  down : Down (livenessFromTags m (some tags) tsTag now ttl) → ShowsDown tags tsTag now ttl
  unknown : HoldsNoEpoch tags tsTag →
    (livenessFromTags m (some tags) tsTag now ttl).readable = false ∧
      HoldsBack (livenessFromTags m (some tags) tsTag now ttl)

variable {m : Member} {tags : Dict} {tsTag : String} {now ttl : Int}

theorem readable_iff : (livenessFromTags m (some tags) tsTag now ttl).readable = true ↔
    Dict.getD tags tsTag .null ≠ .null := by
  show isSome (Dict.getD tags tsTag .null) = true ↔ _
  cases Dict.getD tags tsTag .null <;> simp [isSome]

theorem judged_of_absent (h : Dict.getD tags tsTag .null = .null) :
    Judged m tags tsTag now ttl := by
  have hun : (livenessFromTags m (some tags) tsTag now ttl).readable = false := by
    apply Bool.eq_false_iff.mpr
    intro hr
    exact readable_iff.mp hr h
  refine ⟨fun hd => ?_, fun _ => ⟨hun, holdsBack_of_unreadable hun⟩⟩
  rw [Down, hun] at hd
  cases hd.1

theorem judged_of_epoch {e : Int} (he : epoch? (Dict.getD tags tsTag .null) = some e)
    (hpos : 0 < e) : Judged m tags tsTag now ttl := by
  refine ⟨fun hd => ⟨e, he, hpos, ?_⟩, fun hno => ?_⟩
  · by_contra hle
    have hepoch : (livenessFromTags m (some tags) tsTag now ttl).epoch = e := by
      show asInt (Dict.getD tags tsTag .null) 0 = e
      rw [asInt_eq, he]
      rfl
    have hf : (livenessFromTags m (some tags) tsTag now ttl).fresh = true := by
      rw [fresh_livenessFromTags, hepoch]
      exact ⟨hpos, by omega⟩
    rw [hd.2] at hf
    cases hf
  · have := hno e he
    omega

/-- **Evidence.** A peer is judged on evidence exactly if its tags hold nothing under the key, or a
positive epoch. -/
theorem judged_iff : Judged m tags tsTag now ttl ↔ Dict.getD tags tsTag .null = .null ∨
    ∃ e, epoch? (Dict.getD tags tsTag .null) = some e ∧ 0 < e := by
  constructor
  · intro h
    by_contra hno
    obtain ⟨hsome, hpos⟩ := not_or.mp hno
    obtain ⟨hun, -⟩ := h.unknown fun e he => by
      by_contra hgt
      exact hpos ⟨e, he, by omega⟩
    rw [readable_iff.mpr hsome] at hun
    cases hun
  · rintro (h | ⟨e, he, hpos⟩)
    · exact judged_of_absent h
    · exact judged_of_epoch he hpos

/-- The tag of a heartbeat that something else overwrote. -/
def corruptTags : Dict := [(tsTagDefault, .str "corrupt"), (roleTag, .str "leader")]

/-- A corrupt tag reads as a peer that is down. -/
theorem corrupt_reads_down : ¬ ∀ (m : Member) (tags : Dict) (tsTag : String) (now ttl : Int),
    Judged m tags tsTag now ttl := by
  intro h
  have hraw : Dict.getD corruptTags tsTagDefault .null = .str "corrupt" := rfl
  have hno : epoch? (.str "corrupt") = none := by decide
  obtain ⟨e, he, -⟩ := (h memberA corruptTags tsTagDefault 1000 180).down ⟨rfl, by decide⟩
  rw [hraw, hno] at he
  cases he

end Heartbeat

end ResilientCtp
