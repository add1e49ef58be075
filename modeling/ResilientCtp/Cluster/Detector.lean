import ResilientCtp.Cluster.Steps
import ResilientCtp.Lib.Detector
import Mathlib.Tactic.Ring

/-!
# The ledger as a failure detector

The log of a set is a history of heartbeats, and a record is fresh when its reader trusts the
peer: the freshness TTL is the time to live, the write throttle the slack of the stamps
(`fresh_iff`). So from some time after the last crash on every reconcile sees exactly the control
planes that survive (`detects_survivors`), under any lag of the readings and any skew of the clocks
that the TTL covers.
-/

namespace ResilientCtp

open Py Election Heartbeat Detector

namespace Cluster

def beat (e : Event) : Beat String where
  who := e.cp.id
  stamp := e.out.epoch
  posted := e.time

/-- The log, as a history of heartbeats. -/
def beats (log : List Event) : List (Beat String) := log.map beat

def detectorTerms (F : Fleet) : Detector.Terms String where
  ttl := F.settings.ttl
  slack := F.settings.throttle
  clock := F.offset

/-- From `t` to `now` the control plane `id` reconciles at least every `d` seconds. -/
def Paced (log : List Event) (d : Int) (id : String) (t now : Int) : Prop :=
  Detector.Paced (beats log) d id t now

/-- The control plane `id` does not reconcile after `t`. -/
def Silent (log : List Event) (id : String) (t : Int) : Prop :=
  ∀ e ∈ log, e.cp.id = id → e.time ≤ t

/-- The clocks of the set differ by at most `skew`. -/
def Skewed (F : Fleet) (skew : Int) : Prop :=
  ∀ p ∈ F.members, ∀ q ∈ F.members, F.offset p.id - F.offset q.id ≤ skew

variable {F : Fleet} {c : State} {e x : Event} {log rest : List Event} {id : String}
  {d t v now skew : Int}

theorem visible_beats (log : List Event) (id : String) (v : Int) :
    visible (beats log) id v = (seen log id v).map beat := by
  rw [visible, beats, List.find?_map, seen]
  congr 1

theorem Skewed.toSkew (h : Skewed F skew) :
    Skew (detectorTerms F) skew fun id => ∃ m ∈ F.members, m.id = id := by
  rintro _ _ ⟨p, hp, rfl⟩ ⟨q, hq, rfl⟩
  exact h p hp q hq

/-- A log is in order. -/
theorem log_sorted (hr : (system F).Reach c) : c.log.Pairwise fun a b => b.time ≤ a.time := by
  induction hr with
  | init hi => cases hi; exact .nil
  | @step c _ a hr hst ih =>
    cases a with
    | advance t => obtain ⟨-, rfl⟩ := hst; exact ih
    | reconcile e =>
      obtain ⟨he, rfl⟩ := hst
      refine List.pairwise_cons.mpr ⟨fun y hy => ?_, ih⟩
      rw [he.time]
      exact time_le hr hy

/-- The ledger is a history of heartbeats that are stamped within the throttle. -/
theorem beats_wellFormed (hr : (system F).Reach c) :
    WellFormed (detectorTerms F) (beats c.log) where
  sorted := List.pairwise_map.mpr (log_sorted hr)
  stamp_le := by
    intro b hb
    obtain ⟨x, hx, rfl⟩ := List.mem_map.mp hb
    have hk := (kept_inductive F).reach hr x hx
    have h1 := hk.le
    rw [hk.now] at h1
    exact h1
  slack := by
    intro b hb
    obtain ⟨x, hx, rfl⟩ := List.mem_map.mp hb
    have hk := (kept_inductive F).reach hr x hx
    have h1 := hk.now
    have h2 := hk.recent
    show x.time + F.offset x.cp.id - F.settings.throttle < x.out.epoch
    omega

/-- What a paced control plane did before a moment, the log of that moment says. -/
theorem Paced.at_event {later : List Event} (h : Paced c.log d id t now)
    (hr : (system F).Reach c) (hlog : c.log = later ++ e :: rest) (hle : e.time ≤ now) :
    Paced rest d id t e.time := by
  refine (Detector.Paced.mono h hle).of_before fun b hb hlt => ?_
  obtain ⟨y, hy, rfl⟩ := List.mem_map.mp hb
  refine List.mem_map_of_mem ?_
  have hs := log_sorted hr
  rw [hlog] at hy hs
  rcases List.mem_append.mp hy with hy | hy
  · have : e.time ≤ y.time := (List.pairwise_append.mp hs).2.2 y hy e List.mem_cons_self
    change y.time < e.time at hlt
    omega
  · rcases List.mem_cons.mp hy with rfl | hy
    · exact absurd hlt (Int.lt_irrefl _)
    · exact hy

/-- A paced control plane is seen within its pace. -/
theorem Paced.seen (h : Paced c.log d id t now) (hr : (system F).Reach c) (ht : t < v)
    (hv : v ≤ now) : ∃ x, Cluster.seen c.log id v = some x ∧ t ≤ x.time ∧ v - x.time ≤ d := by
  obtain ⟨b, hb, htb, hd⟩ := Detector.Paced.visible h (beats_wellFormed hr).sorted ht hv
  rw [visible_beats] at hb
  obtain ⟨x, hx, rfl⟩ := Option.map_eq_some_iff.mp hb
  exact ⟨x, hx, htb, hd⟩

/-! ## What a reconcile detects -/

/-- The record of a peer that has reconciled is fresh when its reader trusts the peer. -/
theorem fresh_iff (hr : (system F).Reach c) (he : Reconciles F c e) {p : Member}
    (hx : seen c.log p.id (e.view p.id) = some x) : (record F c e p).fresh = true ↔
      Trusts (detectorTerms F) (beats c.log) e.cp.id p.id (e.view p.id) c.now := by
  have hk := (kept_inductive F).reach hr x (seen_mem hx).1
  rw [fresh_record_seen hx hk, he.now, Trusts, visible_beats, hx]
  simp [beat, detectorTerms]

/-- What was left before the start does not stay fresh. -/
theorem not_fresh_of_boot (hskew : Skewed F skew) (he : Reconciles F c e) {p : Member}
    (hp : p ∈ F.members) (hx : seen c.log p.id (e.view p.id) = none)
    (hlate : F.start + F.settings.ttl + skew < c.now) : (record F c e p).fresh = false := by
  rw [Bool.eq_false_iff, record, F.tagsAt_boot hx, Ne, fresh_livenessFromTags]
  rintro ⟨h0, hle⟩
  cases hb : F.bootTags p.id with
  | none =>
    rw [hb] at h0
    exact absurd h0 (Int.lt_irrefl 0)
  | some tags =>
    rw [hb] at hle
    change e.inp.now - epochOf F.settings.tsTag tags ≤ F.settings.ttl at hle
    have h1 := (F.boot p hp tags hb).2
    have h2 := hskew p hp e.cp he.member
    have h3 := he.now
    omega

/-- A peer that keeps its pace is fresh. -/
theorem fresh_of_paced (hskew : Skewed F skew)
    (httl : F.lag + d + F.settings.throttle + skew ≤ F.settings.ttl) (hr : (system F).Reach c)
    (he : Reconciles F c e) {p : Member} (hp : p ∈ F.members) (hpace : Paced c.log d p.id t c.now)
    (hlate : t + F.lag < c.now) : (record F c e p).fresh = true ∧
      ∃ x, seen c.log p.id (e.view p.id) = some x ∧ c.now - (F.lag + d) ≤ x.time := by
  have hlag := he.view_lag p hp
  have hview := he.view_le p hp
  obtain ⟨x, hx, -, hd⟩ := hpace.seen hr (v := e.view p.id) (by omega) hview
  refine ⟨(fresh_iff hr he hx).mpr ?_, x, hx, by omega⟩
  obtain ⟨y, hy, hle⟩ := trusts_of_paced (beats_wellFormed hr) hskew.toSkew ⟨e.cp, he.member, rfl⟩
    ⟨p, hp, rfl⟩ httl hpace (show t < e.view p.id by omega) hview hlag
  exact ⟨y, hy, hle⟩

/-- A peer that stopped is not. -/
theorem not_fresh_of_silent (hskew : Skewed F skew) (hr : (system F).Reach c)
    (he : Reconciles F c e) {p : Member} (hp : p ∈ F.members) (hsilent : Silent c.log p.id t)
    (hstart : F.start ≤ t) (hlate : t + F.settings.ttl + skew < c.now) :
    (record F c e p).fresh = false := by
  cases hx : seen c.log p.id (e.view p.id) with
  | none => exact not_fresh_of_boot hskew he hp hx (by omega)
  | some x =>
    rw [Bool.eq_false_iff, Ne, fresh_iff hr he hx]
    refine not_trusts_of_silent (beats_wellFormed hr) hskew.toSkew ⟨e.cp, he.member, rfl⟩
      ⟨p, hp, rfl⟩ (t := t) ?_ hlate
    intro b hb hid
    obtain ⟨y, hy, rfl⟩ := List.mem_map.mp hb
    exact hsilent y hy hid

/-- **The detector.** Where the `live` control planes keep their pace from `t` on and no other one
reconciles after `t`, every later reconcile sees exactly the `live` ones fresh. -/
theorem detects_survivors {live : List Member} (hskew : Skewed F skew)
    (httl : F.lag + d + F.settings.throttle + skew ≤ F.settings.ttl) (hr : (system F).Reach c)
    (hstart : F.start ≤ t) (hlive : ∀ p ∈ live, p ∈ F.members)
    (hpaced : ∀ p ∈ live, Paced c.log d p.id t c.now)
    (hsilent : ∀ p ∈ F.members, p ∉ live → Silent c.log p.id t) (he : Reconciles F c e)
    (hlate : t + max F.lag (F.settings.ttl + skew) < c.now) :
    ∀ q ∈ e.inp.peers, q.fresh = true ↔ ∃ p ∈ live, p.id = q.cpId := by
  intro q hq
  obtain ⟨p, hp, -, rfl⟩ := he.exists_record hq
  constructor
  · intro hfresh
    refine ⟨p, ?_, rfl⟩
    by_contra hdead
    rw [not_fresh_of_silent hskew hr he hp (hsilent p hp hdead) hstart (by omega)] at hfresh
    cases hfresh
  · rintro ⟨m, hm, hid⟩
    obtain rfl := F.eq_of_id (hlive m hm) hp hid
    exact (fresh_of_paced hskew httl hr he hp (hpaced m hm) (by omega)).1

/-! ## Runs at a pace -/

/-- The reconciles of `log` are of `ms`, each on its signal and under the strategy. -/
def On (ms : List Member) (signal : Member → GslbSignal) (strategy : String) (log : List Event) :
    Prop :=
  ∀ e ∈ log, e.cp ∈ ms ∧ e.inp.gslb = signal e.cp ∧ e.inp.strategy = strategy

section

variable {ms : List Member} {signal : Member → GslbSignal} {strategy : String}

/-- All of `ms` reconcile at once. -/
theorem Runs.exists_round (h : Runs F ms) (hr : (system F).Reach c)
    (hon : On ms signal strategy c.log) (now : List Member) (hnow : ∀ m ∈ now, m ∈ ms) :
    ∃ log, (system F).Reach ⟨c.now, log ++ c.log⟩ ∧ On ms signal strategy (log ++ c.log) ∧
      ∀ m ∈ now, ∃ e ∈ log, e.cp = m ∧ e.time = c.now := by
  induction now with
  | nil => exact ⟨[], hr, hon, by simp⟩
  | cons m now ih =>
    obtain ⟨log, hr', hon', hlast⟩ := ih fun x hx => hnow x (List.mem_cons_of_mem m hx)
    have hm := hnow m List.mem_cons_self
    obtain ⟨e, he, hcp, hg, hs⟩ := h.exists_reconciles hr' hm signal strategy
    refine ⟨e :: log, reach_reconcile hr' he, fun x hx => ?_, fun x hx => ?_⟩
    · rcases List.mem_cons.mp hx with rfl | hx
      · rw [hcp]
        exact ⟨hm, hg, hs⟩
      · exact hon' x hx
    · rcases List.mem_cons.mp hx with rfl | hx
      · exact ⟨e, List.mem_cons_self, hcp, he.time⟩
      · obtain ⟨y, hy, hycp, hyt⟩ := hlast x hx
        exact ⟨y, List.mem_cons_of_mem e hy, hycp, hyt⟩

/-- The control planes `ms` can keep the pace `d` for `n` periods. -/
theorem Runs.exists_paced (h : Runs F ms) (hd : 0 ≤ d) (signal : Member → GslbSignal)
    (strategy : String) (n : Nat) : ∃ c, (system F).Reach c ∧ c.now = F.start + n * d ∧
      On ms signal strategy c.log ∧ ∀ m ∈ ms, Paced c.log d m.id F.start c.now ∧
        ∃ e ∈ c.log, e.cp = m ∧ e.time = c.now := by
  induction n with
  | zero =>
    have hr₀ : (system F).Reach ⟨F.start, []⟩ := .init rfl
    have hon₀ : On ms signal strategy [] := fun _ he => nomatch he
    obtain ⟨log, hr, hon, hlast⟩ := h.exists_round hr₀ hon₀ ms fun _ hm => hm
    rw [List.append_nil] at hr hon
    refine ⟨_, hr, by simp, hon, fun m hm => ⟨fun v ht hv => ?_, hlast m hm⟩⟩
    exact absurd ht (Int.not_lt.mpr hv)
  | succ n ih =>
    obtain ⟨c, hr, hnow, hon, hpace⟩ := ih
    obtain ⟨log, hr', hon', hlast⟩ := h.exists_round
      (reach_advance hr (show c.now ≤ c.now + d by omega)) hon ms fun _ hm => hm
    refine ⟨_, hr', ?_, hon', fun m hm => ⟨?_, ?_⟩⟩
    · show c.now + d = _
      rw [hnow]
      push_cast
      ring
    · obtain ⟨hp, e, he, rfl, hte⟩ := hpace m hm
      have hstart := start_le hr
      refine Detector.Paced.of_before (hp.extend (List.mem_map_of_mem he) rfl ?_ hte) ?_
      · show F.start ≤ e.time
        omega
      · rintro b hb -
        obtain ⟨y, hy, rfl⟩ := List.mem_map.mp hb
        exact List.mem_map_of_mem (List.mem_append_right log hy)
    · obtain ⟨e, he, hcp, hte⟩ := hlast m hm
      exact ⟨e, List.mem_append_left _ he, hcp, hte⟩

end

/-- Of the pair with the defaults only `cp-a` reconciles, and `cp-b` sees it fresh. -/
theorem detects_survivors_defaultPair : ∃ c e, (system defaultPair).Reach c ∧
    Reconciles defaultPair c e ∧ e.cp = memberB ∧
      ∀ q ∈ e.inp.peers, q.fresh = true ↔ ∃ p ∈ [memberA], p.id = q.cpId := by
  have hruns : Runs defaultPair [memberA] := by
    refine ⟨fun m hm => ?_, fun m hm => ?_, fun m _ => ⟨0, rfl⟩⟩ <;>
      rw [List.mem_singleton.mp hm]
    · exact List.mem_cons_self
    · exact .inl rfl
  obtain ⟨c, hr, hnow, hon, hpace⟩ :=
    hruns.exists_paced (d := 60) (by decide) (fun _ => failoverSignal) "failover" 4
  have hrunsB : Runs defaultPair [memberB] := by
    refine ⟨fun m hm => ?_, fun m hm => ?_, fun m _ => ⟨0, rfl⟩⟩ <;>
      rw [List.mem_singleton.mp hm]
    · exact List.mem_cons_of_mem _ List.mem_cons_self
    · exact .inl rfl
  obtain ⟨e, he, hcp, -⟩ := hrunsB.exists_reconciles hr List.mem_cons_self
    (fun _ => failoverSignal) "failover"
  have h241 : c.now = 241 := hnow
  have hskew : Skewed defaultPair 0 := fun _ _ _ _ => show (0 : Int) - 0 ≤ 0 by decide
  refine ⟨c, e, hr, he, hcp, detects_survivors (t := 1) (d := 60) hskew (by decide) hr
    (by decide) hruns.members (fun p hp => (hpace p hp).1) ?_ he ?_⟩
  · intro p hp hdead x hx hid
    obtain ⟨hxm, -⟩ := hon x hx
    rw [defaultPair.eq_of_id (hruns.members _ hxm) hp hid] at hxm
    exact absurd hxm hdead
  · rw [h241]
    decide

end Cluster

end ResilientCtp
