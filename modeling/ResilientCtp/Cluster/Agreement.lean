import ResilientCtp.Cluster.Steps
import Mathlib.Tactic.Ring

/-!
# Agreement on the highest survivor

With no failover signal a control plane stands by while a peer above it is alive. So from any
state, in three periods `d`:

* after `d` the highest survivor has reconciled, and from then on every other one stands by
  (`lower_stands_by`);
* after `2 * d` all of them have stood by, and nothing but the hysteresis holds the highest one
  back (`top_clear`).

The highest member of the set owes no hysteresis, so it leads from then on. Any other highest
survivor owes it at every reconcile, for the epoch of its own heartbeat reads back as a number:
it leads for one reconcile and is a candidate again (`Reconciles.steps_down`).

* `survivors_agree_iff`: the survivors agree exactly where the highest of them is the highest
  member.
* `exists_schedule`: the survivors can keep the schedule for any time.
* `survivors_disagree`: the highest member is dead, and the other one does not stay leader.
-/

namespace ResilientCtp

open Py Election Heartbeat

namespace Cluster

/-- When `id` reconciled last, the start before its first time. -/
def lastTime (F : Fleet) (c : State) (id : String) : Int :=
  match latest c.log id with
  | some e => e.time
  | none => F.start

/-- The `live` control planes survive, and `top` is the highest of them. The statuses at the start
are arbitrary but for a timer of `top` in the future; so are the ledger tags of the `live`. -/
structure Survival (F : Fleet) (live : List Member) (top : Member) (d : Int) : Prop where
  lag : F.lag = 0
  oneClock : F.OneClock
  hysteresis : 2 ≤ F.settings.hysteresis
  nonneg : 0 ≤ d
  le_throttle : d ≤ F.settings.throttle
  le_ttl : F.settings.throttle + d ≤ F.settings.ttl
  members : ∀ m ∈ live, m ∈ F.members
  survives : top ∈ live
  highest : ∀ m ∈ live, m ≠ top → top.priority < m.priority
  timer : ∀ cand, priorCandidateSince (F.bootStatus top.id) = .ok cand → cand ≤ F.start
  /-- The others left a heartbeat that is readable and past its TTL. -/
  dead : ∀ m ∈ F.members, m ∉ live → ∃ tags, F.bootTags m.id = some tags ∧
    isSome (Dict.getD tags F.settings.tsTag .null) = true ∧
    F.settings.ttl < F.start - epochOf F.settings.tsTag tags

/-- Every live control plane reconciles at least every `d` seconds and no other one does; none has
a failover signal, and the GSLB of `top` is healthy and active. -/
def Scheduled (F : Fleet) (live : List Member) (top : Member) (d : Int) (c : State) : Act → Prop
  | .advance t => ∀ m ∈ live, t ≤ lastTime F c m.id + d
  | .reconcile e => e.cp ∈ live ∧ gslbActiveFailover e.inp.gslb e.inp.strategy = false ∧
      (e.cp = top → e.inp.gslb.healthy = true ∧ e.inp.gslb.active = true)

def schedule (F : Fleet) (live : List Member) (top : Member) (d : Int) : Lts.System State Act :=
  (system F).restrict (Scheduled F live top d)

variable {F : Fleet} {live : List Member} {top m : Member} {d : Int} {c : State} {e x : Event}

theorem lastTime_latest {id : String} (h : latest c.log id = some x) :
    lastTime F c id = x.time := by
  simp only [lastTime, h]

theorem lastTime_cons (e : Event) (c : State) (id : String) :
    lastTime F { c with log := e :: c.log } id =
      if e.cp.id = id then e.time else lastTime F c id := by
  by_cases h : e.cp.id = id
  · simp only [lastTime, latest_cons, if_pos h]
  · simp only [lastTime, latest_cons, if_neg h]

theorem lastTime_le (hr : (system F).Reach c) (id : String) : lastTime F c id ≤ c.now := by
  unfold lastTime
  split
  · next x hx => exact time_le hr (latest_mem hx).1
  · exact start_le hr

/-- Nobody is overdue. -/
theorem deadline_inductive (hS : Survival F live top d) :
    (schedule F live top d).Inductive
      fun c => ∀ m ∈ live, c.now ≤ lastTime F c m.id + d where
  init c hi m _ := by
    cases hi
    have := hS.nonneg
    show F.start ≤ F.start + d
    omega
  step := by
    rintro c a c' hr ih ⟨hst, hsch⟩ m hm
    cases a with
    | advance t =>
      obtain ⟨-, rfl⟩ := hst
      exact hsch m hm
    | reconcile e =>
      obtain ⟨he, rfl⟩ := hst
      have h1 := ih m hm
      have h2 := hS.nonneg
      have h3 := he.time
      rw [lastTime_cons]
      show c.now ≤ _
      split <;> omega

/-- Past the first period every survivor has reconciled, and not long ago. -/
theorem exists_latest (hS : Survival F live top d) (hr : (schedule F live top d).Reach c)
    (hm : m ∈ live) (hnow : F.start + d < c.now) :
    ∃ x, latest c.log m.id = some x ∧ c.now ≤ x.time + d ∧ Kept F x := by
  have hdl := (deadline_inductive hS).reach hr m hm
  cases hx : latest c.log m.id with
  | none =>
    simp only [lastTime, hx] at hdl
    omega
  | some x =>
    rw [lastTime_latest hx] at hdl
    exact ⟨x, rfl, hdl, (kept_inductive F).reach hr.of_restrict x (latest_mem hx).1⟩

/-- The age of a heartbeat, where the clocks agree. -/
theorem Kept.recent_time (hk : Kept F x) (hone : F.OneClock) (hx : x.cp ∈ F.members) :
    x.time - x.out.epoch < F.settings.throttle := by
  have h1 := hk.now
  have h2 := hk.recent
  rw [hone _ hx] at h1
  omega

/-- The heartbeat of a survivor is fresh to every reconcile. -/
theorem fresh_of_live (hS : Survival F live top d) (hr : (schedule F live top d).Reach c)
    (he : Reconciles F c e) (hm : m ∈ live) (hx : latest c.log m.id = some x)
    (hle : c.now ≤ x.time + d) :
    (record F c e m).fresh = true ∧ (record F c e m).readable = true ∧
      (record F c e m).role = x.out.decision.role.text := by
  have hseen := (he.seen_latest hr.of_restrict hS.lag (hS.members m hm)).trans hx
  have hxm := (latest_mem hx).1
  have hk := (kept_inductive F).reach hr.of_restrict x hxm
  have hrec := hk.recent_time hS.oneClock (member_of_mem hr.of_restrict hxm)
  obtain ⟨hread, -, hrole⟩ := record_seen hseen hk
  refine ⟨(fresh_record_seen hseen hk).mpr ?_, hread, hrole⟩
  have h1 := hS.le_ttl
  have h2 := he.now
  rw [hS.oneClock _ he.member] at h2
  omega

/-- The heartbeat of any other control plane is stale to every reconcile. -/
theorem stale_of_dead (hS : Survival F live top d) (hr : (schedule F live top d).Reach c)
    (he : Reconciles F c e) (hm : m ∈ F.members) (hdead : m ∉ live) :
    (record F c e m).fresh = false ∧ (record F c e m).readable = true := by
  have hnone : seen c.log m.id (e.view m.id) = none := by
    cases hx : seen c.log m.id (e.view m.id) with
    | none => rfl
    | some x =>
      -- only a survivor reconciles
      obtain ⟨hxm, hid, -⟩ := seen_mem hx
      obtain ⟨rest, -, -, hlive, -⟩ := reach_of_mem hr hxm
      rw [F.eq_of_id (hS.members _ hlive) hm hid] at hlive
      exact absurd hlive hdead
  obtain ⟨tags, hb, hread, hold⟩ := hS.dead m hm hdead
  have hnow := he.now
  have hstart := start_le hr.of_restrict
  rw [hS.oneClock _ he.member] at hnow
  unfold record
  rw [F.tagsAt_boot hnone, hb]
  refine ⟨?_, hread⟩
  rw [Bool.eq_false_iff, Ne, fresh_livenessFromTags]
  rintro ⟨-, hle⟩
  change e.inp.now - epochOf F.settings.tsTag tags ≤ F.settings.ttl at hle
  omega

/-! ## Phase one: the others stand by -/

/-- Past the first period every survivor but the highest stands by. -/
theorem lower_stands_by (hS : Survival F live top d) (hr : (schedule F live top d).Reach c)
    (he : Reconciles F c e) (hsch : Scheduled F live top d c (.reconcile e)) (hne : e.cp ≠ top)
    (hnow : F.start + d < c.now) : ¬ e.Leads := by
  intro hl
  obtain ⟨x, hx, hle, -⟩ := exists_latest hS hr hS.survives hnow
  obtain ⟨hfresh, -, -⟩ := fresh_of_live hS hr he hS.survives hx hle
  have hid : top.id ≠ e.cp.id := fun h =>
    hne (F.eq_of_id (hS.members _ hS.survives) he.member h).symm
  obtain ⟨-, hdown⟩ := (he.clear hl).higher_down hsch.2.1
    (he.record_mem (hS.members _ hS.survives) hid) (hS.highest _ hsch.1 hne)
  rw [hfresh] at hdown
  cases hdown

/-! ## Phase two: the highest is clear -/

theorem top_clear (hS : Survival F live top d) (hr : (schedule F live top d).Reach c)
    (he : Reconciles F c e) (hsch : Scheduled F live top d c (.reconcile e)) (htop : e.cp = top)
    (hnow : F.start + 2 * d < c.now) : e.Clear := by
  have hd := hS.nonneg
  obtain ⟨hh, ha⟩ := hsch.2.2 htop
  refine ⟨hh, ha, fun q hq hlt => ?_, fun q hq hlt hrole => ?_⟩
  · -- a peer above the highest survivor is dead
    obtain ⟨p, hp, hne, rfl⟩ := he.exists_record hq
    have hdead : p ∉ live := by
      intro hlive
      have hpt : p ≠ top := fun h => hne (by rw [h, htop])
      have h1 := hS.highest p hlive hpt
      have h2 : p.priority < top.priority := htop ▸ hlt
      omega
    obtain ⟨hf, hread⟩ := stale_of_dead hS hr he hp hdead
    exact blocks_eq_none.mpr (.inr (.inl ⟨hread, hf⟩))
  · obtain ⟨p, hp, hne, rfl⟩ := he.exists_record hq
    by_cases hlive : p ∈ live
    · -- a survivor below it has stood by since
      obtain ⟨x, hx, hle, -⟩ := exists_latest hS hr hlive (by omega)
      obtain ⟨hf, -, hr'⟩ := fresh_of_live hS hr he hlive hx hle
      rw [hr', Role.text_eq_leader] at hrole
      obtain ⟨hxm, hcp⟩ := latest_cp hr.of_restrict hp hx
      obtain ⟨rest, hrx, hxr, hxs⟩ := reach_of_mem hr hxm
      refine absurd hrole (lower_stands_by hS hrx hxr hxs ?_ (show F.start + d < x.time by omega))
      intro hxt
      rw [← hcp, hxt, htop] at hne
      exact hne rfl
    · exact (stale_of_dead hS hr he hp hlive).1

/-- The newest decision of `top` is leader and that of every other survivor is standby. -/
def Agree (live : List Member) (top : Member) (c : State) : Prop :=
  ∀ m ∈ live, ∃ x, latest c.log m.id = some x ∧ (x.Leads ↔ m = top)

/-- The highest member leads from the third period on. -/
theorem agree_of_highest (hS : Survival F live top d) (htop : F.Highest top)
    (hr : (schedule F live top d).Reach c) (hnow : F.start + 3 * d < c.now) :
    Agree live top c := by
  intro m hm
  have hd := hS.nonneg
  obtain ⟨x, hx, hle, -⟩ := exists_latest hS hr hm (by omega)
  obtain ⟨hxm, hcp⟩ := latest_cp hr.of_restrict (hS.members m hm) hx
  obtain ⟨rest, hrx, hxr, hsch⟩ := reach_of_mem hr hxm
  refine ⟨x, hx, fun hl => ?_, fun hmt => ?_⟩
  · by_contra hne
    rw [← hcp] at hne
    exact lower_stands_by hS hrx hxr hsch hne (show F.start + d < x.time by omega) hl
  · subst hcp
    obtain ⟨cand, hc, -⟩ := hxr.cases
    have hclear := top_clear hS hrx hxr hsch hmt (show F.start + 2 * d < x.time by omega)
    exact (hxr.leads_iff hc).mpr ⟨hclear, served_of_highest hxr (hmt ▸ htop)⟩

/-! ## Progress -/

/-- The survivors can all reconcile, and time passes between. -/
structure Able (F : Fleet) (live : List Member) (d : Int) : Prop extends Runs F live where
  period : 0 < d

/-- The signal of a control plane without a Gslb. -/
def permissive : GslbSignal := ⟨false, true, true, .str ""⟩

theorem exists_live_reconcile (ha : Able F live d) (hr : (schedule F live top d).Reach c)
    (hm : m ∈ live) :
    ∃ e, (schedule F live top d).Reach ⟨c.now, e :: c.log⟩ ∧ e.cp = m ∧ e.time = c.now := by
  obtain ⟨e, he, hcp, hg, hs⟩ := ha.exists_reconciles hr.of_restrict hm (fun _ => permissive)
    "roundRobin"
  refine ⟨e, .step hr (show (schedule F live top d).step c (.reconcile e) _ from
    ⟨⟨he, rfl⟩, ?_, ?_, fun _ => ?_⟩), hcp, he.time⟩
  · rw [hcp]; exact hm
  · rw [hg]; rfl
  · rw [hg]; exact ⟨rfl, rfl⟩

/-- A round: all of `ms` reconcile at once, in this order. -/
theorem exists_round (ha : Able F live d) (hr : (schedule F live top d).Reach c)
    (ms : List Member) (hms : ∀ m ∈ ms, m ∈ live) :
    ∃ c', (schedule F live top d).Reach c' ∧ c'.now = c.now ∧
      ∀ m ∈ ms, lastTime F c' m.id = c.now := by
  induction ms with
  | nil => exact ⟨c, hr, rfl, by simp⟩
  | cons m ms ih =>
    obtain ⟨c', hr', hnow, hlast⟩ := ih fun x hx => hms x (List.mem_cons_of_mem m hx)
    obtain ⟨e, hre, hcp, htime⟩ := exists_live_reconcile ha hr' (hms m List.mem_cons_self)
    refine ⟨⟨c'.now, e :: c'.log⟩, hre, hnow, fun x hx => ?_⟩
    rw [lastTime_cons e c' x.id, htime, hnow]
    split
    · rfl
    · next hne =>
      rcases List.mem_cons.mp hx with rfl | hx
      · exact absurd (congrArg (fun y : Member => y.id) hcp) hne
      · exact hlast x hx

/-- The survivors can keep the schedule for `n` periods. -/
theorem exists_schedule (hS : Survival F live top d) (ha : Able F live d) (n : Nat) :
    ∃ c, (schedule F live top d).Reach c ∧ c.now = F.start + n * d ∧
      ∀ m ∈ live, lastTime F c m.id = c.now := by
  induction n with
  | zero => exact ⟨⟨F.start, []⟩, .init rfl, by simp, fun _ _ => rfl⟩
  | succ n ih =>
    obtain ⟨c, hr, hnow, hlast⟩ := ih
    have hd := hS.nonneg
    have hr' : (schedule F live top d).Reach ⟨c.now + d, c.log⟩ := by
      refine .step hr (show (schedule F live top d).step c (.advance (c.now + d)) _ from
        ⟨⟨by omega, rfl⟩, fun m hm => ?_⟩)
      show c.now + d ≤ lastTime F c m.id + d
      rw [hlast m hm]
    obtain ⟨c', hrc, hn, hl⟩ := exists_round ha hr' live fun _ h => h
    refine ⟨c', hrc, ?_, fun m hm => (hl m hm).trans hn.symm⟩
    rw [hn, hnow]
    push_cast
    ring

/-- Time cannot pass where no period is left. -/
theorem now_le_start (hS : Survival F live top 0) :
    (schedule F live top 0).Inductive fun c => c.now ≤ F.start where
  init c hi := by cases hi; exact Int.le_refl _
  step := by
    rintro c a c' hr ih ⟨hst, hsch⟩
    cases a with
    | advance t =>
      obtain ⟨-, rfl⟩ := hst
      have ht := hsch top hS.survives
      have hlast := lastTime_le hr.of_restrict top.id
      show t ≤ F.start
      omega
    | reconcile e => obtain ⟨-, rfl⟩ := hst; exact ih

/-- A control plane that has reconciled could read its status at the start. -/
theorem legible_inductive : (schedule F live top d).Inductive fun c => ∀ id,
    latest c.log id ≠ none → ∃ cand, priorCandidateSince (F.bootStatus id) = .ok cand where
  init c hi id h := by cases hi; exact absurd rfl h
  step := by
    rintro c a c' hr ih ⟨hst, -⟩ id hid
    cases a with
    | advance t => obtain ⟨-, rfl⟩ := hst; exact ih id hid
    | reconcile e =>
      obtain ⟨he, rfl⟩ := hst
      by_cases hne : e.cp.id = id
      · subst hne
        cases hx : latest c.log e.cp.id with
        | some x => exact ih _ (by rw [hx]; exact Option.some_ne_none x)
        | none =>
          obtain ⟨cand, hc, -⟩ := he.cases
          exact ⟨cand, (pending_boot hx).symm.trans hc⟩
      · refine ih id fun h => hid ?_
        rw [latest_cons_ne e c.log hne, h]

/-- So only such survivors get past the first period. -/
theorem able_of_late (hS : Survival F live top d) (hr : (schedule F live top d).Reach c)
    (hnow : F.start + d < c.now) : Able F live d where
  members := hS.members
  period := by
    rcases Int.lt_or_eq_of_le hS.nonneg with h | rfl
    · exact h
    · have := (now_le_start hS).reach hr
      omega
  provider m hm := by
    obtain ⟨x, hx, -⟩ := exists_latest hS hr hm hnow
    obtain ⟨hxm, rfl⟩ := latest_cp hr.of_restrict (hS.members m hm) hx
    obtain ⟨rest, -, hxr, -⟩ := reach_of_mem hr hxm
    exact (reconcile_ok hxr.out).2.2.2.2
  legible m hm := by
    obtain ⟨x, hx, -⟩ := exists_latest hS hr hm hnow
    exact legible_inductive.reach hr m.id (by rw [hx]; exact Option.some_ne_none x)

/-! ## Agreement -/

/-- A highest survivor that is not the highest member steps down again at any time. -/
theorem exists_disagree (hS : Survival F live top d) (ha : Able F live d) (hno : ¬ F.Highest top)
    (t : Int) : ∃ c, (schedule F live top d).Reach c ∧ t ≤ c.now ∧ ¬ Agree live top c := by
  obtain ⟨c, hr, hnow, -⟩ := exists_schedule hS ha (t - F.start).toNat
  have hlate : t ≤ c.now := by
    have h1 : ((t - F.start).toNat : Int) * 1 ≤ (t - F.start).toNat * d :=
      Int.mul_le_mul_of_nonneg_left ha.period (Int.natCast_nonneg _)
    omega
  by_cases hagree : Agree live top c
  swap
  · exact ⟨c, hr, hlate, hagree⟩
  obtain ⟨x, hx, hl⟩ := hagree top hS.survives
  have hxm := (latest_mem hx).1
  obtain ⟨rest, -, hxr, -⟩ := reach_of_mem hr hxm
  have hk := (kept_inductive F).reach hr.of_restrict x hxm
  -- it reconciles once more
  obtain ⟨e, hre, rfl, -⟩ := exists_live_reconcile ha hr hS.survives
  refine ⟨_, hre, hlate, fun hagree' => ?_⟩
  obtain ⟨y, hy, hyl⟩ := hagree' e.cp hS.survives
  rw [latest_cons_self, Option.some.injEq] at hy
  subst hy
  obtain ⟨-, he, -⟩ := @reach_event_run _ _ _ hre.of_restrict [] _ rfl
  exact he.steps_down hx hk (hxr.timer_of_leads (hl.mpr rfl)) hno (hyl.mpr rfl)

/-- **The survivors agree** from any time `t` past the third period on, in every schedule, exactly
where the highest of them is the highest member (or no schedule gets that far). -/
theorem survivors_agree_iff (hS : Survival F live top d) {t : Int} (ht : F.start + 3 * d < t) :
    (∀ c, (schedule F live top d).Reach c → t ≤ c.now → Agree live top c) ↔
      F.Highest top ∨ ¬ Able F live d := by
  constructor
  · intro h
    by_contra hno
    obtain ⟨hno, ha⟩ := not_or.mp hno
    obtain ⟨c, hr, hlate, hdis⟩ := exists_disagree hS (not_not.mp ha) hno t
    exact hdis (h c hr hlate)
  · rintro hcond c hr hlate
    have hd := hS.nonneg
    rcases hcond with htop | hna
    · exact agree_of_highest hS htop hr (by omega)
    · exact absurd (able_of_late hS hr (by omega)) hna

theorem defaultPair_survival : Survival defaultPair [memberA, memberB] memberA 60 where
  lag := rfl
  oneClock := pair_oneClock
  hysteresis := by decide
  nonneg := by decide
  le_throttle := by decide
  le_ttl := by decide
  members _ h := h
  survives := List.mem_cons_self
  highest m hm hne := by
    rcases mem_pair hm with rfl | rfl
    · exact absurd rfl hne
    · decide
  timer cand hc := by
    cases hc
    decide
  dead m hm hdead := absurd hm hdead

theorem defaultPair_able : Able defaultPair [memberA, memberB] 60 where
  members _ h := h
  period := by decide
  provider m hm := .inl (by rcases mem_pair hm with rfl | rfl <;> rfl)
  legible _ _ := ⟨0, rfl⟩

theorem survivors_agree_iff_defaultPair : ∃ c,
    (schedule defaultPair [memberA, memberB] memberA 60).Reach c ∧ c.now = 481 ∧
      Agree [memberA, memberB] memberA c := by
  obtain ⟨c, hr, hnow, -⟩ := exists_schedule defaultPair_survival defaultPair_able 8
  have h481 : c.now = 481 := hnow
  have htop : defaultPair.Highest memberA := by
    intro p hp
    rcases mem_pair hp with rfl | rfl <;> decide
  refine ⟨c, hr, h481, (survivors_agree_iff defaultPair_survival (t := 481) ?_).mpr
    (.inl htop) c hr ?_⟩
  · decide
  · rw [h481]

theorem defaultPair_clock (m : Member) (_ : m ∈ defaultPair.members) :
    0 < 1000 + defaultPair.offset m.id :=
  show (0 : Int) < 1000 + 0 by decide

/-- The pair where `cp-a` has died at 500 as the leader. -/
def orphanB : Fleet :=
  { defaultPair with
    start := 1000
    bootTags := fun id => if id = "cp-a" then
      some (ownTags memberA.toIdentity tsTagDefault 500 "leader") else none
    clock := defaultPair_clock
    boot := by
      intro m _ tags h
      split at h
      · cases h
        show 0 ≤ (500 : Int) ∧ (500 : Int) ≤ 1000 + 0
        decide
      · cases h }

theorem orphanB_survival : Survival orphanB [memberB] memberB 60 where
  lag := rfl
  oneClock _ _ := rfl
  hysteresis := by decide
  nonneg := by decide
  le_throttle := by decide
  le_ttl := by decide
  members m hm := by
    rw [List.mem_singleton.mp hm]
    exact List.mem_cons_of_mem _ List.mem_cons_self
  survives := List.mem_cons_self
  highest m hm hne := absurd (List.mem_singleton.mp hm) hne
  timer cand hc := by
    cases hc
    decide
  dead m hm hdead := by
    rcases mem_pair hm with rfl | rfl
    · exact ⟨_, rfl, rfl, by decide⟩
    · exact absurd List.mem_cons_self hdead

/-- `cp-b` is the only survivor and agrees with itself from no time on. -/
theorem survivors_disagree : ¬ ∀ (F : Fleet) (live : List Member) (top : Member) (d : Int),
    Survival F live top d → ∃ t, ∀ c, (schedule F live top d).Reach c → t ≤ c.now →
      Agree live top c := by
  intro h
  have ha : Able orphanB [memberB] 60 :=
    ⟨⟨orphanB_survival.members, fun m hm => .inl (by rw [List.mem_singleton.mp hm]; rfl),
      fun _ _ => ⟨0, rfl⟩⟩, by decide⟩
  have hno : ¬ orphanB.Highest memberB := fun htop =>
    htop memberA List.mem_cons_self (by decide)
  obtain ⟨t, ht⟩ := h _ _ _ _ orphanB_survival
  obtain ⟨c, hr, hlate, hdis⟩ := exists_disagree orphanB_survival ha hno t
  exact hdis (ht c hr hlate)

end Cluster

end ResilientCtp
