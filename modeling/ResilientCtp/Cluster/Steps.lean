import ResilientCtp.Cluster.System

/-!
# What a reconcile of the set decides

* `Reconciles.cases`: the decision, in terms of the newest own reconcile in the log.
* `exists_reconciles`: a control plane with a heartbeat resource and a legible timer can always
  reconcile.
* `pair`: two control planes, for the runs of the other modules.
-/

namespace ResilientCtp

open Py Election Heartbeat

namespace Cluster

variable {F : Fleet} {c : State} {e x : Event} {cand : Int}

theorem Fleet.window_eq (F : Fleet) :
    hysteresisWindow F.settings.hysteresis F.settings.throttle = F.window := by
  have h1 := F.admitted.hysteresis
  have h2 := F.admitted.throttle
  rw [window, hysteresisWindow, Int.max_eq_right h1, Int.max_eq_right (by omega)]

theorem Fleet.throttle_le_window (F : Fleet) : F.settings.throttle ≤ F.window := by
  have h1 := F.admitted.hysteresis
  have h2 := F.admitted.throttle
  have : 1 * F.settings.throttle ≤ F.settings.hysteresis * F.settings.throttle :=
    Int.mul_le_mul_of_nonneg_right h1 (by omega)
  unfold window
  omega

/-! ## The own status -/

/-- The timer that a control plane finds in its status. -/
def pending (F : Fleet) (c : State) (m : Member) : Except Err Int :=
  priorCandidateSince (F.statusOf c.log m.id)

theorem pending_latest {m : Member} (hx : latest c.log m.id = some x) (hk : Kept F x) :
    pending F c m = .ok x.timer := by
  rw [pending, F.statusOf_latest hx, hk.status, Status.priorCandidateSince_buildStatus]
  rfl

theorem pending_boot {m : Member} (hx : latest c.log m.id = none) :
    pending F c m = priorCandidateSince (F.bootStatus m.id) := by
  rw [pending, F.statusOf_boot hx]

/-- No control plane that has reconciled is a continuous leader. -/
theorem continuousLeader_latest {id : String} (hx : latest c.log id = some x) (hk : Kept F x)
    (w now : Int) : continuousLeader (F.statusOf c.log id) w now = false := by
  rw [F.statusOf_latest hx, hk.status, Status.continuousLeader_buildStatus]

/-! ## The decision -/

/-- A reconcile that nothing but the hysteresis can hold back. -/
def Event.Clear (e : Event) : Prop :=
  Election.Clear e.cp.toIdentity e.inp.gslb e.inp.strategy e.inp.peers

/-- The hysteresis is not owed or over. -/
def Served (F : Fleet) (c : State) (e : Event) (cand : Int) : Prop :=
  Election.Served e.cp.toIdentity e.inp.peers (F.statusOf c.log e.cp.id) F.window e.inp.now cand

/-- **A reconcile.** -/
theorem Reconciles.cases (h : Reconciles F c e) : ∃ cand, pending F c e.cp = .ok cand ∧
    ((e.Clear ∧ Served F c e cand ∧ e.Leads ∧ e.timer = 0) ∨
      (e.Clear ∧ ¬ Served F c e cand ∧ ¬ e.Leads ∧
        e.timer = if cand ≤ 0 then e.inp.now else cand) ∨
      (¬ e.Clear ∧ ¬ e.Leads ∧ e.timer = 0)) := by
  have hd := (reconcile_ok h.out).1
  rw [h.status] at hd
  obtain ⟨cand, hc, hcases⟩ := decide_cases hd
  rw [F.window_eq] at hcases
  refine ⟨cand, hc, ?_⟩
  rcases hcases with ⟨h1, h2, h3, h4⟩ | ⟨h1, h2, h3, h4⟩ | ⟨h1, h3, h4⟩
  · exact .inl ⟨h1, h2, h3, h4⟩
  · exact .inr (.inl ⟨h1, h2, Role.eq_standby.mp h3, h4⟩)
  · exact .inr (.inr ⟨h1, Role.eq_standby.mp h3, h4⟩)

theorem Reconciles.leads_iff (h : Reconciles F c e) (hc : pending F c e.cp = .ok cand) :
    e.Leads ↔ e.Clear ∧ Served F c e cand := by
  obtain ⟨cand', hc', hcases⟩ := h.cases
  rw [hc] at hc'
  cases hc'
  rcases hcases with ⟨h1, h2, h3, -⟩ | ⟨h1, h2, h3, -⟩ | ⟨h1, h3, -⟩
  · exact ⟨fun _ => ⟨h1, h2⟩, fun _ => h3⟩
  · exact ⟨fun hl => absurd hl h3, fun hs => absurd hs.2 h2⟩
  · exact ⟨fun hl => absurd hl h3, fun hs => absurd hs.1 h1⟩

/-- No member has a higher priority. -/
def Fleet.Highest (F : Fleet) (m : Member) : Prop := ∀ p ∈ F.members, ¬ p.priority < m.priority

/-- A control plane with no peer above it owes no hysteresis. -/
theorem served_of_highest (h : Reconciles F c e) (htop : F.Highest e.cp) : Served F c e cand := by
  refine .inl fun q hq => ?_
  obtain ⟨p, hp, -, rfl⟩ := h.exists_record hq
  exact htop p hp

/-- Any other one owes it at every reconcile but its first, also while it leads. -/
theorem Reconciles.served_iff (h : Reconciles F c e) (hx : latest c.log e.cp.id = some x)
    (hk : Kept F x) :
    Served F c e cand ↔ F.Highest e.cp ∨ (0 < cand ∧ F.window ≤ e.inp.now - cand) := by
  constructor
  · rintro (hno | hcont | hpast)
    · refine .inl fun p hp hlt => ?_
      have hne : p.id ≠ e.cp.id := fun hid => by
        rw [F.eq_of_id hp h.member hid] at hlt
        exact Int.lt_irrefl _ hlt
      exact hno _ (h.record_mem hp hne) hlt
    · rw [continuousLeader_latest hx hk] at hcont
      cases hcont
    · exact .inr hpast
  · rintro (htop | hpast)
    · exact served_of_highest h htop
    · exact .inr (.inr hpast)

theorem Reconciles.timer_of_leads (h : Reconciles F c e) (hl : e.Leads) : e.timer = 0 := by
  obtain ⟨-, -, ⟨-, -, -, h0⟩ | ⟨-, -, hno, -⟩ | ⟨-, hno, -⟩⟩ := h.cases
  · exact h0
  · exact absurd hl hno
  · exact absurd hl hno

/-- A leader that is not the highest member steps down at its next reconcile. -/
theorem Reconciles.steps_down (h : Reconciles F c e) (hx : latest c.log e.cp.id = some x)
    (hk : Kept F x) (h0 : x.timer = 0) (hno : ¬ F.Highest e.cp) : ¬ e.Leads := by
  intro hl
  obtain ⟨-, hs⟩ := (h.leads_iff (pending_latest hx hk)).mp hl
  rcases (h.served_iff hx hk).mp hs with htop | ⟨hpos, -⟩
  · exact hno htop
  · omega

/-! ## Progress -/

/-- The views of a reconcile that sees every peer as of `v`. -/
def ViewAt (F : Fleet) (c : State) (id : String) (v : Int) : Prop :=
  v ≤ c.now ∧ c.now - F.lag ≤ v ∧
    ∀ e₀, latest c.log id = some e₀ → ∀ p ∈ F.members, e₀.view p.id ≤ v

theorem viewAt_now (hr : (system F).Reach c) (id : String) : ViewAt F c id c.now := by
  refine ⟨Int.le_refl _, ?_, ?_⟩
  · have := F.lag_nonneg
    omega
  · intro e₀ h₀ p hp
    obtain ⟨later, rest, hlog⟩ := List.append_of_mem (latest_mem h₀).1
    obtain ⟨-, he, hle⟩ := reach_event_run hr hlog
    exact Int.le_trans (he.view_le p hp) hle

theorem exists_prevTags (F : Fleet) (c : State) (m : Member) :
    ∃ prev, prevTags (F.ownObserved c.log m) = .ok prev := by
  unfold Fleet.ownObserved
  split
  · exact ⟨_, prevTags_observedSelf _ _⟩
  · cases F.bootTags m.id with
    | none => exact ⟨[], prevTags_nil⟩
    | some tags => exact ⟨_, prevTags_observedSelf _ _⟩

/-- A control plane can reconcile on any GSLB signal. -/
theorem exists_reconciles {m : Member} (hm : m ∈ F.members)
    (hp : m.provider = "aws" ∨ m.provider = "azure" ∨ m.provider = "gcp")
    (hc : pending F c m = .ok cand) {v : Int} (hv : ViewAt F c m.id v) (gslb : GslbSignal)
    (strategy : String) : ∃ e, Reconciles F c e ∧ e.cp = m ∧ (e.view = fun _ => v) ∧
      e.inp.gslb = gslb ∧ e.inp.strategy = strategy := by
  obtain ⟨prev, hprev⟩ := exists_prevTags F c m
  let inp : Inputs :=
    { gslb, strategy, prev
      peers := (F.peersOf m).map fun p => livenessFromTags p (F.tagsAt c.log p.id v)
        F.settings.tsTag (c.now + F.offset m.id) F.settings.ttl
      priorStatus := F.statusOf c.log m.id
      now := c.now + F.offset m.id
      isoNow := "" }
  obtain ⟨d, hd⟩ : ∃ d, Election.decide m.toIdentity inp.gslb inp.peers inp.priorStatus
      F.settings.hysteresis F.settings.throttle inp.now inp.strategy inp.isoNow = .ok d :=
    exists_decide hc
  obtain ⟨out, ho, -⟩ := reconcile_of_decide hd hp
  exact ⟨⟨m, c.now, fun _ => v, inp, out⟩, ⟨hm, rfl, fun _ _ => hv.1, fun _ _ => hv.2.1, hv.2.2,
    rfl, rfl, rfl, hprev, ho⟩, rfl, rfl, rfl, rfl⟩

/-- The control planes `ms` can all reconcile. -/
structure Runs (F : Fleet) (ms : List Member) : Prop where
  members : ∀ m ∈ ms, m ∈ F.members
  provider : ∀ m ∈ ms, m.provider = "aws" ∨ m.provider = "azure" ∨ m.provider = "gcp"
  legible : ∀ m ∈ ms, ∃ cand, priorCandidateSince (F.bootStatus m.id) = .ok cand

theorem Runs.exists_reconciles {ms : List Member} (h : Runs F ms) (hr : (system F).Reach c)
    {m : Member} (hm : m ∈ ms) (signal : Member → GslbSignal) (strategy : String) :
    ∃ e, Reconciles F c e ∧ e.cp = m ∧ e.inp.gslb = signal m ∧ e.inp.strategy = strategy := by
  have hc : ∃ cand, pending F c m = .ok cand := by
    cases hx : latest c.log m.id with
    | none => rw [pending_boot hx]; exact h.legible m hm
    | some x => exact ⟨_, pending_latest hx ((kept_inductive F).reach hr x (latest_mem hx).1)⟩
  obtain ⟨cand, hc⟩ := hc
  obtain ⟨e, he, hcp, -, hg, hs⟩ := Cluster.exists_reconciles (h.members m hm) (h.provider m hm) hc
    (viewAt_now hr _) (signal m) strategy
  exact ⟨e, he, hcp, hg, hs⟩

/-! ## Runs -/

theorem reach_advance {t : Int} (h : (system F).Reach c) (ht : c.now ≤ t) :
    (system F).Reach ⟨t, c.log⟩ :=
  .step h (show (system F).step c (.advance t) _ from ⟨ht, rfl⟩)

theorem reach_reconcile (h : (system F).Reach c) (he : Reconciles F c e) :
    (system F).Reach ⟨c.now, e :: c.log⟩ :=
  .step h (show (system F).step c (.reconcile e) _ from ⟨he, rfl⟩)

/-- A signal that makes a control plane the sole active one under `failover`. -/
def failoverSignal : GslbSignal := ⟨true, true, true, .str "us"⟩

/-- The converse of `leader_sees_stale`, for the sole active control plane: it is clear when it
sees no leading heartbeat within its TTL. -/
theorem clear_of_failover (hr : (system F).Reach c) (h : Reconciles F c e)
    (hboot : ∀ p ∈ F.members, F.bootTags p.id = none) (hg : e.inp.gslb = failoverSignal)
    (hs : e.inp.strategy = "failover")
    (hstale : ∀ p ∈ F.members, p.id ≠ e.cp.id → ∀ x, seen c.log p.id (e.view p.id) = some x →
      x.Leads → F.settings.ttl < e.inp.now - x.out.epoch) : e.Clear := by
  have haf : gslbActiveFailover e.inp.gslb e.inp.strategy = true := by rw [hg, hs]; rfl
  have key : ∀ q ∈ e.inp.peers, q.role = "leader" → q.fresh = false := by
    intro q hq hrole
    obtain ⟨p, hp, hne, rfl⟩ := h.exists_record hq
    cases hx : seen c.log p.id (e.view p.id) with
    | none =>
      rw [record, F.tagsAt_boot hx, hboot p hp]
      rfl
    | some x =>
      have hk := (kept_inductive F).reach hr x (seen_mem hx).1
      rw [(record_seen hx hk).2.2, Role.text_eq_leader] at hrole
      have := hstale p hp hne x hx hrole
      rw [Bool.eq_false_iff, Ne, fresh_record_seen hx hk]
      omega
  refine ⟨by rw [hg]; rfl, by rw [hg]; rfl, fun q hq _ => ?_, fun q hq _ => key q hq⟩
  rw [haf, blocks_eq_none]
  cases hread : q.readable
  · exact .inl ⟨rfl, rfl⟩
  cases hfresh : q.fresh
  · exact .inr (.inl ⟨rfl, rfl⟩)
  · refine .inr (.inr ⟨rfl, rfl, fun hrole => ?_, rfl⟩)
    rw [key q hq hrole] at hfresh
    cases hfresh

/-! ## Two control planes -/

/-- `cp-a` and `cp-b` on one clock, from an empty ledger at 1. -/
def pair (settings : Settings) (admitted : settings.Admitted) (key : LivenessKey settings.tsTag)
    (lag : Nat) : Fleet where
  members := [memberA, memberB]
  settings
  offset _ := 0
  lag
  start := 1
  bootStatus _ := []
  bootTags _ := none
  ids := by decide
  priorities := by decide
  admitted
  key
  lag_nonneg := Int.natCast_nonneg lag
  clock _ _ := by decide
  boot _ _ _ h := by cases h

section

variable {settings : Settings} {admitted : settings.Admitted} {key : LivenessKey settings.tsTag}
  {lag : Nat}

theorem mem_pair {p : Member} (hp : p ∈ [memberA, memberB]) : p = memberA ∨ p = memberB := by
  simpa using hp

theorem pair_oneClock : (pair settings admitted key lag).OneClock := fun _ _ => rfl

theorem pair_empty : (pair settings admitted key lag).Empty := ⟨fun _ _ => rfl, fun _ _ => rfl⟩

/-- `cp-a` leads at once when it sees no leading heartbeat of `cp-b` within its TTL. -/
theorem pair_leaderA {c : State} (hr : (system (pair settings admitted key lag)).Reach c)
    (hc : ∃ cand, pending (pair settings admitted key lag) c memberA = .ok cand) {v : Int}
    (hv : ViewAt (pair settings admitted key lag) c "cp-a" v)
    (hstale : ∀ x, seen c.log "cp-b" v = some x → x.Leads → settings.ttl < c.now - x.out.epoch) :
    ∃ e, Reconciles (pair settings admitted key lag) c e ∧ e.cp = memberA ∧ e.Leads := by
  obtain ⟨cand, hc⟩ := hc
  obtain ⟨e, he, hcp, hview, hg, hs⟩ := exists_reconciles
    (show memberA ∈ (pair settings admitted key lag).members from List.mem_cons_self) (.inl rfl)
    hc hv failoverSignal "failover"
  have hnow := he.now
  rw [← hcp] at hc
  refine ⟨e, he, hcp, (he.leads_iff hc).mpr ⟨?_, served_of_highest he fun p hp => ?_⟩⟩
  · refine clear_of_failover hr he (fun _ _ => rfl) hg hs fun p hp hne x hx hl => ?_
    rw [hnow]
    rcases mem_pair hp with rfl | rfl
    · rw [hcp] at hne
      exact absurd rfl hne
    · rw [hview] at hx
      simpa [pair] using hstale x hx hl
  · rcases mem_pair hp with rfl | rfl <;> rw [hcp] <;> decide

/-- It waits when it sees one. -/
theorem pair_waitsA {c : State} (hr : (system (pair settings admitted key lag)).Reach c)
    (hc : ∃ cand, pending (pair settings admitted key lag) c memberA = .ok cand) {v : Int}
    (hv : ViewAt (pair settings admitted key lag) c "cp-a" v) {x : Event}
    (hx : seen c.log "cp-b" v = some x) (hl : x.Leads)
    (hfresh : c.now - x.out.epoch ≤ settings.ttl) :
    ∃ e, Reconciles (pair settings admitted key lag) c e ∧ e.cp = memberA ∧
      (e.view = fun _ => v) ∧ ¬ e.Leads := by
  obtain ⟨cand, hc⟩ := hc
  obtain ⟨e, he, hcp, hview, -⟩ := exists_reconciles
    (show memberA ∈ (pair settings admitted key lag).members from List.mem_cons_self) (.inl rfl)
    hc hv failoverSignal "failover"
  refine ⟨e, he, hcp, hview, fun hel => ?_⟩
  have hk := (kept_inductive _).reach hr x (seen_mem hx).1
  have hstale := he.leader_sees_stale hel (p := memberB)
    (show memberB ∈ (pair settings admitted key lag).members by simp [pair])
    (by rw [hcp]; decide) (by rw [hview]; exact hx) hk hl
  have hnow : e.inp.now = c.now + 0 := he.now
  have httl : (pair settings admitted key lag).settings.ttl = settings.ttl := rfl
  omega

/-- `cp-b` starts its timer at 1. -/
theorem pair_candidateB : ∃ e, (system (pair settings admitted key lag)).Reach ⟨1, [e]⟩ ∧
    e.cp = memberB ∧ e.time = 1 ∧ ¬ e.Leads ∧ e.timer = 1 := by
  have h0 : (system (pair settings admitted key lag)).Reach ⟨1, []⟩ := .init rfl
  obtain ⟨e, he, hcp, -, hg, hs⟩ := exists_reconciles
    (show memberB ∈ (pair settings admitted key lag).members by simp [pair]) (.inl rfl)
    (show pending (pair settings admitted key lag) ⟨1, []⟩ memberB = .ok 0 from rfl)
    (viewAt_now h0 _) failoverSignal "failover"
  refine ⟨e, reach_reconcile h0 he, hcp, he.time, ?_⟩
  have hclear : e.Clear :=
    clear_of_failover h0 he (fun _ _ => rfl) hg hs fun p _ _ x hx => by cases hx
  have hhigh : ∃ q ∈ e.inp.peers, q.priority < e.cp.priority := by
    refine ⟨_, he.record_mem (show memberA ∈ _ from List.mem_cons_self) (by rw [hcp]; decide), ?_⟩
    rw [hcp]
    show memberA.priority < memberB.priority
    decide
  obtain ⟨cand, hc, hcases⟩ := he.cases
  rw [hcp] at hc
  cases hc
  rcases hcases with ⟨-, hserved, -⟩ | ⟨-, -, hl, ht⟩ | ⟨hno, -⟩
  · rcases hserved with hno | hcont | ⟨hpos, -⟩
    · obtain ⟨q, hq, hlt⟩ := hhigh
      exact absurd hlt (hno q hq)
    · cases hcont
    · cases hpos
  · exact ⟨hl, by rw [ht, he.now]; rfl⟩
  · exact absurd hclear hno

/-- And leads one window later, with a new epoch. -/
theorem pair_leaderB : ∃ x e,
    (system (pair settings admitted key lag)).Reach
      ⟨1 + (pair settings admitted key lag).window, [x, e]⟩ ∧
    x.cp = memberB ∧ x.time = 1 + (pair settings admitted key lag).window ∧ x.Leads ∧
    x.out.epoch = x.time ∧ e.cp = memberB ∧ e.time = 1 ∧ ¬ e.Leads := by
  obtain ⟨e, hr, hcp, ht, hl, htimer⟩ := @pair_candidateB settings admitted key lag
  have hw : 0 < (pair settings admitted key lag).window := by
    have h1 := (pair settings admitted key lag).throttle_le_window
    have h2 : 10 ≤ (pair settings admitted key lag).settings.throttle := admitted.throttle
    omega
  have hr' := reach_advance hr
    (show (1 : Int) ≤ 1 + (pair settings admitted key lag).window by omega)
  have hk := (kept_inductive _).reach hr e List.mem_cons_self
  have hlatest : latest [e] memberB.id = some e := latest_of_cp [] hcp
  have hpending : pending (pair settings admitted key lag)
      ⟨1 + (pair settings admitted key lag).window, [e]⟩ memberB = .ok 1 := by
    rw [← htimer]
    exact pending_latest hlatest hk
  obtain ⟨x, hx, hxcp, -, hg, hs⟩ := exists_reconciles
    (show memberB ∈ (pair settings admitted key lag).members by simp [pair]) (.inl rfl)
    hpending (viewAt_now hr' _) failoverSignal "failover"
  have hnow : x.inp.now = 1 + (pair settings admitted key lag).window := by
    rw [hx.now]
    exact Int.add_zero _
  have hxl : x.Leads := by
    rw [← hxcp] at hpending
    refine (hx.leads_iff hpending).mpr ⟨?_, .inr (.inr ⟨by decide, ?_⟩)⟩
    · refine clear_of_failover hr' hx (fun _ _ => rfl) hg hs fun p hp hne y hy => ?_
      obtain ⟨hy, hid, -⟩ := seen_mem hy
      rw [List.mem_singleton.mp hy, hcp] at hid
      rw [hxcp] at hne
      exact absurd hid.symm hne
    · rw [hnow]
      omega
  refine ⟨x, e, reach_reconcile hr' hx, hxcp, hx.time, hxl, ?_, hcp, ht, hl⟩
  -- the role changed, so the throttle keeps nothing
  have hprev : x.inp.prev = e.out.tags := by
    have := hx.prev
    rw [hxcp, Fleet.ownObserved_latest _ hlatest, prevTags_observedSelf] at this
    exact (Except.ok.inj this).symm
  have hrole : x.out.decision.role = .leader := hxl
  rw [(reconcile_ok hx.out).2.1, hprev, hk.tags, hrole, epochToWrite_of_role hl, hx.time, hnow]

end

/-- The pair with the defaults and no lag. -/
def defaultPair : Fleet := pair Settings.default Settings.default_admitted livenessKey_default 0

/-- The pair with the defaults, where each control plane sees the other one 50 seconds late. -/
def laggedPair : Fleet := pair Settings.default Settings.default_admitted livenessKey_default 50

end Cluster

end ResilientCtp
