import ResilientCtp.Cluster.Steps

/-!
# The evidence of continuous leadership

A leader whose own heartbeat is at most one hysteresis window old is to skip the hysteresis: no
other control plane, so the comment in `decide`, can have completed a takeover within one window.
But a control plane with no peer above it takes over as soon as the heartbeat is past its TTL, and
the schema relates the TTL and the window in no way.

* `Evidence`: the role and the epoch of the status say so. (`decide` looks for it with `as_int`,
  which does not read the epoch of a published status.)
* `EvidenceSound`: where the evidence is there, nobody else decided leader since.
* `evidence_sound_iff`: so in every run exactly where the window is at most the TTL.
* `evidence_unsound`: a TTL of 30 seconds, with the other defaults.
-/

namespace ResilientCtp

open Py Election Heartbeat

namespace Cluster

/-- The reconciles of the other control planes since the newest one of `id`. -/
def sinceLast (id : String) (log : List Event) : List Event :=
  log.takeWhile fun y => y.cp.id != id

/-- The status that the reconcile `e` finds is a leader's, with an epoch at most a window old. -/
structure Evidence (F : Fleet) (e : Event) : Prop where
  role : (Dict.getD e.inp.priorStatus "role" (.str "")).isStr "leader" = true
  fresh : e.inp.now - Status.selfEpoch e.inp.priorStatus ≤ F.window

/-- Every reconcile with the evidence comes after none of another leader. -/
def EvidenceSound (F : Fleet) (c : State) : Prop :=
  ∀ later e rest, c.log = later ++ e :: rest → Evidence F e →
    ∀ y ∈ sinceLast e.cp.id rest, ¬ y.Leads

variable {F : Fleet} {c : State} {e y : Event} {settings : Settings}

/-- At a reconcile since the newest one of `id`, that one was the newest too. -/
theorem mem_sinceLast {id : String} {log : List Event} (hy : y ∈ sinceLast id log) :
    y.cp.id ≠ id ∧ ∃ pre post, log = pre ++ y :: post ∧ latest post id = latest log id := by
  induction log with
  | nil => cases hy
  | cons x log ih =>
    by_cases hx : x.cp.id = id
    · simp [sinceLast, hx] at hy
    have hxs : sinceLast id (x :: log) = x :: sinceLast id log := by simp [sinceLast, hx]
    rw [hxs, List.mem_cons] at hy
    rw [latest_cons_ne x log hx]
    rcases hy with rfl | hy
    · exact ⟨hx, [], log, rfl, rfl⟩
    · obtain ⟨hne, pre, post, e, hl⟩ := ih hy
      exact ⟨hne, x :: pre, post, by rw [e, List.cons_append], hl⟩

/-- The evidence points to the newest own reconcile. -/
theorem Reconciles.evidence_iff (h : Reconciles F c e) {x : Event}
    (hx : latest c.log e.cp.id = some x) (hk : Kept F x) :
    Evidence F e ↔ x.Leads ∧ e.inp.now - x.out.epoch ≤ F.window := by
  have hs : e.inp.priorStatus =
      Status.buildStatus x.out.decision x.inp.gslb x.inp.peers x.out.epoch := by
    rw [h.status, F.statusOf_latest hx, hk.status]
  have hrole : (Dict.getD e.inp.priorStatus "role" (.str "")).isStr "leader" = true ↔ x.Leads := by
    rw [hs, Status.getD_role, Value.isStr, beq_iff_eq, Role.text_eq_leader]
    rfl
  have hepoch : Status.selfEpoch e.inp.priorStatus = x.out.epoch := by
    rw [hs, Status.selfEpoch_buildStatus]
  rw [← hrole, ← hepoch]
  exact ⟨fun hv => ⟨hv.role, hv.fresh⟩, fun h => ⟨h.1, h.2⟩⟩

/-- There is none before the first one. -/
theorem Reconciles.exists_evidence (h : Reconciles F c e) (hempty : F.Empty)
    (hv : Evidence F e) : ∃ x, latest c.log e.cp.id = some x := by
  cases hx : latest c.log e.cp.id with
  | some x => exact ⟨x, rfl⟩
  | none =>
    have hrole := hv.role
    rw [h.status, F.statusOf_boot hx, hempty.bootStatus _ h.member] at hrole
    cases hrole

theorem evidence_sound (hlag : F.lag = 0) (hone : F.OneClock) (hempty : F.Empty)
    (hw : F.window ≤ F.settings.ttl) (hr : (system F).Reach c) : EvidenceSound F c := by
  intro later e rest hlog hv y hy hyl
  obtain ⟨hre, he, -⟩ := reach_event_run hr hlog
  obtain ⟨x, hx⟩ := he.exists_evidence hempty hv
  have hk := (kept_inductive F).reach hre x (latest_mem hx).1
  obtain ⟨hxl, hold⟩ := (he.evidence_iff hx hk).mp hv
  rw [he.now, hone _ he.member] at hold
  obtain ⟨hne, pre, post, hrest, hlatest⟩ := mem_sinceLast hy
  obtain ⟨hry, hyr, hyle⟩ := reach_event_run hre hrest
  -- the other leader saw the heartbeat of `x`, younger than the window
  have hseen : seen post e.cp.id (y.view e.cp.id) = some x :=
    (hyr.seen_latest hry hlag he.member).trans (hlatest.trans hx)
  have hstale := hyr.leader_sees_stale hyl he.member (Ne.symm hne) hseen hk hxl
  rw [hyr.now, hone _ hyr.member, ← hyr.time] at hstale
  have hle : y.time ≤ e.time := hyle
  omega

/-- The lower control plane of a pair leads, the higher one takes over one second past the TTL,
and the lower one finds its evidence. -/
theorem exists_unsound (hs : settings.Admitted) (hk : LivenessKey settings.tsTag)
    (hw : settings.ttl < settings.hysteresis * settings.throttle) :
    ∃ c, (system (pair settings hs hk 0)).Reach c ∧
      ¬ EvidenceSound (pair settings hs hk 0) c := by
  obtain ⟨x, e₀, hr, hxcp, hxt, hxl, hxe, hecp, -⟩ := @pair_leaderB settings hs hk 0
  have httl := hs.ttl
  obtain ⟨t, ht⟩ : ∃ t, t = x.time + settings.ttl + 1 := ⟨_, rfl⟩
  have hr₁ : (system (pair settings hs hk 0)).Reach ⟨t, [x, e₀]⟩ :=
    reach_advance hr (show 1 + (pair settings hs hk 0).window ≤ t by rw [← hxt]; omega)
  have hlatest : latest [x, e₀] memberB.id = some x := latest_of_cp [e₀] hxcp
  have hnoA : latest [x, e₀] memberA.id = none :=
    latest_eq_none (by simp [hxcp, hecp, memberA, memberB])
  -- the higher control plane takes over
  obtain ⟨a, ha, hacp, hal⟩ := pair_leaderA hr₁ ⟨0, (pending_boot hnoA).trans rfl⟩
    (viewAt_now hr₁ _) (by
      intro z hz hzl
      rw [seen_eq_latest (fun z hz => time_le hr₁ hz)] at hz
      rw [show (memberB.id) = "cp-b" from rfl, hz] at hlatest
      cases hlatest
      rw [hxe]
      show settings.ttl < t - x.time
      omega)
  have hr₂ := reach_reconcile hr₁ ha
  have hlatest' : latest (a :: [x, e₀]) memberB.id = some x := by
    rw [latest_cons_ne _ _ (by rw [hacp]; decide)]
    exact hlatest
  have hkx := (kept_inductive _).reach hr x List.mem_cons_self
  -- the lower one reconciles
  obtain ⟨e, he, hcp, -⟩ := exists_reconciles
    (show memberB ∈ (pair settings hs hk 0).members by simp [pair]) (.inl rfl)
    (show pending (pair settings hs hk 0) ⟨t, a :: [x, e₀]⟩ memberB = .ok x.timer from
      pending_latest hlatest' hkx)
    (viewAt_now hr₂ _) failoverSignal "failover"
  refine ⟨_, reach_reconcile hr₂ he, fun hsound => ?_⟩
  refine hsound [] e (a :: [x, e₀]) rfl ?_ a ?_ hal
  · rw [← hcp] at hlatest'
    refine (he.evidence_iff hlatest' hkx).mpr ⟨hxl, ?_⟩
    have hnow : e.inp.now = t + 0 := he.now
    rw [hxe, hnow]
    show t + 0 - x.time ≤ settings.hysteresis * settings.throttle
    omega
  · rw [hcp]
    simp [sinceLast, hacp, memberA, memberB]

/-- **The evidence is sound** in every run of every set exactly where the hysteresis window is at
most the TTL. -/
theorem evidence_sound_iff (hs : settings.Admitted) (hk : LivenessKey settings.tsTag) :
    (∀ F : Fleet, F.settings = settings → F.lag = 0 → F.OneClock → F.Empty →
      ∀ c, (system F).Reach c → EvidenceSound F c) ↔
        settings.hysteresis * settings.throttle ≤ settings.ttl := by
  constructor
  · intro h
    by_contra hw
    obtain ⟨c, hr, hc⟩ := exists_unsound hs hk (by omega)
    exact hc (h _ rfl rfl pair_oneClock pair_empty c hr)
  · rintro hw F rfl hlag hone hempty c hr
    exact evidence_sound hlag hone hempty hw hr

theorem evidence_sound_iff_default :
    (∀ F : Fleet, F.settings = Settings.default → F.lag = 0 → F.OneClock → F.Empty →
      ∀ c, (system F).Reach c → EvidenceSound F c) ↔ (180 : Int) ≤ 180 :=
  evidence_sound_iff Settings.default_admitted livenessKey_default

/-- The defaults with the smallest TTL. -/
def shortTtl : Settings := { Settings.default with ttl := 30 }

theorem shortTtl_admitted : shortTtl.Admitted := ⟨by decide, by decide, by decide⟩

theorem evidence_unsound : ¬ ∀ F : Fleet, F.lag = 0 → F.OneClock → F.Empty →
    ∀ c, (system F).Reach c → EvidenceSound F c := by
  intro h
  obtain ⟨c, hr, hc⟩ := exists_unsound shortTtl_admitted livenessKey_default (by decide)
  exact hc (h _ rfl pair_oneClock pair_empty c hr)

end Cluster

end ResilientCtp
