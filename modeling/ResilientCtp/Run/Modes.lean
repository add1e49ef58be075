import ResilientCtp.Election.Alike
import ResilientCtp.Run.Drift

/-!
# A region death, as `mr` and as `directApi` reads it

In `mr` mode the heartbeat of a dead region goes stale; in `directApi` mode it cannot be read.
Where this control plane is the sole active geo of a failover, both let a peer pass, so two runs
that differ in the records of dead peers only (`SameWorld`) publish the same.

* `outcome_step`: a round of each publishes the same, on statuses that feed back the same.
* `modes_agree`: so do the runs, round by round: the role, the policy, the timer and the epoch.
-/

namespace ResilientCtp

open Py Election Heartbeat

namespace Solo

/-- A round of each run: everything is the same but the records of dead peers. What a provider
reports of the own heartbeat is a function of what was written to it. -/
structure SameWorld (rs rs' : List Round) (r r' : Round) : Prop where
  failover : gslbActiveFailover r.inp.gslb r.inp.strategy = true
  gslb : r'.inp.gslb = r.inp.gslb
  strategy : r'.inp.strategy = r.inp.strategy
  now : r'.now = r.now
  peers : List.Forall₂ (fun p q => p = q ∨ Dead p q) r.inp.peers r'.inp.peers
  self : ∃ observe : List Dict → Dict, r.inp.prev = observe (rs.map (·.out.tags)) ∧
    r'.inp.prev = observe (rs'.map (·.out.tags))

/-- The runs in the two modes, from one status. -/
def modes (s : Settings) (identity : Identity) (boot : Dict) :
    Lts.System (List Round × List Round) (Round × Round) :=
  (drift s identity boot).lockstep (drift s identity boot) SameWorld

/-- What a round publishes of the leadership. -/
def outcome (r : Round) : Role × List String × Int × Int :=
  (r.out.decision.role, r.out.decision.managementPolicy, r.timer, r.out.epoch)

variable {s : Settings} {identity : Identity} {boot : Dict} {rs rs' : List Round} {r r' : Round}

/-- The same outcomes are the same heartbeats. -/
theorem tags_of_outcome (h : Takes s identity boot rs r) (h' : Takes s identity boot rs' r')
    (he : outcome r = outcome r') : r.out.tags = r'.out.tags := by
  simp only [outcome, Prod.mk.injEq] at he
  rw [reconcile_tags h.out, reconcile_tags h'.out, he.1, he.2.2.2]

/-- The same outcomes feed back the same. -/
theorem feedback_of_outcome (hr : (drift s identity boot).Reach rs)
    (hr' : (drift s identity boot).Reach rs') (he : rs.map outcome = rs'.map outcome) :
    priorCandidateSince (published boot rs) = priorCandidateSince (published boot rs') ∧
      ∀ w now, continuousLeader (published boot rs) w now =
        continuousLeader (published boot rs') w now := by
  have htakes : ∀ {q qs}, (drift s identity boot).Reach (q :: qs) → Takes s identity boot qs q :=
    fun h => h.head.2
  cases rs with
  | nil =>
    cases rs' with
    | nil => exact ⟨rfl, fun _ _ => rfl⟩
    | cons q' qs' => cases he
  | cons q qs =>
    cases rs' with
    | nil => cases he
    | cons q' qs' =>
      simp only [List.map_cons, List.cons.injEq, outcome, Prod.mk.injEq] at he
      obtain ⟨⟨-, -, htimer, -⟩, -⟩ := he
      simp only [published, reconcile_status (htakes hr).out, reconcile_status (htakes hr').out]
      refine ⟨?_, fun w now => ?_⟩
      · rw [Status.priorCandidateSince_buildStatus, Status.priorCandidateSince_buildStatus]
        exact congrArg _ htimer
      · rw [Status.continuousLeader_buildStatus, Status.continuousLeader_buildStatus]

theorem outcome_step (hr : (drift s identity boot).Reach rs)
    (hr' : (drift s identity boot).Reach rs') (he : rs.map outcome = rs'.map outcome)
    (htags : rs.map (·.out.tags) = rs'.map (·.out.tags)) (h : Takes s identity boot rs r)
    (h' : Takes s identity boot rs' r') (hw : SameWorld rs rs' r r') : outcome r = outcome r' := by
  obtain ⟨hd, -⟩ := reconcile_ok h.out
  obtain ⟨hd', -⟩ := reconcile_ok h'.out
  obtain ⟨htimer, hcont⟩ := feedback_of_outcome hr hr' he
  have halike : List.Forall₂ (Alike (gslbActiveFailover r.inp.gslb r.inp.strategy)) r.inp.peers
      r'.inp.peers := by
    refine hw.peers.imp fun p q hpq => ?_
    rw [hw.failover]
    rcases hpq with rfl | hdead
    · exact .refl true p
    · exact hdead.alike
  have hnow : r'.inp.now = r.inp.now := hw.now
  rw [h.status] at hd
  rw [h'.status, hw.gslb, hw.strategy, hnow] at hd'
  obtain ⟨hrole, hcand⟩ := decide_congr halike htimer (fun w => hcont w _) hd hd'
  have hprev : r'.inp.prev = r.inp.prev := by
    obtain ⟨observe, e, e'⟩ := hw.self
    rw [e, e', htags]
  have hpolicy := decide_policy hd
  have hpolicy' := decide_policy hd'
  have hepoch := reconcile_epoch h.out
  have hepoch' := reconcile_epoch h'.out
  rw [hprev, hnow, ← hrole] at hepoch'
  rw [← hrole] at hpolicy'
  simp only [outcome, Prod.mk.injEq]
  exact ⟨hrole, hpolicy.trans hpolicy'.symm, hcand, hepoch.trans hepoch'.symm⟩

/-- **The two modes agree** on every death of a region, in every run. -/
theorem modes_agree {p : List Round × List Round} (h : (modes s identity boot).Reach p) :
    p.1.map outcome = p.2.map outcome := by
  have key : p.1.map outcome = p.2.map outcome ∧
      p.1.map (·.out.tags) = p.2.map (·.out.tags) := by
    induction h with
    | init hi =>
      obtain ⟨h1, h2⟩ := hi
      rw [h1, h2]
      exact ⟨rfl, rfl⟩
    | @step p p' a hr hst ih =>
      obtain ⟨⟨ht, e⟩, ⟨ht', e'⟩, hw⟩ := hst
      have ho := outcome_step hr.left hr.right ih.1 ih.2 ht ht' hw
      rw [e, e', List.map_cons, List.map_cons, List.map_cons, List.map_cons, ih.1, ih.2, ho,
        tags_of_outcome ht ht' ho]
      exact ⟨rfl, rfl⟩
  exact key.1

/-! ## A dead region -/

/-- The heartbeat that the dead `cp-a` left as a leader at 1. -/
def lastTagsA : Dict := ownTags memberA.toIdentity tsTagDefault 1 "leader"

theorem dead_memberA {now : Int} (hnow : 181 < now) :
    Dead (livenessFromTags memberA (some lastTagsA) tsTagDefault now 180)
      (unreadablePeer memberA) := by
  have he : asInt (Dict.getD lastTagsA tsTagDefault .null) 0 = 1 := by
    rw [lastTagsA, getD_ownTags livenessKey_default, asInt_strInt]
  exact (dead_of_stale he (by decide) (by omega)).2

/-- The only peer of `cp-b` is dead, in either mode. -/
theorem exists_dead_round (h : (modes Settings.default memberB.toIdentity []).Reach (rs, rs'))
    {now : Int} (hnow : 181 < now) : ∃ r r',
      (modes Settings.default memberB.toIdentity []).Reach (r :: rs, r' :: rs') ∧
        r.inp = quiet "failover" [livenessFromTags memberA (some lastTagsA) tsTagDefault now 180] rs
          [] now ∧
        r'.inp = quiet "failover" [unreadablePeer memberA] rs' [] now := by
  obtain ⟨r, ht, e⟩ := exists_takes h.left (.inl rfl) (quiet "failover"
    [livenessFromTags memberA (some lastTagsA) tsTagDefault now 180] rs [] now) rfl
  obtain ⟨r', ht', e'⟩ := exists_takes h.right (.inl rfl)
    (quiet "failover" [unreadablePeer memberA] rs' [] now) rfl
  refine ⟨r, r', .step h (a := (r, r')) ⟨⟨ht, rfl⟩, ⟨ht', rfl⟩, ?_⟩, e, e'⟩
  have hpeers : List.Forall₂ (fun p q => p = q ∨ Dead p q) r.inp.peers r'.inp.peers := by
    rw [e, e']
    exact .cons (.inr (dead_memberA hnow)) .nil
  refine ⟨?_, ?_, ?_, ?_, hpeers, fun _ => [], ?_, ?_⟩
  · rw [e]
    rfl
  · rw [e, e']
    rfl
  · rw [e, e']
    rfl
  · rw [Round.now, Round.now, e, e']
    rfl
  · rw [e]
    rfl
  · rw [e']
    rfl

/-- Two rounds of `cp-b`, a hysteresis window apart, with a dead `cp-a` in both modes. -/
theorem modes_agree_memberB : ∃ n i n' i' : Round,
    (modes Settings.default memberB.toIdentity []).Reach ([n, i], [n', i']) ∧ i.now = 1000 ∧
      n.now = 1180 ∧ [n, i].map outcome = [n', i'].map outcome := by
  have h0 : (modes Settings.default memberB.toIdentity []).Reach ([], []) := .init ⟨rfl, rfl⟩
  obtain ⟨i, i', h1, ei, -⟩ := @exists_dead_round [] [] h0 1000 (by decide)
  obtain ⟨n, n', h2, en, -⟩ := @exists_dead_round [i] [i'] h1 1180 (by decide)
  refine ⟨n, i, n', i', h2, ?_, ?_, modes_agree h2⟩
  · rw [Round.now, ei]
    rfl
  · rw [Round.now, en]
    rfl

end Solo

end ResilientCtp
