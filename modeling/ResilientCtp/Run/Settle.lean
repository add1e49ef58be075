import ResilientCtp.Cluster.Cloud
import ResilientCtp.Reads.Observed
import ResilientCtp.Reads.Total
import ResilientCtp.Run.History

/-!
# Reconciling again changes nothing

A control plane is reconciled again and again on what its own last reconcile left behind: the
published status and the reported heartbeat. Where nothing else changed, the second response
renders the same resources and publishes the same status, up to the text of `reason`, and has no
event; from then on the response is the same altogether (`Settled`).

One kind of run does not settle at once. A leader with a higher-priority peer owes the hysteresis
again, for the epoch that it published reads back as a number: the second run steps down to a
candidate, and it is the third that repeats the second (`settles`).
-/

namespace ResilientCtp

open Py Election Heartbeat

namespace Settle

/-! ## The decision -/

section

variable {identity : Identity} {gslb : GslbSignal} {peers : List PeerLiveness}
  {status status' : Dict} {hysteresis throttle now epoch : Int} {strategy isoNow : String}
  {d d' : Decision}

theorem hysteresisWindow_pos (hysteresis throttle : Int) :
    0 < hysteresisWindow hysteresis throttle :=
  Int.mul_pos (by omega) (by omega)

/-- A decision at the same time, on the status that a decision left, stands by where there is a
higher-priority peer: no timer has run for a window yet. -/
theorem standby_again (h : Election.decide identity gslb peers status hysteresis throttle now
      strategy isoNow = .ok d)
    (h' : Election.decide identity gslb peers (Status.buildStatus d gslb peers epoch) hysteresis
      throttle now strategy isoNow = .ok d')
    {p : PeerLiveness} (hp : p ∈ peers) (hlt : p.priority < identity.priority) :
    d'.role = .standby := by
  have hwindow := hysteresisWindow_pos hysteresis throttle
  obtain ⟨cand, -, hcases⟩ := decide_cases h
  refine Role.eq_standby.mpr fun hl => ?_
  obtain ⟨-, hno | hcont | ⟨hpos, hpast⟩⟩ :=
    (decide_leader h' (Status.priorCandidateSince_buildStatus d gslb peers epoch)).mp hl
  · exact hno p hp hlt
  · rw [Status.continuousLeader_buildStatus] at hcont
    cases hcont
  · rcases hcases with ⟨-, -, -, h0⟩ | ⟨-, hns, -, ht⟩ | ⟨-, -, h0⟩
    · omega
    · rw [ht] at hpos hpast
      split at hpast
      · omega
      · exact hns (.inr (.inr ⟨by omega, hpast⟩))
    · omega

/-- A decision on the status that a decision left, at the same time, is the same one where no leader
has a higher-priority peer. -/
theorem decide_again (h : Election.decide identity gslb peers status hysteresis throttle now
      strategy isoNow = .ok d) (hnow : 0 < now)
    (hno : d.role = .leader → ∀ p ∈ peers, ¬ p.priority < identity.priority) :
    ∃ d', Election.decide identity gslb peers (Status.buildStatus d gslb peers epoch) hysteresis
        throttle now strategy isoNow = .ok d' ∧
      d'.role = d.role ∧ d'.promotionCandidateSince = d.promotionCandidateSince ∧
      d'.lastHandoffTime = d.lastHandoffTime := by
  obtain ⟨d', hd'⟩ := @exists_decide identity gslb strategy isoNow peers _ hysteresis throttle now _
    (Status.priorCandidateSince_buildStatus d gslb peers epoch)
  obtain ⟨cand, -, hcases⟩ := decide_cases h
  obtain ⟨cand', hc', hcases'⟩ := decide_cases hd'
  rw [Status.priorCandidateSince_buildStatus] at hc'
  cases hc'
  have key : d'.role = d.role ∧ d'.promotionCandidateSince = d.promotionCandidateSince := by
    rcases hcases with ⟨hclear, -, hl, h0⟩ | ⟨hclear, hns, hs, ht⟩ | ⟨hblocked, hs, h0⟩
    · -- a leader without a higher-priority peer goes on
      rcases hcases' with ⟨-, -, hl', h0'⟩ | ⟨-, hns', -⟩ | ⟨hblocked', -⟩
      · exact ⟨hl'.trans hl.symm, h0'.trans h0.symm⟩
      · exact absurd (.inl (hno hl)) hns'
      · exact absurd hclear hblocked'
    · -- a candidate keeps its timer
      have hpos : 0 < d.promotionCandidateSince := by
        rw [ht]
        split <;> omega
      rcases hcases' with ⟨-, -, hl', -⟩ | ⟨-, -, hs', ht'⟩ | ⟨hblocked', -⟩
      · refine absurd (.inl fun p hp hlt => ?_) hns
        rw [standby_again h hd' hp hlt] at hl'
        cases hl'
      · rw [if_neg (by omega)] at ht'
        exact ⟨hs'.trans hs.symm, ht'⟩
      · exact absurd hclear hblocked'
    · rcases hcases' with ⟨hclear', -⟩ | ⟨hclear', -⟩ | ⟨-, hs', h0'⟩
      · exact absurd hclear' hblocked
      · exact absurd hclear' hblocked
      · exact ⟨hs'.trans hs.symm, h0'.trans h0.symm⟩
  refine ⟨d', hd', key.1, key.2, ?_⟩
  rw [decide_handoff hd', Status.getD_role, Status.getD_lastHandoffTime, key.1]
  cases d.role <;> rfl

/-- The keys of a status that a decision reads. -/
def decisionKeys : List String :=
  ["role", "promotionCandidateSince", "lastHandoffTime", "selfHeartbeatEpoch"]

theorem decide_congr
    (h : ∀ k ∈ decisionKeys, ∀ v, Dict.getD status k v = Dict.getD status' k v) :
    Election.decide identity gslb peers status hysteresis throttle now strategy isoNow =
      Election.decide identity gslb peers status' hysteresis throttle now strategy isoNow := by
  have h1 := h "role" (by simp [decisionKeys])
  have h2 := h "promotionCandidateSince" (by simp [decisionKeys])
  have h3 := h "lastHandoffTime" (by simp [decisionKeys])
  have h4 := h "selfHeartbeatEpoch" (by simp [decisionKeys])
  unfold Election.decide priorCandidateSince continuousLeader
  simp only [h1, h2, h3, h4]

/-- The statuses of two decisions that differ in their text. -/
theorem buildStatus_eq (hrole : d'.role = d.role)
    (hpolicy : d'.managementPolicy = d.managementPolicy)
    (htimer : d'.promotionCandidateSince = d.promotionCandidateSince)
    (hhandoff : d'.lastHandoffTime = d.lastHandoffTime) :
    Status.buildStatus d' gslb peers epoch =
      Dict.set (Status.buildStatus d gslb peers epoch) "reason" (.str d'.reason) := by
  unfold Status.buildStatus
  rw [hrole, hpolicy, htimer, hhandoff]
  by_cases h : d.lastHandoffTime = ""
  · rw [if_pos h]
    rfl
  · rw [if_neg h]
    rfl

end

/-! ## The next request -/

/-- `req'` finds what the response `rsp` to `req` left behind, and what `req` found else. -/
structure Fed (req : Request) (rsp : Response) (req' : Request) : Prop where
  spec : req'.xr.spec = req.xr.spec
  ns : req'.xr.ns = req.xr.ns
  context : req'.context = req.context
  status : req'.xr.status = rsp.status
  own : ∃ own tags, Dict.get? rsp.resources selfHb = some own ∧ askedTags own = .ok tags ∧
    Dict.get? req'.observed selfHb =
      some (observedHeartbeat req.xr.spec.identity.provider tags)
  others : ∀ name, name ≠ selfHb → SameAt req'.observed req.observed name

variable {env : Env} {req req' : Request} {rsp : Response} {v : Verdict} {epoch : Int}
  {kvs : List (String × Value)}

theorem selfHb_notMem_k8gbNames {name : String} (h : name ∈ k8gbNames) : name ≠ selfHb := by
  rintro rfl
  revert h
  decide

/-- What a fed request reads back of its own heartbeat. -/
theorem Fed.prevTags (h : Fed req rsp req') (hr : Renders env req v epoch kvs)
    (hrsp : rsp.resources = setAll [] kvs) :
    ResilientCtp.prevTags (converted req'.xr.spec req'.observed) =
      .ok (if req.xr.spec.identity.provider = "gcp" then []
        else ownTagsOf req epoch v.decision.role) := by
  obtain ⟨own, tags, hown, htags, hobs⟩ := h.own
  rw [hrsp] at hown
  obtain ⟨res, ns, pc, hres, hb⟩ := hr.own_resource
  cases hown.symm.trans hres
  cases htags.symm.trans (buildParameter_object hb).2.2
  have hself : Dict.getD (converted req'.xr.spec req'.observed) selfHb (.dict []) =
      Dict.getD (observedSelf req.xr.spec.identity.provider
        (ownTagsOf req epoch v.decision.role)) selfHb (.dict []) := by
    unfold Dict.getD
    rw [get?_converted_of_not_dropped (not_dropped _ peerHbResourceName_ne_selfHb), hobs]
    rfl
  rw [← prevTags_observedSelf]
  unfold ResilientCtp.prevTags
  rw [hself]

/-- What a run renders follows from the role, the epoch and the k8gb resources. -/
theorem rendered_congr {v' : Verdict} {prev : Dict} (hspec : req'.xr.spec = req.xr.spec)
    (hns : req'.xr.ns = req.xr.ns) (hrole : v'.decision.role = v.decision.role)
    (hsignal : v'.signal = v.signal)
    (hprev : prevTags (converted req.xr.spec req'.observed) = .ok prev)
    (hepoch : epochToWrite prev req.xr.spec.tsTag env.now req.xr.spec.throttle v.decision.role =
      epoch)
    (hk8gb : ∀ name ∈ k8gbNames, SameAt req'.observed req.observed name)
    (h : rendered env req v = .ok (epoch, kvs)) : rendered env req' v' = .ok (epoch, kvs) := by
  have hk : ∀ name ∈ k8gbNames,
      SameAt (converted req.xr.spec req'.observed) (converted req.xr.spec req.observed) name :=
    fun name hm => (hk8gb name hm).converted req.xr.spec (k8gb_ne_peer hm)
  have hinst := operatorInstalled_congr hk
  have hop := (hk K8gbInstall.k8gbOperator (by simp [k8gbNames])).getD (.dict [])
  obtain ⟨_, own, observes, ready, -, -, hown, ho, hready, hkvs⟩ := rendered_eq_ok_iff.mp h
  refine rendered_eq_ok_iff.mpr ⟨prev, own, observes, ready, ?_⟩
  rw [hspec, hns, hrole, hsignal, hinst, hop]
  exact ⟨hprev, hepoch.symm, hown, ho, hready, hkvs⟩

/-- A fed request gives the signal and the peers that it gave before. -/
theorem Fed.verdict (h : Fed req rsp req') (hv : ResilientCtp.verdict env req = .ok v)
    {d' : Decision} (hd' : Election.decide req.xr.spec.identity v.signal v.peers rsp.status
      req.xr.spec.hysteresis req.xr.spec.throttle env.now req.xr.spec.gslb.strategy env.isoNow =
        .ok d') :
    ResilientCtp.verdict env req' = .ok ⟨v.signal, v.peers, d'⟩ := by
  obtain ⟨⟨gslbs, hg, hs⟩, hp, -⟩ := verdict_eq_ok_iff.mp hv
  have hname : GslbBuild.gslbResource ∈ k8gbNames := by simp [k8gbNames]
  have hg' := (@allGslbs_congr _ _ req.context ((h.others _ (selfHb_notMem_k8gbNames
    hname)).converted req.xr.spec (k8gb_ne_peer hname))).trans hg
  have hp' := (@readPeers_congr req.xr.spec _ _ env fun _ m _ =>
    h.others _ (peerHbResourceName_ne_selfHb m.id)).trans hp
  rw [verdict_eq_ok_iff, h.spec, h.context, h.status]
  exact ⟨⟨gslbs, hg', hs⟩, hp', hd'⟩

/-- A fed request is answered. -/
theorem Fed.exists_answer (h : Fed req rsp req') (hv : ResilientCtp.verdict env req = .ok v)
    (hr : rendered env req v = .ok (epoch, kvs)) (hrsp : rsp = respond env req v epoch kvs) :
    ∃ d' epoch' kvs', Election.decide req.xr.spec.identity v.signal v.peers rsp.status
        req.xr.spec.hysteresis req.xr.spec.throttle env.now req.xr.spec.gslb.strategy env.isoNow =
          .ok d' ∧
      ResilientCtp.verdict env req' = .ok ⟨v.signal, v.peers, d'⟩ ∧
      rendered env req' ⟨v.signal, v.peers, d'⟩ = .ok (epoch', kvs') := by
  obtain ⟨d', hd'⟩ : ∃ d', Election.decide req.xr.spec.identity v.signal v.peers rsp.status
      req.xr.spec.hysteresis req.xr.spec.throttle env.now req.xr.spec.gslb.strategy env.isoNow =
        .ok d' := by
    rw [hrsp]
    exact exists_decide (Status.priorCandidateSince_buildStatus v.decision v.signal v.peers epoch)
  obtain ⟨prev, hprev⟩ : ∃ prev,
      ResilientCtp.prevTags (converted req'.xr.spec req'.observed) = .ok prev :=
    ⟨_, h.prevTags (rendered_renders hr) (by rw [hrsp]; rfl)⟩
  have hk : SameAt (converted req.xr.spec req'.observed) (converted req.xr.spec req.observed)
      K8gbInstall.k8gbOperator := by
    have hname : K8gbInstall.k8gbOperator ∈ k8gbNames := by simp [k8gbNames]
    exact (h.others _ (selfHb_notMem_k8gbNames hname)).converted req.xr.spec (k8gb_ne_peer hname)
  obtain ⟨_, own, observes, ready, -, -, hown, ho, hready, -⟩ := rendered_eq_ok_iff.mp hr
  obtain ⟨_, hparam, -⟩ := bind_ok hown
  obtain ⟨own', hown'⟩ := buildOwn_returns (buildParameter_ok hparam) (req.xr.ns.getD "default")
    (req.xr.spec.settings (req.xr.ns.getD "default")).providerConfig req.xr.spec.tsTag
    (epochToWrite prev req.xr.spec.tsTag env.now req.xr.spec.throttle d'.role) d'.role.text
  refine ⟨d', _, _, hd', h.verdict hv hd',
    rendered_eq_ok_iff.mpr ⟨prev, own', observes, ready, hprev, rfl, ?_, ?_, ?_, rfl⟩⟩
  · rw [h.spec, h.ns]
    exact hown'
  · rw [h.spec, h.ns]
    exact ho
  · rw [h.spec, hk.getD]
    exact hready

/-- The verdict on a fed request, and what it renders, where no leader has a higher-priority
peer. -/
theorem Fed.again (h : Fed req rsp req') (hk : LivenessKey req.xr.spec.tsTag)
    (hthrottle : 0 < req.xr.spec.throttle) (hnow : req.xr.spec.throttle ≤ env.now)
    (hgcp : req.xr.spec.identity.provider = "gcp" →
      ResilientCtp.prevTags (converted req.xr.spec req.observed) = .ok [])
    (hv : ResilientCtp.verdict env req = .ok v) (hr : rendered env req v = .ok (epoch, kvs))
    (hrsp : rsp = respond env req v epoch kvs)
    (hno : v.decision.role = .leader →
      ∀ p ∈ v.peers, ¬ p.priority < req.xr.spec.identity.priority) :
    ∃ d', Election.decide req.xr.spec.identity v.signal v.peers rsp.status req.xr.spec.hysteresis
        req.xr.spec.throttle env.now req.xr.spec.gslb.strategy env.isoNow = .ok d' ∧
      d'.role = v.decision.role ∧
      d'.promotionCandidateSince = v.decision.promotionCandidateSince ∧
      d'.lastHandoffTime = v.decision.lastHandoffTime ∧
      d'.managementPolicy = v.decision.managementPolicy ∧
      ResilientCtp.verdict env req' = .ok ⟨v.signal, v.peers, d'⟩ ∧
      rendered env req' ⟨v.signal, v.peers, d'⟩ = .ok (epoch, kvs) := by
  have hrenders := rendered_renders hr
  have hk8gb : ∀ name ∈ k8gbNames, SameAt req'.observed req.observed name :=
    fun name hm => h.others name (selfHb_notMem_k8gbNames hm)
  -- the epoch is the clock's, or one that the throttle keeps
  have hepoch : 0 < epoch ∧ env.now - epoch < req.xr.spec.throttle := by
    obtain ⟨prev, -, hp⟩ := hrenders.throttled
    rcases epochToWrite_cases prev req.xr.spec.tsTag env.now req.xr.spec.throttle
      v.decision.role with hw | ⟨e, -, -, hlt, hw⟩ <;> omega
  obtain ⟨-, -, hd⟩ := verdict_eq_ok_iff.mp hv
  obtain ⟨d', hd', hrole, htimer, hhandoff⟩ := @decide_again _ _ _ _ _ _ _ epoch _ _ _ hd
    (by omega) hno
  have hstatus : rsp.status = Status.buildStatus v.decision v.signal v.peers epoch := by
    rw [hrsp]; rfl
  rw [← hstatus] at hd'
  refine ⟨d', hd', hrole, htimer, hhandoff, ?_, h.verdict hv hd', ?_⟩
  · rw [decide_policy hd', decide_policy hd, hrole]
  · have hprev := h.prevTags hrenders (by rw [hrsp]; rfl)
    rw [h.spec] at hprev
    refine rendered_congr h.spec h.ns hrole rfl hprev ?_ hk8gb hr
    split
    · next hprovider =>
      -- on GCP nothing is read back, now as before
      obtain ⟨prev, hp, he⟩ := hrenders.throttled
      rw [hgcp hprovider] at hp
      cases hp
      exact he.symm
    · rw [ownTagsOf, epochToWrite_ownTags hk,
        if_pos ⟨Int.ne_of_gt hepoch.1, hepoch.2, rfl⟩]

/-- A fed request has the event of no transition. -/
theorem Fed.no_transition {d' : Decision} (h : Fed req rsp req')
    (hrsp : rsp = respond env req v epoch kvs) (hrole : d'.role = v.decision.role) :
    transition req' d' = [] := by
  have hprior : Dict.getD req'.xr.status "role" (.str "") = .str v.decision.role.text := by
    rw [h.status, hrsp]
    rfl
  unfold transition
  rw [hprior, hrole]
  exact if_pos (beq_self_eq_true _)

/-! ## What settles -/

/-- Fed with what it left behind, the run renders the same resources, publishes the same status up
to the reason, and has no event of a transition; fed once more, its response is the same. -/
def Settled (env : Env) (req : Request) (rsp : Response) : Prop :=
  ∀ req', Fed req rsp req' → ∃ rsp', compose env req' = .ok rsp' ∧
    rsp'.resources = rsp.resources ∧
    (∃ reason, rsp'.status = Dict.set rsp.status "reason" (.str reason)) ∧
    (∀ msg, .normal msg ∉ rsp'.results) ∧
    ∀ req'', Fed req' rsp' req'' → compose env req'' = .ok rsp'

/-- The response is a leader's, who sees a higher-priority peer. -/
structure Owes (env : Env) (req : Request) (rsp : Response) : Prop where
  leads : Dict.getD rsp.status "role" .null = .str "leader"
  higher : ∃ peers, readPeers env req.xr.spec (converted req.xr.spec req.observed) = .ok peers ∧
    ∃ p ∈ peers, p.priority < req.xr.spec.identity.priority

theorem owes_iff (hv : verdict env req = .ok v) (hrsp : rsp = respond env req v epoch kvs) :
    Owes env req rsp ↔
      v.decision.role = .leader ∧ ∃ p ∈ v.peers, p.priority < req.xr.spec.identity.priority := by
  obtain ⟨-, hp, -⟩ := verdict_eq_ok_iff.mp hv
  have hrole : Dict.getD rsp.status "role" .null = .str v.decision.role.text := by
    rw [hrsp]
    rfl
  have hleads : Dict.getD rsp.status "role" .null = .str "leader" ↔ v.decision.role = .leader := by
    rw [hrole, Value.str.injEq, Role.text_eq_leader]
  constructor
  · rintro ⟨hl, peers, hpeers, hhigh⟩
    cases hpeers.symm.trans hp
    exact ⟨hleads.mp hl, hhigh⟩
  · rintro ⟨hl, hhigh⟩
    exact ⟨hleads.mpr hl, _, hp, hhigh⟩

/-- There is a request that is fed with what a run left behind. -/
theorem exists_fed (h : compose env req = .ok rsp) : ∃ req', Fed req rsp req' := by
  obtain ⟨v, epoch, kvs, -, hr, rfl⟩ := compose_eq_ok_iff.mp h
  obtain ⟨res, ns, pc, hres, hb⟩ := (rendered_renders hr).own_resource
  refine ⟨⟨⟨req.xr.ns, req.xr.spec, (respond env req v epoch kvs).status⟩, req.context,
      Dict.set req.observed selfHb (observedHeartbeat req.xr.spec.identity.provider
        (ownTagsOf req epoch v.decision.role))⟩, rfl, rfl, rfl, rfl,
    ⟨res, _, hres, (buildParameter_object hb).2.2, ?_⟩, fun name hne => ?_⟩
  · exact Dict.get?_set_self ..
  · exact Dict.get?_set_ne _ _ hne

/-- The knobs with which a run settles. -/
structure Steady (env : Env) (req : Request) : Prop where
  key : LivenessKey req.xr.spec.tsTag
  throttle : 0 < req.xr.spec.throttle
  now : req.xr.spec.throttle ≤ env.now
  gcp : req.xr.spec.identity.provider = "gcp" →
    prevTags (converted req.xr.spec req.observed) = .ok []

/-- A fed request has them too. -/
theorem Fed.steady (hf : Fed req rsp req') (h : Steady env req)
    (hr : rendered env req v = .ok (epoch, kvs)) (hrsp : rsp = respond env req v epoch kvs) :
    Steady env req' where
  key := hf.spec ▸ h.key
  throttle := hf.spec ▸ h.throttle
  now := hf.spec ▸ h.now
  gcp hprovider := by
    rw [hf.prevTags (rendered_renders hr) (by rw [hrsp]; rfl),
      if_pos (by rw [← hf.spec]; exact hprovider)]

theorem settled_of_not_owes (hs : Steady env req) (h : compose env req = .ok rsp)
    (hno : ¬ Owes env req rsp) : Settled env req rsp := by
  intro req' hf
  obtain ⟨v, epoch, kvs, hv, hr, hrsp⟩ := compose_eq_ok_iff.mp h
  have hhigh : v.decision.role = .leader →
      ∀ p ∈ v.peers, ¬ p.priority < req.xr.spec.identity.priority :=
    fun hl p hp hlt => hno ((owes_iff hv hrsp).mpr ⟨hl, p, hp, hlt⟩)
  obtain ⟨d', hd', hrole, htimer, hhandoff, hpolicy, hv', hr'⟩ :=
    hf.again hs.key hs.throttle hs.now hs.gcp hv hr hrsp hhigh
  have hnone := hf.no_transition hrsp hrole
  have hstatus : Status.buildStatus d' v.signal v.peers epoch =
      Dict.set rsp.status "reason" (.str d'.reason) := by
    rw [hrsp]
    exact buildStatus_eq hrole hpolicy htimer hhandoff
  refine ⟨respond env req' ⟨v.signal, v.peers, d'⟩ epoch kvs,
    compose_eq_ok_iff.mpr ⟨_, _, _, hv', hr', rfl⟩, by rw [hrsp]; rfl, ⟨d'.reason, hstatus⟩, ?_, ?_⟩
  · intro msg hm
    rw [respond, hnone, List.append_nil] at hm
    unfold warnings at hm
    split at hm <;> simp at hm
  · intro req'' hf'
    have hs' := hf.steady hs hr hrsp
    obtain ⟨d'', hd'', hrole', -, -, -, hv'', hr''⟩ :=
      hf'.again hs'.key hs'.throttle hs'.now hs'.gcp hv' hr' rfl
        (by rw [hrole, hf.spec]; exact hhigh)
    -- a decision does not read the reason
    have hkeys : ∀ k ∈ decisionKeys, ∀ w, Dict.getD (respond env req' ⟨v.signal, v.peers, d'⟩ epoch
        kvs).status k w = Dict.getD rsp.status k w := by
      intro k hkey w
      have hne : k ≠ "reason" := by
        rintro rfl
        revert hkey
        decide
      show Dict.getD (Status.buildStatus d' v.signal v.peers epoch) k w = _
      rw [hstatus]
      unfold Dict.getD
      rw [Dict.get?_set_ne _ _ hne]
    rw [hf.spec, decide_congr hkeys] at hd''
    have he : d'' = d' := Except.ok.inj (hd''.symm.trans hd')
    subst he
    refine compose_eq_ok_iff.mpr ⟨_, _, _, hv'', hr'', ?_⟩
    unfold respond
    rw [hnone, hf'.no_transition rfl hrole', warnings, warnings, hf'.spec]

/-- **Reconciling settles** at once exactly where no leader sees a higher-priority peer, and after
one fed run in any case. -/
theorem settles (hs : Steady env req) (h : compose env req = .ok rsp) :
    (Settled env req rsp ↔ ¬ Owes env req rsp) ∧
      ∀ req', Fed req rsp req' → ∃ rsp', compose env req' = .ok rsp' ∧ Settled env req' rsp' := by
  obtain ⟨v, epoch, kvs, hv, hr, hrsp⟩ := compose_eq_ok_iff.mp h
  -- with a higher-priority peer a fed run stands by
  have hstandby : ∀ req', Fed req rsp req' → ∃ d' epoch' kvs',
      verdict env req' = .ok ⟨v.signal, v.peers, d'⟩ ∧
      rendered env req' ⟨v.signal, v.peers, d'⟩ = .ok (epoch', kvs') ∧
      ∀ p ∈ v.peers, p.priority < req.xr.spec.identity.priority → d'.role = .standby := by
    intro req' hf
    obtain ⟨d', epoch', kvs', hd', hv', hr'⟩ := hf.exists_answer hv hr hrsp
    refine ⟨d', epoch', kvs', hv', hr', fun p hp hlt => ?_⟩
    rw [hrsp] at hd'
    exact standby_again (verdict_eq_ok_iff.mp hv).2.2 hd' hp hlt
  refine ⟨⟨fun hsettled howes => ?_, settled_of_not_owes hs h⟩, fun req' hf => ?_⟩
  · obtain ⟨hl, p, hp, hlt⟩ := (owes_iff hv hrsp).mp howes
    obtain ⟨req', hf⟩ := exists_fed h
    obtain ⟨rsp', h', -, ⟨reason, hstatus⟩, -⟩ := hsettled req' hf
    obtain ⟨d', epoch', kvs', hv', hr', hst⟩ := hstandby req' hf
    have hrole : Dict.getD rsp'.status "role" .null = .str "standby" := by
      cases h'.symm.trans (compose_eq_ok_iff.mpr ⟨_, _, _, hv', hr', rfl⟩)
      show Value.str d'.role.text = _
      rw [hst p hp hlt]
      rfl
    rw [hstatus, Dict.getD, Dict.get?_set_ne _ _ (by decide), ← Dict.getD, howes.leads] at hrole
    exact absurd hrole (by simp)
  · obtain ⟨d', epoch', kvs', hv', hr', hst⟩ := hstandby req' hf
    have h' : compose env req' = .ok (respond env req' ⟨v.signal, v.peers, d'⟩ epoch' kvs') :=
      compose_eq_ok_iff.mpr ⟨_, _, _, hv', hr', rfl⟩
    refine ⟨_, h', settled_of_not_owes (hf.steady hs hr hrsp) h' fun howes => ?_⟩
    obtain ⟨hl, p, hp, hlt⟩ := (owes_iff hv' rfl).mp howes
    rw [hst p hp (hf.spec ▸ hlt)] at hl
    cases hl

/-- A request of `cp-b`, whose timer is over and whose higher-priority peer is down. -/
def promoting : Request :=
  ⟨⟨none, sampleSpec memberB.toIdentity [memberA, memberB],
      [("promotionCandidateSince", .str "1")]⟩, .dict [],
    [(peerHbResourceName "cp-a", observedHeartbeat "aws"
      (ownTags memberA.toIdentity tsTagDefault 1 "leader"))]⟩

/-- It leads, steps down to a candidate, and settles. -/
theorem settles_memberB : ∃ env rsp, compose env promoting = .ok rsp ∧
    Dict.getD rsp.status "role" .null = .str "leader" ∧ ¬ Settled env promoting rsp ∧
      ∃ req' rsp', Fed promoting rsp req' ∧ compose env req' = .ok rsp' ∧
        Settled env req' rsp' := by
  obtain ⟨rsp, hrsp, hrole⟩ : ∃ rsp, compose ⟨1000, "", true, fun _ => []⟩ promoting = .ok rsp ∧
      Dict.getD rsp.status "role" .null = .str "leader" := ⟨_, rfl, rfl⟩
  have hs : Steady ⟨1000, "", true, fun _ => []⟩ promoting :=
    ⟨livenessKey_default, by decide, by decide, fun hprovider => absurd hprovider (by decide)⟩
  have howes : Owes ⟨1000, "", true, fun _ => []⟩ promoting rsp :=
    ⟨hrole, _, rfl, _, List.mem_cons_self, by decide⟩
  obtain ⟨hiff, hnext⟩ := settles hs hrsp
  obtain ⟨req', hf⟩ := exists_fed hrsp
  obtain ⟨rsp', h', hsettled⟩ := hnext req' hf
  exact ⟨_, rsp, hrsp, hrole, fun h => hiff.mp h howes, req', rsp', hf, h', hsettled⟩

end Settle

end ResilientCtp
