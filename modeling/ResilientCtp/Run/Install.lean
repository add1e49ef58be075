import ResilientCtp.Lib.Lts
import ResilientCtp.Run.Resources

/-!
# `install: auto` over a platform's k8gb

A run is the list of its completed reconciles, newest first. Each one finds a Gslb in the context,
and observes resources that earlier ones rendered. The first one manages its own Gslb, since a
Gslb is found; from the next on this Gslb counts as evidence that the operator was installed
here, and the Releases are rendered.

* `installs_nothing_iff`: a run renders no Release if and only if it never observes its own Gslb.
* `unmanaged_installs_nothing`: so it is with `gslb.manage = false`.
* `installs_over_platform`: two reconciles that install.
-/

namespace ResilientCtp

open Py

namespace Install

structure Round where
  env : Env
  req : Request
  rsp : Response

/-- `observed` is the resource `rendered` with an arbitrary status, or none yet. -/
def Reports (rendered observed : Value) : Prop :=
  observed = rendered ∨
    ∃ fields status, rendered = .dict fields ∧ observed = .dict (Dict.set fields "status" status)

/-- A completed reconcile after the rounds `rs`. -/
structure Next (spec : Spec) (rs : List Round) (r : Round) : Prop where
  spec : r.req.xr.spec = spec
  fetched : ∃ gslbs, fetchedGslbs r.req.context = .ok gslbs ∧ gslbs ≠ []
  observed : ∀ name v, Dict.get? r.req.observed name = some v →
    ∃ q ∈ rs, ∃ w, Dict.get? q.rsp.resources name = some w ∧ Reports w v
  response : compose r.env r.req = .ok r.rsp

/-- The runs of one XR on a platform that has a Gslb. -/
def run (spec : Spec) : Lts.System (List Round) Round where
  init rs := rs = []
  step rs r rs' := Next spec rs r ∧ rs' = r :: rs

def Round.Renders (r : Round) (name : String) : Prop :=
  (Dict.get? r.rsp.resources name).isSome = true

/-- The reconcile renders one of the Releases of k8gb. -/
def Round.Installs (r : Round) : Prop :=
  r.Renders K8gbInstall.k8gbOperator ∨ r.Renders K8gbInstall.k8gbNginx

/-- The reconcile observes the Gslb that an earlier one composed. -/
def Round.ObservesGslb (r : Round) : Prop :=
  (Dict.get? r.req.observed GslbBuild.gslbResource).isSome = true

variable {spec : Spec} {rs : List Round} {r : Round} {g : GslbSignal} {l : Reconciled}

theorem reach_of_mem (h : (run spec).Reach rs) :
    ∀ q ∈ rs, ∃ earlier, (run spec).Reach earlier ∧ Next spec earlier q := by
  intro q hq
  obtain ⟨earlier, -, he, hn⟩ := h.entry hq
  exact ⟨earlier, he, hn⟩

/-! ## One reconcile -/

/-- Under `auto`, with a Gslb found, the Releases are rendered where k8gb counts as installed. -/
theorem installs_iff (hauto : spec.k8gb.install.getD "auto" = "auto") (h : Next spec rs r) :
    r.Installs ↔ operatorInstalled (converted spec r.req.observed) = true := by
  obtain ⟨gslbs, ready, hg⟩ := compose_gates h.response
  obtain ⟨fetched, hf, hne⟩ := h.fetched
  have hlisted : gslbs.isEmpty = false := by simpa using allGslbs_ne_nil hf hne hg.listed
  have hrenders : ∀ name ∈ [K8gbInstall.k8gbOperator, K8gbInstall.k8gbNginx],
      r.Renders name ↔ operatorInstalled (converted spec r.req.observed) = true := by
    intro name hname
    rw [Round.Renders, hg.releases name hname, h.spec, hauto, hlisted, K8gbInstall.shouldInstall,
      if_neg (by decide), if_pos rfl]
    simp
  rw [Round.Installs, hrenders _ (by simp), hrenders _ (by simp), or_self]

/-- Nothing observed that would count as an installed k8gb. -/
theorem operatorInstalled_eq_false {observed : Dict}
    (h1 : Dict.get? observed K8gbInstall.k8gbOperator = none)
    (h2 : Dict.get? observed K8gbInstall.k8gbNginx = none)
    (h3 : Dict.get? observed GslbBuild.gslbResource = none) :
    operatorInstalled (converted spec observed) = false := by
  rw [← @get?_converted spec _ _ (by decide)] at h1 h2 h3
  simp [operatorInstalled, composedGslb, Dict.getD, h1, h2, h3, Value.truthy]

/-- An own Gslb, as it is observed, counts. -/
theorem operatorInstalled_of_gslb (hr : (run spec).Reach rs) (h : Next spec rs r)
    (ho : r.ObservesGslb) :
    operatorInstalled (converted spec r.req.observed) = true := by
  obtain ⟨v, hv⟩ := Option.isSome_iff_exists.mp ho
  obtain ⟨q, hq, w, hw, hrep⟩ := h.observed _ v hv
  obtain ⟨earlier, -, hn⟩ := reach_of_mem hr q hq
  obtain ⟨fields, rfl, hkind⟩ := kind_of_compose hn.response hw
  have htruthy : v.truthy = true := by
    rcases hrep with rfl | ⟨f, status, -, rfl⟩
    · cases fields with
      | nil => cases hkind
      | cons kv fields => rfl
    · cases f with
      | nil => rfl
      | cons kv f =>
        simp only [Dict.set]
        split <;> rfl
  have hv' : Dict.get? (converted spec r.req.observed) GslbBuild.gslbResource = some v := by
    rw [get?_converted (by decide)]
    exact hv
  simp [operatorInstalled, composedGslb, Dict.getD, hv', htruthy]

/-! ## Runs -/

/-- What was never rendered is not observed. -/
theorem Next.not_observed (h : Next spec rs r) {name : String}
    (hno : ∀ q ∈ rs, ¬ q.Renders name) : Dict.get? r.req.observed name = none := by
  cases hv : Dict.get? r.req.observed name with
  | none => rfl
  | some v =>
    obtain ⟨q, hq, w, hw, -⟩ := h.observed name v hv
    exact absurd (Option.isSome_iff_exists.mpr ⟨w, hw⟩) (hno q hq)

/-- A run that never observes its own Gslb installs nothing. -/
theorem installs_nothing (hauto : spec.k8gb.install.getD "auto" = "auto")
    (h : (run spec).Reach rs) (ho : ∀ r ∈ rs, ¬ r.ObservesGslb) : ∀ r ∈ rs, ¬ r.Installs := by
  induction h with
  | init hi => cases hi; simp
  | step _ hst ih =>
    obtain ⟨hn, rfl⟩ := hst
    have ih := ih fun q hq => ho q (List.mem_cons_of_mem _ hq)
    intro q hq
    rcases List.mem_cons.mp hq with rfl | hq
    · rw [installs_iff hauto hn, operatorInstalled_eq_false]
      · decide
      · exact hn.not_observed fun p hp hr => ih p hp (.inl hr)
      · exact hn.not_observed fun p hp hr => ih p hp (.inr hr)
      · exact Option.not_isSome_iff_eq_none.mp (ho q List.mem_cons_self)
    · exact ih q hq

/-- **No install over a platform's k8gb**, exactly as long as the own Gslb is not observed. -/
theorem installs_nothing_iff (hauto : spec.k8gb.install.getD "auto" = "auto")
    (h : (run spec).Reach rs) :
    (∀ r ∈ rs, ¬ r.Installs) ↔ ∀ r ∈ rs, ¬ r.ObservesGslb := by
  refine ⟨fun hi r hr ho => ?_, installs_nothing hauto h⟩
  obtain ⟨earlier, he, hn⟩ := reach_of_mem h r hr
  exact hi r hr ((installs_iff hauto hn).mpr (operatorInstalled_of_gslb he hn ho))

/-- A run under `gslb.manage = false` installs nothing: it never has a Gslb of its own. -/
theorem unmanaged_installs_nothing (hauto : spec.k8gb.install.getD "auto" = "auto")
    (hm : spec.gslb.manage = some false) (h : (run spec).Reach rs) : ∀ r ∈ rs, ¬ r.Installs := by
  have hnone : ∀ q ∈ rs, ∃ earlier, Next spec earlier q ∧ ∀ p ∈ earlier,
      ¬ p.Renders GslbBuild.gslbResource := by
    intro q hq
    obtain ⟨earlier, he, hn⟩ := reach_of_mem h q hq
    refine ⟨earlier, hn, fun p hp hr => ?_⟩
    obtain ⟨e, -, hp⟩ := reach_of_mem he p hp
    obtain ⟨gslbs, ready, hg⟩ := compose_gates hp.response
    have hmanage := hg.gslb.mp hr
    rw [hp.spec, GslbBuild.shouldManage, hm] at hmanage
    cases hmanage
  refine installs_nothing hauto h fun q hq ho => ?_
  obtain ⟨earlier, hn, hno⟩ := hnone q hq
  rw [Round.ObservesGslb, hn.not_observed hno] at ho
  cases ho

/-! ## Two reconciles on a platform -/

/-- The context with the Gslb of the platform. -/
def platformContext : Value :=
  .dict [(extraResourcesKey, .dict [("gslbs", .list [.dict [
    ("kind", .str "Gslb"),
    ("metadata", .dict [("name", .str "platform-gslb")])]])])]

def platformEnv (now : Int) : Env :=
  { now, isoNow := "", directApiDepsAvailable := true, pool := fun _ => [] }

def platformSpec : Spec := sampleSpec memberA.toIdentity [memberA, memberB]

/-- A request that observes `observed`. -/
def platformRequest (observed : Dict) : Request :=
  { xr := { ns := none, spec := platformSpec, status := [] }, context := platformContext, observed }

/-- The Gslb that the first reconcile renders. -/
def ownGslb : Value :=
  GslbBuild.gslb "app.cloud.example.com" "failover" "nginx" "app" memberA.toIdentity
    [memberA, memberB] "default"

/-- Its heartbeat. -/
def ownHeartbeat : Value :=
  match Heartbeat.buildOwn memberA.toIdentity "default" "default" tsTagDefault 1000 "standby" with
  | .ok own => own.2
  | .error _ => .null

/-- A second reconcile that observes one of the resources which the first one rendered. -/
theorem exists_second {name : String} {v : Value}
    (hw : ∀ rsp, compose (platformEnv 1000) (platformRequest []) = .ok rsp →
      Dict.get? rsp.resources name = some v)
    (h : ∃ rsp, compose (platformEnv 1060) (platformRequest [(name, v)]) = .ok rsp) :
    ∃ r q, (run platformSpec).Reach [r, q] ∧ q.req = platformRequest [] ∧
      r.req = platformRequest [(name, v)] := by
  obtain ⟨rsp, hrsp⟩ : ∃ rsp, compose (platformEnv 1000) (platformRequest []) = .ok rsp := ⟨_, rfl⟩
  have hq : Next platformSpec [] ⟨platformEnv 1000, platformRequest [], rsp⟩ :=
    ⟨rfl, ⟨_, rfl, List.cons_ne_nil _ _⟩, fun name v hv => by simp [platformRequest] at hv, hrsp⟩
  obtain ⟨rsp', hrsp'⟩ := h
  have hn : Next platformSpec [⟨platformEnv 1000, platformRequest [], rsp⟩]
      ⟨platformEnv 1060, platformRequest [(name, v)], rsp'⟩ := by
    refine ⟨rfl, ⟨_, rfl, List.cons_ne_nil _ _⟩, fun name' v' hv => ?_, hrsp'⟩
    refine ⟨_, List.mem_cons_self, v', ?_, .inl rfl⟩
    simp only [platformRequest, Dict.get?_cons] at hv
    split at hv
    · next hk =>
      cases hv
      rw [hk]
      exact hw rsp hrsp
    · cases hv
  exact ⟨_, _, .step (.step (.init rfl) ⟨hq, rfl⟩) ⟨hn, rfl⟩, rfl, rfl⟩

/-- The second reconcile observes the heartbeat of the first one, and neither installs. -/
theorem installs_nothing_iff_platform : ∃ r q, (run platformSpec).Reach [r, q] ∧
    r.req.observed = [(selfHb, ownHeartbeat)] ∧ ¬ q.Installs ∧ ¬ r.Installs := by
  obtain ⟨r, q, hr, hq, hreq⟩ := @exists_second selfHb ownHeartbeat
    (fun rsp hrsp => by cases hrsp; rfl) ⟨_, rfl⟩
  have hnone : ∀ x ∈ [r, q], ¬ x.ObservesGslb := by
    intro x hx
    simp only [List.mem_cons, List.not_mem_nil, or_false] at hx
    rcases hx with rfl | rfl
    · rw [Round.ObservesGslb, hreq]
      decide
    · rw [Round.ObservesGslb, hq]
      decide
  have hno := (installs_nothing_iff rfl hr).mpr hnone
  exact ⟨r, q, hr, by rw [hreq]; rfl, hno q (by simp), hno r (by simp)⟩

/-- The second reconcile on a platform with a k8gb observes its Gslb, and installs another one. -/
theorem installs_over_platform : ¬ ∀ (spec : Spec) (rs : List Round),
    spec.k8gb.install.getD "auto" = "auto" → (run spec).Reach rs → ∀ r ∈ rs, ¬ r.Installs := by
  intro h
  obtain ⟨r, q, hr, -, hreq⟩ := @exists_second GslbBuild.gslbResource ownGslb
    (fun rsp hrsp => by cases hrsp; rfl) ⟨_, rfl⟩
  have ho : r.ObservesGslb := by
    rw [Round.ObservesGslb, hreq]
    rfl
  obtain ⟨earlier, he, hn⟩ := reach_of_mem hr r List.mem_cons_self
  exact h _ _ rfl hr r List.mem_cons_self
    ((installs_iff rfl hn).mpr (operatorInstalled_of_gslb he hn ho))

end Install

end ResilientCtp
