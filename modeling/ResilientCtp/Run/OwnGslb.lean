import ResilientCtp.Reads.Signal
import ResilientCtp.Run.Install

/-!
# The Gslb and the k8gb that one control plane keeps for itself

Under `install: auto` and `gslb.manage`, without a Gslb of anyone else, the first reconciles
install k8gb, one that observes the operator Ready renders the Gslb, and from then on the Gslb is
both what keeps k8gb installed and what keeps itself rendered. An observation can miss a resource
for a moment: what is not rendered is deleted.

* `Next.releases`, `Next.gslb`: the two gates of a reconcile.
* `keeps_k8gb`: no missing observation uninstalls k8gb, and the Gslb never comes before a Ready
  operator.
* `gslb_kept_iff`: the Gslb is kept exactly as long as no reconcile forgets it (`Forgets`).
* `drops_gslb`: a third reconcile that deletes it.
-/

namespace ResilientCtp

open Py

namespace OwnGslb

open Install (Round)

/-! ## Runs -/

/-- The part of the spec that a run keeps; the rest may change. -/
structure Managed (spec : Spec) : Prop where
  install : spec.k8gb.install.getD "auto" = "auto"
  manage : spec.gslb.manage.getD true = true

/-- `observed` is what the cluster has made of `rendered`: an object of the same kind. -/
def Shows (rendered observed : Value) : Prop :=
  ∃ fields fields' kind, rendered = .dict fields ∧ observed = .dict fields' ∧
    Dict.get? fields "kind" = some kind ∧ Dict.get? fields' "kind" = some kind

/-- One of the rounds rendered what `v` shows. -/
def Rendered (rs : List Round) (name : String) (v : Value) : Prop :=
  ∃ q ∈ rs, ∃ w, Dict.get? q.rsp.resources name = some w ∧ Shows w v

/-- A completed reconcile after the rounds `rs`. It can miss any of the resources. -/
structure Next (rs : List Round) (r : Round) : Prop where
  managed : Managed r.req.xr.spec
  fetched : ∃ gslbs, fetchedGslbs r.req.context = .ok gslbs ∧
    ∀ g ∈ gslbs, Rendered rs GslbBuild.gslbResource g
  observed : ∀ name v, Dict.get? r.req.observed name = some v → Rendered rs name v
  response : compose r.env r.req = .ok r.rsp

/-- The runs of one XR, newest round first, in a cluster without other Gslbs. -/
def run : Lts.System (List Round) Round := Lts.System.log Next

def Observes (r : Round) (name : String) : Prop := (Dict.get? r.req.observed name).isSome = true

/-- The operator Release is observed, with `Ready=True`. -/
def ObservesReady (r : Round) : Prop :=
  ∃ v, Dict.get? r.req.observed K8gbInstall.k8gbOperator = some v ∧ IsReady v

/-- Of the k8gb resources that the rounds `rs` rendered, the round `r` misses one at most. -/
def OmitsAtMostOne (rs : List Round) (r : Round) : Prop :=
  ∀ a ∈ k8gbNames, ∀ b ∈ k8gbNames, a ≠ b →
    (∃ q ∈ rs, q.Renders a) → (∃ q ∈ rs, q.Renders b) → Observes r a ∨ Observes r b

variable {rs : List Round} {r q : Round} {name : String} {v : Value}

theorem Rendered.renders (h : Rendered rs name v) : ∃ q ∈ rs, q.Renders name := by
  obtain ⟨q, hq, w, hw, -⟩ := h
  exact ⟨q, hq, Option.isSome_iff_exists.mpr ⟨w, hw⟩⟩

theorem Rendered.truthy (h : Rendered rs name v) : v.truthy = true := by
  obtain ⟨q, -, w, -, fields, fields', kind, -, rfl, -, hk⟩ := h
  cases fields' with
  | nil => cases hk
  | cons field fields' => rfl

/-- What is observed or fetched of the own Gslb is a Gslb. -/
theorem Rendered.isGslb (hr : run.Reach rs) (h : Rendered rs GslbBuild.gslbResource v) :
    IsGslb v := by
  obtain ⟨q, hq, w, hw, fields, fields', kind, rfl, rfl, hk, hk'⟩ := h
  obtain ⟨older, -, -, hn⟩ := hr.entry hq
  obtain ⟨_, he, hkind⟩ := kind_of_compose hn.response hw
  cases he
  cases hk.symm.trans hkind
  refine ⟨fields', rfl, ?_⟩
  rw [isStr_getD]
  exact hk'

theorem Next.renders_of_observes (h : Next rs r) (ho : Observes r name) :
    ∃ q ∈ rs, q.Renders name := by
  obtain ⟨v, hv⟩ := Option.isSome_iff_exists.mp ho
  exact (h.observed name v hv).renders

theorem getD_truthy (h : Next rs r) {name : String} (hname : name.toList.head? ≠ some 'h') :
    (Dict.getD (converted r.req.xr.spec r.req.observed) name .null).truthy = true ↔
      Observes r name := by
  rw [Dict.getD, get?_converted hname, Observes]
  cases hv : Dict.get? r.req.observed name with
  | none => simp [Value.truthy]
  | some v => simp [(h.observed name v hv).truthy]

/-- Some Gslb is listed, fetched or observed. -/
theorem listed_isEmpty {gslbs : List Value} {fetched : List Value} (hr : run.Reach rs)
    (h : Next rs r) (hf : fetchedGslbs r.req.context = .ok fetched)
    (hg : allGslbs r.req.context (converted r.req.xr.spec r.req.observed) = .ok gslbs) :
    gslbs.isEmpty = true ↔ fetched = [] ∧ ¬ Observes r GslbBuild.gslbResource := by
  by_cases ho : Observes r GslbBuild.gslbResource
  · obtain ⟨v, hv⟩ := Option.isSome_iff_exists.mp ho
    have hc : IsGslb (composedGslb (converted r.req.xr.spec r.req.observed)) := by
      rw [composedGslb, Dict.getD, get?_converted (by decide), hv]
      exact (h.observed _ v hv).isGslb hr
    cases (allGslbs_eq hf hc).symm.trans hg
    simp [ho]
  · have hfalsy : (composedGslb (converted r.req.xr.spec r.req.observed)).truthy = false := by
      rw [Bool.eq_false_iff]
      exact fun ht => ho ((getD_truthy h (by decide)).mp ht)
    unfold allGslbs at hg
    rw [hf, ok_bind] at hg
    simp only [hfalsy] at hg
    cases hg
    simp [ho]

/-- The operator counts as installed as soon as one of the three is observed. -/
theorem operatorInstalled_iff (h : Next rs r) :
    operatorInstalled (converted r.req.xr.spec r.req.observed) = true ↔
      ∃ a ∈ k8gbNames, Observes r a := by
  simp only [operatorInstalled, composedGslb, Bool.or_eq_true]
  rw [getD_truthy h (by decide), getD_truthy h (by decide), getD_truthy h (by decide)]
  simp [k8gbNames, or_assoc]

/-- **The gate of the Releases.** -/
theorem Next.releases (hr : run.Reach rs) (h : Next rs r)
    (hname : name ∈ [K8gbInstall.k8gbOperator, K8gbInstall.k8gbNginx]) :
    r.Renders name ↔
      (∃ a ∈ k8gbNames, Observes r a) ∨ fetchedGslbs r.req.context = .ok [] := by
  obtain ⟨gslbs, ready, hg⟩ := compose_gates h.response
  obtain ⟨fetched, hf, -⟩ := h.fetched
  have hempty := listed_isEmpty hr h hf hg.listed
  rw [Round.Renders, hg.releases name hname, h.managed.install, K8gbInstall.shouldInstall,
    if_neg (by decide), if_pos rfl, Bool.not_not, Bool.or_eq_true, operatorInstalled_iff h, hempty,
    hf, Except.ok.injEq]
  constructor
  · rintro (ho | ⟨he, -⟩)
    · exact .inl ho
    · exact .inr he
  · rintro (ho | he)
    · exact .inl ho
    · by_cases ho : Observes r GslbBuild.gslbResource
      · exact .inl ⟨_, by simp [k8gbNames], ho⟩
      · exact .inr ⟨he, ho⟩

/-- **The gate of the Gslb.** -/
theorem Next.gslb (hr : run.Reach rs) (h : Next rs r) :
    r.Renders GslbBuild.gslbResource ↔ ObservesReady r ∨
      Observes r GslbBuild.gslbResource ∨ fetchedGslbs r.req.context ≠ .ok [] := by
  obtain ⟨gslbs, ready, hg⟩ := compose_gates h.response
  obtain ⟨fetched, hf, -⟩ := h.fetched
  have hempty := listed_isEmpty hr h hf hg.listed
  rw [Round.Renders, hg.gslb, GslbBuild.shouldManage, h.managed.manage, if_neg (by decide),
    Bool.or_eq_true, Bool.not_eq_true', ← Bool.not_eq_true, hempty, hg.operator, hf, Ne,
    Except.ok.injEq, not_and_or, not_not, or_comm (a := ¬ fetched = [])]
  rfl

/-- A Gslb that is found was rendered. -/
theorem Next.gslb_before (h : Next rs r) (hfound : Observes r GslbBuild.gslbResource ∨
    fetchedGslbs r.req.context ≠ .ok []) : ∃ q ∈ rs, q.Renders GslbBuild.gslbResource := by
  rcases hfound with ho | hne
  · exact h.renders_of_observes ho
  · obtain ⟨fetched, hf, hall⟩ := h.fetched
    obtain ⟨g, hg⟩ := List.exists_mem_of_ne_nil fetched (by rintro rfl; exact hne hf)
    exact (hall g hg).renders

/-! ## What comes before the Gslb -/

/-- The first round that renders the Gslb observes a Ready operator. -/
theorem ready_of_gslb (h : run.Reach rs) (hrendered : ∃ q ∈ rs, q.Renders GslbBuild.gslbResource) :
    ∃ q ∈ rs, ObservesReady q := by
  induction h with
  | init hi =>
    cases hi
    obtain ⟨q, hq, -⟩ := hrendered
    cases hq
  | step hr hst ih =>
    obtain ⟨hn, rfl⟩ := hst
    have hearlier : ∀ rs, (∃ q ∈ rs, ObservesReady q) → ∀ r, ∃ q ∈ r :: rs, ObservesReady q := by
      rintro rs ⟨q, hq, hready⟩ r
      exact ⟨q, List.mem_cons_of_mem r hq, hready⟩
    obtain ⟨q, hq, hrender⟩ := hrendered
    rcases List.mem_cons.mp hq with rfl | hq
    · rcases (Next.gslb hr hn).mp hrender with hready | hfound
      · exact ⟨q, List.mem_cons_self, hready⟩
      · exact hearlier _ (ih (hn.gslb_before hfound)) _
    · exact hearlier _ (ih ⟨q, hq, hrender⟩) _

/-- Before the Gslb both Releases were rendered. -/
theorem releases_of_gslb (h : run.Reach rs)
    (hrendered : ∃ q ∈ rs, q.Renders GslbBuild.gslbResource) :
    ∀ name ∈ [K8gbInstall.k8gbOperator, K8gbInstall.k8gbNginx], ∃ q ∈ rs, q.Renders name := by
  obtain ⟨q, hq, v, hv, -⟩ := ready_of_gslb h hrendered
  obtain ⟨older, hs, -, hn⟩ := h.entry hq
  obtain ⟨p, hp, hoperator⟩ := (hn.observed _ v hv).renders
  have hp : p ∈ rs := hs.subset (List.mem_cons_of_mem q hp)
  obtain ⟨older', -, hr', hn'⟩ := h.entry hp
  intro name hname
  refine ⟨p, hp, (Next.releases hr' hn' hname).mpr ?_⟩
  exact (Next.releases hr' hn' (by simp)).mp hoperator

/-- With one omission at most, one of any two is observed. -/
theorem observes_or (h : run.Reach rs) (hrendered : ∃ q ∈ rs, q.Renders GslbBuild.gslbResource)
    (ho : OmitsAtMostOne rs r) {a b : String} (ha : a ∈ k8gbNames) (hb : b ∈ k8gbNames)
    (hne : a ≠ b) : Observes r a ∨ Observes r b := by
  have hall : ∀ name ∈ k8gbNames, ∃ q ∈ rs, q.Renders name := by
    intro name hname
    simp only [k8gbNames, List.mem_cons, List.not_mem_nil, or_false] at hname
    rcases hname with rfl | rfl | rfl
    · exact releases_of_gslb h hrendered _ (by simp)
    · exact releases_of_gslb h hrendered _ (by simp)
    · exact hrendered
  exact ho a ha b hb hne (hall a ha) (hall b hb)

/-! ## k8gb is kept -/

/-- From the first Gslb on a round misses one of the three at most. -/
def Steadily (rs : List Round) (r : Round) : Prop :=
  (∃ q ∈ rs, q.Renders GslbBuild.gslbResource) → OmitsAtMostOne rs r

theorem Next.keeps_releases (hr : run.Reach rs) (h : Next rs r) (hsteady : Steadily rs r)
    (hname : name ∈ [K8gbInstall.k8gbOperator, K8gbInstall.k8gbNginx]) : r.Renders name := by
  rw [Next.releases hr h hname]
  by_cases hrendered : ∃ q ∈ rs, q.Renders GslbBuild.gslbResource
  · left
    rcases observes_or hr hrendered (hsteady hrendered)
        (a := K8gbInstall.k8gbOperator) (b := K8gbInstall.k8gbNginx) (by simp [k8gbNames])
        (by simp [k8gbNames]) (by decide) with ho | ho
    · exact ⟨_, by simp [k8gbNames], ho⟩
    · exact ⟨_, by simp [k8gbNames], ho⟩
  · right
    by_contra hne
    exact hrendered (h.gslb_before (.inr hne))

/-- **k8gb is kept.** In a run that never misses two of the three at a time, every round renders
both Releases, and one that renders the Gslb is no earlier than a Ready operator. -/
theorem keeps_k8gb (h : (run.restrict Steadily).Reach rs) :
    (∀ r ∈ rs, r.Renders K8gbInstall.k8gbOperator ∧ r.Renders K8gbInstall.k8gbNginx) ∧
      ∀ r older, r :: older <:+ rs → r.Renders GslbBuild.gslbResource →
        ∃ q ∈ r :: older, ObservesReady q := by
  constructor
  · intro r hr
    obtain ⟨older, -, ho, hn, hsteady⟩ := (Lts.System.reach_log_restrict.mp h).entry hr
    have ho : run.Reach older := (Lts.System.reach_log_restrict.mpr ho).of_restrict
    exact ⟨Next.keeps_releases ho hn hsteady (by simp),
      Next.keeps_releases ho hn hsteady (by simp)⟩
  · intro r older hs hrender
    obtain ⟨hr, hn⟩ := (h.of_restrict.suffix hs).head
    exact ready_of_gslb (.step hr ⟨hn, rfl⟩) ⟨r, List.mem_cons_self, hrender⟩

/-! ## The Gslb is kept -/

/-- Once the Gslb is rendered, every round that misses one of the three at most renders it. -/
def GslbKept (rs : List Round) : Prop :=
  ∀ r older, r :: older <:+ rs → (∃ q ∈ older, q.Renders GslbBuild.gslbResource) →
    OmitsAtMostOne older r → r.Renders GslbBuild.gslbResource

/-- The round neither observes nor fetches the Gslb, and observes no Ready operator. -/
def Forgets (r : Round) : Prop :=
  ¬ Observes r GslbBuild.gslbResource ∧ fetchedGslbs r.req.context = .ok [] ∧ ¬ ObservesReady r

theorem not_renders_iff_forgets (hr : run.Reach rs) (h : Next rs r) :
    ¬ r.Renders GslbBuild.gslbResource ↔ Forgets r := by
  rw [Next.gslb hr h, not_or, not_or, not_not]
  exact and_rotate

/-- The Gslb is the one resource that a forgetting round misses. -/
theorem Forgets.observes (hf : Forgets r) (h : run.Reach rs)
    (hrendered : ∃ q ∈ rs, q.Renders GslbBuild.gslbResource) (ho : OmitsAtMostOne rs r) :
    Observes r K8gbInstall.k8gbOperator ∧ Observes r K8gbInstall.k8gbNginx := by
  constructor
  · exact (observes_or h hrendered ho (by simp [k8gbNames]) (by simp [k8gbNames])
      (by decide)).resolve_right hf.1
  · exact (observes_or h hrendered ho (by simp [k8gbNames]) (by simp [k8gbNames])
      (by decide)).resolve_right hf.1

/-- **The Gslb is kept** exactly in the runs in which no such round forgets it. -/
theorem gslb_kept_iff (h : run.Reach rs) :
    GslbKept rs ↔ ∀ r older, r :: older <:+ rs →
      (∃ q ∈ older, q.Renders GslbBuild.gslbResource) → OmitsAtMostOne older r → ¬ Forgets r := by
  refine forall₃_congr fun r older hs => forall₂_congr fun _ _ => ?_
  obtain ⟨hr, hn⟩ := (h.suffix hs).head
  rw [← not_renders_iff_forgets hr hn, not_not]

/-! ## Three rounds -/

/-- A request that fetches nothing. -/
def soloRequest (observed : Dict) : Request :=
  { xr := { ns := none, spec := Install.platformSpec, status := [] }, context := .dict []
    observed }

def unreadyRelease : Value := .dict [("kind", .str "Release")]

def readyRelease : Value :=
  .dict [("kind", .str "Release"), ("status", .dict [("conditions", .list [.dict [
    ("type", .str "Ready"), ("status", .str "True")]])])]

/-- A round that observes `observed`. -/
def soloRound (now : Int) (observed : Dict) (rsp : Response) : Round :=
  ⟨Install.platformEnv now, soloRequest observed, rsp⟩

theorem next_soloRound {now : Int} {observed : Dict} {rsp : Response}
    (hobs : ∀ kv ∈ observed, Rendered rs kv.1 kv.2)
    (hc : compose (Install.platformEnv now) (soloRequest observed) = .ok rsp) :
    Next rs (soloRound now observed rsp) := by
  refine ⟨⟨rfl, rfl⟩, ⟨[], rfl, nofun⟩, fun name v hv => ?_, hc⟩
  obtain ⟨before, after, rfl, -⟩ := List.lookup_eq_some_iff.mp hv
  exact hobs (name, v) (by simp)

/-- The operator alone is observed, and Ready. -/
def observedReady : Dict := [(K8gbInstall.k8gbOperator, readyRelease)]

/-- The Releases are observed, and not Ready. -/
def observedUnready : Dict :=
  [(K8gbInstall.k8gbOperator, unreadyRelease), (K8gbInstall.k8gbNginx, unreadyRelease)]

theorem not_renders (h : Dict.get? r.rsp.resources name = none) : ¬ r.Renders name := by
  rw [Round.Renders, h]
  exact Bool.false_ne_true

theorem omitsAtMostOne_of_releases (ho : Observes r K8gbInstall.k8gbOperator)
    (hn : Observes r K8gbInstall.k8gbNginx) : OmitsAtMostOne rs r := by
  intro a ha b hb hne _ _
  simp only [k8gbNames, List.mem_cons, List.not_mem_nil, or_false] at ha hb
  rcases ha with rfl | rfl | rfl
  · exact .inl ho
  · exact .inl hn
  · rcases hb with rfl | rfl | rfl
    · exact .inr ho
    · exact .inr hn
    · exact absurd rfl hne

/-- The first round renders the Releases. -/
theorem exists_install : ∃ p, (run.restrict Steadily).Reach [p] ∧
    ¬ p.Renders GslbBuild.gslbResource ∧
    ∀ fields, Dict.get? fields "kind" = some (.str "Release") →
      Rendered [p] K8gbInstall.k8gbOperator (.dict fields) ∧
      Rendered [p] K8gbInstall.k8gbNginx (.dict fields) := by
  obtain ⟨rsp, hrsp, hgslb, operator, nginx, hoperator, hkind, hnginx, hkind'⟩ :
      ∃ rsp, compose (Install.platformEnv 1000) (soloRequest []) = .ok rsp ∧
        Dict.get? rsp.resources GslbBuild.gslbResource = none ∧ ∃ operator nginx,
        Dict.get? rsp.resources K8gbInstall.k8gbOperator = some (.dict operator) ∧
        Dict.get? operator "kind" = some (.str "Release") ∧
        Dict.get? rsp.resources K8gbInstall.k8gbNginx = some (.dict nginx) ∧
        Dict.get? nginx "kind" = some (.str "Release") :=
    ⟨_, rfl, rfl, _, _, rfl, rfl, rfl, rfl⟩
  refine ⟨soloRound 1000 [] rsp, ?_, ?_, fun fields hfields => ?_⟩
  · have hn : Next [] (soloRound 1000 [] rsp) :=
      next_soloRound (fun kv hkv => absurd hkv List.not_mem_nil) hrsp
    refine .step (.init rfl) ⟨⟨hn, rfl⟩, ?_⟩
    rintro ⟨q, hq, -⟩
    cases hq
  · exact not_renders hgslb
  · exact ⟨⟨_, List.mem_cons_self, _, hoperator, _, _, _, rfl, rfl, hkind, hfields⟩,
      ⟨_, List.mem_cons_self, _, hnginx, _, _, _, rfl, rfl, hkind', hfields⟩⟩

theorem Rendered.cons (h : Rendered rs name v) (r : Round) : Rendered (r :: rs) name v := by
  obtain ⟨q, hq, h⟩ := h
  exact ⟨q, List.mem_cons_of_mem r hq, h⟩

/-- The second one finds the operator Ready, the third one finds it not Ready and misses the
Gslb. -/
theorem exists_forgets : ∃ r q p, (run.restrict Steadily).Reach [r, q, p] ∧
    q.Renders GslbBuild.gslbResource ∧ OmitsAtMostOne [q, p] r ∧ Forgets r := by
  obtain ⟨p, hp, hno, hrendered⟩ := exists_install
  obtain ⟨second, hsecond, hgslb⟩ : ∃ rsp,
      compose (Install.platformEnv 1060) (soloRequest observedReady) = .ok rsp ∧
        (Dict.get? rsp.resources GslbBuild.gslbResource).isSome = true := ⟨_, rfl, rfl⟩
  obtain ⟨third, hthird, hgone⟩ : ∃ rsp,
      compose (Install.platformEnv 1120) (soloRequest observedUnready) = .ok rsp ∧
        Dict.get? rsp.resources GslbBuild.gslbResource = none := ⟨_, rfl, rfl⟩
  have hq : Next [p] (soloRound 1060 observedReady second) := by
    refine next_soloRound ?_ hsecond
    simp only [observedReady, List.mem_singleton, forall_eq]
    exact (hrendered _ rfl).1
  have hreach : (run.restrict Steadily).Reach [soloRound 1060 observedReady second, p] := by
    refine .step hp ⟨⟨hq, rfl⟩, ?_⟩
    rintro ⟨x, hx, hrender⟩
    cases List.mem_singleton.mp hx
    exact absurd hrender hno
  have hr : Next [soloRound 1060 observedReady second, p]
      (soloRound 1120 observedUnready third) := by
    refine next_soloRound ?_ hthird
    simp only [observedUnready, List.mem_cons, List.not_mem_nil, or_false, forall_eq_or_imp,
      forall_eq]
    exact ⟨(hrendered _ rfl).1.cons _, (hrendered _ rfl).2.cons _⟩
  have homits : OmitsAtMostOne [soloRound 1060 observedReady second, p]
      (soloRound 1120 observedUnready third) := omitsAtMostOne_of_releases rfl rfl
  refine ⟨_, _, p, .step hreach ⟨⟨hr, rfl⟩, fun _ => homits⟩, hgslb, homits, ?_⟩
  exact (not_renders_iff_forgets hreach.of_restrict hr).mp (not_renders hgone)

/-- k8gb is kept, and the Gslb comes with the second round. -/
theorem keeps_k8gb_three : ∃ r q p, (run.restrict Steadily).Reach [r, q, p] ∧
    ((∀ x ∈ [r, q, p], x.Renders K8gbInstall.k8gbOperator ∧ x.Renders K8gbInstall.k8gbNginx) ∧
      ∀ x older, x :: older <:+ [r, q, p] → x.Renders GslbBuild.gslbResource →
        ∃ y ∈ x :: older, ObservesReady y) ∧ q.Renders GslbBuild.gslbResource := by
  obtain ⟨r, q, p, h, hgslb, -⟩ := exists_forgets
  exact ⟨r, q, p, h, keeps_k8gb h, hgslb⟩

theorem gslb_kept_iff_three : ∃ r q p, run.Reach [r, q, p] ∧
    (GslbKept [r, q, p] ↔ ∀ x older, x :: older <:+ [r, q, p] →
      (∃ y ∈ older, y.Renders GslbBuild.gslbResource) → OmitsAtMostOne older x → ¬ Forgets x) := by
  obtain ⟨r, q, p, h, -⟩ := exists_forgets
  exact ⟨r, q, p, h.of_restrict, gslb_kept_iff h.of_restrict⟩

/-- While the operator is not Ready, one missing observation deletes the Gslb. -/
theorem drops_gslb : ¬ ∀ rs, run.Reach rs → GslbKept rs := by
  intro h
  obtain ⟨r, q, p, hr, hgslb, homits, hforgets⟩ := exists_forgets
  have hrender := h _ hr.of_restrict r [q, p] (List.suffix_refl _)
    ⟨q, List.mem_cons_self, hgslb⟩ homits
  obtain ⟨hreach, hn⟩ := hr.of_restrict.head
  exact (not_renders_iff_forgets hreach hn).mpr hforgets hrender

end OwnGslb

end ResilientCtp
