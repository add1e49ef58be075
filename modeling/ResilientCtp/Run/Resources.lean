import ResilientCtp.Reads.Observed

/-!
# The gates of the resources

Two gates decide what a reconcile renders next to the heartbeats: `should_install` for the Releases
of k8gb, `should_manage` for the Gslb. Both ask if a Gslb is found; the first one also asks if k8gb
was installed here, the second one if the operator is Ready.

* `compose_gates`: the Releases and the Gslb of a response, as its gates say.
-/

namespace ResilientCtp

open Py

/-! ## The names of the resources -/

/-- The conversion keeps what is not a peer's heartbeat. -/
theorem get?_converted {spec : Spec} {observed : Dict} {name : String}
    (h : name.toList.head? ≠ some 'h') :
    Dict.get? (converted spec observed) name = Dict.get? observed name :=
  get?_converted_of_not_dropped (not_dropped spec fun id => peerHbResourceName_ne id h)

theorem get?_setAll_isSome_iff {kvs : List (String × Value)} {k : String} :
    (Dict.get? (setAll [] kvs) k).isSome = true ↔ k ∈ kvs.map Prod.fst := by
  constructor
  · intro h
    obtain ⟨v, hv⟩ := Option.isSome_iff_exists.mp h
    rcases get?_setAll hv with hm | hm
    · exact List.mem_map.mpr ⟨_, hm, rfl⟩
    · cases hm
  · exact fun h => get?_setAll_isSome (.inl h)

/-- The names of a part tell it apart. -/
theorem get?_setAll_parts {heartbeats releases gslb : List (String × Value)} {name : String}
    (h : name ∉ heartbeats.map Prod.fst) :
    (Dict.get? (setAll [] (heartbeats ++ releases ++ gslb)) name).isSome = true ↔
      name ∈ releases.map Prod.fst ∨ name ∈ gslb.map Prod.fst := by
  rw [get?_setAll_isSome_iff, List.map_append, List.mem_append, List.map_append, List.mem_append,
    or_iff_right h]

theorem evaluate_found_eq {gslbs : List Value} {hostname strategy : String} {signal : GslbSignal}
    (h : Gslb.evaluate gslbs hostname strategy = .ok signal) :
    signal.found = !gslbs.isEmpty := by
  cases gslbs with
  | nil =>
    cases h
    rfl
  | cons g gs => exact Gslb.evaluate_found (List.cons_ne_nil _ _) h

theorem mem_keys_installResources {spec : Spec} {ns name : String} {found installed : Bool}
    (hname : name ∈ [K8gbInstall.k8gbOperator, K8gbInstall.k8gbNginx]) :
    name ∈ (installResources spec ns found installed).map Prod.fst ↔
      K8gbInstall.shouldInstall (spec.k8gb.install.getD "auto") found installed = true := by
  unfold installResources
  split
  · next h =>
    simp only [h, iff_true]
    simp only [List.mem_cons, List.not_mem_nil, or_false] at hname
    rcases hname with rfl | rfl <;> simp [K8gbInstall.build]
  · next h => simp [h]

theorem mem_keys_gslbResources {spec : Spec} {ns : String} {ready found : Bool} :
    GslbBuild.gslbResource ∈ (gslbResources spec ns ready found).map Prod.fst ↔
      GslbBuild.shouldManage spec.gslb ready found = true := by
  unfold gslbResources
  split
  · next h => simp [h, GslbBuild.build]
  · next h => simp [h]

theorem not_mem_keys_installResources {spec : Spec} {ns name : String} {found installed : Bool}
    (h : name.toList.head? ≠ some 'k') :
    name ∉ (installResources spec ns found installed).map Prod.fst := by
  intro hm
  obtain ⟨⟨x, v⟩, hx, rfl⟩ := List.mem_map.mp hm
  exact h (mem_installResources hx)

theorem not_mem_keys_gslbResources {spec : Spec} {ns name : String} {ready found : Bool}
    (h : name.toList.head? ≠ some 'g') :
    name ∉ (gslbResources spec ns ready found).map Prod.fst := by
  intro hm
  obtain ⟨⟨x, v⟩, hx, rfl⟩ := List.mem_map.mp hm
  exact h (mem_gslbResources hx)

theorem kind_of_mem_gslbResources {spec : Spec} {ns : String} {ready found : Bool} {v : Value}
    (h : (GslbBuild.gslbResource, v) ∈ gslbResources spec ns ready found) :
    ∃ fields, v = .dict fields ∧ Dict.get? fields "kind" = some (.str "Gslb") := by
  unfold gslbResources GslbBuild.build at h
  split at h
  swap
  · cases h
  rcases List.mem_append.mp h with h | h
  · cases List.mem_singleton.mp h
    exact ⟨_, rfl, rfl⟩
  · split at h
    · simp [GslbBuild.gslbResource, GslbBuild.demoDeploymentName, GslbBuild.demoServiceName] at h
    · cases h

variable {env : Env} {req : Request} {rsp : Response}

/-- The Gslb that a run renders. -/
theorem kind_of_compose (h : compose env req = .ok rsp) {v : Value}
    (hv : Dict.get? rsp.resources GslbBuild.gslbResource = some v) :
    ∃ fields, v = .dict fields ∧ Dict.get? fields "kind" = some (.str "Gslb") := by
  obtain ⟨g, l, hc⟩ := compose_ok h
  rcases hc.renders hv with ⟨e, -⟩ | ⟨m, -, e⟩ | hm | ⟨ready, hm⟩
  · exact absurd e (by decide)
  · exact absurd e.symm (peerHbResourceName_ne m.id (by decide))
  · exact absurd (mem_installResources hm) (by decide)
  · exact kind_of_mem_gslbResources hm

theorem isReady_getD {o : Option Value} :
    IsReady (o.getD (.dict [])) ↔ ∃ v, o = some v ∧ IsReady v := by
  cases o with
  | none =>
    refine ⟨?_, nofun⟩
    rintro ⟨fields, status, cs, hf, hs, -⟩
    cases hf
    cases hs
  | some v => simp

/-! ## The gates -/

/-- The resources of a response, for the names that are not those of a heartbeat. -/
structure Gates (req : Request) (rsp : Response) (gslbs : List Value) (ready : Bool) : Prop where
  listed : allGslbs req.context (converted req.xr.spec req.observed) = .ok gslbs
  operator : ready = true ↔
    ∃ v, Dict.get? req.observed K8gbInstall.k8gbOperator = some v ∧ IsReady v
  releases : ∀ name ∈ [K8gbInstall.k8gbOperator, K8gbInstall.k8gbNginx],
    (Dict.get? rsp.resources name).isSome = true ↔
      K8gbInstall.shouldInstall (req.xr.spec.k8gb.install.getD "auto") (!gslbs.isEmpty)
        (operatorInstalled (converted req.xr.spec req.observed)) = true
  gslb : (Dict.get? rsp.resources GslbBuild.gslbResource).isSome = true ↔
    GslbBuild.shouldManage req.xr.spec.gslb ready (!gslbs.isEmpty) = true

/-- **Inversion.** -/
theorem compose_gates (h : compose env req = .ok rsp) :
    ∃ gslbs ready, Gates req rsp gslbs ready := by
  obtain ⟨gslbs, hg, h⟩ := bind_ok h
  obtain ⟨signal, hs, h⟩ := bind_ok h
  obtain ⟨peers, -, h⟩ := bind_ok h
  obtain ⟨decision, -, h⟩ := bind_ok h
  obtain ⟨prev, -, h⟩ := bind_ok h
  obtain ⟨r, -, h⟩ := bind_ok h
  obtain ⟨observes, ho, h⟩ := bind_ok h
  obtain ⟨ready, hready, h⟩ := bind_ok h
  cases h
  have hheartbeats : ∀ name, name.toList.head? ≠ some 'h' →
      name ∉ ((selfHb, r.heartbeat) :: observes).map Prod.fst := by
    intro name hh hm
    obtain ⟨kv, hkv, rfl⟩ := List.mem_map.mp hm
    rcases List.mem_cons.mp hkv with rfl | hkv
    · exact absurd (show selfHb.toList.head? = some 'h' by decide) hh
    · obtain ⟨m, hm, e⟩ := (mapM_ok ho).2 kv hkv
      obtain ⟨res, -, e⟩ := bind_ok e
      cases e
      exact peerHbResourceName_ne m.id hh rfl
  refine ⟨gslbs, ready, hg, ?_, ?_, ?_⟩
  · rw [releaseReady_ok hready, Dict.getD, get?_converted (by decide), isReady_getD]
  · intro name hname
    have hhead : name.toList.head? = some 'k' := by
      simp only [List.mem_cons, List.not_mem_nil, or_false] at hname
      rcases hname with rfl | rfl <;> decide
    rw [get?_setAll_parts (hheartbeats name (by rw [hhead]; decide)),
      mem_keys_installResources hname, evaluate_found_eq hs,
      or_iff_left (not_mem_keys_gslbResources (by rw [hhead]; decide))]
  · rw [get?_setAll_parts (hheartbeats _ (by decide)), mem_keys_gslbResources,
      evaluate_found_eq hs, or_iff_right (not_mem_keys_installResources (by decide))]

end ResilientCtp
