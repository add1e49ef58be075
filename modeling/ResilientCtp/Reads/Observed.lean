import ResilientCtp.Model.Compose

/-!
# What a run reads of the observed resources

* `releaseReady_ok`: `_release_ready` looks for a condition `Ready=True` in an observed Release;
  `IsReady` says what it finds.
* `compose_frame`: a run looks up a fixed set of the observed resources by name, so it gives the
  same answer, also the same exception, on any two requests that agree on those. In `directApi` mode
  the heartbeats of the peers are not among them: to leave out their conversion changes nothing.
-/

namespace ResilientCtp

open Py Election Heartbeat

/-! ## When a Release is Ready -/

def ReadyCondition (c : Value) : Prop :=
  ∃ fields, c = .dict fields ∧ Dict.get? fields "type" = some (.str "Ready") ∧
    Dict.get? fields "status" = some (.str "True")

/-- The Release reports `Ready=True`. -/
def IsReady (release : Value) : Prop :=
  ∃ fields status conditions, release = .dict fields ∧
    Dict.get? fields "status" = some (.dict status) ∧
    Dict.get? status "conditions" = some (.list conditions) ∧ ∃ c ∈ conditions, ReadyCondition c

theorem isStr_getD {d : Dict} {key s : String} :
    (Dict.getD d key .null).isStr s = true ↔ Dict.get? d key = some (.str s) := by
  unfold Dict.getD
  cases Dict.get? d key with
  | none => simp [Value.isStr]
  | some v => cases v <;> simp [Value.isStr]

theorem anyReady_ok {cs : List Value} {b : Bool} (h : anyReady cs = .ok b) :
    b = true ↔ ∃ c ∈ cs, ReadyCondition c := by
  induction cs with
  | nil =>
    cases h
    simp
  | cons c cs ih =>
    cases c with
    | dict fields =>
      have hc : ReadyCondition (.dict fields) ↔
          (Dict.getD fields "type" .null).isStr "Ready" = true ∧
            (Dict.getD fields "status" .null).isStr "True" = true := by
        rw [isStr_getD, isStr_getD]
        simp [ReadyCondition]
      rw [List.exists_mem_cons_iff, hc]
      simp only [anyReady, Value.get_dict, ok_bind] at h
      split at h
      · next ht =>
        split at h
        · next hs =>
          cases h
          simp [ht, hs]
        · next hs => simp [ih h, hs]
      · next ht => simp [ih h, ht]
    | _ => cases h

/-- `d.get(k, w) or w` that is not `w` is the value of the key. -/
theorem get?_of_or {d : Dict} {k : String} {w x : Value} (h : (Dict.getD d k w).or w = x)
    (hne : x ≠ w) : Dict.get? d k = some x := by
  unfold Dict.getD at h
  cases hv : Dict.get? d k with
  | none =>
    rw [hv, Option.getD_none, Value.or, ite_self] at h
    exact absurd h.symm hne
  | some v =>
    rw [hv, Option.getD_some, Value.or] at h
    split at h
    · rw [h]
    · exact absurd h.symm hne

/-- The conditions that are looked through. -/
def conditions (release : Value) : Except Err (List Value) := do
  let status := (← release.get "status" (.dict [])).or (.dict [])
  ((← status.get "conditions" (.list [])).or (.list [])).asList

/-- Only the elements of a list can be conditions: those of anything else are strings, and a string
has no `get`. -/
theorem list_of_anyReady {v : Value} {cs : List Value} {b : Bool} (hv : v.asList = .ok cs)
    (hne : v.truthy = true ∨ v = .list []) (h : anyReady cs = .ok b) : v = .list cs := by
  cases v with
  | list xs => cases hv; rfl
  | str s =>
    cases hv
    cases hs : s.toList with
    | nil =>
      rcases hne with hne | hne
      · exact absurd (String.toList_eq_nil_iff.mp hs) (by simpa [Value.truthy] using hne)
      · cases hne
    | cons c cs => rw [hs] at h; cases h
  | dict kvs =>
    cases hv
    cases kvs with
    | nil =>
      rcases hne with hne | hne
      · cases hne
      · cases hne
    | cons kv kvs => cases h
  | _ => cases hv

theorem conditions_ok {release : Value} {cs : List Value} {b : Bool}
    (h : conditions release = .ok cs) (hany : anyReady cs = .ok b) :
    ∃ fields status, release = .dict fields ∧
      (Dict.getD fields "status" (.dict [])).or (.dict []) = .dict status ∧
      (Dict.getD status "conditions" (.list [])).or (.list []) = .list cs := by
  unfold conditions at h
  obtain ⟨v, hv, h⟩ := bind_ok h
  obtain ⟨w, hw, h⟩ := bind_ok h
  cases release with
  | dict fields =>
    cases hv
    cases hs : (Dict.getD fields "status" (.dict [])).or (.dict []) with
    | dict status =>
      rw [hs] at hw
      cases hw
      refine ⟨fields, status, rfl, hs, list_of_anyReady h ?_ hany⟩
      unfold Value.or
      split
      · next ht => exact .inl ht
      · exact .inr rfl
    | _ =>
      rw [hs] at hw
      cases hw
  | _ => cases hv

theorem mem_conditions {release : Value} {cs : List Value} {b : Bool}
    (h : conditions release = .ok cs) (hany : anyReady cs = .ok b) {c : Value} :
    c ∈ cs ↔ ∃ fields status conditions, release = .dict fields ∧
      Dict.get? fields "status" = some (.dict status) ∧
      Dict.get? status "conditions" = some (.list conditions) ∧ c ∈ conditions := by
  obtain ⟨fields, status, rfl, hstatus, hcs⟩ := conditions_ok h hany
  constructor
  · intro hc
    have hne : cs ≠ [] := List.ne_nil_of_mem hc
    have hget := get?_of_or hcs (by simp [hne])
    refine ⟨fields, status, cs, rfl, get?_of_or hstatus ?_, hget, hc⟩
    intro he
    cases he
    cases hget
  · rintro ⟨f, s, cs', hf, hs, hcs', hc⟩
    cases hf
    simp only [Dict.getD, hs, Option.getD_some, Value.dict_or_nil] at hstatus
    cases hstatus
    simp only [Dict.getD, hcs', Option.getD_some, Value.list_or_nil] at hcs
    cases hcs
    exact hc

theorem releaseReady_ok {release : Value} {b : Bool} (h : releaseReady release = .ok b) :
    b = true ↔ IsReady release := by
  have h' : (conditions release >>= anyReady) = .ok b := by
    rw [← h]
    simp only [conditions, releaseReady, bind_assoc]
  obtain ⟨cs, hcs, hany⟩ := bind_ok h'
  rw [anyReady_ok hany]
  constructor
  · rintro ⟨c, hc, hready⟩
    obtain ⟨fields, status, cs', hf, hs, hcs', hc⟩ := (mem_conditions hcs hany).mp hc
    exact ⟨fields, status, cs', hf, hs, hcs', c, hc, hready⟩
  · rintro ⟨fields, status, cs', hf, hs, hcs', c, hc, hready⟩
    exact ⟨c, (mem_conditions hcs hany).mpr ⟨fields, status, cs', hf, hs, hcs', hc⟩, hready⟩

/-! ## The frame -/

/-- The run looks up the observed resource `name`. -/
def LooksUp (spec : Spec) (name : String) : Prop :=
  name = selfHb ∨ name ∈ k8gbNames ∨
    (spec.readMode ≠ "directApi" ∧ ∃ m ∈ spec.peerMembers, name = peerHbResourceName m.id)

/-- The two observations have the same resource under the name. -/
def SameAt (o o' : Dict) (name : String) : Prop := Dict.get? o name = Dict.get? o' name

variable {spec : Spec} {o o' : Dict} {name : String} {context : Value} {env : Env}

theorem SameAt.getD (h : SameAt o o' name) (d : Value) :
    Dict.getD o name d = Dict.getD o' name d := by
  unfold Dict.getD
  rw [h]

/-- Conversion keeps what both have under a name that is no peer's. -/
theorem SameAt.converted (spec : Spec) (h : SameAt o o' name)
    (hname : ∀ id, peerHbResourceName id ≠ name) :
    SameAt (converted spec o) (converted spec o') name := by
  unfold SameAt
  rw [get?_converted_of_not_dropped (not_dropped spec hname),
    get?_converted_of_not_dropped (not_dropped spec hname), h]

theorem k8gb_ne_peer (h : name ∈ k8gbNames) (id : String) : peerHbResourceName id ≠ name := by
  simp only [k8gbNames, List.mem_cons, List.not_mem_nil, or_false] at h
  rcases h with rfl | rfl | rfl <;> exact peerHbResourceName_ne id (by decide)

theorem allGslbs_congr (h : SameAt o o' GslbBuild.gslbResource) :
    allGslbs context o = allGslbs context o' := by
  unfold allGslbs composedGslb
  rw [h.getD]

theorem prevTags_frame (h : SameAt o o' selfHb) : prevTags o = prevTags o' := by
  unfold prevTags
  rw [h.getD]

theorem operatorInstalled_congr (h : ∀ name ∈ k8gbNames, SameAt o o' name) :
    operatorInstalled o = operatorInstalled o' := by
  unfold operatorInstalled composedGslb
  rw [(h _ (by simp [k8gbNames])).getD, (h _ (by simp [k8gbNames])).getD,
    (h _ (by simp [k8gbNames])).getD]

theorem readPeers_congr (h : spec.readMode ≠ "directApi" → ∀ m ∈ spec.peerMembers,
      SameAt o o' (peerHbResourceName m.id)) :
    readPeers env spec (converted spec o) = readPeers env spec (converted spec o') := by
  unfold readPeers converted
  by_cases hmode : spec.readMode = "directApi"
  · simp only [if_pos hmode]
  · simp only [if_neg hmode]
    refine mapM_congr fun m hm => ?_
    unfold readPeer
    rw [(h hmode m hm).getD]

/-- **The frame.** Two requests that agree on what a run reads have the same answer. -/
theorem compose_frame (xr : Xr) (h : ∀ name, LooksUp xr.spec name → SameAt o o' name) :
    compose env ⟨xr, context, o⟩ = compose env ⟨xr, context, o'⟩ := by
  have hk : ∀ name ∈ k8gbNames, SameAt (converted xr.spec o) (converted xr.spec o') name :=
    fun name hm => (h name (.inr (.inl hm))).converted xr.spec (k8gb_ne_peer hm)
  have hgslb := @allGslbs_congr _ _ context (hk GslbBuild.gslbResource (by simp [k8gbNames]))
  have hpeers := @readPeers_congr xr.spec o o' env fun hmode m hm =>
    h _ (.inr (.inr ⟨hmode, m, hm, rfl⟩))
  have hprev := prevTags_frame
    ((h selfHb (.inl rfl)).converted xr.spec peerHbResourceName_ne_selfHb)
  have hop := (hk K8gbInstall.k8gbOperator (by simp [k8gbNames])).getD (.dict [])
  unfold compose
  simp only [hgslb, hpeers, hprev, operatorInstalled_congr hk, hop]

end ResilientCtp
