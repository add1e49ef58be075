import ResilientCtp.Model.Compose

/-!
# Which Gslb gives the signal

`evaluate` reads one Gslb of its list: the first that has a record of the hostname, else the first
(`decider`). The composed Gslb comes last, after every Gslb that was fetched, so it gives the
signal only where no other one has the record and it has it itself (`overrider`).

* `evaluate_decider`: the signal of a list is that of its decider alone.
* `composed_authoritative_iff`: the signal is that of the composed Gslb exactly if no other Gslb
  overrides it, or the one that does reads the same.
* `always_authoritative_iff`: any fetched Gslb overrides some composed one.
* `foreign_decides`: while the composed Gslb is new, another one makes the control plane eligible.
-/

namespace ResilientCtp

open Py

namespace Gslb

/-- The Gslb has a record of the hostname. -/
def hasRecord (hostname : String) (g : Value) : Except Err Bool := do
  let status := (← g.get "status" (.dict [])).or (.dict [])
  let healthyRecords := (← status.get "healthyRecords" (.dict [])).or (.dict [])
  contains healthyRecords hostname

/-- The search ends at the Gslb: it has the record, or looking for it raises. -/
def decides (hostname : String) (g : Value) : Bool :=
  match hasRecord hostname g with
  | .ok b => b
  | .error _ => true

/-- The Gslb that a list is read as. -/
def decider (hostname : String) (g : Value) (gs : List Value) : Value :=
  ((g :: gs).find? (decides hostname)).getD g

variable {hostname strategy : String} {g c f : Value} {gs fetched : List Value}

theorem withRecord_cons (hostname : String) (g : Value) (gs : List Value) :
    withRecord hostname (g :: gs) = (do
      if ← hasRecord hostname g then return some g else withRecord hostname gs) := by
  simp only [withRecord, hasRecord, bind_assoc]

/-- The search is that of its last step. -/
theorem withRecord_eq (hostname : String) (gs : List Value) :
    withRecord hostname gs = (gs.find? (decides hostname)).elim (.ok none) (fun g => do
      let _ ← hasRecord hostname g
      return some g) := by
  induction gs with
  | nil => rfl
  | cons g gs ih =>
    rw [withRecord_cons, List.find?_cons]
    unfold decides
    cases hg : hasRecord hostname g with
    | error e => simp only [Option.elim_some, hg]; rfl
    | ok b =>
      cases b with
      | true => simp only [Option.elim_some, hg]; rfl
      | false => exact ih

/-- **Selection.** A list is read as the one Gslb that decides. -/
theorem selectGslb_decider (hostname : String) (g : Value) (gs : List Value) :
    selectGslb (g :: gs) hostname = selectGslb [decider hostname g gs] hostname := by
  simp only [selectGslb, withRecord_eq, decider]
  cases h : (g :: gs).find? (decides hostname) with
  | none =>
    have hno : decides hostname g = false := by
      simpa using List.find?_eq_none.mp h g List.mem_cons_self
    simp [hno]
  | some x =>
    have hx : decides hostname x = true := List.find?_some h
    simp [hx]

theorem evaluate_decider (hostname strategy : String) (g : Value) (gs : List Value) :
    evaluate (g :: gs) hostname strategy = evaluate [decider hostname g gs] hostname strategy := by
  unfold evaluate
  rw [selectGslb_decider]

/-- The fetched Gslb that is read in place of the composed one. -/
def overrider (hostname : String) (fetched : List Value) (c : Value) : Option Value :=
  match fetched with
  | [] => none
  | f :: fs =>
    match (f :: fs).find? (decides hostname) with
    | some g => some g
    | none => if decides hostname c then none else some f

theorem evaluate_append (hostname strategy : String) (fetched : List Value) (c : Value) :
    evaluate (fetched ++ [c]) hostname strategy =
      evaluate [(overrider hostname fetched c).getD c] hostname strategy := by
  cases fetched with
  | nil => rfl
  | cons f fs =>
    rw [List.cons_append, evaluate_decider, decider, overrider, ← List.cons_append,
      List.find?_append]
    cases (f :: fs).find? (decides hostname) with
    | some g => rfl
    | none =>
      cases hc : decides hostname c with
      | true => simp [hc]
      | false => simp [hc]

/-! ## What is read of one Gslb -/

def health (g : Value) : Except Err Bool := do
  let status := (← g.get "status" (.dict [])).or (.dict [])
  allHealthy ((← status.get "serviceHealth" (.dict [])).or (.dict []))

def reportedGeoTag (g : Value) : Except Err Value := do
  let status := (← g.get "status" (.dict [])).or (.dict [])
  return (← status.get "geoTag" (.str "")).or (.str "")

def routed (hostname : String) (g : Value) : Except Err Bool := do
  let status := (← g.get "status" (.dict [])).or (.dict [])
  let records := (← status.get "healthyRecords" .null).or (.dict [])
  let healthyRecords ← setOf ((← records.get hostname (.list [])).or (.list []))
  let loadBalancer := (← status.get "loadBalancer" (.dict [])).or (.dict [])
  let exposedIps ← setOf ((← loadBalancer.get "exposedIps" (.list [])).or (.list []))
  return !healthyRecords.isEmpty && !exposedIps.isEmpty &&
    healthyRecords.any fun a => exposedIps.any (hashEq a)

/-- The status says of the hostname that the services are healthy, that traffic is routed here,
and the geo; or reading it raises. -/
def reading (hostname : String) (g : Value) : Except Err (Bool × Bool × Value) := do
  let _ ← hasRecord hostname g
  return (← health g, ← routed hostname g, ← reportedGeoTag g)

theorem selectGslb_single (hostname : String) (g : Value) :
    selectGslb [g] hostname = (do
      let _ ← hasRecord hostname g
      return some g) := by
  show (do return some ((← withRecord hostname [g]).getD g)) = _
  rw [withRecord_cons]
  cases hasRecord hostname g with
  | error e => rfl
  | ok b => cases b <;> rfl

/-- The signal of a Gslb that reads so. -/
def ofReading (r : Bool × Bool × Value) : GslbSignal :=
  { found := true, healthy := r.1, active := r.2.1, geoTag := r.2.2 }

theorem ofReading_injective : Function.Injective ofReading := by
  rintro ⟨h, a, t⟩ ⟨h', a', t'⟩ he
  cases he
  rfl

theorem evaluate_single (hostname strategy : String) (g : Value) :
    evaluate [g] hostname strategy = (do return ofReading (← reading hostname g)) := by
  unfold evaluate reading
  rw [selectGslb_single]
  simp only [hasRecord, health, routed, reportedGeoTag, bind_assoc, pure_bind, ofReading]
  cases g with
  | dict fields =>
    simp only [Value.get_dict, ok_bind]
    generalize (Dict.getD fields "status" (.dict [])).or (.dict []) = status
    cases status with
    | dict status => simp only [Value.get_dict, ok_bind]
    | _ => rfl
  | _ => rfl

theorem evaluate_single_eq_iff {f c : Value} :
    evaluate [f] hostname strategy = evaluate [c] hostname strategy ↔
      reading hostname f = reading hostname c := by
  rw [evaluate_single, evaluate_single]
  constructor
  · cases reading hostname f with
    | error e =>
      cases reading hostname c with
      | error e' => exact fun h => congrArg _ (Except.error.inj h)
      | ok r => exact nofun
    | ok r =>
      cases reading hostname c with
      | error e => exact nofun
      | ok r' => exact fun h => congrArg _ (ofReading_injective (Except.ok.inj h))
  · intro h
    rw [h]

end Gslb

/-! ## The signal of a reconcile -/

open Gslb

variable {context : Value} {observed : Dict} {fetched : List Value} {c : Value}
  {hostname strategy : String}

/-- The signal that `_compose` computes. -/
def composeSignal (context : Value) (observed : Dict) (hostname strategy : String) :
    Except Err GslbSignal := do
  Gslb.evaluate (← allGslbs context observed) hostname strategy

theorem Composes.composeSignal {env : Env} {req : Request} {rsp : Response} {g : GslbSignal}
    {r : Reconciled} (h : Composes env req rsp g r) :
    composeSignal req.context (converted req.xr.spec req.observed) req.xr.spec.gslb.hostname
      req.xr.spec.gslb.strategy = .ok g := by
  obtain ⟨gslbs, hg, he⟩ := h.signal
  unfold ResilientCtp.composeSignal
  rw [hg]
  exact he

/-- The composed Gslb, if it is one. -/
def composedGslbs (observed : Dict) : Except Err (List Value) := do
  let composed := composedGslb observed
  if composed.truthy then
    if (← composed.get "kind" .null).isStr "Gslb" then return [composed] else return []
  else return []

theorem allGslbs_append (context : Value) (observed : Dict) :
    allGslbs context observed = (do
      let gslbs ← fetchedGslbs context
      return gslbs ++ (← composedGslbs observed)) := by
  unfold allGslbs composedGslbs
  refine bind_congr fun gslbs => ?_
  dsimp only
  split
  · cases (composedGslb observed).get "kind" .null with
    | error e => rfl
    | ok kind =>
      simp only [ok_bind]
      split
      · rfl
      · simp [pure, Except.pure, bind, Except.bind]
  · simp [pure, Except.pure, bind, Except.bind]

theorem allGslbs_ok {composed : List Value} (hf : fetchedGslbs context = .ok fetched)
    (hc : composedGslbs observed = .ok composed) :
    allGslbs context observed = .ok (fetched ++ composed) := by
  rw [allGslbs_append, hf, hc]
  rfl

/-- An object of kind `Gslb`, with any status. -/
def IsGslb (c : Value) : Prop :=
  ∃ fields, c = .dict fields ∧ (Dict.getD fields "kind" .null).isStr "Gslb" = true

theorem IsGslb.truthy (h : IsGslb c) : c.truthy = true := by
  obtain ⟨fields, rfl, hkind⟩ := h
  cases fields with
  | nil => cases hkind
  | cons field fields => rfl

theorem IsGslb.composed (hc : IsGslb (composedGslb observed)) :
    composedGslbs observed = .ok [composedGslb observed] := by
  unfold composedGslbs
  rw [if_pos hc.truthy]
  obtain ⟨fields, he, hkind⟩ := hc
  rw [he]
  simp only [Value.get_dict, ok_bind, hkind, if_true]
  rfl

theorem allGslbs_eq (hf : fetchedGslbs context = .ok fetched)
    (hc : IsGslb (composedGslb observed)) :
    allGslbs context observed = .ok (fetched ++ [composedGslb observed]) :=
  allGslbs_ok hf hc.composed

/-- **The composed Gslb is authoritative** exactly if no fetched Gslb overrides it, or the one that
does reads the same. -/
theorem composed_authoritative_iff (hf : fetchedGslbs context = .ok fetched)
    (hc : IsGslb (composedGslb observed)) :
    composeSignal context observed hostname strategy =
        evaluate [composedGslb observed] hostname strategy ↔
      ∀ f, overrider hostname fetched (composedGslb observed) = some f →
        reading hostname f = reading hostname (composedGslb observed) := by
  unfold composeSignal
  rw [allGslbs_eq hf hc, ok_bind, evaluate_append, evaluate_single_eq_iff]
  cases overrider hostname fetched (composedGslb observed) with
  | none => exact ⟨nofun, fun _ => rfl⟩
  | some f => exact ⟨fun h _ hf => Option.some.inj hf ▸ h, fun h => h f rfl⟩

/-! ## Two Gslbs of one hostname -/

/-- What function-extra-resources leaves in the context. -/
def contextOf (gslbs : List Value) : Value :=
  .dict [(extraResourcesKey, .dict [("gslbs", .list gslbs)])]

theorem fetchedGslbs_contextOf (gslbs : List Value) :
    fetchedGslbs (contextOf gslbs) = .ok gslbs := by
  cases gslbs <;> rfl

def gslbOf (status : Dict) : Value := .dict [("kind", .str "Gslb"), ("status", .dict status)]

theorem isGslb_gslbOf (status : Dict) : IsGslb (gslbOf status) := ⟨_, rfl, rfl⟩

/-- The composed Gslb alone is observed. -/
def observedGslb (status : Dict) : Dict := [(GslbBuild.gslbResource, gslbOf status)]

/-- A composed Gslb that reports a geo, and no records yet. -/
theorem decides_geo (hostname geo : String) :
    decides hostname (gslbOf [("geoTag", .str geo)]) = false := rfl

theorem reading_geo (hostname : String) {geo : String} (h : geo ≠ "") :
    reading hostname (gslbOf [("geoTag", .str geo)]) = .ok (false, false, .str geo) := by
  have hor : (Value.str geo).or (.str "") = .str geo := by simp [Value.or, Value.truthy, h]
  show Except.ok (false, false, (Value.str geo).or (.str "")) = _
  rw [hor]

theorem overrider_of_not (hc : decides hostname c = false) (f : Value) (fs : List Value) :
    overrider hostname (f :: fs) c = some (((f :: fs).find? (decides hostname)).getD f) := by
  cases hg : (f :: fs).find? (decides hostname) with
  | some g => simp only [overrider, hg, Option.getD_some]
  | none => simp [overrider, hg, hc]

/-- **No Gslb is harmless.** Whatever is fetched, there is a composed Gslb that it overrides. -/
theorem always_authoritative_iff (hf : fetchedGslbs context = .ok fetched) :
    (∀ observed, IsGslb (composedGslb observed) →
      composeSignal context observed hostname strategy =
        evaluate [composedGslb observed] hostname strategy) ↔ fetched = [] := by
  constructor
  · intro h
    cases fetched with
    | nil => rfl
    | cons f fs =>
      -- One signal stands for two composed Gslbs, which report different geos.
      have reads : ∀ geo, geo ≠ "" →
          reading hostname (((f :: fs).find? (decides hostname)).getD f) =
            .ok (false, false, .str geo) := by
        intro geo hgeo
        have hc : IsGslb (composedGslb (observedGslb [("geoTag", .str geo)])) := isGslb_gslbOf _
        rw [← reading_geo hostname hgeo]
        exact (composed_authoritative_iff hf hc).mp (h _ hc) _
          (overrider_of_not (decides_geo hostname geo) f fs)
      have he := (reads "eu" (by decide)).symm.trans (reads "us" (by decide))
      simp at he
  · rintro rfl observed hc
    exact (composed_authoritative_iff hf hc).mpr nofun

/-- A Gslb that serves the hostname. -/
def servingStatus : Dict :=
  [("serviceHealth", .dict [("app.example.org", .str "Healthy")]),
    ("healthyRecords", .dict [("app.example.org", .list [.str "10.0.0.1"])]),
    ("loadBalancer", .dict [("exposedIps", .list [.str "10.0.0.1"])])]

theorem composed_authoritative_iff_served :
    composeSignal (contextOf [gslbOf []]) (observedGslb servingStatus) "app.example.org"
        "failover" = evaluate [gslbOf servingStatus] "app.example.org" "failover" ↔
      ∀ f, overrider "app.example.org" [gslbOf []] (gslbOf servingStatus) = some f →
        reading "app.example.org" f = reading "app.example.org" (gslbOf servingStatus) :=
  composed_authoritative_iff (fetchedGslbs_contextOf [gslbOf []]) (isGslb_gslbOf servingStatus)

/-- While the composed Gslb has no status yet, the fetched one makes the control plane eligible. -/
theorem foreign_decides : ¬ ∀ (context : Value) (observed : Dict) (fetched : List Value)
    (hostname strategy : String), fetchedGslbs context = .ok fetched →
      IsGslb (composedGslb observed) →
        composeSignal context observed hostname strategy =
          evaluate [composedGslb observed] hostname strategy := by
  intro h
  have he := h (contextOf [gslbOf servingStatus]) (observedGslb []) [gslbOf servingStatus]
    "app.example.org" "failover" (fetchedGslbs_contextOf _) (isGslb_gslbOf [])
  have hs : composeSignal (contextOf [gslbOf servingStatus]) (observedGslb []) "app.example.org"
      "failover" = .ok { found := true, healthy := true, active := true, geoTag := .str "" } := by
    rfl
  have hc : evaluate [composedGslb (observedGslb [])] "app.example.org" "failover" =
      .ok { found := true, healthy := false, active := false, geoTag := .str "" } := by rfl
  rw [hs, hc] at he
  cases he

end ResilientCtp
