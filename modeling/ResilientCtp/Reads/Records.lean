import ResilientCtp.Reads.Nulls

/-!
# The record of the hostname

A list of Gslbs is read as the first one with a record of the hostname, else as its first one
(`readGslb`). A null counts as a record there, and as none in what is read of the Gslb.

* `evaluate_null`: a Gslb that reads as before leaves the signal as it was.
* `Overtakes`: with the record the Gslb is read in place of one that shows something else.
* `record_eq`, `record_ne`: a null record changes the response exactly if it overtakes.
-/

namespace ResilientCtp

open Py Gslb

variable {g g' v w : Value} {p : Path} {hostname strategy : String} {pre post : List Value}

/-! ## The Gslb that is read -/

namespace Gslb

/-- The Gslb that a list is read as, if there is one. -/
def readGslb (hostname : String) (gslbs : List Value) : Option Value :=
  (gslbs.find? (decides hostname)).or gslbs.head?

theorem evaluate_readGslb (hostname strategy : String) (gslbs : List Value) :
    evaluate gslbs hostname strategy =
      (readGslb hostname gslbs).elim (.ok notFound) fun g => evaluate [g] hostname strategy := by
  cases gslbs with
  | nil => rfl
  | cons g gs =>
    rw [evaluate_decider, decider, readGslb]
    cases (g :: gs).find? (decides hostname) with
    | none => rfl
    | some x => rfl

/-- The Gslb reads as before. -/
theorem evaluate_null (hr : reading hostname g' = reading hostname g)
    (hd : decides hostname g' = decides hostname g) :
    evaluate (pre ++ g' :: post) hostname strategy =
      evaluate (pre ++ g :: post) hostname strategy := by
  have he : evaluate [g'] hostname strategy = evaluate [g] hostname strategy :=
    evaluate_single_eq_iff.mpr hr
  rw [evaluate_readGslb, evaluate_readGslb]
  simp only [readGslb, List.find?_append, List.find?_cons, List.head?_append, hd]
  cases pre.find? (decides hostname) with
  | some x => rfl
  | none =>
    cases decides hostname g with
    | true => exact he
    | false =>
      cases post.find? (decides hostname) with
      | some x => rfl
      | none =>
        cases pre with
        | nil => exact he
        | cons x pre => rfl

theorem reading_null (h : UpToNull (withStatus gslbStatus) g g')
    (hrec : hasRecord hostname g' = hasRecord hostname g) :
    reading hostname g' = reading hostname g := by
  unfold reading
  rw [hrec, health_null h, routed_null h, reportedGeoTag_null h]

/-- An earlier Gslb has the record. -/
theorem evaluate_of_earlier (h : ∃ x ∈ pre, decides hostname x = true) :
    evaluate (pre ++ g' :: post) hostname strategy =
      evaluate (pre ++ g :: post) hostname strategy := by
  rw [evaluate_readGslb, evaluate_readGslb, readGslb, readGslb, List.find?_append,
    List.find?_append]
  obtain ⟨x, hx⟩ := Option.isSome_iff_exists.mp (List.find?_isSome.mpr h)
  rw [hx]
  rfl

/-- The record comes first. -/
theorem readGslb_of_record (hpre : ∀ x ∈ pre, decides hostname x = false)
    (h : decides hostname g' = true) : readGslb hostname (pre ++ g' :: post) = some g' := by
  have hnone : pre.find? (decides hostname) = none :=
    List.find?_eq_none.mpr fun x hx => by rw [hpre x hx]; exact Bool.false_ne_true
  rw [readGslb, List.find?_append, hnone, List.find?_cons, h]
  rfl

/-- What a signal shows of the Gslb. -/
theorem evaluate_single_ok {signal : GslbSignal} (h : evaluate [g] hostname strategy = .ok signal) :
    (∃ b, hasRecord hostname g = .ok b) ∧ health g = .ok signal.healthy ∧
      routed hostname g = .ok signal.active := by
  rw [evaluate_single] at h
  obtain ⟨r, hr, h⟩ := bind_ok h
  obtain ⟨b, hb, hr⟩ := bind_ok hr
  obtain ⟨healthy, hhealthy, hr⟩ := bind_ok hr
  obtain ⟨active, hactive, hr⟩ := bind_ok hr
  obtain ⟨t, -, hr⟩ := bind_ok hr
  cases hr
  cases h
  exact ⟨⟨b, hb⟩, hhealthy, hactive⟩

end Gslb

/-! ## The Gslbs -/

theorem composedGslbs_object {kind : String} {observed : Dict}
    (h : IsObject kind (composedGslb observed)) :
    composedGslbs observed = .ok (if kind = "Gslb" then [composedGslb observed] else []) := by
  unfold composedGslbs
  rw [if_pos h.truthy]
  obtain ⟨fields, he, hk⟩ := h
  rw [he, Value.get_dict, Dict.getD, hk]
  simp only [Option.getD_some, ok_bind, Value.isStr, beq_iff_eq]
  split <;> rfl

/-- The fetched Gslbs with a null in the status of one of them. -/
theorem fetchedGslbs_null {i : Nat} {context context' : Value}
    (h : setNull (.key extraResourcesKey :: .key "gslbs" :: .index i :: .key "status" :: p)
      context = some context') : ∃ pre g g' post, fetchedGslbs context = .ok (pre ++ g :: post) ∧
      fetchedGslbs context' = .ok (pre ++ g' :: post) ∧ pre.length = i ∧
      setNull (.key "status" :: p) g = some g' := by
  have hfetched : ∀ {d e : Dict} {xs : List Value},
      Dict.get? d extraResourcesKey = some (.dict e) → Dict.get? e "gslbs" = some (.list xs) →
        fetchedGslbs (.dict d) = .ok xs := by
    intro d e xs hd he
    simp only [fetchedGslbs, Value.get_dict, Dict.getD, hd, he, ok_bind, Option.getD_some,
      Value.dict_or_nil, Value.list_or_nil]
    rfl
  obtain ⟨d, rfl⟩ := setNull_key h
  obtain ⟨x, y, hx, hy, rfl⟩ := setNull_key_cons h
  obtain ⟨e, rfl⟩ := setNull_key hy
  obtain ⟨l, l', hl, hl', rfl⟩ := setNull_key_cons hy
  obtain ⟨xs, g, g', rfl, hg, hset, rfl⟩ := setNull_index hl'
  obtain ⟨hi, rfl⟩ := List.getElem?_eq_some_iff.mp hg
  have hsplit : ∀ a, xs.set i a = xs.take i ++ a :: xs.drop (i + 1) := fun a => by
    rw [List.set_eq_take_append_cons_drop, if_pos hi]
  refine ⟨xs.take i, xs[i], g', xs.drop (i + 1), ?_, ?_, ?_, hset⟩
  · rw [← hsplit, List.set_getElem_self]
    exact hfetched hx hl
  · rw [← hsplit]
    exact hfetched (Dict.get?_set_self ..) (Dict.get?_set_self ..)
  · rw [List.length_take]
    omega

/-! ## The record of the hostname -/

namespace Gslb

/-- `d` shows the same as `g`, and the search does not raise at `d`. -/
structure Alike (hostname : String) (g d : Value) : Prop where
  searched : ∃ b, hasRecord hostname d = .ok b
  health : health g = health d
  routed : routed hostname g = routed hostname d

/-- With a record the Gslb at `i` is read, and shows something else than the one that is read
without it. -/
def Overtakes (hostname : String) (gslbs : List Value) (i : Nat) : Prop :=
  (∀ x ∈ gslbs.take i, decides hostname x = false) ∧
    ∃ g d, gslbs[i]? = some g ∧ readGslb hostname gslbs = some d ∧ ¬ Alike hostname g d

theorem overtakes_append {d : Value} (hd : readGslb hostname (pre ++ g :: post) = some d) :
    Overtakes hostname (pre ++ g :: post) pre.length ↔
      (∀ x ∈ pre, decides hostname x = false) ∧ ¬ Alike hostname g d := by
  unfold Overtakes
  rw [List.take_left, List.getElem?_append_right (Nat.le_refl _), Nat.sub_self,
    List.getElem?_cons_zero, hd]
  simp only [Option.some.injEq, exists_and_left, exists_eq_left']

theorem readGslb_append (hostname : String) (pre : List Value) (g : Value) (post : List Value) :
    ∃ d, readGslb hostname (pre ++ g :: post) = some d := by
  unfold readGslb
  cases (pre ++ g :: post).find? (decides hostname) with
  | some d => exact ⟨d, rfl⟩
  | none =>
    cases pre with
    | nil => exact ⟨g, rfl⟩
    | cons x pre => exact ⟨x, rfl⟩

/-- Where the search does not raise the geo is read. -/
theorem reportedGeoTag_of_searched {d : Value} {b : Bool} (h : hasRecord hostname d = .ok b) :
    ∃ t, reportedGeoTag d = .ok t := by
  rw [hasRecord_eq] at h
  obtain ⟨status, hstatus, h⟩ := bind_ok h
  obtain ⟨records, hrecords, -⟩ := bind_ok h
  obtain ⟨x, hx, -⟩ := bind_ok hrecords
  rw [reportedGeoTag_eq, hstatus, ok_bind]
  cases status with
  | dict fields => exact ⟨_, rfl⟩
  | _ => cases hx

/-- The Gslb with the null record is read as one with a record. -/
theorem evaluate_record (strategy : String) (post : List Value)
    (h : IsNulled (withStatus gslbStatus) (.key "status" :: recordPath hostname) g g')
    (hpre : ∀ x ∈ pre, decides hostname x = false) :
    ∃ t, evaluate (pre ++ g' :: post) hostname strategy = (do
      return ofReading (← health g, ← routed hostname g, t)) := by
  obtain ⟨hrecord, t, ht⟩ := hasRecord_record h.set
  have hdecides : decides hostname g' = true := by
    unfold decides
    rw [hrecord]
  refine ⟨t, ?_⟩
  rw [evaluate_readGslb, readGslb_of_record hpre hdecides, Option.elim_some, evaluate_single,
    reading, hrecord, health_null h.upToNull, routed_null h.upToNull, ht]
  simp only [ok_bind, bind_assoc, pure_bind]

/-- What a search that does not raise reads. -/
theorem evaluate_searched (strategy : String) {d : Value} {b : Bool}
    (h : hasRecord hostname d = .ok b) : ∃ t, evaluate [d] hostname strategy = (do
      return ofReading (← health d, ← routed hostname d, t)) := by
  obtain ⟨t, ht⟩ := reportedGeoTag_of_searched h
  refine ⟨t, ?_⟩
  rw [evaluate_single, reading, h, ht]
  simp only [ok_bind, bind_assoc, pure_bind]

end Gslb

section

variable {rest : GslbSignal → Except Err Response} {rsp : Response}

/-- A null record shows at most by overtaking. -/
theorem record_eq (hgeo : ∀ found healthy active t t',
      rest ⟨found, healthy, active, t⟩ = rest ⟨found, healthy, active, t'⟩)
    (h : IsNulled (withStatus gslbStatus) (.key "status" :: recordPath hostname) g g')
    (hno : ¬ Overtakes hostname (pre ++ g :: post) pre.length) :
    (evaluate (pre ++ g' :: post) hostname strategy >>= rest) =
      evaluate (pre ++ g :: post) hostname strategy >>= rest := by
  obtain ⟨d, hd⟩ := readGslb_append hostname pre g post
  rw [overtakes_append hd, not_and, not_not] at hno
  by_cases hpre : ∀ x ∈ pre, decides hostname x = false
  swap
  · rw [evaluate_of_earlier]
    simpa using hpre
  have hlike := hno hpre
  obtain ⟨b, hb⟩ := hlike.searched
  obtain ⟨t, ht⟩ := evaluate_record strategy post h hpre
  obtain ⟨t', ht'⟩ := evaluate_searched strategy hb
  rw [ht, evaluate_readGslb, hd, Option.elim_some, ht', hlike.health, hlike.routed]
  simp only [bind_assoc, pure_bind]
  exact bind_congr fun healthy => bind_congr fun active => hgeo true healthy active t t'

/-- Overtaking shows. -/
theorem record_ne (hshow : ∀ signal rsp, rest signal = .ok rsp → Dict.get? rsp.status "gslb" =
      some (.dict [("healthy", .bool signal.healthy), ("isActiveForGeo", .bool signal.active)]))
    (h : IsNulled (withStatus gslbStatus) (.key "status" :: recordPath hostname) g g')
    (hover : Overtakes hostname (pre ++ g :: post) pre.length)
    (hok : (evaluate (pre ++ g :: post) hostname strategy >>= rest) = .ok rsp) :
    (evaluate (pre ++ g' :: post) hostname strategy >>= rest) ≠ .ok rsp := by
  intro hok'
  obtain ⟨d, hd⟩ := readGslb_append hostname pre g post
  rw [overtakes_append hd] at hover
  obtain ⟨hpre, hne⟩ := hover
  -- what is read without the record, and with it
  obtain ⟨signal, hsignal, hrest⟩ := bind_ok hok
  rw [evaluate_readGslb, hd, Option.elim_some] at hsignal
  obtain ⟨hb, hdhealth, hdrouted⟩ := evaluate_single_ok hsignal
  obtain ⟨signal', hsignal', hrest'⟩ := bind_ok hok'
  obtain ⟨t, ht⟩ := evaluate_record strategy post h hpre
  rw [ht] at hsignal'
  obtain ⟨healthy, hghealth, hsignal'⟩ := bind_ok hsignal'
  obtain ⟨active, hgrouted, hsignal'⟩ := bind_ok hsignal'
  cases hsignal'
  have hsame := (hshow _ _ hrest).symm.trans (hshow _ _ hrest')
  simp only [ofReading, Option.some.injEq, Value.dict.injEq, List.cons.injEq, Prod.mk.injEq,
    Value.bool.injEq, true_and, and_true] at hsame
  refine hne ⟨hb, ?_, ?_⟩
  · rw [hghealth, hdhealth, hsame.1]
  · rw [hgrouted, hdrouted, hsame.2]

end

end ResilientCtp
