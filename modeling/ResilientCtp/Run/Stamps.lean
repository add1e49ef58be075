import ResilientCtp.Lib.Throttle
import ResilientCtp.Run.Solo

/-!
# The epoch of a heartbeat is a throttled stamp

`epochToWrite` is the stamp of `Lib/Throttle.lean`, on the mark that the observed tags carry
(`mark`): the epoch under the liveness key, and the role as the label. Under a key that the role
or the id overwrites, the tags carry no epoch of their own (`mark_ownTags_role`,
`mark_ownTags_id`).
-/

namespace ResilientCtp

open Py Election Heartbeat

/-- The mark of a heartbeat; none where its tags hold no epoch. -/
def mark (tags : Dict) (tsTag : String) : Option (Throttle.Mark String) :=
  if asInt (Dict.getD tags tsTag .null) 0 = 0 then none
  else some ⟨asInt (Dict.getD tags tsTag .null) 0, (Dict.getD tags roleTag (.str "")).text⟩

theorem isStr_iff_text {v : Value} {t : String} (ht : t ≠ "") : v.isStr t = true ↔ v.text = t := by
  cases v with
  | str s => exact beq_iff_eq
  | _ => exact ⟨fun h => absurd h Bool.false_ne_true, fun h => absurd h.symm ht⟩

/-- **Refinement.** The epoch of a heartbeat is a throttled stamp. -/
theorem epochToWrite_eq_stamp (prev : Dict) (k : String) (now throttle : Int) (role : Role) :
    epochToWrite prev k now throttle role =
      Throttle.stamp throttle (mark prev k) now role.text := by
  have hr : role.text ≠ "" := by cases role <;> decide
  by_cases h0 : asInt (Dict.getD prev k .null) 0 = 0
  · have hm : mark prev k = none := if_pos h0
    rw [hm]
    exact if_neg fun h => h.1 h0
  · rw [mark, if_neg h0]
    by_cases hk : now - asInt (Dict.getD prev k .null) 0 < throttle ∧
        (Dict.getD prev roleTag (.str "")).isStr role.text = true
    · have hkept : Throttle.Mark.Kept ⟨asInt (Dict.getD prev k .null) 0,
          (Dict.getD prev roleTag (.str "")).text⟩ throttle now role.text :=
        ⟨hk.1, (isStr_iff_text hr).mp hk.2⟩
      rw [Throttle.stamp_of_kept hkept]
      exact if_pos ⟨h0, hk⟩
    · rw [Throttle.stamp_of_not_kept]
      · exact if_neg fun h => hk h.2
      · intro m hm hkept
        cases hm
        exact hk ⟨hkept.1, (isStr_iff_text hr).mpr hkept.2⟩

variable {k : String} {identity : Identity} {e : Int} {role : Role} {s : Settings} {inp : Inputs}
  {out : Reconciled}

theorem reconcile_epoch (h : reconcile s identity inp = .ok out) : out.epoch =
    Throttle.stamp s.throttle (mark inp.prev s.tsTag) inp.now out.decision.role.text :=
  (reconcile_ok h).2.1.trans (epochToWrite_eq_stamp ..)

/-- The role that `decide` gives on the inputs. -/
def DecidesRole (s : Settings) (identity : Identity) (inp : Inputs) (role : Role) : Prop :=
  ∃ d, Election.decide identity inp.gslb inp.peers inp.priorStatus s.hysteresis s.throttle inp.now
    inp.strategy inp.isoNow = .ok d ∧ d.role = role

theorem decidesRole_iff (h : reconcile s identity inp = .ok out) :
    DecidesRole s identity inp role ↔ out.decision.role = role := by
  unfold DecidesRole
  rw [(reconcile_ok h).1]
  constructor
  · rintro ⟨d, hd, hrole⟩
    cases hd
    exact hrole
  · exact fun hrole => ⟨_, rfl, hrole⟩

theorem reconcile_tags (h : reconcile s identity inp = .ok out) :
    out.tags = ownTags identity s.tsTag out.epoch out.decision.role.text :=
  (reconcile_ok h).2.2.1

theorem reconcile_status (h : reconcile s identity inp = .ok out) :
    out.status = Status.buildStatus out.decision inp.gslb inp.peers out.epoch :=
  (reconcile_ok h).2.2.2.1

theorem mark_ownTags (hk : LivenessKey k) (he : e ≠ 0) :
    mark (ownTags identity k e role.text) k = some ⟨e, role.text⟩ := by
  simp only [mark, getD_ownTags hk, getD_ownTags_role, asInt_strInt, if_neg he, Value.text]

/-- The role overwrites the epoch. -/
theorem mark_ownTags_role : mark (ownTags identity roleTag e role.text) roleTag = none := by
  rw [mark, getD_ownTags_role, if_pos]
  cases role <;> decide

/-- The id overwrites the epoch. -/
theorem mark_ownTags_id : mark (ownTags identity cpidTag e role.text) cpidTag =
    if asInt (.str identity.id) 0 = 0 then none
    else some ⟨asInt (.str identity.id) 0, role.text⟩ := by
  simp only [mark, getD_ownTags_id, getD_ownTags_role, Value.text]

/-- A liveness key is one of its own, or one of the two fixed ones. -/
theorem livenessKey_cases (k : String) : LivenessKey k ∨ k = roleTag ∨ k = cpidTag := by
  by_cases hr : k = roleTag
  · exact .inr (.inl hr)
  by_cases hc : k = cpidTag
  · exact .inr (.inr hc)
  exact .inl ⟨hr, hc⟩

namespace Solo

/-- The round observes the heartbeat that the round before it wrote. -/
def Mirrored (identity : Identity) (rs : List Round) (r : Round) : Prop :=
  prevTags (lastHeartbeat identity rs) = .ok r.inp.prev

variable {rs : List Round} {r : Round}

/-- What a round observes is what the newest one wrote, or nothing. -/
theorem Mirrored.prev (h : Mirrored identity rs r) :
    (r.inp.prev = [] ∧ (rs = [] ∨ identity.provider = "gcp")) ∨
      ∃ q ∈ rs.head?, r.inp.prev = q.out.tags ∧ identity.provider ≠ "gcp" := by
  cases rs with
  | nil =>
    have hp : Except.ok [] = Except.ok r.inp.prev := h
    exact .inl ⟨(Except.ok.inj hp).symm, .inl rfl⟩
  | cons q rs =>
    have hp : prevTags (observedSelf identity.provider q.out.tags) = .ok r.inp.prev := h
    rw [prevTags_observedSelf] at hp
    by_cases hg : identity.provider = "gcp"
    · rw [if_pos hg] at hp
      exact .inl ⟨(Except.ok.inj hp).symm, .inr hg⟩
    · rw [if_neg hg] at hp
      exact .inr ⟨q, rfl, (Except.ok.inj hp).symm, hg⟩

/-- What a round observes is a mark of its own, or under the key of the id the id. -/
theorem Mirrored.mark_cases (h : Mirrored identity rs r)
    (hout : ∀ q ∈ rs.head?, reconcile s identity q.inp = .ok q.out) {m : Throttle.Mark String}
    (hm : m ∈ mark r.inp.prev s.tsTag) :
    (identity.provider ≠ "gcp" ∧ LivenessKey s.tsTag) ∨
      (s.tsTag = cpidTag ∧ m.stamp = asInt (.str identity.id) 0) := by
  rcases h.prev with ⟨hp, -⟩ | ⟨q, hq, hp, hg⟩
  · rw [hp] at hm
    cases hm
  · rw [hp, reconcile_tags (hout q hq)] at hm
    rcases livenessKey_cases s.tsTag with hk | hk | hk
    · exact .inl ⟨hg, hk⟩
    · rw [hk, mark_ownTags_role] at hm
      cases hm
    · rw [hk, mark_ownTags_id] at hm
      split at hm
      · cases hm
      · cases hm
        exact .inr ⟨hk, rfl⟩

end Solo

end ResilientCtp
