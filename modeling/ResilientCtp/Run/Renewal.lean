import ResilientCtp.Run.Stamps

/-!
# How often a heartbeat is renewed

A round keeps the epoch of the heartbeat that it observes while the role is the same, so two
rounds in a row under one role write one epoch, or epochs that are a throttle apart. What is read
back are the `tags`: GCP reports `labels`, and on GCP every round writes a new epoch.

* `mirrored`: the runs in which a round observes the heartbeat that the one before it wrote.
* `recalled`: those in which it is one that any earlier round wrote, or none. No epoch is ahead of
  the clock, but where the id stands for it (`epoch_le_inductive`).
* `throttled_iff`: every renewal waits for the throttle exactly where the epoch reads back.
* `once_per_window`: there, of a whole stretch of rounds under one role.
-/

namespace ResilientCtp

open Py Election Heartbeat

namespace Solo

def mirrored (s : Settings) (identity : Identity) : Lts.System (List Round) Round :=
  (run s identity).restrict (Mirrored identity)

/-- The observed own heartbeat is none, or one that an earlier round wrote. -/
def OwnHeartbeat (identity : Identity) (rs : List Round) (r : Round) : Prop :=
  ∃ observed, (observed = [] ∨ ∃ q ∈ rs, observed = observedSelf identity.provider q.out.tags) ∧
    prevTags observed = .ok r.inp.prev

def recalled (s : Settings) (identity : Identity) : Lts.System (List Round) Round :=
  (run s identity).restrict (OwnHeartbeat identity)

/-- The epochs of two rounds under one role are the same or a throttle apart. -/
def Throttled (s : Settings) (r q : Round) : Prop :=
  r.out.decision.role = q.out.decision.role → r.out.epoch ≠ q.out.epoch →
    s.throttle ≤ (r.out.epoch - q.out.epoch).natAbs

/-- The epoch of a heartbeat reads back: its provider reports tags, and the key is its own. -/
def ReadsBack (s : Settings) (identity : Identity) : Prop :=
  identity.provider ≠ "gcp" ∧ LivenessKey s.tsTag

variable {s : Settings} {identity : Identity} {rs earlier stretch : List Round} {r q x : Round}

theorem epoch_ne_zero (h : Next s identity rs r) : r.out.epoch ≠ 0 := by
  have hpos := h.positive
  rw [reconcile_epoch h.out]
  rcases Throttle.stamp_eq s.throttle (mark r.inp.prev s.tsTag) r.now r.out.decision.role.text
    with ⟨m, hm, -, e⟩ | ⟨-, e⟩
  · rw [e]
    unfold mark at hm
    split at hm
    · cases hm
    · next h0 => cases hm; exact h0
  · rw [e]
    exact Int.ne_of_gt hpos

/-- Where epochs read back, a round observes the epoch and the role of the one before it. -/
theorem mark_of_mirrored (hb : ReadsBack s identity)
    (hq : reconcile s identity q.inp = .ok q.out) (h0 : q.out.epoch ≠ 0)
    (hm : Mirrored identity (q :: rs) r) :
    mark r.inp.prev s.tsTag = some ⟨q.out.epoch, q.out.decision.role.text⟩ := by
  rcases hm.prev with ⟨-, hrs | hg⟩ | ⟨q', hq', hp, -⟩
  · cases hrs
  · exact absurd hg hb.1
  · cases hq'
    rw [hp, reconcile_tags hq, mark_ownTags hb.2 h0]

/-! ## No epoch is ahead of the clock -/

theorem OwnHeartbeat.prev (h : OwnHeartbeat identity rs r) :
    r.inp.prev = [] ∨ ∃ q ∈ rs, r.inp.prev = q.out.tags := by
  obtain ⟨o, ho, hp⟩ := h
  rcases ho with rfl | ⟨q, hq, rfl⟩
  · rw [prevTags_nil] at hp
    exact .inl (Except.ok.inj hp).symm
  · rcases prev_of_observedSelf hp with e | ⟨e, -⟩
    · exact .inl e
    · exact .inr ⟨q, hq, e⟩

theorem Mirrored.ownHeartbeat (h : Mirrored identity rs r) : OwnHeartbeat identity rs r := by
  refine ⟨lastHeartbeat identity rs, ?_, h⟩
  cases rs with
  | nil => exact .inl rfl
  | cons q rs => exact .inr ⟨q, List.mem_cons_self, rfl⟩

/-- The epoch read back from the tags of a heartbeat, where the key does not read the id. -/
theorem epoch_of_tags (hk : s.tsTag ≠ cpidTag) (e : Int) (role : Role) :
    asInt (Dict.getD (ownTags identity s.tsTag e role.text) s.tsTag .null) 0 = e ∨
      asInt (Dict.getD (ownTags identity s.tsTag e role.text) s.tsTag .null) 0 = 0 := by
  by_cases hr : s.tsTag = roleTag
  · right
    rw [hr, getD_ownTags_role]
    cases role <;> decide
  · left
    rw [getD_ownTags ⟨hr, hk⟩, asInt_strInt]

/-- The epoch of a round is that of its clock or of an earlier round. -/
theorem epoch_le_inductive (hk : s.tsTag ≠ cpidTag) : (recalled s identity).Inductive fun rs =>
    ∀ r ∈ rs.head?, ∀ q ∈ rs, q.out.epoch ≤ r.now ∧ reconcile s identity q.inp = .ok q.out where
  init rs hi := by cases hi; intro r hr; cases hr
  step := by
    rintro rs r - - ih ⟨⟨hn, rfl⟩, hown⟩ _ hr q hq
    cases hr
    have hold : ∀ q ∈ rs, q.out.epoch ≤ r.now ∧ reconcile s identity q.inp = .ok q.out := by
      intro q hq
      cases rs with
      | nil => cases hq
      | cons p rs =>
        obtain ⟨hle, ho⟩ := ih p rfl q hq
        exact ⟨Int.le_trans hle (hn.mono p rfl), ho⟩
    rcases List.mem_cons.mp hq with rfl | hq
    swap
    · exact hold q hq
    refine ⟨?_, hn.out⟩
    obtain ⟨-, he, -⟩ := reconcile_ok hn.out
    rcases epochToWrite_cases q.inp.prev s.tsTag q.inp.now s.throttle q.out.decision.role with
      hnow | ⟨e, hpe, h0, -, hw⟩
    · exact Int.le_of_eq (he.trans hnow)
    · rw [he, hw]
      rcases hown.prev with hn | ⟨p, hp, hpt⟩
      · rw [hn] at hpe
        exact absurd hpe.symm h0
      · obtain ⟨hle, ho⟩ := hold p hp
        rw [hpt, reconcile_tags ho] at hpe
        rcases @epoch_of_tags s identity hk p.out.epoch p.out.decision.role with e1 | e1 <;> omega

/-! ## Renewals that wait -/

/-- The epoch of `r` is that of `x`, or at least a throttle later. -/
def Spaced (s : Settings) (r x : Round) : Prop :=
  r.out.epoch = x.out.epoch ∨ s.throttle ≤ r.out.epoch - x.out.epoch

theorem Spaced.throttled (h : Spaced s r x) : Throttled s r x := by
  intro _ hne
  rcases h with h | h
  · exact absurd h hne
  · omega

theorem Spaced.trans (h0 : 0 ≤ s.throttle) (h1 : Spaced s r q) (h2 : Spaced s q x) :
    Spaced s r x := by
  unfold Spaced at *
  omega

theorem spaced_of_role (hb : ReadsBack s identity)
    (h : (mirrored s identity).Reach (r :: q :: earlier))
    (hrole : r.out.decision.role = q.out.decision.role) : Spaced s r q := by
  obtain ⟨hq, hr, hm⟩ := next_of_reach h
  obtain ⟨-, hn, -⟩ := next_of_reach hq
  have hmark := mark_of_mirrored hb hn.out (epoch_ne_zero hn) hm
  by_cases hne : r.out.epoch = q.out.epoch
  · exact .inl hne
  · right
    rw [reconcile_epoch hr.out, hmark] at hne ⊢
    exact Throttle.window_le_of_ne (congrArg Role.text hrole.symm) hne

/-- **Once a window.** Over a stretch of rounds under one role. -/
theorem once_per_window (h0 : 0 ≤ s.throttle) (hb : ReadsBack s identity)
    (h : (mirrored s identity).Reach (stretch ++ earlier)) {role : Role}
    (hrole : ∀ r ∈ stretch, r.out.decision.role = role) : stretch.Pairwise (Spaced s) := by
  induction stretch with
  | nil => exact .nil
  | cons r stretch ih =>
    have ih := ih (next_of_reach h).1 fun x hx => hrole x (List.mem_cons_of_mem _ hx)
    refine .cons (fun x hx => ?_) ih
    cases stretch with
    | nil => cases hx
    | cons q stretch =>
      have hrq : Spaced s r q := by
        refine spaced_of_role hb h ((hrole r List.mem_cons_self).trans ?_)
        exact (hrole q (List.mem_cons_of_mem _ List.mem_cons_self)).symm
      rcases List.mem_cons.mp hx with rfl | hx
      · exact hrq
      · exact hrq.trans h0 (List.rel_of_pairwise_cons ih hx)

/-! ## Renewals that do not -/

/-- Readings that no Gslb makes eligible. -/
def idle (rs : List Round) (prev : Dict) (now : Int) : Inputs :=
  { gslb := ⟨true, false, false, .str "idle"⟩, strategy := "failover", peers := []
    priorStatus := persisted rs, prev, now, isoNow := "" }

theorem standby_of_idle {prev : Dict} {now : Int} {out : Reconciled}
    (h : reconcile s identity (idle rs prev now) = .ok out) : out.decision.role = .standby := by
  obtain ⟨cand, -, hd⟩ := decide_cases (reconcile_ok h).1
  rcases hd with ⟨hc, -⟩ | ⟨hc, -⟩ | ⟨-, hrole, -⟩
  · cases hc.healthy
  · cases hc.healthy
  · exact hrole

theorem exists_idle (hrs : (mirrored s identity).Reach rs)
    (hp : identity.provider = "aws" ∨ identity.provider = "azure" ∨ identity.provider = "gcp")
    {now : Int} (hpos : 0 < now) (hmono : ∀ p ∈ rs.head?, p.now ≤ now) :
    ∃ r, (mirrored s identity).Reach (r :: rs) ∧ r.now = now ∧ r.out.decision.role = .standby := by
  obtain ⟨prev, hprev⟩ := exists_prev identity rs
  obtain ⟨r, hn, e⟩ := exists_next hrs.of_restrict hp (idle rs prev now) hpos hmono rfl
  have hm : Mirrored identity rs r := by rw [Mirrored, e]; exact hprev
  have hout := hn.out
  rw [e] at hout
  exact ⟨r, reach_cons hrs hn hm, by rw [Round.now, e]; rfl, standby_of_idle hout⟩

/-- When no epoch is kept that does not read back. -/
def quietFrom (s : Settings) (identity : Identity) : Int :=
  max 1 (asInt (.str identity.id) 0 + s.throttle)

theorem epoch_of_idle (hb : ¬ ReadsBack s identity) (h : (mirrored s identity).Reach (r :: rs))
    (hq : quietFrom s identity ≤ r.now) : r.out.epoch = r.now := by
  obtain ⟨hrs, hr, hm⟩ := next_of_reach h
  rw [reconcile_epoch hr.out]
  apply Throttle.stamp_of_not_kept
  rintro m hmark ⟨hlt, -⟩
  rcases hm.mark_cases (fun q hq => (hrs.newest q hq).out) hmark with hback | ⟨-, e⟩
  · exact hb hback
  · have hlt : r.now - m.stamp < s.throttle := hlt
    unfold quietFrom at hq
    omega

theorem exists_unthrottled
    (hp : identity.provider = "aws" ∨ identity.provider = "azure" ∨ identity.provider = "gcp")
    (ht : 1 < s.throttle) (hb : ¬ ReadsBack s identity) : ∃ r q,
      (mirrored s identity).Reach [r, q] ∧ ¬ Throttled s r q := by
  have h0 : 0 < quietFrom s identity := by
    have := Int.le_max_left 1 (asInt (.str identity.id) 0 + s.throttle)
    exact Int.lt_of_lt_of_le (by decide) this
  obtain ⟨q, hq, hqnow, hqrole⟩ := exists_idle (.init rfl) hp h0 (by simp)
  obtain ⟨r, hr, hrnow, hrrole⟩ := @exists_idle _ _ _ hq hp (quietFrom s identity + 1) (by omega)
    (by intro p hp; cases hp; omega)
  have heq := epoch_of_idle hb hq (Int.le_of_eq hqnow.symm)
  have her := epoch_of_idle hb hr (by omega)
  refine ⟨r, q, hr, fun h => ?_⟩
  have := h (hrrole.trans hqrole.symm) (by omega)
  omega

/-- **Throttled writes.** Every two rounds in a row are throttled exactly where the epoch reads
back. -/
theorem throttled_iff
    (hp : identity.provider = "aws" ∨ identity.provider = "azure" ∨ identity.provider = "gcp") :
    (∀ r q earlier, (mirrored s identity).Reach (r :: q :: earlier) → Throttled s r q) ↔
      s.throttle ≤ 1 ∨ ReadsBack s identity := by
  constructor
  · intro h
    by_contra hno
    obtain ⟨ht, hb⟩ := not_or.mp hno
    obtain ⟨r, q, hr, hnot⟩ := exists_unthrottled hp (by omega) hb
    exact hnot (h r q [] hr)
  · rintro (ht | hb) r q earlier h
    · intro _ hne
      omega
    · intro hrole
      exact (spaced_of_role hb h hrole).throttled hrole

theorem throttled_iff_memberB :
    (∀ r q earlier, (mirrored Settings.default memberB.toIdentity).Reach (r :: q :: earlier) →
        Throttled Settings.default r q) ↔
      Settings.default.throttle ≤ 1 ∨ ReadsBack Settings.default memberB.toIdentity :=
  throttled_iff (.inl rfl)

/-- A control plane on GCP. -/
def memberG : Member := ⟨⟨"cp-g", "gcp", "europe-west1", "eu", 3⟩, none⟩

/-- On GCP two standby rounds a second apart write two epochs. -/
theorem gcp_unthrottled : ¬ ∀ (s : Settings) (identity : Identity), s.Admitted →
    (identity.provider = "aws" ∨ identity.provider = "azure" ∨ identity.provider = "gcp") →
      ∀ r q earlier, (mirrored s identity).Reach (r :: q :: earlier) → Throttled s r q := by
  intro h
  have hb : ¬ ReadsBack Settings.default memberG.toIdentity := fun hb => hb.1 rfl
  obtain ⟨r, q, hr, hnot⟩ :=
    @exists_unthrottled Settings.default memberG.toIdentity (.inr (.inr rfl)) (by decide) hb
  exact hnot (h _ _ Settings.default_admitted (.inr (.inr rfl)) r q [] hr)

end Solo

end ResilientCtp
