import ResilientCtp.Run.Renewal

/-!
# A heartbeat under a lagging read-back

The next epoch comes from the heartbeat that a round observes, which need not be the one that was
written last: the provider reports back with a lag. If the role changed in between and changes
back, a round finds an old heartbeat of its own role and, within the throttle, writes its epoch
again: the heartbeat goes back in time.

* `lagging`: the runs in which a round observes an own heartbeat that it wrote before, or none,
  and never an older one than the round before it. The decided roles are arbitrary: the gate of a
  control plane without peers is its GSLB signal.
* `nondecreasing_iff`: the epochs never go back exactly if no round rewinds (`Rewinds`).
* `goes_back`: a standby, a leader and a standby again, in 40 seconds.
-/

namespace ResilientCtp

open Py Election Heartbeat

namespace Solo

structure Lagged where
  log : List Round
  /-- The log up to the heartbeat that the control plane observes. -/
  seen : List Round

/-- A round that observes the newest heartbeat of `c'.seen`. -/
structure Lags (s : Settings) (identity : Identity) (c : Lagged) (r : Round) (c' : Lagged) :
    Prop where
  next : Next s identity c.log r
  log : c'.log = r :: c.log
  later : c.seen <:+ c'.seen
  own : c'.seen <:+ c.log
  prev : Mirrored identity c'.seen r

def lagging (s : Settings) (identity : Identity) : Lts.System Lagged Round where
  init c := c = ⟨[], []⟩
  step c r c' := Lags s identity c r c'

/-- The round writes an epoch from before its newest one: it keeps an old heartbeat of the role
that it decides. Where the id stands for the epoch, that can be ahead of the clock, and a round
that does not keep it goes back to the clock. -/
def Rewinds (s : Settings) (rs : List Round) (r : Round) : Prop :=
  ∃ p ∈ rs.head?,
    (∃ m ∈ mark r.inp.prev s.tsTag,
      m.Kept s.throttle r.now r.out.decision.role.text ∧ m.stamp < p.out.epoch) ∨
    (s.tsTag = cpidTag ∧ r.now < p.out.epoch ∧
      ∀ m ∈ mark r.inp.prev s.tsTag, ¬ m.Kept s.throttle r.now r.out.decision.role.text)

variable {s : Settings} {identity : Identity} {c c' : Lagged} {r q : Round}

theorem Lags.ownHeartbeat (h : Lags s identity c r c') : OwnHeartbeat identity c.log r := by
  refine ⟨lastHeartbeat identity c'.seen, ?_, h.prev⟩
  have hown := h.own
  revert hown
  cases c'.seen with
  | nil => exact fun _ => .inl rfl
  | cons q seen => exact fun hown => .inr ⟨q, hown.subset List.mem_cons_self, rfl⟩

theorem lagging_refines (s : Settings) (identity : Identity) :
    (lagging s identity).Refines (recalled s identity) Lagged.log where
  init c h := by cases h; rfl
  step _ r _ _ h := .inr ⟨r, ⟨h.next, h.log⟩, h.ownHeartbeat⟩

/-! ## One round -/

/-- Nothing but the id puts an epoch ahead of the clock. -/
theorem newest_epoch_le (hr : (lagging s identity).Reach c) (h : Lags s identity c r c')
    (hk : s.tsTag ≠ cpidTag) {p : Round} (hp : p ∈ c.log.head?) : p.out.epoch ≤ r.now := by
  obtain ⟨hle, -⟩ := (epoch_le_inductive hk).reach ((lagging_refines s identity).reach hr) p hp p
    (List.mem_of_mem_head? hp)
  exact Int.le_trans hle (h.next.mono p hp)

theorem rewinds_iff (hr : (lagging s identity).Reach c) (h : Lags s identity c r c') :
    Rewinds s c.log r ↔ ∃ p ∈ c.log.head?, r.out.epoch < p.out.epoch := by
  refine exists_congr fun p => and_congr_right fun hp => ?_
  rw [reconcile_epoch h.next.out, Throttle.stamp_lt_iff]
  refine or_congr_right ⟨fun ⟨_, hlt, hno⟩ => ⟨hno, hlt⟩, fun ⟨hno, hlt⟩ => ⟨?_, hlt, hno⟩⟩
  by_contra hk
  have hle : p.out.epoch ≤ r.inp.now := newest_epoch_le hr h hk hp
  omega

/-! ## A run -/

/-- **The heartbeat never goes backwards**, in every run in which no round rewinds. -/
theorem nondecreasing_iff (h : (lagging s identity).Reach c) :
    c.log.Pairwise (fun r q => q.out.epoch ≤ r.out.epoch) ↔
      ∀ r earlier, r :: earlier <:+ c.log → ¬ Rewinds s earlier r := by
  induction h with
  | init hi =>
    cases hi
    exact ⟨fun _ r earlier hs => absurd (List.eq_nil_of_suffix_nil hs) (List.cons_ne_nil _ _),
      fun _ => .nil⟩
  | @step c c' r hr hst ih =>
    have hback := rewinds_iff hr hst
    rw [hst.log, List.pairwise_cons, ih]
    constructor
    · rintro ⟨hall, hold⟩ x earlier hs
      rcases List.suffix_cons_iff.mp hs with e | hs
      · cases e
        intro hw
        obtain ⟨p, hp, hlt⟩ := hback.mp hw
        have := hall p (List.mem_of_mem_head? hp)
        omega
      · exact hold x earlier hs
    · intro hall
      have hold : ∀ x earlier, x :: earlier <:+ c.log → ¬ Rewinds s earlier x :=
        fun x earlier hs => hall x earlier (hs.trans (List.suffix_cons r c.log))
      refine ⟨fun q hq => ?_, hold⟩
      have hsorted := ih.mpr hold
      have hno := hall r c.log (List.suffix_refl _)
      rw [hback] at hno
      -- the newest epoch of the log is the latest one
      cases hlog : c.log with
      | nil => rw [hlog] at hq; cases hq
      | cons p log =>
        rw [hlog] at hq hsorted hno
        have hp : p.out.epoch ≤ r.out.epoch := by
          by_contra hlt
          exact hno ⟨p, rfl, by omega⟩
        rcases List.mem_cons.mp hq with rfl | hq
        · exact hp
        · exact Int.le_trans (List.rel_of_pairwise_cons hsorted hq) hp

/-! ## Three rounds -/

/-- Any readings can be those of the next round, on any heartbeat that may be seen. -/
theorem exists_lagged (h : (lagging s identity).Reach c) (seen : List Round)
    (hlater : c.seen <:+ seen) (hown : seen <:+ c.log)
    (hp : identity.provider = "aws" ∨ identity.provider = "azure" ∨ identity.provider = "gcp")
    (inp : Inputs) (hpos : 0 < inp.now) (hmono : ∀ p ∈ c.log.head?, p.now ≤ inp.now)
    (hst : inp.priorStatus = persisted c.log)
    (hprev : prevTags (lastHeartbeat identity seen) = .ok inp.prev) :
    ∃ r, (lagging s identity).Reach ⟨r :: c.log, seen⟩ ∧ Next s identity c.log r ∧ r.inp = inp := by
  have hrun := ((lagging_refines s identity).reach h).of_restrict
  obtain ⟨r, hn, e⟩ := exists_next hrun hp inp hpos hmono hst
  have hm : Mirrored identity seen r := by rw [Mirrored, e]; exact hprev
  have hlag : Lags s identity c r ⟨r :: c.log, seen⟩ := ⟨hn, rfl, hlater, hown, hm⟩
  exact ⟨r, .step h hlag, hn, e⟩

/-- Standby at 100, leader at 130, and standby again at 140, with the heartbeat of 100 in sight. -/
theorem exists_rewind : ∃ r p q,
    (lagging Settings.default memberA.toIdentity).Reach ⟨[r, p, q], [q]⟩ ∧
      r.out.epoch = 100 ∧ p.out.epoch = 130 := by
  have hp : memberA.provider = "aws" := rfl
  have hself : ∀ tags, prevTags (observedSelf memberA.provider tags) = .ok tags := fun tags =>
    prevTags_observedSelf ..
  obtain ⟨q, hq, hqn, eq⟩ := @exists_lagged Settings.default memberA.toIdentity ⟨[], []⟩ (.init rfl)
    [] (List.suffix_refl _) (List.suffix_refl _) (.inl hp) (idle [] [] 100) (by decide) (by simp)
    rfl rfl
  have hqrole : q.out.decision.role = .standby := standby_of_idle (eq ▸ hqn.out)
  have hqepoch : q.out.epoch = 100 := by
    rw [reconcile_epoch hqn.out, eq]
    rfl
  have hmark : mark q.out.tags tsTagDefault = some ⟨100, "standby"⟩ := by
    rw [reconcile_tags hqn.out, hqepoch, hqrole]
    exact mark_ownTags livenessKey_default (by decide)
  -- the role changes, so the epoch is new
  obtain ⟨p, hpr, hpn, ep⟩ := exists_lagged hq [q] List.nil_suffix (List.suffix_refl _)
    (.inl hp) (quiet "failover" [] [q] q.out.tags 130) (show (0 : Int) < 130 by decide)
    (by intro x hx; cases hx; rw [Round.now, eq]; show (100 : Int) ≤ 130; decide) rfl (hself _)
  have hprole : p.out.decision.role = .leader := by
    refine (hpn.leads_iff ((lagging_refines _ _).reach hq).of_restrict).mpr ⟨?_, .inl ?_⟩
    · exact clear_of_quiet ep fun x hx => by cases hx
    · rintro ⟨x, hx, -⟩
      rw [ep] at hx
      cases hx
  have hpepoch : p.out.epoch = 130 := by
    rw [reconcile_epoch hpn.out, hprole, ep]
    show Throttle.stamp 60 (mark q.out.tags tsTagDefault) 130 "leader" = 130
    rw [hmark]
    decide
  -- and back, with the first heartbeat still in sight
  obtain ⟨r, hr, hrn, er⟩ := exists_lagged hpr [q] (List.suffix_refl _)
    (List.suffix_cons p [q]) (.inl hp) (idle [p, q] q.out.tags 140)
    (show (0 : Int) < 140 by decide)
    (by intro x hx; cases hx; rw [Round.now, ep]; show (130 : Int) ≤ 140; decide) rfl (hself _)
  have hrrole : r.out.decision.role = .standby := standby_of_idle (er ▸ hrn.out)
  refine ⟨r, p, q, hr, ?_, hpepoch⟩
  rw [reconcile_epoch hrn.out, hrrole, er]
  show Throttle.stamp 60 (mark q.out.tags tsTagDefault) 140 "standby" = 100
  rw [hmark]
  decide

theorem nondecreasing_iff_memberA : ∃ c : Lagged,
    (lagging Settings.default memberA.toIdentity).Reach c ∧ c.log.length = 3 ∧
      (c.log.Pairwise (fun r q => q.out.epoch ≤ r.out.epoch) ↔
        ∀ r earlier, r :: earlier <:+ c.log → ¬ Rewinds Settings.default earlier r) := by
  obtain ⟨r, p, q, hr, -, -⟩ := exists_rewind
  exact ⟨_, hr, rfl, nondecreasing_iff hr⟩

/-- A heartbeat goes back from 130 to 100. -/
theorem goes_back : ¬ ∀ (s : Settings) (identity : Identity) (c : Lagged), s.Admitted →
    (identity.provider = "aws" ∨ identity.provider = "azure") → (lagging s identity).Reach c →
      c.log.Pairwise (fun r q => q.out.epoch ≤ r.out.epoch) := by
  intro h
  obtain ⟨r, p, q, hr, her, hep⟩ := exists_rewind
  have hall := h _ _ _ Settings.default_admitted (.inl rfl) hr
  have := List.rel_of_pairwise_cons hall List.mem_cons_self
  omega

end Solo

end ResilientCtp
