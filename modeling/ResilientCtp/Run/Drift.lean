import ResilientCtp.Run.Renewal

/-!
# A heartbeat on a clock that is stepped back

The runs of `Run/Solo.lean` have a clock that never goes back. Here the clock readings are
arbitrary (`drift`; a run on a good clock is one of them, `run_refines_drift`). The throttle keeps
an epoch that is ahead of the clock, since its age is negative: after a step back a control plane
goes on with the old epoch, and when it dies its heartbeat stays fresh until the clock is past
that epoch.

* `Expires`: a heartbeat left by a round is stale after the TTL and no evidence after the window.
* `expires_iff`: it expires exactly if the round kept no epoch ahead of its clock.
* `expires_of_mirrored`: so it does on a clock that never goes back.
* `outlives_clock`: a step back of 500 seconds, with a heartbeat that does not expire.
-/

namespace ResilientCtp

open Py Election Heartbeat

namespace Solo

/-- The status that the next round finds, from `boot` on. -/
def published (boot : Dict) : List Round → Dict
  | [] => boot
  | r :: _ => r.out.status

/-- A round on any clock. -/
structure Takes (s : Settings) (identity : Identity) (boot : Dict) (rs : List Round) (r : Round) :
    Prop where
  status : r.inp.priorStatus = published boot rs
  out : reconcile s identity r.inp = .ok r.out

def drift (s : Settings) (identity : Identity) (boot : Dict) : Lts.System (List Round) Round where
  init rs := rs = []
  step rs r rs' := Takes s identity boot rs r ∧ rs' = r :: rs

/-- The runs on positive clock readings in which a round observes the heartbeat that the one
before it wrote. -/
def drifting (s : Settings) (identity : Identity) (boot : Dict) :
    Lts.System (List Round) Round :=
  (drift s identity boot).restrict fun rs r => 0 < r.now ∧ Mirrored identity rs r

variable {s : Settings} {identity : Identity} {boot : Dict} {C : List Round → Round → Prop}
  {rs : List Round} {r q : Round}

theorem Next.takes (h : Next s identity rs r) : Takes s identity [] rs r where
  status := by
    rw [h.status]
    cases rs <;> rfl
  out := h.out

theorem run_refines_drift (s : Settings) (identity : Identity) :
    (run s identity).Refines (drift s identity []) id where
  init _ h := h
  step _ r _ _ h := .inr ⟨r, h.1.takes, h.2⟩

theorem takes_of_reach (h : ((drift s identity boot).restrict C).Reach (r :: rs)) :
    ((drift s identity boot).restrict C).Reach rs ∧ Takes s identity boot rs r ∧ C rs r :=
  h.head_restrict

/-! ## The two readers of an epoch -/

/-- The heartbeat that a round leaves is stale for every peer once the TTL is over, and no
evidence of a continuous leadership once the hysteresis window is. -/
structure Expires (s : Settings) (r : Round) : Prop where
  stale : ∀ (m : Member) (now : Int), r.now + s.ttl < now →
    (livenessFromTags m (some r.out.tags) s.tsTag now s.ttl).fresh = false
  discontinued : ∀ now, r.now + s.hysteresis * s.throttle < now →
    continuousLeader r.out.status (window s) now = false

/-- The epoch that a peer reads. -/
def peerEpoch (s : Settings) (r : Round) : Int := asInt (Dict.getD r.out.tags s.tsTag .null) 0

theorem fresh_iff_peerEpoch (m : Member) (now : Int) :
    (livenessFromTags m (some r.out.tags) s.tsTag now s.ttl).fresh = true ↔
      0 < peerEpoch s r ∧ now - peerEpoch s r ≤ s.ttl :=
  fresh_livenessFromTags

theorem stale_iff (hpos : 0 < r.now) :
    (∀ (m : Member) (now : Int), r.now + s.ttl < now →
      (livenessFromTags m (some r.out.tags) s.tsTag now s.ttl).fresh = false) ↔
      peerEpoch s r ≤ r.now := by
  constructor
  · intro h
    by_contra hlt
    have hf := (@fresh_iff_peerEpoch s r memberA (peerEpoch s r + s.ttl)).mpr ⟨by omega, by omega⟩
    rw [h memberA _ (by omega)] at hf
    cases hf
  · intro hle m now hnow
    apply Bool.eq_false_iff.mpr
    intro hf
    obtain ⟨-, hage⟩ := (fresh_iff_peerEpoch m now).mp hf
    omega

/-- No status that was published is evidence. -/
theorem discontinued (h : reconcile s identity r.inp = .ok r.out) (w now : Int) :
    continuousLeader r.out.status w now = false := by
  rw [reconcile_status h, Status.continuousLeader_buildStatus]

theorem expires_iff_peerEpoch (h : reconcile s identity r.inp = .ok r.out) (hpos : 0 < r.now) :
    Expires s r ↔ peerEpoch s r ≤ r.now := by
  rw [← stale_iff hpos]
  exact ⟨fun he => he.stale, fun hstale => ⟨hstale, fun _ _ => discontinued h _ _⟩⟩

/-! ## Epochs ahead of the clock -/

/-- The round observes an own heartbeat that is ahead of its clock, under the role that its inputs
decide; or the liveness key is the id's, and the id reads as a number ahead of the clock. -/
def AheadOfClock (s : Settings) (identity : Identity) (r : Round) : Prop :=
  (s.tsTag = cpidTag ∧ r.now < asInt (.str identity.id) 0) ∨
    ∃ m ∈ mark r.inp.prev s.tsTag, r.now < m.stamp ∧
      ∃ role, DecidesRole s identity r.inp role ∧ m.label = role.text

theorem now_lt_epoch_iff (hs : s.Admitted) (h : reconcile s identity r.inp = .ok r.out) :
    r.now < r.out.epoch ↔ ∃ m ∈ mark r.inp.prev s.tsTag, r.now < m.stamp ∧
      ∃ role, DecidesRole s identity r.inp role ∧ m.label = role.text := by
  have ht := hs.throttle
  simp only [decidesRole_iff h, exists_eq_left']
  rw [reconcile_epoch h]
  exact Throttle.now_lt_stamp_iff (by omega)

/-- What the peers read of a round's heartbeat is its epoch, nothing, or the id. -/
theorem peerEpoch_cases (h : reconcile s identity r.inp = .ok r.out) :
    (LivenessKey s.tsTag ∧ peerEpoch s r = r.out.epoch) ∨
      (s.tsTag = roleTag ∧ peerEpoch s r = 0) ∨
      (s.tsTag = cpidTag ∧ peerEpoch s r = asInt (.str identity.id) 0) := by
  rw [peerEpoch, reconcile_tags h]
  rcases livenessKey_cases s.tsTag with hk | hk | hk
  · exact .inl ⟨hk, by rw [getD_ownTags hk, asInt_strInt]⟩
  · refine .inr (.inl ⟨hk, ?_⟩)
    rw [hk, getD_ownTags_role]
    cases r.out.decision.role <;> decide
  · exact .inr (.inr ⟨hk, by rw [hk, getD_ownTags_id]⟩)

theorem aheadOfClock_iff (hs : s.Admitted) (h : reconcile s identity r.inp = .ok r.out) :
    AheadOfClock s identity r ↔
      (s.tsTag = cpidTag ∧ r.now < asInt (.str identity.id) 0) ∨ r.now < r.out.epoch := by
  rw [AheadOfClock, now_lt_epoch_iff hs h]

/-- Under a fixed key an epoch ahead of the clock is the id's. -/
theorem id_of_ahead (hs : s.Admitted) (h : (drifting s identity boot).Reach (r :: rs))
    (hk : ¬ LivenessKey s.tsTag) (hlt : r.now < r.out.epoch) :
    s.tsTag = cpidTag ∧ r.now < asInt (.str identity.id) 0 := by
  obtain ⟨hrs, ht, -, hm⟩ := takes_of_reach h
  obtain ⟨m, hmark, hahead, -⟩ := (now_lt_epoch_iff hs ht.out).mp hlt
  rcases hm.mark_cases (fun q hq => (hrs.newest q hq).out) hmark with hback | ⟨hid, e⟩
  · exact absurd hback.2 hk
  · exact ⟨hid, e ▸ hahead⟩

/-- No peer reads an epoch ahead of the clock. -/
theorem peerEpoch_le_iff (hs : s.Admitted) (h : (drifting s identity boot).Reach (r :: rs)) :
    peerEpoch s r ≤ r.now ↔ ¬ AheadOfClock s identity r := by
  obtain ⟨-, ht, hpos, -⟩ := takes_of_reach h
  rw [aheadOfClock_iff hs ht.out, not_or]
  rcases peerEpoch_cases ht.out with ⟨hk, hp⟩ | ⟨hk, hp⟩ | ⟨hk, hp⟩
  · rw [hp]
    exact ⟨fun hle => ⟨fun hid => hk.2 hid.1, by omega⟩, fun ⟨_, hle⟩ => by omega⟩
  · have hne : s.tsTag ≠ cpidTag := by rw [hk]; decide
    have hle : ¬ r.now < r.out.epoch :=
      fun hlt => hne (id_of_ahead hs h (fun hk' => hk'.1 hk) hlt).1
    rw [hp]
    exact ⟨fun _ => ⟨fun hid => hne hid.1, hle⟩, fun _ => by omega⟩
  · have hid := id_of_ahead hs h fun hk' => hk'.2 hk
    rw [hp]
    constructor
    · intro hle
      refine ⟨fun hlt => ?_, fun hlt => ?_⟩
      · have := hlt.2
        omega
      · have := (hid hlt).2
        omega
    · rintro ⟨hno, -⟩
      by_contra hgt
      exact hno ⟨hk, by omega⟩

/-- **Expiry.** In every run, on any clock: what a round leaves behind expires exactly if the
round kept no epoch ahead of its clock. -/
theorem expires_iff (hs : s.Admitted) (h : (drifting s identity boot).Reach (r :: rs)) :
    Expires s r ↔ ¬ AheadOfClock s identity r := by
  obtain ⟨-, ht, hpos, -⟩ := takes_of_reach h
  rw [expires_iff_peerEpoch ht.out hpos, peerEpoch_le_iff hs h]

/-- On a clock that never goes back every heartbeat expires. -/
theorem expires_of_mirrored (hk : s.tsTag ≠ cpidTag)
    (h : (mirrored s identity).Reach (r :: rs)) : Expires s r := by
  obtain ⟨hle, -⟩ := (epoch_le_inductive hk).reach (h.weaken fun _ _ => Mirrored.ownHeartbeat)
    r rfl r List.mem_cons_self
  obtain ⟨-, hn, -⟩ := next_of_reach h
  have hpos := hn.positive
  refine (expires_iff_peerEpoch hn.out hpos).mpr ?_
  rcases peerEpoch_cases hn.out with ⟨-, hp⟩ | ⟨-, hp⟩ | ⟨hc, -⟩
  · rw [hp]
    exact hle
  · omega
  · exact absurd hc hk

/-! ## A step back -/

theorem priorCandidateSince_published (h : (drift s identity []).Reach rs) :
    priorCandidateSince (persisted rs) = .ok (pending rs) := by
  cases rs with
  | nil => rfl
  | cons r rs =>
    obtain ⟨-, ht⟩ := h.head
    rw [persisted, reconcile_status ht.out, Status.priorCandidateSince_buildStatus]
    rfl

/-- Any readings can be those of the next round, on any clock. -/
theorem exists_takes (h : (drift s identity []).Reach rs)
    (hp : identity.provider = "aws" ∨ identity.provider = "azure" ∨ identity.provider = "gcp")
    (inp : Inputs) (hst : inp.priorStatus = persisted rs) :
    ∃ r, Takes s identity [] rs r ∧ r.inp = inp := by
  obtain ⟨d, hd⟩ : ∃ d, Election.decide identity inp.gslb inp.peers (persisted rs) s.hysteresis
      s.throttle inp.now inp.strategy inp.isoNow = .ok d :=
    exists_decide (priorCandidateSince_published h)
  rw [← hst] at hd
  obtain ⟨out, ho, -⟩ := reconcile_of_decide hd hp
  exact ⟨⟨inp, out⟩, ⟨by rw [hst]; cases rs <;> rfl, ho⟩, rfl⟩

theorem exists_drifting_idle (hrs : (drifting s identity []).Reach rs)
    (hp : identity.provider = "aws" ∨ identity.provider = "azure" ∨ identity.provider = "gcp")
    {now : Int} (hpos : 0 < now) :
    ∃ r, (drifting s identity []).Reach (r :: rs) ∧ r.now = now ∧
      r.out.decision.role = .standby := by
  obtain ⟨prev, hprev⟩ := exists_prev identity rs
  obtain ⟨r, ht, e⟩ := exists_takes hrs.of_restrict hp (idle rs prev now) rfl
  have hm : Mirrored identity rs r := by rw [Mirrored, e]; exact hprev
  have hnow : r.now = now := by rw [Round.now, e]; rfl
  exact ⟨r, .step hrs ⟨⟨ht, rfl⟩, hnow ▸ hpos, hm⟩, hnow, standby_of_idle (e ▸ ht.out)⟩

/-- Two standby rounds, at 1000 and at 500. -/
theorem exists_ahead : ∃ r q, (drifting Settings.default memberA.toIdentity []).Reach [r, q] ∧
    AheadOfClock Settings.default memberA.toIdentity r := by
  have hp : memberA.provider = "aws" := rfl
  obtain ⟨q, hq, hqnow, hqrole⟩ := @exists_drifting_idle Settings.default memberA.toIdentity []
    (.init rfl) (.inl hp) 1000 (by decide)
  obtain ⟨r, hr, hrnow, hrrole⟩ := @exists_drifting_idle Settings.default memberA.toIdentity [q]
    hq (.inl hp) 500 (by decide)
  obtain ⟨-, hqt, -, hqm⟩ := takes_of_reach hq
  obtain ⟨-, hrt, -, hrm⟩ := takes_of_reach hr
  have hepoch : q.out.epoch = 1000 := by
    have hprev : q.inp.prev = [] := (Except.ok.inj hqm).symm
    rw [reconcile_epoch hqt.out, hprev, ← hqnow]
    rfl
  have hback : ReadsBack Settings.default memberA.toIdentity := ⟨by decide, livenessKey_default⟩
  have hmark := mark_of_mirrored hback hqt.out (by rw [hepoch]; decide) hrm
  refine ⟨r, q, hr, .inr ⟨_, hmark, ?_, _, (decidesRole_iff hrt.out).mpr rfl, ?_⟩⟩
  · rw [hrnow, hepoch]
    show (500 : Int) < 1000
    decide
  · rw [hqrole, hrrole]

theorem expires_iff_memberA : ∃ r q,
    (drifting Settings.default memberA.toIdentity []).Reach [r, q] ∧
      (Expires Settings.default r ↔ ¬ AheadOfClock Settings.default memberA.toIdentity r) := by
  obtain ⟨r, q, hr, -⟩ := exists_ahead
  exact ⟨r, q, hr, expires_iff Settings.default_admitted hr⟩

/-- The heartbeat of a control plane whose clock was stepped back outlives it. -/
theorem outlives_clock : ¬ ∀ (s : Settings) (identity : Identity) (boot : Dict) (r : Round)
    (rs : List Round), s.Admitted → (drifting s identity boot).Reach (r :: rs) → Expires s r := by
  intro h
  obtain ⟨r, q, hr, ha⟩ := exists_ahead
  obtain ⟨-, ht, hpos, -⟩ := takes_of_reach hr
  have he := h _ _ _ r [q] Settings.default_admitted hr
  rw [expires_iff_peerEpoch ht.out hpos, peerEpoch_le_iff Settings.default_admitted hr] at he
  exact he ha

end Solo

end ResilientCtp
