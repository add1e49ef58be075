import ResilientCtp.Lib.Lts
import ResilientCtp.Election.Gates
import ResilientCtp.Model.Compose

/-!
# The runs of one control plane

A run is the list of its rounds, newest first. Each round reconciles on the status that the round
before it published; what else it reads is arbitrary, up to a clock that is positive and never
goes back. A claim on runs with more known about the readings restricts the system.

* `Next.cases`: what a round decides, in terms of the rounds before it.
* `exists_next`: any reading can be the next, where a reconcile can complete at all.
* `next_of_compose`: a run of `compose` on the status of the round before is a round.
-/

namespace ResilientCtp

open Py Election

namespace Solo

structure Round where
  inp : Inputs
  out : Reconciled

namespace Round

variable (r : Round)

abbrev now : Int := r.inp.now

def Leads : Prop := r.out.decision.role = .leader

def timer : Int := r.out.decision.promotionCandidateSince

/-- Nothing but the hysteresis can hold the round back. -/
def Clear (identity : Identity) : Prop :=
  Election.Clear identity r.inp.gslb r.inp.strategy r.inp.peers

/-- The round has a higher-priority peer. -/
def HasHigher (identity : Identity) : Prop := ∃ p ∈ r.inp.peers, p.priority < identity.priority

end Round

/-- The status that the next round finds. -/
def persisted : List Round → Dict
  | [] => []
  | r :: _ => r.out.status

/-- The hysteresis timer that the next round finds. -/
def pending : List Round → Int
  | [] => 0
  | r :: _ => r.timer

/-- The own heartbeat, as the round before left it. -/
def lastHeartbeat (identity : Identity) : List Round → Dict
  | [] => []
  | q :: _ => observedSelf identity.provider q.out.tags

structure Next (s : Settings) (identity : Identity) (rs : List Round) (r : Round) : Prop where
  positive : 0 < r.now
  mono : ∀ p ∈ rs.head?, p.now ≤ r.now
  status : r.inp.priorStatus = persisted rs
  out : reconcile s identity r.inp = .ok r.out

def run (s : Settings) (identity : Identity) : Lts.System (List Round) Round where
  init rs := rs = []
  step rs r rs' := Next s identity rs r ∧ rs' = r :: rs

/-- The hysteresis window of the settings. -/
def window (s : Settings) : Int := hysteresisWindow s.hysteresis s.throttle

theorem window_eq {s : Settings} (hs : s.Admitted) : window s = s.hysteresis * s.throttle := by
  have h1 := hs.hysteresis
  have h2 := hs.throttle
  rw [window, hysteresisWindow, Int.max_eq_right h1, Int.max_eq_right (by omega)]

variable {s : Settings} {identity : Identity} {C : List Round → Round → Prop} {rs : List Round}
  {r : Round}

/-! ## The shape of a run -/

theorem next_of_reach (h : ((run s identity).restrict C).Reach (r :: rs)) :
    ((run s identity).restrict C).Reach rs ∧ Next s identity rs r ∧ C rs r :=
  h.head_restrict

theorem reach_cons (h : ((run s identity).restrict C).Reach rs) (hn : Next s identity rs r)
    (hc : C rs r) : ((run s identity).restrict C).Reach (r :: rs) :=
  .step h ⟨⟨hn, rfl⟩, hc⟩

theorem next_of_reach_run (h : (run s identity).Reach (r :: rs)) :
    (run s identity).Reach rs ∧ Next s identity rs r :=
  h.head

/-- The rounds up to any one are a run too. -/
theorem reach_suffix_run {later : List Round} (h : (run s identity).Reach (later ++ rs)) :
    (run s identity).Reach rs :=
  h.suffix (List.suffix_append later rs)

/-! ## What the status feeds back -/

theorem Next.status_eq (h : Next s identity rs r) :
    r.out.status = Status.buildStatus r.out.decision r.inp.gslb r.inp.peers r.out.epoch :=
  (reconcile_ok h.out).2.2.2.1

theorem priorCandidateSince_persisted (h : (run s identity).Reach rs) :
    priorCandidateSince (persisted rs) = .ok (pending rs) := by
  cases rs with
  | nil => rfl
  | cons r rs =>
    rw [persisted, (next_of_reach_run h).2.status_eq, Status.priorCandidateSince_buildStatus]
    rfl

/-- No round finds that it leads continuously. -/
theorem continuousLeader_persisted (h : (run s identity).Reach rs) (w now : Int) :
    continuousLeader (persisted rs) w now = false := by
  cases rs with
  | nil => rfl
  | cons r rs =>
    rw [persisted, (next_of_reach_run h).2.status_eq, Status.continuousLeader_buildStatus]

/-! ## What a round decides -/

/-- The hysteresis is not owed or over, as the rounds before tell. -/
def Served (s : Settings) (identity : Identity) (rs : List Round) (r : Round) : Prop :=
  ¬ r.HasHigher identity ∨ (0 < pending rs ∧ window s ≤ r.now - pending rs)

theorem served_iff (h : (run s identity).Reach rs) :
    Election.Served identity r.inp.peers (persisted rs) (window s) r.now (pending rs) ↔
      Served s identity rs r := by
  rw [Election.Served, Served, continuousLeader_persisted h, Round.HasHigher]
  simp only [not_exists, not_and, Bool.false_eq_true, false_or]

/-- **A round.** -/
theorem Next.cases (hrs : (run s identity).Reach rs) (h : Next s identity rs r) :
    (r.Clear identity ∧ Served s identity rs r ∧ r.Leads ∧ r.timer = 0) ∨
      (r.Clear identity ∧ ¬ Served s identity rs r ∧ ¬ r.Leads ∧
        r.timer = if pending rs ≤ 0 then r.now else pending rs) ∨
      (¬ r.Clear identity ∧ ¬ r.Leads ∧ r.timer = 0) := by
  have hd := (reconcile_ok h.out).1
  rw [h.status] at hd
  obtain ⟨cand, hc, hcases⟩ := decide_cases hd
  rw [priorCandidateSince_persisted hrs] at hc
  cases hc
  have hserved : _ ↔ Served s identity rs r := served_iff hrs
  rcases hcases with ⟨h1, h2, h3, h4⟩ | ⟨h1, h2, h3, h4⟩ | ⟨h1, h3, h4⟩
  · exact .inl ⟨h1, hserved.mp h2, h3, h4⟩
  · exact .inr (.inl ⟨h1, fun hs => h2 (hserved.mpr hs), Role.eq_standby.mp h3, h4⟩)
  · exact .inr (.inr ⟨h1, Role.eq_standby.mp h3, h4⟩)

theorem Next.leads_iff (hrs : (run s identity).Reach rs) (h : Next s identity rs r) :
    r.Leads ↔ r.Clear identity ∧ Served s identity rs r := by
  rcases h.cases hrs with ⟨h1, h2, h3, -⟩ | ⟨h1, h2, h3, -⟩ | ⟨h1, h3, -⟩
  · exact ⟨fun _ => ⟨h1, h2⟩, fun _ => h3⟩
  · exact ⟨fun hl => absurd hl h3, fun hs => absurd hs.2 h2⟩
  · exact ⟨fun hl => absurd hl h3, fun hs => absurd hs.1 h1⟩

/-- A first round that nothing but the hysteresis holds back starts the timer. -/
theorem Next.first (h : Next s identity [] r) (hc : r.Clear identity) (hh : r.HasHigher identity) :
    ¬ r.Leads ∧ r.timer = r.now := by
  rcases h.cases (.init rfl) with ⟨-, hs, -⟩ | ⟨-, -, h3, h4⟩ | ⟨h1, -⟩
  · rcases hs with hs | ⟨h0, -⟩
    · exact absurd hh hs
    · cases h0
  · exact ⟨h3, h4⟩
  · exact absurd hc h1

/-- A clear round leads once the timer is a window old. -/
theorem Next.leads_of_timer (hrs : (run s identity).Reach rs) (h : Next s identity rs r)
    (hc : r.Clear identity) (hpos : 0 < pending rs) (hw : window s ≤ r.now - pending rs) :
    r.Leads :=
  (h.leads_iff hrs).mpr ⟨hc, .inr ⟨hpos, hw⟩⟩

/-- Any readings can be those of the next round. -/
theorem exists_next (hrs : (run s identity).Reach rs)
    (hp : identity.provider = "aws" ∨ identity.provider = "azure" ∨ identity.provider = "gcp")
    (inp : Inputs) (hpos : 0 < inp.now) (hmono : ∀ p ∈ rs.head?, p.now ≤ inp.now)
    (hst : inp.priorStatus = persisted rs) : ∃ r, Next s identity rs r ∧ r.inp = inp := by
  obtain ⟨d, hd⟩ : ∃ d, Election.decide identity inp.gslb inp.peers (persisted rs) s.hysteresis
      s.throttle inp.now inp.strategy inp.isoNow = .ok d :=
    exists_decide (priorCandidateSince_persisted hrs)
  rw [← hst] at hd
  obtain ⟨out, ho, -⟩ := reconcile_of_decide hd hp
  exact ⟨⟨inp, out⟩, ⟨hpos, hmono, hst, ho⟩, rfl⟩

/-- Any round can observe what the one before it wrote. -/
theorem exists_prev (identity : Identity) (rs : List Round) :
    ∃ prev, prevTags (lastHeartbeat identity rs) = .ok prev := by
  cases rs with
  | nil => exact ⟨[], rfl⟩
  | cons q rs => exact ⟨_, prevTags_observedSelf identity.provider q.out.tags⟩

/-- A run of the function is a round. -/
theorem next_of_compose {env : Env} {req : Request} {rsp : Response}
    (h : compose env req = .ok rsp) (hstatus : req.xr.status = persisted rs) (hpos : 0 < env.now)
    (hmono : ∀ p ∈ rs.head?, p.now ≤ env.now) :
    ∃ r, Next (req.xr.spec.settings (req.xr.ns.getD "default")) req.xr.spec.identity rs r ∧
      r.now = env.now ∧ r.out.status = rsp.status := by
  obtain ⟨g, l, hc⟩ := compose_ok h
  obtain ⟨peers, prev, -, -, hr⟩ := hc.reconciled
  exact ⟨⟨_, l⟩, ⟨hpos, hmono, hstatus, hr⟩, rfl, hc.status.symm⟩

/-! ## Quiet readings -/

/-- A healthy and active GSLB, on the status that `rs` left. -/
def quiet (strategy : String) (peers : List PeerLiveness) (rs : List Round) (prev : Dict)
    (now : Int) : Inputs :=
  { gslb := ⟨true, true, true, .str "quiet"⟩, strategy, peers, priorStatus := persisted rs, prev
    now, isoNow := "" }

theorem clear_of_quiet {strategy : String} {peers : List PeerLiveness} {prev : Dict} {now : Int}
    (he : r.inp = quiet strategy peers rs prev now)
    (hd : ∀ p ∈ peers, p.readable = true ∧ p.fresh = false) : r.Clear identity := by
  rw [Round.Clear, he]
  exact clear_of_down rfl rfl hd

end Solo

end ResilientCtp
