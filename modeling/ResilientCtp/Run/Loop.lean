import ResilientCtp.Model.Entry
import ResilientCtp.Run.Solo
import Mathlib.Data.List.Destutter

/-!
# The reconcile loop of one XR

Each round calls the entry point on the status that the last round with a status published; what
else it reads is arbitrary. A fatal round publishes nothing.

* `refines_solo`: the rounds that complete are a run of the election (`Run/Solo.lean`), whatever
  the fatal rounds between them read.
* `announced_eq`: the events of the completed rounds are the history of the role, each change once.
* `announces_iff`: a round announces a role that is not the published one also where it is
  fatal, as long as it decides.
-/

namespace ResilientCtp

open Py Election

namespace Loop

structure Round where
  env : Env
  req : Request

namespace Round

variable (r : Round)

def reply : Reply := entry r.env r.req

def Completes : Prop := r.reply.fatal = none

instance : Decidable r.Completes := inferInstanceAs (Decidable (_ = _))

/-- The role that the round decides, where it gets to decide. -/
def role : Option Role :=
  match verdict r.env r.req with
  | .ok v => some v.decision.role
  | .error _ => none

/-- The round has the event of a transition. -/
def Announces : Prop := ∃ msg, Result.normal msg ∈ r.reply.results

instance : Decidable r.Announces :=
  decidable_of_iff
    (r.reply.results.any (fun | .normal _ => true | .warning _ => false) = true) <| by
    rw [List.any_eq_true]
    constructor
    · rintro ⟨res, hm, h⟩
      cases res with
      | normal msg => exact ⟨msg, hm⟩
      | warning msg => cases h
    · rintro ⟨msg, hm⟩
      exact ⟨_, hm, rfl⟩

end Round

/-- The status that the next round finds. -/
def published : List Round → Dict
  | [] => []
  | r :: rs => r.reply.status.getD (published rs)

structure Next (spec : Spec) (ns : Option String) (rs : List Round) (r : Round) : Prop where
  spec : r.req.xr.spec = spec
  ns : r.req.xr.ns = ns
  status : r.req.xr.status = published rs
  positive : 0 < r.env.now
  mono : ∀ p ∈ rs.head?, p.env.now ≤ r.env.now

def run (spec : Spec) (ns : Option String) : Lts.System (List Round) Round := .log (Next spec ns)

/-- The rounds that were not fatal. -/
def completed (rs : List Round) : List Round := rs.filter fun r => r.Completes

/-- The roles that they decided. -/
def roles (rs : List Round) : List Role := (completed rs).filterMap Round.role

/-- The round of the election that a completed round is. -/
structure Elects (r : Round) (x : Solo.Round) : Prop where
  now : x.now = r.env.now
  role : r.role = some x.out.decision.role
  status : r.reply.status = some x.out.status

variable {spec : Spec} {ns : Option String} {C : List Round → Round → Prop} {rs : List Round}
  {r p : Round} {rsp : Response}

theorem next_of_reach (h : ((run spec ns).restrict C).Reach (r :: rs)) :
    ((run spec ns).restrict C).Reach rs ∧ Next spec ns rs r ∧ C rs r :=
  h.head_restrict

/-! ## A round -/

/-- A round completes where `compose` returns. -/
theorem completes_iff (r : Round) : r.Completes ↔ ∃ rsp, compose r.env r.req = .ok rsp := by
  unfold Round.Completes Round.reply
  cases h : compose r.env r.req with
  | ok rsp => rw [entry_of_compose h]; exact ⟨fun _ => ⟨rsp, rfl⟩, fun _ => rfl⟩
  | error e =>
    obtain ⟨⟨e', he⟩, -, -⟩ := entry_of_error h
    rw [he]
    exact ⟨nofun, nofun⟩

theorem published_of_fatal (h : ¬ r.Completes) : published (r :: rs) = published rs := by
  rw [completes_iff] at h
  cases hc : compose r.env r.req with
  | ok rsp => exact absurd ⟨rsp, hc⟩ h
  | error e =>
    rw [published, Round.reply, (entry_of_error hc).2.1]
    rfl

theorem completed_of_fatal (h : ¬ r.Completes) : completed (r :: rs) = completed rs :=
  List.filter_cons_of_neg (by simpa using h)

theorem completed_of_completes (h : r.Completes) : completed (r :: rs) = r :: completed rs :=
  List.filter_cons_of_pos (by simpa using h)

/-- The clock of a loop never goes back. -/
theorem le_now (h : (run spec ns).Reach (r :: rs)) : ∀ p ∈ rs, p.env.now ≤ r.env.now := by
  induction rs generalizing r with
  | nil => exact fun p hp => nomatch hp
  | cons q rs ih =>
    obtain ⟨hrs, hn⟩ := h.head
    intro p hp
    rcases List.mem_cons.mp hp with rfl | hp
    · exact hn.mono p rfl
    · exact Int.le_trans (ih hrs p hp) (hn.mono q rfl)

theorem normal_notMem_warnings {env : Env} {req : Request} (msg : String) :
    Result.normal msg ∉ warnings env req := by
  unfold warnings
  split <;> simp

/-- **When a round announces.** It decided another role than the published one; it may be fatal. -/
theorem announces_iff (r : Round) : r.Announces ↔ ∃ role, r.role = some role ∧
    (Dict.getD r.req.xr.status "role" (.str "")).isStr role.text = false := by
  have hresults : r.reply.results = warnings r.env r.req ++
      match verdict r.env r.req with
      | .ok v => transition r.req v.decision
      | .error _ => [] := by
    unfold Round.reply
    cases h : compose r.env r.req with
    | error e => exact (entry_of_error h).2.2
    | ok rsp =>
      obtain ⟨v, epoch, kvs, hv, -, rfl⟩ := compose_eq_ok_iff.mp h
      rw [entry_of_compose h, hv]
      rfl
  have hmem : r.Announces ↔ ∃ msg, Result.normal msg ∈
      match verdict r.env r.req with
      | .ok v => transition r.req v.decision
      | .error _ => [] := by
    unfold Round.Announces
    rw [hresults]
    simp only [List.mem_append, normal_notMem_warnings, false_or]
  rw [hmem]
  unfold Round.role
  cases verdict r.env r.req with
  | error e => simp
  | ok v =>
    simp only [transition, Option.some.injEq, exists_eq_left']
    cases (Dict.getD r.req.xr.status "role" (.str "")).isStr v.decision.role.text <;> simp

/-! ## The completed rounds -/

theorem role_text_injective : Function.Injective Role.text := by
  intro a b h
  revert h
  cases a <;> cases b <;> decide

/-- A completed round is a round of the election. -/
theorem Next.elects {ss : List Solo.Round} (h : Next spec ns rs r) (hc : r.Completes)
    (hstatus : published rs = Solo.persisted ss) (hmono : ∀ x ∈ ss.head?, x.now ≤ r.env.now) :
    ∃ x, Solo.Next (spec.settings (ns.getD "default")) spec.identity ss x ∧ Elects r x := by
  obtain ⟨rsp, hrsp⟩ := (completes_iff r).mp hc
  obtain ⟨x, hx, hnow, hst⟩ :=
    Solo.next_of_compose hrsp (h.status.trans hstatus) h.positive hmono
  rw [h.spec, h.ns] at hx
  obtain ⟨v, epoch, kvs, hv, -, rfl⟩ := compose_eq_ok_iff.mp hrsp
  refine ⟨x, hx, hnow, ?_, by rw [Round.reply, entry_of_compose hrsp, hst]⟩
  -- the status names the role
  have hrole : Status.buildStatus x.out.decision x.inp.gslb x.inp.peers x.out.epoch =
      Status.buildStatus v.decision v.signal v.peers epoch := hx.status_eq.symm.trans hst
  have htext := congrArg (fun st => Dict.getD st "role" .null) hrole
  simp only [Status.getD_role, Value.str.injEq] at htext
  rw [Round.role, hv, role_text_injective htext]

/-- **Refinement.** The completed rounds of a loop are a run of the election. -/
theorem refines_solo (h : (run spec ns).Reach rs) : ∃ ss,
    (Solo.run (spec.settings (ns.getD "default")) spec.identity).Reach ss ∧
      List.Forall₂ Elects (completed rs) ss ∧ published rs = Solo.persisted ss := by
  induction rs with
  | nil => exact ⟨[], .init rfl, .nil, rfl⟩
  | cons r rs ih =>
    obtain ⟨hrs, hn⟩ := h.head
    obtain ⟨ss, hss, hall, hstatus⟩ := ih hrs
    by_cases hc : r.Completes
    · have hmono : ∀ x ∈ ss.head?, x.now ≤ r.env.now := by
        intro x hx
        obtain ⟨xs, rfl⟩ := List.head?_eq_some_iff.mp hx
        obtain ⟨q, qs, hq, -, hqs⟩ := List.forall₂_cons_right_iff.mp hall
        rw [hq.now]
        refine le_now h q (List.mem_of_mem_filter (p := fun r => decide r.Completes) ?_)
        show q ∈ completed rs
        rw [hqs]
        exact List.mem_cons_self
      obtain ⟨x, hx, he⟩ := hn.elects hc hstatus hmono
      refine ⟨x :: ss, .step hss ⟨hx, rfl⟩, ?_, ?_⟩
      · rw [completed_of_completes hc]
        exact .cons he hall
      · rw [published, he.status]
        rfl
    · rw [completed_of_fatal hc, published_of_fatal hc]
      exact ⟨ss, hss, hall, hstatus⟩

/-- What the status says of the role. -/
theorem role_published (h : (run spec ns).Reach rs) (role : Role) :
    (Dict.getD (published rs) "role" (.str "")).isStr role.text = true ↔
      (roles rs).head? = some role := by
  obtain ⟨ss, hss, hall, hstatus⟩ := refines_solo h
  rw [hstatus, roles]
  cases ss with
  | nil =>
    rw [List.forall₂_nil_right_iff.mp hall]
    cases role <;> simp [Solo.persisted, Dict.getD, Value.isStr, Role.text]
  | cons x ss =>
    obtain ⟨r, rs', hr, -, hcs⟩ := List.forall₂_cons_right_iff.mp hall
    rw [hcs, List.filterMap_cons_some hr.role, List.head?_cons, Solo.persisted,
      (Solo.next_of_reach_run hss).2.status_eq, Status.getD_role, Value.isStr, beq_iff_eq,
      Option.some.injEq]
    exact role_text_injective.eq_iff

/-! ## The events -/

/-- The roles that the completed rounds announce. -/
def announced (rs : List Round) : List Role :=
  ((completed rs).filter fun r => r.Announces).filterMap Round.role

/-- Destuttering keeps an element that the next one differs from. -/
theorem destutter_cons_eq (a : Role) (l : List Role) : (a :: l).destutter (· ≠ ·) =
    if l.head? = some a then l.destutter (· ≠ ·) else a :: l.destutter (· ≠ ·) := by
  cases l with
  | nil => rfl
  | cons b l =>
    rw [List.destutter_cons_cons, List.head?_cons, List.destutter_cons']
    by_cases h : b = a
    · rw [if_neg (not_not.mpr h.symm), if_pos (congrArg some h), h]
    · rw [if_pos (Ne.symm h), if_neg fun e => h (Option.some.inj e)]

/-- **The events are the history of the role.** Over the rounds that complete, each change of the
role is announced once and nothing else is; the fatal rounds between them do not matter. -/
theorem announced_eq (h : (run spec ns).Reach rs) :
    announced rs = (roles rs).destutter (· ≠ ·) := by
  induction rs with
  | nil => rfl
  | cons r rs ih =>
    obtain ⟨hrs, hn⟩ := h.head
    have ih := ih hrs
    by_cases hc : r.Completes
    swap
    · unfold announced roles at ih ⊢
      rw [completed_of_fatal hc]
      exact ih
    obtain ⟨rsp, hrsp⟩ := (completes_iff r).mp hc
    obtain ⟨v, -, -, hv, -, -⟩ := compose_eq_ok_iff.mp hrsp
    have hrole : r.role = some v.decision.role := by rw [Round.role, hv]
    have hroles : roles (r :: rs) = v.decision.role :: roles rs := by
      rw [roles, completed_of_completes hc, List.filterMap_cons_some hrole]
      rfl
    have hann : r.Announces ↔ (roles rs).head? ≠ some v.decision.role := by
      rw [announces_iff, hrole, hn.status, Ne, ← role_published hrs]
      simp
    rw [hroles, destutter_cons_eq, ← ih]
    unfold announced
    rw [completed_of_completes hc]
    by_cases ha : r.Announces
    · rw [if_neg (hann.mp ha), List.filter_cons_of_pos (by simpa using ha),
        List.filterMap_cons_some hrole]
    · rw [if_pos (not_not.mp (mt hann.mpr ha)), List.filter_cons_of_neg (by simpa using ha)]

/-- A round that observes nothing but its status. -/
def aloneRound (spec : Spec) (now : Int) (status : Dict) : Round where
  env := ⟨now, "", true, fun ms => ms.map fun m => (m, .notDone)⟩
  req := ⟨⟨none, spec, status⟩, .dict [], []⟩

/-- `cp-a`, with the peer `cp-b`. -/
def pairSpec : Spec := sampleSpec memberA.toIdentity [memberA, memberB]

/-- `cp-a` leads in two rounds and announces it once. -/
theorem announced_eq_memberA : ∃ r q : Round, (run pairSpec none).Reach [r, q] ∧
    roles [r, q] = [.leader, .leader] ∧ announced [r, q] = [.leader] := by
  have h1 : (run pairSpec none).Reach [aloneRound pairSpec 1 []] :=
    .step (.init rfl) ⟨⟨rfl, rfl, rfl, by decide, by simp⟩, rfl⟩
  have h2 : (run pairSpec none).Reach
      [aloneRound pairSpec 2 (published [aloneRound pairSpec 1 []]), aloneRound pairSpec 1 []] :=
    .step h1 ⟨⟨rfl, rfl, rfl, by decide, by simp [aloneRound]⟩, rfl⟩
  have hroles : roles [aloneRound pairSpec 2 (published [aloneRound pairSpec 1 []]),
      aloneRound pairSpec 1 []] = [.leader, .leader] := by decide
  exact ⟨_, _, h2, hroles, (announced_eq h2).trans (by rw [hroles]; rfl)⟩

end Loop

end ResilientCtp
