import ResilientCtp.Run.Hysteresis

/-!
# `lastHandoffTime` names the last change of the role

`decide` records the time where the role is not the one that the status has, and carries the
recorded time on otherwise; the status leaves an empty time out. Over a run this is the time of the
round in which the current role began (`handoff_time`), and no time before the first change.
-/

namespace ResilientCtp

open Py Election

theorem Status.getD_lastHandoffTime (d : Decision) (g : GslbSignal) (peers : List PeerLiveness)
    (epoch : Int) : Dict.getD (Status.buildStatus d g peers epoch) "lastHandoffTime" (.str "") =
      .str d.lastHandoffTime := by
  unfold Status.buildStatus
  by_cases h : d.lastHandoffTime = ""
  · rw [if_pos h, h]
    rfl
  · rw [if_neg h]
    rfl

/-- The recorded time of a decision. -/
theorem Election.decide_handoff {identity : Identity} {gslb : GslbSignal}
    {peers : List PeerLiveness} {priorStatus : Dict} {hysteresis throttle now : Int}
    {strategy isoNow : String} {d : Decision} (h : Election.decide identity gslb peers priorStatus
      hysteresis throttle now strategy isoNow = .ok d) :
    d.lastHandoffTime =
      if (Dict.getD priorStatus "role" (.str "")).truthy &&
        !(Dict.getD priorStatus "role" (.str "")).isStr d.role.text then isoNow
      else (Dict.getD priorStatus "lastHandoffTime" (.str "")).text := by
  unfold Election.decide at h
  obtain ⟨cand, -, h⟩ := bind_ok h
  cases h
  rfl

namespace Solo

namespace Round

variable (r : Round)

def role : Role := r.out.decision.role

/-- The `lastHandoffTime` of the published status, `""` where it has none. -/
def handoff : String := r.out.decision.lastHandoffTime

end Round

variable {s : Settings} {identity : Identity} {rs : List Round} {r q : Round}

theorem handoff_first (h : Next s identity [] r) : r.handoff = "" := by
  have hd := (reconcile_ok h.out).1
  rw [h.status] at hd
  exact decide_handoff hd

theorem handoff_step (hrs : (run s identity).Reach (q :: rs)) (h : Next s identity (q :: rs) r) :
    r.handoff = if r.role = q.role then q.handoff else r.inp.isoNow := by
  have hd := (reconcile_ok h.out).1
  have hstatus : r.inp.priorStatus =
      Status.buildStatus q.out.decision q.inp.gslb q.inp.peers q.out.epoch :=
    h.status.trans (next_of_reach_run hrs).2.status_eq
  rw [hstatus] at hd
  rw [Round.handoff, decide_handoff hd, Status.getD_role, Status.getD_lastHandoffTime]
  show _ = if r.out.decision.role = q.out.decision.role then _ else _
  cases r.out.decision.role <;> cases q.out.decision.role <;> rfl

/-- **The last handoff.** The recorded time is that of the round in which the role of the newest
round began, where the rounds before it had the other one. -/
theorem handoff_time (h : (run s identity).Reach (r :: rs)) :
    (∃ mid x y rest, r :: rs = mid ++ x :: y :: rest ∧ (∀ z ∈ mid ++ [x], z.role = r.role) ∧
        y.role ≠ r.role ∧ r.handoff = x.inp.isoNow) ∨
      ((∀ z ∈ rs, z.role = r.role) ∧ r.handoff = "") := by
  induction rs generalizing r with
  | nil => exact .inr ⟨nofun, handoff_first (next_of_reach_run h).2⟩
  | cons q rs ih =>
    obtain ⟨hrs, hn⟩ := next_of_reach_run h
    have hstep := handoff_step hrs hn
    by_cases hrole : r.role = q.role
    · -- the role goes on
      rw [if_pos hrole] at hstep
      rw [hstep, hrole]
      rcases ih hrs with ⟨mid, x, y, rest, hsplit, hsame, hy, ht⟩ | ⟨hsame, ht⟩
      · refine .inl ⟨r :: mid, x, y, rest, by rw [hsplit, List.cons_append], ?_, hy, ht⟩
        intro z hz
        rcases List.mem_cons.mp hz with rfl | hz
        · exact hrole
        · exact hsame z hz
      · refine .inr ⟨fun z hz => ?_, ht⟩
        rcases List.mem_cons.mp hz with rfl | hz
        · rfl
        · exact hsame z hz
    · -- the role began here
      rw [if_neg hrole] at hstep
      refine .inl ⟨[], r, q, rs, rfl, fun z hz => ?_, Ne.symm hrole, hstep⟩
      rw [List.mem_singleton.mp hz]

/-- `cp-b` starts as a standby and leads at 181; this is its last handoff. -/
theorem handoff_time_memberB : ∃ n i : Round,
    (run Settings.default memberB.toIdentity).Reach [n, i] ∧ n.role ≠ i.role ∧
      n.handoff = n.inp.isoNow := by
  obtain ⟨n, i, hr, -, -, hnl, hil, -⟩ := @exists_promotion 181 (by decide)
  have hne : n.role ≠ i.role := by
    intro he
    exact hil (he.symm.trans hnl)
  refine ⟨n, i, hr, hne, ?_⟩
  rcases handoff_time hr with ⟨mid, x, y, rest, hsplit, -, hy, ht⟩ | ⟨hsame, -⟩
  · -- the only split is `[] ++ n :: i :: []`
    cases mid with
    | nil =>
      cases hsplit
      exact ht
    | cons z mid =>
      have hlen := congrArg List.length hsplit
      simp only [List.length_cons, List.length_append, List.length_nil] at hlen
      omega
  · exact absurd (hsame i List.mem_cons_self).symm hne

end Solo

end ResilientCtp
