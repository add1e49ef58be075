import ResilientCtp.Cluster.Detector

/-!
# Failover and failback complete

Under `failover` the GSLB routes to one control plane. From any state, and under any lag of the
readings and any skew of the clocks, the others come to stand by and that one comes to lead,
whatever its priority is; so both a failover and a failback end.

* After `settle` seconds the others have stood by and are seen to, or are past their TTL
  (`Takeover.clear`).
* One pace later the timer of the routed one runs (`Waiting`), and one window later it leads.
* The highest member stays leader, for it owes no hysteresis. Any other one steps down at its next
  reconcile, and serves the hysteresis again: it leads once in every window and two paces.
-/

namespace ResilientCtp

open Py Election Heartbeat

namespace Cluster

/-- After `t` the GSLB routes to `routed` only, under `failover`; it and the `others` keep the pace
`d`, and nobody else reconciles. -/
structure Takeover (F : Fleet) (c : State) (routed : Member) (others : List Member) (d t : Int) :
    Prop where
  start : F.start ≤ t
  nonneg : 0 ≤ d
  member : routed ∈ F.members
  among : ∀ m ∈ others, m ∈ F.members ∧ m ≠ routed
  paced : ∀ m ∈ routed :: others, Paced c.log d m.id t c.now
  silent : ∀ m ∈ F.members, m ∉ routed :: others → Silent c.log m.id t
  routes : ∀ e ∈ c.log, t < e.time → e.cp = routed →
    e.inp.gslb.healthy = true ∧ gslbActiveFailover e.inp.gslb e.inp.strategy = true
  unrouted : ∀ e ∈ c.log, t < e.time → e.cp ≠ routed → e.inp.gslb.active = false

/-- How long the old leaders can be seen to lead. -/
def settle (F : Fleet) (d skew : Int) : Int := max (F.lag + d) (F.settings.ttl + skew)

/-- The timer that a control plane has at the start is not ahead of its clock. -/
def TimerPast (F : Fleet) (m : Member) : Prop :=
  ∀ cand, priorCandidateSince (F.bootStatus m.id) = .ok cand → cand ≤ F.start + F.offset m.id

variable {F : Fleet} {c : State} {e x : Event} {routed m : Member} {others : List Member}
  {d t skew : Int} {later rest : List Event}

theorem Takeover.at_event (h : Takeover F c routed others d t) (hr : (system F).Reach c)
    (hlog : c.log = later ++ e :: rest) : Takeover F ⟨e.time, rest⟩ routed others d t where
  start := h.start
  nonneg := h.nonneg
  member := h.member
  among := h.among
  paced m hm := (h.paced m hm).at_event hr hlog (reach_event_run hr hlog).2.2
  silent m hm hne x hx := h.silent m hm hne x (by rw [hlog]; simp [hx])
  routes x hx := h.routes x (by rw [hlog]; simp [hx])
  unrouted x hx := h.unrouted x (by rw [hlog]; simp [hx])

theorem Takeover.settle_nonneg (h : Takeover F c routed others d t) (skew : Int) :
    0 ≤ settle F d skew := by
  have h1 := F.lag_nonneg
  have h2 := h.nonneg
  unfold settle
  omega

/-- The newest reconcile of a paced control plane. -/
theorem Paced.latest (h : Paced c.log d m.id t c.now) (hr : (system F).Reach c)
    (hm : m ∈ F.members) (hnow : t < c.now) : ∃ x, Cluster.latest c.log m.id = some x ∧
      x ∈ c.log ∧ x.cp = m ∧ t ≤ x.time ∧ c.now ≤ x.time + d ∧ Kept F x := by
  obtain ⟨x, hx, htx, hd⟩ := h.seen hr hnow (Int.le_refl _)
  rw [seen_eq_latest fun y hy => time_le hr hy] at hx
  obtain ⟨hxm, hcp⟩ := latest_cp hr hm hx
  exact ⟨x, hx, hxm, hcp, htx, by omega, (kept_inductive F).reach hr x hxm⟩

/-- A leader is healthy, and routed to. -/
theorem active_of_leads (hr : (system F).Reach c) (hx : x ∈ c.log) (hl : x.Leads) :
    x.inp.gslb.active = true := by
  obtain ⟨later, rest, hlog⟩ := List.append_of_mem hx
  exact ((reach_event_run hr hlog).2.1.clear hl).active

theorem Takeover.stands_by (h : Takeover F c routed others d t) (hr : (system F).Reach c)
    (hx : x ∈ c.log) (hne : x.cp ≠ routed) (ht : t < x.time) : ¬ x.Leads := by
  intro hl
  have h1 := active_of_leads hr hx hl
  rw [h.unrouted x hx ht hne] at h1
  cases h1

/-! ## Clear -/

/-- Once settled, no leading heartbeat is fresh. -/
theorem Takeover.not_fresh_leader (h : Takeover F c routed others d t) (hskew : Skewed F skew)
    (hr : (system F).Reach c) (he : Reconciles F c e) (hcp : e.cp = routed)
    (hnow : t + settle F d skew < c.now) :
    ∀ q ∈ e.inp.peers, q.role = "leader" → q.fresh = false := by
  intro q hq hrole
  have hd := h.nonneg
  have hsettle : F.lag + d ≤ settle F d skew ∧ F.settings.ttl + skew ≤ settle F d skew := by
    unfold settle
    omega
  obtain ⟨p, hp, hne, rfl⟩ := he.exists_record hq
  have hpr : p ≠ routed := fun hpe => hne (by rw [hpe, hcp])
  by_cases hlive : p ∈ others
  · -- a control plane that keeps its pace has stood by since
    have hlag := he.view_lag p hp
    obtain ⟨x, hx, -, hd⟩ := (h.paced p (List.mem_cons_of_mem _ hlive)).seen hr
      (v := e.view p.id) (by omega) (he.view_le p hp)
    obtain ⟨hxm, hid, -⟩ := seen_mem hx
    have hxcp := F.eq_of_id (member_of_mem hr hxm) hp hid
    have hk := (kept_inductive F).reach hr x hxm
    rw [(record_seen hx hk).2.2, Role.text_eq_leader] at hrole
    exact absurd hrole (h.stands_by hr hxm (by rw [hxcp]; exact hpr) (by omega))
  · -- any other one is past its TTL
    have hsilent := h.silent p hp (by simp [hpr, hlive])
    exact not_fresh_of_silent hskew hr he hp hsilent h.start (by omega)

theorem Takeover.clear (h : Takeover F c routed others d t) (hskew : Skewed F skew)
    (hr : (system F).Reach c) (he : Reconciles F c e) (hcp : e.cp = routed)
    (hroute : e.inp.gslb.healthy = true ∧ gslbActiveFailover e.inp.gslb e.inp.strategy = true)
    (hnow : t + settle F d skew < c.now) : e.Clear := by
  have key := h.not_fresh_leader hskew hr he hcp hnow
  obtain ⟨hh, haf⟩ := hroute
  have hactive : e.inp.gslb.active = true := by
    unfold gslbActiveFailover at haf
    simp only [Bool.and_eq_true] at haf
    exact haf.1.2
  refine ⟨hh, hactive, fun q hq _ => ?_, fun q hq _ => key q hq⟩
  rw [haf, blocks_eq_none]
  cases hread : q.readable
  · exact .inl ⟨rfl, rfl⟩
  cases hfresh : q.fresh
  · exact .inr (.inl ⟨rfl, rfl⟩)
  · refine .inr (.inr ⟨rfl, rfl, fun hrole => ?_, rfl⟩)
    rw [key q hq hrole] at hfresh
    cases hfresh

/-! ## The timer -/

/-- A timer is never ahead of the clock. -/
theorem timer_le_inductive (hboot : TimerPast F m) : (system F).Inductive
    fun c => ∀ e ∈ c.log, e.cp = m → e.timer ≤ e.inp.now := by
  refine ⟨fun c hi => by cases hi; simp, ?_⟩
  rintro c a c' hr ih hst
  cases a with
  | advance s => obtain ⟨-, rfl⟩ := hst; exact ih
  | reconcile e =>
    obtain ⟨he, rfl⟩ := hst
    intro x hx hxm
    rcases List.mem_cons.mp hx with rfl | hx
    swap
    · exact ih x hx hxm
    subst hxm
    have hstart := start_le hr
    have hpos := F.clock x.cp he.member
    have hnow := he.now
    obtain ⟨cand, hc, hcases⟩ := he.cases
    have hcand : cand ≤ x.inp.now := by
      cases hy : latest c.log x.cp.id with
      | none =>
        rw [pending_boot hy] at hc
        have := hboot cand hc
        omega
      | some y =>
        obtain ⟨hym, hcp⟩ := latest_cp hr he.member hy
        have hk := (kept_inductive F).reach hr y hym
        rw [pending_latest hy hk] at hc
        cases hc
        have h1 := ih y hym hcp
        have h2 := time_le hr hym
        have h3 := hk.now
        rw [hcp] at h3
        omega
    rcases hcases with ⟨-, -, -, h0⟩ | ⟨-, -, -, ht⟩ | ⟨-, -, h0⟩
    · omega
    · rw [ht]
      split <;> omega
    · omega

/-- The control plane `m` could start its timer at `s`: the old leaders had settled by then, or it
led. -/
def CanStart (log : List Event) (m : Member) (settled s : Int) : Prop :=
  s = settled ∨ ∃ x ∈ log, x.cp = m ∧ x.Leads ∧ x.time = s

/-- It leads, or its timer runs since one pace after it could start at the latest. -/
def Waiting (F : Fleet) (log : List Event) (d settled : Int) (e : Event) : Prop :=
  ∃ s, CanStart log e.cp settled s ∧
    ((e.Leads ∧ s = e.time) ∨ (0 < e.timer ∧ e.timer ≤ s + d + F.offset e.cp.id))

theorem CanStart.mono {log log' : List Event} {settled s : Int} (h : CanStart log m settled s)
    (hsub : log ⊆ log') : CanStart log' m settled s := by
  rcases h with h | ⟨x, hx, h⟩
  · exact .inl h
  · exact .inr ⟨x, hsub hx, h⟩

theorem Waiting.mono {log log' : List Event} {settled : Int} (h : Waiting F log d settled e)
    (hsub : log ⊆ log') : Waiting F log' d settled e := by
  obtain ⟨s, hs, h⟩ := h
  exact ⟨s, hs.mono hsub, h⟩

theorem Takeover.waiting_step (h : Takeover F c routed others d t) (hskew : Skewed F skew)
    (hboot : TimerPast F routed) (hr : (system F).Reach c) (he : Reconciles F c e)
    (hcp : e.cp = routed)
    (hroute : e.inp.gslb.healthy = true ∧ gslbActiveFailover e.inp.gslb e.inp.strategy = true)
    (hnow : t + settle F d skew < c.now)
    (ih : ∀ x ∈ c.log, x.cp = routed → t + settle F d skew < x.time →
      Waiting F c.log d (t + settle F d skew) x) :
    Waiting F (e :: c.log) d (t + settle F d skew) e := by
  have hsettle := h.settle_nonneg skew
  have hclear := h.clear hskew hr he hcp hroute hnow
  obtain ⟨x, hx, hxm, hxcp, -, hle, hk⟩ :=
    (h.paced routed List.mem_cons_self).latest hr h.member (by omega)
  rw [← hcp] at hx
  have hxtimer := (timer_le_inductive hboot).reach hr x hxm hxcp
  have hpos := F.clock e.cp he.member
  have hstart' := start_le hr
  have henow := he.now
  have hxnow := hk.now
  rw [hxcp, ← hcp] at hxnow
  obtain ⟨cand, hc, hcases⟩ := he.cases
  rw [pending_latest hx hk] at hc
  cases hc
  rcases hcases with ⟨-, -, hl, -⟩ | ⟨-, hns, -, ht⟩ | ⟨hno, -⟩
  · exact ⟨e.time, .inr ⟨e, List.mem_cons_self, rfl, hl, rfl⟩, .inl ⟨hl, rfl⟩⟩
  · by_cases hlate : t + settle F d skew < x.time
    · obtain ⟨s, hs, hw⟩ := ih x hxm hxcp hlate
      refine ⟨s, (hxcp.trans hcp.symm ▸ hs).mono (List.subset_cons_self e c.log), .inr ?_⟩
      rcases hw with ⟨hl, rfl⟩ | ⟨h0, h3⟩
      · -- it led one pace ago, without a timer
        obtain ⟨rest, -, hxr, -⟩ := reach_of_mem (hr.to_restrict fun _ _ _ _ _ => trivial) hxm
        rw [ht, hxr.timer_of_leads hl, if_pos (Int.le_refl 0)]
        omega
      · rw [hxcp, ← hcp] at h3
        rw [ht, if_neg (by omega)]
        exact ⟨h0, h3⟩
    · refine ⟨_, .inl rfl, .inr ?_⟩
      rw [ht]
      split <;> omega
  · exact absurd hclear hno

theorem Takeover.waiting (hskew : Skewed F skew) (hboot : TimerPast F routed) {log : List Event} :
    ∀ {now : Int}, (system F).Reach ⟨now, log⟩ →
      Takeover F ⟨now, log⟩ routed others d t → ∀ e ∈ log, e.cp = routed →
        t + settle F d skew < e.time → Waiting F log d (t + settle F d skew) e := by
  induction log with
  | nil => exact fun _ _ _ he => nomatch he
  | cons y rest ih =>
    intro now hr h e he hcp hlate
    have hlog : y :: rest = [] ++ y :: rest := rfl
    obtain ⟨hr', hy, -⟩ := reach_event_run hr hlog
    have h' := h.at_event hr hlog
    rcases List.mem_cons.mp he with rfl | he
    · have hsettle := h.settle_nonneg skew
      have hroute := h.routes e List.mem_cons_self (by omega) hcp
      exact h'.waiting_step hskew hboot hr' hy hcp hroute hlate (ih hr' h')
    · exact (ih hr' h' e he hcp hlate).mono (List.subset_cons_self y rest)

/-! ## The end of a takeover -/

/-- **A takeover completes.** From one window and two paces after the old leaders have settled on,
the newest decisions of the others are standby, and the routed control plane has led within the last
window and two paces; if no member is above it, its newest decision is leader. -/
theorem takeover_completes (hskew : Skewed F skew) (hboot : TimerPast F routed)
    (hr : (system F).Reach c) (h : Takeover F c routed others d t)
    (hnow : t + settle F d skew + F.window + 2 * d ≤ c.now) :
    (∀ m ∈ others, ∃ x, latest c.log m.id = some x ∧ ¬ x.Leads) ∧
      (∃ x ∈ c.log, x.cp = routed ∧ x.Leads ∧ c.now ≤ x.time + F.window + 2 * d) ∧
      (F.Highest routed → ∃ x, latest c.log routed.id = some x ∧ x.Leads) := by
  have hthrottle := F.admitted.throttle
  have hwindow := F.throttle_le_window
  have hsettle := h.settle_nonneg skew
  have hd₀ := h.nonneg
  obtain ⟨x, hx, hxm, hxcp, -, hle, -⟩ :=
    (h.paced routed List.mem_cons_self).latest hr h.member (by omega)
  obtain ⟨later, rest, hlog⟩ := List.append_of_mem hxm
  obtain ⟨hr', hxr, -⟩ := reach_event_run hr hlog
  have h' := h.at_event hr hlog
  have hclear := h'.clear hskew hr' hxr hxcp (h.routes x hxm (by omega) hxcp)
    (show t + settle F d skew < x.time by omega)
  -- the reconcile before it
  obtain ⟨y, hy, hym, hycp, -, hyle, hk⟩ := (h'.paced routed List.mem_cons_self).latest hr'
    h.member (show t < x.time by omega)
  change x.time ≤ y.time + d at hyle
  rw [← hxcp] at hy
  refine ⟨fun m hm => ?_, ?_, fun htop => ⟨x, hx, ?_⟩⟩
  · obtain ⟨hmem, hne⟩ := h.among m hm
    obtain ⟨z, hz, hzm, hzcp, -, hzle, -⟩ :=
      (h.paced m (List.mem_cons_of_mem _ hm)).latest hr hmem (by omega)
    exact ⟨z, hz, h.stands_by hr hzm (by rw [hzcp]; exact hne) (by omega)⟩
  · by_cases hxl : x.Leads
    · exact ⟨x, hxm, hxcp, hxl, by omega⟩
    have hrest : rest ⊆ c.log := fun z hz => by
      rw [hlog]
      exact List.mem_append_right later (List.mem_cons_of_mem x hz)
    obtain ⟨s, hs, hw⟩ := Takeover.waiting hskew hboot hr' h' y hym hycp (by omega)
    rcases hw with ⟨hyl, -⟩ | ⟨h0, h1⟩
    · exact ⟨y, hrest hym, hycp, hyl, by omega⟩
    -- the timer runs, and is not a window old
    have hyoung : ¬ F.window ≤ x.inp.now - y.timer := fun hold =>
      hxl ((hxr.leads_iff (pending_latest hy hk)).mpr ⟨hclear, .inr (.inr ⟨h0, hold⟩)⟩)
    have hxnow : x.inp.now = x.time + F.offset x.cp.id := hxr.now
    rw [hycp, ← hxcp] at h1
    rcases hs with rfl | ⟨z, hz, hzcp, hzl, rfl⟩
    · omega
    · exact ⟨z, hrest hz, hzcp.trans hycp, hzl, by omega⟩
  · exact (hxr.leads_iff (pending_latest hy hk)).mpr ⟨hclear, served_of_highest hxr (hxcp ▸ htop)⟩

/-- The signal of a control plane that the GSLB does not route to. -/
def idleSignal : GslbSignal := ⟨true, true, false, .str "eu"⟩

/-- In the lagged pair the GSLB can route to either of the two. -/
theorem exists_takeover {other : Member} (hpair : ∀ m ∈ [memberA, memberB], m ∈ [routed, other])
    (hroute : routed ∈ [memberA, memberB]) (hother : other ∈ [memberA, memberB])
    (hne : other ≠ routed) : ∃ c, (system laggedPair).Reach c ∧ c.now = 541 ∧
      Takeover laggedPair c routed [other] 60 1 := by
  have hruns : Runs laggedPair [memberA, memberB] :=
    ⟨fun m hm => hm, fun m hm => .inl (by rcases mem_pair hm with rfl | rfl <;> rfl),
      fun m _ => ⟨0, rfl⟩⟩
  obtain ⟨c, hr, hnow, hon, hpace⟩ := hruns.exists_paced (d := 60) (by decide)
    (fun m => if m = routed then failoverSignal else idleSignal) "failover" 9
  refine ⟨c, hr, hnow, ⟨by decide, by decide, hroute, ?_, ?_, ?_, ?_, ?_⟩⟩
  · intro m hm
    rw [List.mem_singleton.mp hm]
    exact ⟨hother, hne⟩
  · intro m hm
    refine (hpace m ?_).1
    rcases List.mem_cons.mp hm with rfl | hm
    · exact hroute
    · rwa [List.mem_singleton.mp hm]
  · exact fun m hm hno => absurd (hpair m hm) hno
  · intro e he _ hcp
    obtain ⟨-, hg, hs⟩ := hon e he
    rw [hg, hs]
    simp only [if_pos hcp]
    decide
  · intro e he _ hcp
    rw [(hon e he).2.1]
    simp only [if_neg hcp, idleSignal]

/-- A failover to `cp-b` and a failback to `cp-a`. -/
theorem takeover_completes_pair :
    (∃ c, (system laggedPair).Reach c ∧ c.now = 541 ∧
      (∀ m ∈ [memberA], ∃ x, latest c.log m.id = some x ∧ ¬ x.Leads) ∧
      ∃ x ∈ c.log, x.cp = memberB ∧ x.Leads ∧ c.now ≤ x.time + 180 + 2 * 60) ∧
    ∃ c, (system laggedPair).Reach c ∧ c.now = 541 ∧
      (∀ m ∈ [memberB], ∃ x, latest c.log m.id = some x ∧ ¬ x.Leads) ∧
      ∃ x, latest c.log memberA.id = some x ∧ x.Leads := by
  have hskew : Skewed laggedPair 0 := fun _ _ _ _ => show (0 : Int) - 0 ≤ 0 by decide
  have hboot : ∀ m, TimerPast laggedPair m := fun m cand hc => by
    cases hc
    show (0 : Int) ≤ 1 + 0
    decide
  obtain ⟨c, hr, hnow, hc⟩ := @exists_takeover memberB memberA
    (fun m hm => by simpa [or_comm] using hm) (by simp) (by simp) (by decide)
  obtain ⟨c', hr', hnow', hc'⟩ := @exists_takeover memberA memberB
    (fun _ hm => hm) (by simp) (by simp) (by decide)
  have htop : laggedPair.Highest memberA := by
    intro p hp
    rcases mem_pair hp with rfl | rfl <;> decide
  have hlate : (1 : Int) + settle laggedPair 60 0 + laggedPair.window + 2 * 60 ≤ 541 := by decide
  obtain ⟨hb, hl, -⟩ := takeover_completes hskew (hboot _) hr hc (by rw [hnow]; exact hlate)
  obtain ⟨ha, -, hl'⟩ := takeover_completes hskew (hboot _) hr' hc' (by rw [hnow']; exact hlate)
  exact ⟨⟨c, hr, hnow, hb, hl⟩, c', hr', hnow', ha, hl' htop⟩

end Cluster

end ResilientCtp
