import ResilientCtp.Cluster.SingleLeader

/-!
# The two-phase handoff under an observe-poll lag

A recovering control plane waits while it sees a lower-priority leader. With a lag it may see that
peer as it was before its promotion, and a control plane with no peer above it owes no hysteresis:
it promotes on the old view at once. The lag need not come near the hysteresis window.

* `SeesTenure`: a reconcile that is otherwise free to promote sees each lower-priority leader as of
  a moment at which that one already led.
* `handoff`: in the runs whose reconciles all do, no promotion overlaps with a lower leader.
* `handoff_overlaps`: the run without it, with the defaults and a lag of 50 seconds.
-/

namespace ResilientCtp

open Py Election Heartbeat

namespace Cluster

/-- As of `v` the newest decision of `id` was leader, and was made within the `d` seconds before. -/
def LedAt (log : List Event) (d : Int) (id : String) (v : Int) : Prop :=
  ∃ x, seen log id v = some x ∧ x.Leads ∧ v - x.time ≤ d

/-- Every promotion comes after the release of every lower-priority leader. -/
def NoOverlap (F : Fleet) (d : Int) (c : State) : Prop :=
  ∀ later e rest, c.log = later ++ e :: rest → e.Leads →
    ∀ q ∈ F.members, e.cp.priority < q.priority → ¬ LeadsWithin ⟨e.time, rest⟩ d q.id

/-- Only a lower-priority leader can hold the reconcile back. -/
structure Free (F : Fleet) (c : State) (e : Event) : Prop where
  eligible : selfEligible e.inp.gslb = true
  unblocked : ∀ p ∈ e.inp.peers, p.priority < e.cp.priority →
    blocks (gslbActiveFailover e.inp.gslb e.inp.strategy) p = none
  served : ∃ cand, pending F c e.cp = .ok cand ∧ Served F c e cand

/-- A reconcile that is free to promote sees every lower-priority leader in its tenure. -/
def SeesTenure (F : Fleet) (d : Int) (c : State) (e : Event) : Prop :=
  Free F c e → ∀ q ∈ F.members, e.cp.priority < q.priority → LeadsWithin c d q.id →
    LedAt c.log d q.id (e.view q.id)

def tenured (F : Fleet) (d : Int) : Lts.System State Act :=
  (system F).restrict fun c a => ∀ e, a = .reconcile e → SeesTenure F d c e

variable {F : Fleet} {c : State} {e : Event} {d : Int}

theorem Reconciles.free (h : Reconciles F c e) (hl : e.Leads) : Free F c e := by
  obtain ⟨cand, hc, -⟩ := h.cases
  obtain ⟨hclear, hserved⟩ := (h.leads_iff hc).mp hl
  refine ⟨?_, hclear.unblocked, cand, hc, hserved⟩
  rw [selfEligible, hclear.healthy, hclear.active]
  rfl

/-- A leader seen in its tenure is fresh. -/
theorem Reconciles.not_led_at (h : Reconciles F c e) (hr : (system F).Reach c)
    (hone : F.OneClock) (hd : F.lag + F.settings.throttle + d < F.settings.ttl) (hl : e.Leads)
    {q : Member} (hq : q ∈ F.members) (hne : q.id ≠ e.cp.id) :
    ¬ LedAt c.log d q.id (e.view q.id) := by
  rintro ⟨x, hx, hxl, hxd⟩
  have hk := (kept_inductive F).reach hr x (seen_mem hx).1
  have hstale := h.leader_sees_stale hl hq hne hx hk hxl
  have hnow := h.now
  have hxnow := hk.now
  rw [hone _ h.member] at hnow
  rw [(seen_mem hx).2.1, hone _ hq] at hxnow
  have h1 := hk.recent
  have h2 := h.view_lag q hq
  omega

/-- **The handoff.** -/
theorem handoff (hone : F.OneClock) (hd : F.lag + F.settings.throttle + d < F.settings.ttl)
    (hr : (tenured F d).Reach c) : NoOverlap F d c := by
  intro later e rest hlog hl q hq hlt hlead
  obtain ⟨hre, he, hsees, -⟩ := reach_event hr later e rest hlog
  have hne : q.id ≠ e.cp.id := by
    intro hid
    rw [F.eq_of_id hq he.member hid] at hlt
    exact Int.lt_irrefl _ hlt
  exact he.not_led_at hre.of_restrict hone hd hl hq hne
    (hsees e rfl (he.free hl) q hq hlt hlead)

/-! ## A handoff in the lagged pair -/

theorem tenured_advance {t : Int} (hr : (tenured F d).Reach c) (ht : c.now ≤ t) :
    (tenured F d).Reach ⟨t, c.log⟩ :=
  .step hr (show (tenured F d).step c (.advance t) _ from ⟨⟨ht, rfl⟩, fun _ h => nomatch h⟩)

theorem tenured_reconcile (hr : (tenured F d).Reach c) (he : Reconciles F c e)
    (hs : SeesTenure F d c e) : (tenured F d).Reach ⟨c.now, e :: c.log⟩ :=
  .step hr (show (tenured F d).step c (.reconcile e) _ from
    ⟨⟨he, rfl⟩, fun _ h => by cases h; exact hs⟩)

/-- The lowest control plane has no lower leader to see. -/
theorem seesTenure_memberB (hcp : e.cp = memberB) : SeesTenure laggedPair d c e := by
  rintro - q hq hlt -
  rw [hcp] at hlt
  rcases mem_pair hq with rfl | rfl <;> exact absurd hlt (by decide)

/-- `cp-b` leads from 181 on. `cp-a` sees it at 231 as of 190, and waits. -/
theorem exists_wait : ∃ x w e, (tenured laggedPair 60).Reach ⟨231, [w, x, e]⟩ ∧
    x.cp = memberB ∧ x.Leads ∧ x.time = 181 ∧ e.cp = memberB ∧
    w.cp = memberA ∧ (w.view = fun _ => 190) ∧ ¬ w.Leads := by
  obtain ⟨x, e, hr, hxcp, hxt, hxl, hxe, hecp, -, -⟩ :=
    @pair_leaderB Settings.default Settings.default_admitted livenessKey_default 50
  have hx181 : x.time = 181 := hxt
  have hr₀ : (tenured laggedPair 60).Reach ⟨181, [x, e]⟩ := by
    refine reach_restrict (fun _ _ _ h => nomatch h) hr fun later y rest hlog z hz => ?_
    cases hz
    have hy : y ∈ [x, e] := by
      rw [show [x, e] = later ++ y :: rest from hlog]
      exact List.mem_append_right later List.mem_cons_self
    refine seesTenure_memberB ?_
    simp only [List.mem_cons, List.not_mem_nil, or_false] at hy
    rcases hy with rfl | rfl
    · exact hxcp
    · exact hecp
  have hr₁ : (tenured laggedPair 60).Reach ⟨231, [x, e]⟩ :=
    tenured_advance hr₀ (show (181 : Int) ≤ 231 by decide)
  have hnoA : latest [x, e] "cp-a" = none := latest_eq_none (by simp [hxcp, hecp, memberB])
  have hseen : seen [x, e] "cp-b" 190 = some x := by simp [seen, hx181, hxcp, memberB]
  have hview : ViewAt laggedPair ⟨231, [x, e]⟩ "cp-a" 190 :=
    ⟨show (190 : Int) ≤ 231 by decide, show (231 : Int) - 50 ≤ 190 by decide,
      fun e₀ h₀ => by rw [hnoA] at h₀; cases h₀⟩
  have hfresh : (231 : Int) - x.out.epoch ≤ Settings.default.ttl := by
    rw [hxe, hx181]
    decide
  obtain ⟨w, hw, hwcp, hwview, hwl⟩ := pair_waitsA hr₁.of_restrict
    ⟨0, (pending_boot hnoA).trans rfl⟩ hview hseen hxl hfresh
  refine ⟨x, w, e, tenured_reconcile hr₁ hw ?_, hxcp, hxl, hx181, hecp, hwcp, hwview, hwl⟩
  rintro - q hq hlt -
  rw [hwcp] at hlt
  rcases mem_pair hq with rfl | rfl
  · exact absurd hlt (by decide)
  · exact ⟨x, by rw [hwview]; exact hseen, hxl, by rw [hwview, hx181]; decide⟩

/-- `cp-b` steps down at 241; `cp-a` sees it at 291 as of 250, and promotes. -/
theorem exists_handoff : ∃ w y p log, (tenured laggedPair 60).Reach ⟨291, p :: y :: w :: log⟩ ∧
    (w.cp = memberA ∧ ¬ w.Leads ∧ LeadsWithin ⟨231, log⟩ 60 "cp-b") ∧
    (y.cp = memberB ∧ ¬ y.Leads) ∧ p.cp = memberA ∧ p.Leads := by
  obtain ⟨x, w, e, hr₂, hxcp, hxl, hx181, hecp, hwcp, hwview, hwl⟩ := exists_wait
  have hr₃ := tenured_advance hr₂ (show (231 : Int) ≤ 241 by decide)
  have hkept := (kept_inductive laggedPair).reach hr₃.of_restrict
  have hxm : x ∈ [w, x, e] := List.mem_cons_of_mem _ List.mem_cons_self
  have hlatestB : latest [w, x, e] memberB.id = some x := by
    rw [latest_cons_ne _ _ (by rw [hwcp]; decide)]
    exact latest_of_cp [e] hxcp
  -- `cp-b` releases
  obtain ⟨y, hy, hycp, -⟩ := exists_reconciles
    (show memberB ∈ laggedPair.members from List.mem_cons_of_mem _ List.mem_cons_self) (.inl rfl)
    (pending_latest hlatestB (hkept x hxm)) (viewAt_now hr₃.of_restrict _) failoverSignal
    "failover"
  have hyl : ¬ y.Leads := by
    obtain ⟨rest, -, hxr, -⟩ := reach_of_mem hr₃ hxm
    refine hy.steps_down (by rw [hycp]; exact hlatestB) (hkept x hxm) (hxr.timer_of_leads hxl)
      fun htop => htop memberA List.mem_cons_self ?_
    rw [hycp]
    decide
  have hr₄ := tenured_reconcile hr₃ hy (seesTenure_memberB hycp)
  have hr₅ := tenured_advance hr₄ (show (241 : Int) ≤ 291 by decide)
  have hkept' := (kept_inductive laggedPair).reach hr₅.of_restrict
  have hlatestA : latest [y, w, x, e] memberA.id = some w := by
    rw [latest_cons_ne _ _ (by rw [hycp]; decide)]
    exact latest_of_cp [x, e] hwcp
  have hseen : seen [y, w, x, e] "cp-b" 250 = some y := by
    have hy241 : y.time = 241 := hy.time
    simp [seen, hy241, hycp, memberB]
  have hview : ViewAt laggedPair ⟨291, [y, w, x, e]⟩ "cp-a" 250 := by
    refine ⟨show (250 : Int) ≤ 291 by decide, show (291 : Int) - 50 ≤ 250 by decide, ?_⟩
    intro e₀ h₀ p hp
    rw [show ("cp-a" = memberA.id) from rfl, hlatestA] at h₀
    cases h₀
    rw [hwview]
    show (190 : Int) ≤ 250
    decide
  -- `cp-a` promotes
  obtain ⟨p, hp, hpcp, hpl⟩ := pair_leaderA hr₅.of_restrict
    ⟨_, pending_latest hlatestA (hkept' w (List.mem_cons_of_mem _ List.mem_cons_self))⟩ hview (by
      intro z hz hzl
      rw [hseen] at hz
      cases hz
      exact absurd hzl hyl)
  have hled : LeadsWithin ⟨231, [x, e]⟩ 60 "cp-b" :=
    ⟨x, latest_of_cp [e] hxcp, hxl, by rw [hx181]; exact (by decide : (231 : Int) - 181 ≤ 60)⟩
  refine ⟨w, y, p, [x, e], tenured_reconcile hr₅ hp ?_, ⟨hwcp, hwl, hled⟩, ⟨hycp, hyl⟩, hpcp, hpl⟩
  -- nobody below it leads any more
  rintro - q hq hlt ⟨z, hz, hzl, -⟩
  rw [hpcp] at hlt
  rcases mem_pair hq with rfl | rfl
  · exact absurd hlt (by decide)
  · rw [latest_of_cp _ hycp] at hz
    cases hz
    exact absurd hzl hyl

theorem handoff_laggedPair : ∃ w y p log, (tenured laggedPair 60).Reach ⟨291, p :: y :: w :: log⟩ ∧
    (w.cp = memberA ∧ ¬ w.Leads ∧ LeadsWithin ⟨231, log⟩ 60 "cp-b") ∧
    (y.cp = memberB ∧ ¬ y.Leads) ∧ (p.cp = memberA ∧ p.Leads) ∧
    NoOverlap laggedPair 60 ⟨291, p :: y :: w :: log⟩ := by
  obtain ⟨w, y, p, log, hr, hw, hy, hp⟩ := exists_handoff
  exact ⟨w, y, p, log, hr, hw, hy, hp, handoff pair_oneClock (by decide) hr⟩

/-- `cp-b` leads from 181 on; `cp-a` sees it as of 150, before its promotion, and leads too. -/
theorem handoff_overlaps : ¬ ∀ (F : Fleet) (d : Int), F.OneClock → F.Empty → F.lag < F.window →
    F.lag + F.settings.throttle + d < F.settings.ttl →
      ∀ c, (system F).Reach c → NoOverlap F d c := by
  intro h
  obtain ⟨x, e, hr, hxcp, hxt, hxl, -, hecp, het, hel⟩ :=
    @pair_leaderB Settings.default Settings.default_admitted livenessKey_default 50
  have hx181 : x.time = 181 := hxt
  have hnoA : latest [x, e] "cp-a" = none := latest_eq_none (by simp [hxcp, hecp, memberB])
  have hseen : seen [x, e] "cp-b" 150 = some e := by
    simp [seen, hx181, hecp, het, memberB]
  have hview : ViewAt (pair Settings.default Settings.default_admitted livenessKey_default 50)
      ⟨181, [x, e]⟩ "cp-a" 150 :=
    ⟨show (150 : Int) ≤ 181 by decide, show (181 : Int) - 50 ≤ 150 by decide,
      fun e₀ h₀ => by rw [hnoA] at h₀; cases h₀⟩
  obtain ⟨a, ha, hacp, hal⟩ := pair_leaderA hr ⟨0, (pending_boot hnoA).trans rfl⟩ hview (by
    intro z hz hzl
    rw [hseen] at hz
    cases hz
    exact absurd hzl hel)
  refine h _ 60 pair_oneClock pair_empty (by decide) (by decide) _ (reach_reconcile hr ha) [] a
    [x, e] rfl hal memberB (by simp [pair]) (by rw [hacp]; decide)
    ⟨x, latest_of_cp [e] hxcp, hxl, ?_⟩
  rw [ha.time, hx181]
  show (181 : Int) - 181 ≤ 60
  decide

end Cluster

end ResilientCtp
