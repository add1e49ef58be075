import ResilientCtp.Cluster.Detector

/-!
# How long two leaders can overlap

Under a lag of the readings two control planes can lead at once. But a control plane that sees
another one in its tenure, `lag` late, does not lead. So no reconcile decides leader more than
`lag` after another control plane began to lead (`Tenure.excludes`): two tenures that overlap begin
within one lag, and the overlap is over one lag and one pace after the first of them began
(`overlap_heals`).
-/

namespace ResilientCtp

open Py Election Heartbeat

namespace Cluster

/-- Since `t` the control plane `id` leads, and never pauses for more than `d` seconds. -/
structure Tenure (c : State) (d : Int) (id : String) (t : Int) : Prop where
  begun : ∃ e ∈ c.log, e.cp.id = id ∧ e.time = t
  leads : ∀ e ∈ c.log, e.cp.id = id → t ≤ e.time → e.Leads
  paced : Paced c.log d id t c.now

variable {F : Fleet} {c : State} {e x : Event} {d s t skew : Int} {p q : Member}

/-- A leader did not see another one in its tenure. -/
theorem Reconciles.not_in_tenure (hskew : Skewed F skew)
    (hd : F.lag + d + F.settings.throttle + skew ≤ F.settings.ttl) (hr : (system F).Reach c)
    (h : Reconciles F c e) (hl : e.Leads) (hq : q ∈ F.members) (hne : q.id ≠ e.cp.id)
    (hp : Paced c.log d q.id t c.now)
    (hleads : ∀ x ∈ c.log, x.cp.id = q.id → t ≤ x.time → x.Leads) : c.now ≤ t + F.lag := by
  by_contra hlate
  have hlag := h.view_lag q hq
  obtain ⟨x, hx, htx, hdx⟩ :=
    hp.seen hr (v := e.view q.id) (by omega) (h.view_le q hq)
  obtain ⟨hxm, hid, -⟩ := seen_mem hx
  have hk := (kept_inductive F).reach hr x hxm
  have hstale := h.leader_sees_stale hl hq hne hx hk (hleads x hxm hid htx)
  have h1 := hk.now
  have h2 := hk.recent
  have h3 := h.now
  have h4 := hskew e.cp h.member q hq
  rw [hid] at h1
  omega

/-- **A tenure excludes.** No other control plane decides leader more than `lag` after it began. -/
theorem Tenure.excludes (hskew : Skewed F skew)
    (hd : F.lag + d + F.settings.throttle + skew ≤ F.settings.ttl) (hr : (system F).Reach c)
    (ht : Tenure c d q.id t) (hq : q ∈ F.members) (he : e ∈ c.log) (hne : q.id ≠ e.cp.id)
    (hl : e.Leads) : e.time ≤ t + F.lag := by
  obtain ⟨later, rest, hlog⟩ := List.append_of_mem he
  obtain ⟨hre, hre', hle⟩ := reach_event_run hr hlog
  refine hre'.not_in_tenure hskew hd hre hl hq hne (ht.paced.at_event hr hlog hle) ?_
  intro x hx hid htx
  exact ht.leads x (by rw [hlog]; exact List.mem_append_right _ (List.mem_cons_of_mem _ hx)) hid htx

/-- A tenure has a recent reconcile. -/
theorem Tenure.recent (hd : 0 ≤ d) (ht : Tenure c d p.id t) :
    ∃ e ∈ c.log, e.cp.id = p.id ∧ e.Leads ∧ c.now ≤ e.time + d := by
  by_cases hlt : t < c.now
  · obtain ⟨b, hb, hid, htb, -, hbd⟩ := ht.paced c.now hlt (Int.le_refl _)
    obtain ⟨e, he, rfl⟩ := List.mem_map.mp hb
    refine ⟨e, he, hid, ht.leads e he hid htb, ?_⟩
    change c.now - e.time ≤ d at hbd
    omega
  · obtain ⟨e, he, hid, hte⟩ := ht.begun
    exact ⟨e, he, hid, ht.leads e he hid (by omega), by omega⟩

/-- **The overlap heals.** Two tenures that are on at once began within one lag of each other, and
the earlier of them began at most one lag and one pace ago. -/
theorem overlap_heals (hskew : Skewed F skew) (hd₀ : 0 ≤ d)
    (hd : F.lag + d + F.settings.throttle + skew ≤ F.settings.ttl) (hr : (system F).Reach c)
    (hp : p ∈ F.members) (hq : q ∈ F.members) (hne : p.id ≠ q.id) (hs : Tenure c d p.id s)
    (ht : Tenure c d q.id t) :
    s ≤ t + F.lag ∧ t ≤ s + F.lag ∧ c.now ≤ min s t + F.lag + d := by
  -- no reconcile of one comes later than `lag` into the tenure of the other
  have key : ∀ {m m' : Member} {a b : Int}, m ∈ F.members → m.id ≠ m'.id → Tenure c d m.id a →
      Tenure c d m'.id b → b ≤ a + F.lag ∧ c.now ≤ a + F.lag + d := by
    intro m m' a b hm hne hma hmb
    obtain ⟨x, hx, hxid, hxb⟩ := hmb.begun
    have hxl := hmb.leads x hx hxid (Int.le_of_eq hxb.symm)
    have h1 := hma.excludes hskew hd hr hm hx (by rw [hxid]; exact hne) hxl
    obtain ⟨y, hy, hyid, hyl, hyd⟩ := hmb.recent hd₀
    have h2 := hma.excludes hskew hd hr hm hy (by rw [hyid]; exact hne) hyl
    exact ⟨by omega, by omega⟩
  obtain ⟨h1, h2⟩ := key hp hne hs ht
  obtain ⟨h3, h4⟩ := key hq hne.symm ht hs
  exact ⟨h3, h1, by omega⟩

/-- In the lagged pair both lead at 181. -/
theorem exists_overlap : ∃ c, (system laggedPair).Reach c ∧ c.now = 181 ∧
    Tenure c 60 memberA.id 181 ∧ Tenure c 60 memberB.id 181 := by
  obtain ⟨x, e, hr, hxcp, hxt, hxl, -, hecp, het, hel⟩ :=
    @pair_leaderB Settings.default Settings.default_admitted livenessKey_default 50
  have hx181 : x.time = 181 := hxt
  have hnoA : latest [x, e] "cp-a" = none := latest_eq_none (by simp [hxcp, hecp, memberB])
  -- `cp-a` sees `cp-b` as of 150, before its promotion
  have hseen : seen [x, e] "cp-b" 150 = some e := by
    simp [seen, hx181, hecp, het, memberB]
  have hview : ViewAt laggedPair ⟨181, [x, e]⟩ "cp-a" 150 :=
    ⟨show (150 : Int) ≤ 181 by decide, show (181 : Int) - 50 ≤ 150 by decide,
      fun e₀ h₀ => by rw [hnoA] at h₀; cases h₀⟩
  obtain ⟨a, ha, hacp, hal⟩ := pair_leaderA hr ⟨0, (pending_boot hnoA).trans rfl⟩ hview (by
    intro z hz hzl
    rw [hseen] at hz
    cases hz
    exact absurd hzl hel)
  have ha181 : a.time = 181 := ha.time
  have hpace : ∀ id, Paced [a, x, e] 60 id 181 181 :=
    fun id v ht hv => absurd ht (Int.not_lt.mpr hv)
  refine ⟨_, reach_reconcile hr ha, rfl, ⟨⟨a, by simp, by rw [hacp], ha181⟩, ?_, hpace _⟩,
    ⟨⟨x, by simp, by rw [hxcp], hx181⟩, ?_, hpace _⟩⟩
  all_goals
    intro y hy hid hty
    simp only [List.mem_cons, List.not_mem_nil, or_false] at hy
    rcases hy with rfl | rfl | rfl
  · exact hal
  · rw [hxcp] at hid
    exact absurd hid (by decide)
  · omega
  · rw [hacp] at hid
    exact absurd hid (by decide)
  · exact hxl
  · omega

theorem overlap_heals_laggedPair : ∃ c, (system laggedPair).Reach c ∧
    Tenure c 60 memberA.id 181 ∧ Tenure c 60 memberB.id 181 ∧ c.now ≤ min 181 181 + 50 + 60 := by
  obtain ⟨c, hr, -, hA, hB⟩ := exists_overlap
  have hskew : Skewed laggedPair 0 := fun _ _ _ _ => show (0 : Int) - 0 ≤ 0 by decide
  exact ⟨c, hr, hA, hB, (overlap_heals hskew (by decide) (by decide) hr
    (show memberA ∈ laggedPair.members from List.mem_cons_self)
    (List.mem_cons_of_mem _ List.mem_cons_self) (by decide) hA hB).2.2⟩

end Cluster

end ResilientCtp
