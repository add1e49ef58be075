import ResilientCtp.Cluster.Steps
import ResilientCtp.Lib.Lease

/-!
# One leader at a time

A heartbeat is a lease: its role claims it, its epoch stamps it, and the write throttle is the
slack of the stamp. Without a lag of the readings the ledger of a set is a board of such notes,
and a reconcile posts one as the lease allows (`refines_lease`): a control plane decides leader
only when every other leading heartbeat is past its TTL. So the exclusion of the lease holds of
the leaders (`single_leader`), whatever the GSLB says and in any interleaving.
-/

namespace ResilientCtp

open Py Election Heartbeat

namespace Cluster

/-- The newest decision of `id` is leader, and was made within the last `d` seconds. -/
def LeadsWithin (c : State) (d : Int) (id : String) : Prop :=
  ∃ e, latest c.log id = some e ∧ e.Leads ∧ c.now - e.time ≤ d

def leaseTerms (F : Fleet) : Lease.Terms String where
  ttl := F.settings.ttl
  slack := F.settings.throttle
  clock := F.offset

def note (e : Event) : Lease.Note where
  stamp := e.out.epoch
  claim := decide e.Leads
  posted := e.time

/-- The ledger, as a board of leases. -/
def leases (c : State) : Lease.Board String where
  now := c.now
  note id := (latest c.log id).map note

variable {F : Fleet} {c : State} {e : Event}

theorem leases_cons (c : State) (e : Event) :
    leases { c with log := e :: c.log } = (leases c).post e.cp.id (note e) := by
  unfold leases Lease.Board.post
  congr 1
  funext id
  by_cases h : id = e.cp.id
  · subst h
    rw [Function.update_self, latest_cons_self, Option.map_some]
  · rw [Function.update_of_ne h, latest_cons_ne _ _ (Ne.symm h)]

theorem Reconciles.mayPost (hr : (system F).Reach c) (hlag : F.lag = 0) (h : Reconciles F c e) :
    Lease.MayPost (leaseTerms F) (leases c) e.cp.id (note e) where
  posted := h.time
  stamp := by
    have hk := h.kept hr ((kept_inductive F).reach hr)
    have h1 := hk.recent
    have h2 := h.now
    show c.now + F.offset e.cp.id - F.settings.throttle < e.out.epoch
    omega
  claim := by
    intro hl j hj m hm hml
    obtain ⟨x, hx, rfl⟩ := Option.map_eq_some_iff.mp hm
    obtain ⟨hmem, hid⟩ := latest_mem hx
    have hxm := member_of_mem hr hmem
    subst hid
    have hseen := (h.seen_latest hr hlag hxm).trans hx
    have hstale := h.leader_sees_stale (of_decide_eq_true hl) hxm hj hseen
      ((kept_inductive F).reach hr x hmem) (of_decide_eq_true hml)
    rw [h.now] at hstale
    exact hstale

/-- **Refinement.** Without a lag the ledger is a board of leases. -/
theorem refines_lease (hlag : F.lag = 0) :
    (system F).Refines (Lease.board (leaseTerms F)) leases where
  init c hi := by cases hi; exact fun _ => rfl
  step := by
    intro c a c' hr hst
    right
    cases a with
    | advance t =>
      obtain ⟨ht, rfl⟩ := hst
      exact ⟨.tick t, ht, rfl⟩
    | reconcile e =>
      obtain ⟨he, rfl⟩ := hst
      exact ⟨.post e.cp.id (note e), he.mayPost hr hlag, leases_cons c e⟩

/-- **A single leader.** With clocks that differ by at most `skew` and a TTL of at least the write
throttle, `d` and `skew`, no two control planes that reconciled within the last `d` seconds lead. -/
theorem single_leader {skew d : Int} (hlag : F.lag = 0)
    (hskew : ∀ p ∈ F.members, ∀ q ∈ F.members, F.offset p.id - F.offset q.id ≤ skew)
    (hd : F.settings.throttle + d + skew ≤ F.settings.ttl) (hr : (system F).Reach c)
    {i j : String} (hi : LeadsWithin c d i) (hj : LeadsWithin c d j) : i = j := by
  obtain ⟨x, hx, hxl, hxd⟩ := hi
  obtain ⟨y, hy, hyl, hyd⟩ := hj
  have member : ∀ {id e}, latest c.log id = some e → e.cp ∈ F.members ∧ e.cp.id = id := by
    intro id e he
    obtain ⟨hmem, hid⟩ := latest_mem he
    exact ⟨member_of_mem hr hmem, hid⟩
  obtain ⟨hxm, hxi⟩ := member hx
  obtain ⟨hym, hyj⟩ := member hy
  by_contra hij
  have h1 := hskew _ hxm _ hym
  have h2 := hskew _ hym _ hxm
  rw [hxi, hyj] at h1 h2
  exact Lease.exclusive (leaseTerms F) hd ((refines_lease hlag).reach hr) hij h1 h2
    (congrArg (Option.map note) hx) (congrArg (Option.map note) hy) (decide_eq_true hxl)
    (decide_eq_true hyl) hxd hyd

/-- In the pair with the defaults `cp-b` leads from 181 on and `cp-a` waits for it. -/
theorem single_leader_defaultPair : ∃ c, (system defaultPair).Reach c ∧ LeadsWithin c 60 "cp-b" ∧
    (∃ w, latest c.log "cp-a" = some w ∧ ¬ w.Leads) ∧
      ∀ i j, LeadsWithin c 60 i → LeadsWithin c 60 j → i = j := by
  obtain ⟨x, e, hr, hxcp, hxt, hxl, hxe, hecp, -, -⟩ :=
    @pair_leaderB Settings.default Settings.default_admitted livenessKey_default 0
  have hx181 : x.time = 181 := hxt
  have hnoA : latest [x, e] "cp-a" = none := latest_eq_none (by simp [hxcp, hecp, memberB])
  have hseen : seen [x, e] "cp-b" 181 = some x := by simp [seen, hx181, hxcp, memberB]
  have hfresh : (181 : Int) - x.out.epoch ≤ Settings.default.ttl := by
    rw [hxe, hx181]
    decide
  obtain ⟨w, hw, hwcp, -, hwl⟩ := pair_waitsA hr ⟨0, (pending_boot hnoA).trans rfl⟩
    (viewAt_now hr _) hseen hxl hfresh
  have hrw := reach_reconcile hr hw
  have hlatest : latest [w, x, e] memberB.id = some x := by
    rw [latest_cons_ne _ _ (by rw [hwcp]; decide)]
    exact latest_of_cp [e] hxcp
  have hskew : ∀ p ∈ defaultPair.members, ∀ q ∈ defaultPair.members,
      defaultPair.offset p.id - defaultPair.offset q.id ≤ 60 :=
    fun _ _ _ _ => show (0 : Int) - 0 ≤ 60 by decide
  refine ⟨_, hrw, ⟨x, hlatest, hxl, ?_⟩, ⟨w, latest_of_cp _ hwcp, hwl⟩, fun i j hi hj =>
    single_leader rfl hskew (by decide) hrw hi hj⟩
  rw [hx181]
  show (181 : Int) - 181 ≤ 60
  decide

end Cluster

end ResilientCtp
