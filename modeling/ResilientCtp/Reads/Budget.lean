import Mathlib.Algebra.Order.Ring.Cast
import Mathlib.Algebra.Order.Ring.Rat
import Mathlib.Tactic.NormNum
import Mathlib.Tactic.Ring
import ResilientCtp.Lib.Workers
import ResilientCtp.Reads.Pool

/-!
# The budget of the reads

The reads of a `directApi` reconcile run on at most 16 threads, and what is not back within
`overall_budget` is left out. The budget has one wave more than the reads need: if one of them
takes twice its time, and no other takes more than its time, none is left out (`within_budget`).

* `ends_le_budget`: with `Workers.ends_le`, the late read counts twice.
* `within_budget`: the result is what the reads return, in the order of the members.
-/

namespace ResilientCtp

open Py Heartbeat

namespace Budget

def defaultTimeoutSeconds : Int := 10

/-- The time of a read, in seconds. -/
def readTimeout (spec : Spec) : Int :=
  spec.heartbeat.readTimeoutSeconds.getD defaultTimeoutSeconds

def maxParallelPeerReads : Nat := 16

def maxWorkers (peers : Nat) : Nat := min peers maxParallelPeerReads

def waves (peers : Nat) : Nat := (peers + maxWorkers peers - 1) / maxWorkers peers

def overallBudget (readTimeout : Int) (peers : Nat) : Int := readTimeout * (waves peers + 1)

/-- The read of a member, with the time that it takes on its thread, and when it ends after the
pool started. -/
structure Read where
  member : Member
  job : Workers.Job ℚ
  raises : Bool

namespace Read

/-- What `wait` finds of the read after `budget` seconds. -/
def outcome (budget : Int) (r : Read) : Outcome :=
  if r.job.ends ≤ budget then if r.raises then .raised else .finished else .notDone

/-- What a read gives that is waited for. -/
def result (read : Member → PeerLiveness) (r : Read) : PeerLiveness :=
  if r.raises then unreadablePeer r.member else read r.member

end Read

/-- The threads take the reads in the order `taken`. -/
def Threaded (taken : List Read) : Prop :=
  Workers.Runs (fun _ : Fin (maxWorkers taken.length) => 0) (taken.map Read.job)

/-- How many times `readTimeout` a read counts. -/
def share (readTimeout : Int) (duration : ℚ) : Nat := if duration ≤ readTimeout then 1 else 2

/-- A read takes longer than `readTimeout`. -/
def Late (readTimeout : Int) (r : Read) : Prop := readTimeout < r.job.duration

instance (readTimeout : Int) (r : Read) : Decidable (Late readTimeout r) :=
  inferInstanceAs (Decidable (_ < _))

variable {T : Int} {taken reads pre post : List Read} {r : Read}

theorem le_share (h : r.job.duration ≤ 2 * T) :
    r.job.duration ≤ share T r.job.duration • (T : ℚ) := by
  rw [share]
  split
  · rwa [one_nsmul]
  · rw [nsmul_eq_mul]
    exact h

theorem share_eq (r : Read) : share T r.job.duration =
    1 + if Late T r then 1 else 0 := by
  by_cases h : r.job.duration ≤ T
  · have : ¬ Late T r := not_lt.mpr h
    simp [share, h, this]
  · have : Late T r := not_le.mp h
    simp [share, h, this]

theorem load_eq (reads : List Read) : Workers.load (share T) (reads.map Read.job) =
    reads.length + reads.countP (Late T ·) := by
  induction reads with
  | nil => rfl
  | cons r reads ih =>
    rw [List.map_cons, Workers.load, ih, share_eq]
    simp only [List.length_cons, List.countP_cons, decide_eq_true_eq]
    omega

/-- Before `r` ends, one read more is counted than there are, if one of all the reads is late. -/
theorem load_add_share_le (hlone : (pre ++ r :: post).countP (Late T ·) ≤ 1) :
    Workers.load (share T) (pre.map Read.job) + share T r.job.duration ≤
      (pre ++ r :: post).length + 1 := by
  rw [load_eq, share_eq]
  simp only [List.countP_append, List.countP_cons, List.length_append, List.length_cons,
    decide_eq_true_eq] at hlone ⊢
  omega

theorem overallBudget_eq (T : Int) (peers : Nat) :
    (overallBudget T peers : ℚ) = (waves peers + 1) • (T : ℚ) := by
  rw [overallBudget, nsmul_eq_mul]
  push_cast
  ring

/-- One wave is left for the read that counts twice. -/
theorem div_add_le {peers before own : Nat} (hpeers : 0 < peers) (hown : own = 1 ∨ own = 2)
    (h : before + own ≤ peers + 1) :
    before / maxWorkers peers + own ≤ waves peers + 1 := by
  have hpos : 0 < maxWorkers peers := Nat.lt_min.mpr ⟨hpeers, by decide⟩
  have hwaves : waves peers = (peers - 1) / maxWorkers peers + 1 := by
    rw [waves, ← Nat.add_div_right _ hpos]
    congr 1
    omega
  obtain rfl | rfl := hown
  · have : before / maxWorkers peers ≤ (peers - 1 + maxWorkers peers) / maxWorkers peers :=
      Nat.div_le_div_right (by omega)
    rw [Nat.add_div_right _ hpos] at this
    omega
  · have : before / maxWorkers peers ≤ (peers - 1) / maxWorkers peers :=
      Nat.div_le_div_right (by omega)
    omega

theorem ends_le_budget (hT : 0 ≤ T) (hthreaded : Threaded taken)
    (htwice : ∀ r ∈ taken, r.job.duration ≤ 2 * T)
    (hlone : taken.countP (Late T ·) ≤ 1) (hr : r ∈ taken) :
    r.job.ends ≤ overallBudget T taken.length := by
  obtain ⟨pre, post, rfl⟩ := List.append_of_mem hr
  have hT' : (0 : ℚ) ≤ T := by exact_mod_cast hT
  have hshare : ∀ j ∈ pre.map Read.job ++ [r.job],
      j.duration ≤ share T j.duration • (T : ℚ) := by
    rw [← List.map_singleton, ← List.map_append, List.forall_mem_map]
    intro x hx
    apply le_share
    apply htwice
    simp only [List.mem_append, List.mem_cons, List.not_mem_nil, or_false] at hx ⊢
    exact hx.imp_right .inl
  rw [Threaded, List.map_append, List.map_cons] at hthreaded
  have hends := Workers.ends_le hthreaded (Workers.packed_zero _) hT' hshare
  rw [Nat.zero_add, Fintype.card_fin] at hends
  rw [overallBudget_eq]
  apply hends.trans
  apply nsmul_le_nsmul_left hT'
  apply div_add_le
  · exact List.length_pos_of_mem hr
  · rw [share]
    split <;> simp
  · exact load_add_share_le hlone

/-- What the reads give is what is expected of them. -/
theorem expected_eq (read : Member → PeerLiveness) {budget : Int} (hends : r.job.ends ≤ budget) :
    (r.outcome budget).expected read r.member = r.result read := by
  rw [Read.outcome, Read.result, if_pos hends]
  split <;> rfl

theorem readTimeout_pos {spec : Spec} (h : spec.Admitted) : 1 ≤ readTimeout spec := by
  unfold readTimeout
  cases e : spec.heartbeat.readTimeoutSeconds with
  | none => decide
  | some n => exact h.readTimeout n (by rw [e]; rfl)

/-- **No read is left out** for one that is late: if one of them takes up to twice `read_timeout`
and no other takes more than `read_timeout`, every member has what its own read returns, whatever
order the threads take the reads in, and whatever order they are collected in. -/
theorem within_budget (readResourceTags : String → String → String → Option Dict) {spec : Spec}
    {env : Env} {observed : Dict} (hspec : spec.Admitted) (hmode : spec.readMode = "directApi")
    (hids : (spec.members.map (·.id)).Nodup) (hreads : reads.map Read.member = spec.peerMembers)
    (htaken : taken.Perm reads) (hthreaded : Threaded taken)
    (htwice : ∀ r ∈ reads, r.job.duration ≤ 2 * readTimeout spec)
    (hlone : reads.countP (Late (readTimeout spec) ·) ≤ 1)
    (hpool : (env.pool spec.peerMembers).Perm
      (futures (readPeerDirect readResourceTags · spec.tsTag env.now spec.ttl) (reads.map fun r =>
        (r.member, r.outcome (overallBudget (readTimeout spec) spec.peerMembers.length))))) :
    readPeers env spec observed = .ok (reads.map
      (Read.result (readPeerDirect readResourceTags · spec.tsTag env.now spec.ttl))) := by
  let read := (readPeerDirect readResourceTags · spec.tsTag env.now spec.ttl)
  let budget := overallBudget (readTimeout spec) spec.peerMembers.length
  let outcomes := reads.map fun r => (r.member, r.outcome budget)
  have hmembers : spec.peerMembers = outcomes.map Prod.fst := by
    rw [← hreads]
    simp [outcomes, Function.comp_def]
  have hlength : taken.length = spec.peerMembers.length := by
    rw [htaken.length_eq, ← hreads, List.length_map]
  have hpos := readTimeout_pos hspec
  have hresults : reads.map (Read.result read) =
      outcomes.map fun mo => mo.2.expected read mo.1 := by
    rw [List.map_map]
    apply List.map_congr_left
    intro r hr
    have hends := ends_le_budget (by omega) hthreaded
      (fun x hx => htwice x (htaken.mem_iff.mp hx)) (by rwa [htaken.countP_eq])
      (htaken.mem_iff.mpr hr)
    rw [hlength] at hends
    exact (expected_eq read hends).symm
  have hnodup : (spec.peerMembers.map (·.id)).Nodup := hids.sublist (List.filter_sublist.map _)
  rw [readPeers, if_pos hmode, hresults]
  nth_rewrite 2 [hmembers]
  rw [readPeersDirect_eq_iff]
  apply Collect.lossless_of_nodup hpool
  rw [hmembers, List.map_map] at hnodup
  rwa [futures, List.map_map]

def memberC : Member := ⟨⟨"cp-c", "gcp", "eu", "eu", 3⟩, none⟩

/-- `cp-a`, which reads two peers from their clouds. -/
def directSpec : Spec :=
  { sampleSpec memberA.toIdentity [memberA, memberB, memberC] with
    heartbeat := ⟨some "directApi", none, none, none, some 8⟩ }

theorem directSpec_admitted : directSpec.Admitted := by
  have hmembers : ∀ m ∈ [memberA, memberB, memberC], m.toIdentity.Admitted := by
    simp only [List.forall_mem_cons]
    exact ⟨⟨by decide, by decide⟩, ⟨by decide, by decide⟩, ⟨by decide, by decide⟩, nofun⟩
  have h := @sampleSpec_admitted memberA.toIdentity _ ⟨by decide, by decide⟩ hmembers (by decide)
    (by decide) (by decide)
  exact { h with read := by simp [directSpec], readTimeout := by simp [directSpec] }

/-- A read that takes its time, and one that takes twice its time. -/
def pairReads : List Read := [⟨memberB, ⟨8, 0 + 8⟩, false⟩, ⟨memberC, ⟨16, 0 + 16⟩, false⟩]

def directEnv : Env :=
  ⟨1000, "", true, fun _ => futures (readPeerDirect emptyCloud · tsTagDefault 1000 180)
    (pairReads.map fun r => (r.member, r.outcome (overallBudget 8 2)))⟩

theorem pairReads_threaded : Threaded pairReads := by
  show Workers.Runs (fun _ : Fin 2 => (0 : ℚ)) [⟨8, 0 + 8⟩, ⟨16, 0 + 16⟩]
  refine .cons 0 (fun _ => le_refl _) ?_
  refine .cons 1 (fun j => ?_) (.nil _)
  revert j
  rw [Fin.forall_fin_two]
  simp

theorem within_budget_pair : readPeers directEnv directSpec [] =
    .ok (pairReads.map (Read.result (readPeerDirect emptyCloud · tsTagDefault 1000 180))) := by
  refine within_budget emptyCloud directSpec_admitted (by decide) (by decide) (by decide)
    (List.Perm.refl pairReads) pairReads_threaded ?_ ?_ (List.Perm.refl _)
  · rw [show readTimeout directSpec = 8 by decide]
    simp only [pairReads, List.forall_mem_cons]
    norm_num
  · rw [show readTimeout directSpec = 8 by decide]
    simp [pairReads, List.countP_cons, Late]
    norm_num

end Budget

end ResilientCtp
