import ResilientCtp.Lib.Collect
import ResilientCtp.Model.Compose

/-!
# The reads of a `directApi` reconcile

`_read_peers_direct` collects its futures in no order, under the id of each member, and puts the
results back in the order of the members. The API asks for distinct priorities but not for
distinct ids; two members with one id share one result, with the priority of one of them.

* `readPeersDirect_eq_iff`: the pool is a `Collect` of the futures.
* `readPeersDirect_iff`: the concurrent read is the sequential one, position by position, exactly
  if the ids are distinct: whatever finishes, fails or is late, in any order.
* `swaps_priority`: two members with one id.
-/

namespace ResilientCtp

open Py Heartbeat

/-- What became of the read of a member before the budget ended. -/
inductive Outcome where
  | finished
  | raised
  | notDone

namespace Outcome

/-- The future of the read of `m`, where `read` is what a read that finishes returns. -/
def future (read : Member → PeerLiveness) (m : Member) : Outcome → Fate
  | finished => .returned (read m)
  | raised => .raised
  | notDone => .notDone

/-- What the sequential read gives for `m`, and a record for `m` where the read failed. -/
def expected (read : Member → PeerLiveness) (m : Member) : Outcome → PeerLiveness
  | finished => read m
  | raised | notDone => unreadablePeer m

end Outcome

/-- The futures of the reads, each with its member. -/
def futures (read : Member → PeerLiveness) (reads : List (Member × Outcome)) :
    List (Member × Fate) :=
  reads.map fun mo => (mo.1, mo.2.future read mo.1)

variable {read : Member → PeerLiveness} {reads : List (Member × Outcome)}
  {pool : List (Member × Fate)}

theorem liveness_future (m : Member) (o : Outcome) :
    (o.future read m).liveness m = o.expected read m := by
  cases o <;> rfl

theorem priority_expected (hread : ∀ m, (read m).priority = m.priority) (m : Member)
    (o : Outcome) : (o.expected read m).priority = m.priority := by
  cases o with
  | finished => exact hread m
  | raised => rfl
  | notDone => rfl

theorem DistinctPriorities.nodup {members : List Member} (h : DistinctPriorities members) :
    (members.map (·.priority)).Nodup := by
  rw [List.nodup_iff_count_le_one]
  intro p
  by_cases hp : p ∈ members.map (·.priority)
  · obtain ⟨m, hm, rfl⟩ := List.mem_map.mp hp
    have := h m hm
    rw [List.count, List.countP_map, List.countP_eq_length_filter]
    exact Nat.le_of_eq this
  · rw [List.count_eq_zero_of_not_mem hp]
    exact Nat.zero_le 1

/-- **Refinement.** The results of the pool are results collected by id. -/
theorem readPeersDirect_eq_iff :
    readPeersDirect pool (reads.map Prod.fst) =
        .ok (reads.map fun mo => mo.2.expected read mo.1) ↔
      Collect.Lossless (fun mf : Member × Fate => mf.1.id) (fun mf => mf.2.liveness mf.1) pool
        (futures read reads) := by
  rw [readPeersDirect, mapM_ok_iff, List.forall₂_map_left_iff, List.forall₂_map_right_iff,
    List.forall₂_same, Collect.Lossless, futures, List.forall_mem_map]
  refine forall₂_congr fun mo _ => ?_
  rw [← liveness_future]
  show ((livenessById pool).lookup mo.1.id).elim _ _ = _ ↔ (livenessById pool).lookup mo.1.id = _
  cases (livenessById pool).lookup mo.1.id with
  | none => exact ⟨nofun, nofun⟩
  | some p =>
    exact ⟨fun h => congrArg some (Except.ok.inj h), fun h => congrArg _ (Option.some.inj h)⟩

theorem readPeersDirect_iff_nodup (hread : ∀ m, (read m).priority = m.priority)
    (hd : DistinctPriorities (reads.map Prod.fst)) (hpool : pool.Perm (futures read reads)) :
    readPeersDirect pool (reads.map Prod.fst) =
        .ok (reads.map fun mo => mo.2.expected read mo.1) ↔
      ((reads.map Prod.fst).map (·.id)).Nodup := by
  have hpriority : (futures read reads).map (fun mf => (mf.2.liveness mf.1).priority) =
      (reads.map Prod.fst).map (·.priority) := by
    rw [futures, List.map_map, List.map_map]
    refine List.map_congr_left fun mo _ => ?_
    exact (congrArg (·.priority) (liveness_future mo.1 mo.2)).trans
      (priority_expected hread mo.1 mo.2)
  have hids : (futures read reads).map (·.1.id) = (reads.map Prod.fst).map (·.id) := by
    rw [futures, List.map_map, List.map_map]
    rfl
  rw [readPeersDirect_eq_iff, ← hids]
  refine Collect.lossless_iff (fun p : PeerLiveness => p.priority) ?_ hpool
  rw [hpriority]
  exact hd.nodup

/-- **The concurrent read is the sequential one**, position by position, for every outcome of the
reads and every order in which they are collected, exactly if the ids are distinct. -/
theorem readPeersDirect_iff (readResourceTags : String → String → String → Option Dict)
    (tsTag : String) (now ttl : Int) (hd : DistinctPriorities (reads.map Prod.fst))
    (hpool : pool.Perm (futures (readPeerDirect readResourceTags · tsTag now ttl) reads)) :
    readPeersDirect pool (reads.map Prod.fst) =
        .ok (reads.map fun mo =>
          mo.2.expected (readPeerDirect readResourceTags · tsTag now ttl) mo.1) ↔
      ((reads.map Prod.fst).map (·.id)).Nodup :=
  readPeersDirect_iff_nodup (fun _ => rfl) hd hpool

/-- A cloud that carries no heartbeat. -/
def emptyCloud : String → String → String → Option Dict := fun _ _ _ => some []

theorem readPeersDirect_iff_pair :
    readPeersDirect (futures (readPeerDirect emptyCloud · tsTagDefault 1000 180)
        [(memberA, .finished), (memberB, .notDone)]) [memberA, memberB] =
      .ok [readPeerDirect emptyCloud memberA tsTagDefault 1000 180, unreadablePeer memberB] ↔
        ["cp-a", "cp-b"].Nodup :=
  readPeersDirect_iff emptyCloud tsTagDefault 1000 180 (by decide) (List.Perm.refl _)

/-- A second member with the id of `memberB`. -/
def memberB' : Member := { memberB with priority := 3 }

/-- Of two members with one id, one has the record of the other. -/
theorem swaps_priority : ¬ ∀ (readResourceTags : String → String → String → Option Dict)
    (tsTag : String) (now ttl : Int) (reads : List (Member × Outcome))
    (pool : List (Member × Fate)), DistinctPriorities (reads.map Prod.fst) →
      pool.Perm (futures (readPeerDirect readResourceTags · tsTag now ttl) reads) →
        readPeersDirect pool (reads.map Prod.fst) =
          .ok (reads.map fun mo =>
            mo.2.expected (readPeerDirect readResourceTags · tsTag now ttl) mo.1) := by
  intro h
  have hread := h emptyCloud tsTagDefault 1000 180 [(memberB, .finished), (memberB', .finished)] _
    (by decide) (List.Perm.refl _)
  have hids := (readPeersDirect_iff_nodup (fun _ => rfl) (by decide) (List.Perm.refl _)).mp hread
  revert hids
  decide

end ResilientCtp
