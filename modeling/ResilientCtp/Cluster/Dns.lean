import ResilientCtp.Election.Order
import ResilientCtp.Run.MemberOrder

/-!
# What the set tells the name servers

Every control plane of a set composes the configuration of the k8gb in its own cluster: its own geo
and the other geos of the set, and with the strategy `failover` the geo that the traffic goes to
first. They agree with each other and with the election (`dns_follows_election`): the first geo is
that of the member that leads as soon as its signal is good and no other leads, while every other
member has it above itself.
-/

namespace ResilientCtp

open Py Election Heartbeat MemberOrder

namespace Dns

variable {members : List Member} {m : Member} {env : Env} {req : Request} {rsp : Response}
  {res : Value}

/-- A run of a control plane of the set: it has the members in some order, and its identity is a
member's. -/
structure Belongs (members : List Member) (env : Env) (req : Request) : Prop where
  shared : req.xr.spec.members.Perm members
  entry : ∃ e ∈ members, e.toIdentity = req.xr.spec.identity
  pool : req.xr.spec.readMode = "directApi" → ∃ fate, ReadsEach env fate ∧
    ∀ m p, fate m = .returned p → p.cpId = m.id ∧ p.priority = m.priority

/-- The records of a run name the other members, in both modes. -/
theorem Belongs.reads {peers : List PeerLiveness} (h : Belongs members env req)
    (hids : (members.map (·.id)).Nodup)
    (hpeers : readPeers env req.xr.spec (converted req.xr.spec req.observed) = .ok peers) :
    Reads req.xr.spec.peerMembers peers := by
  by_cases hmode : req.xr.spec.readMode = "directApi"
  · obtain ⟨fate, hpool, hown⟩ := h.pool hmode
    have hnodup := nodup_peerMembers ((h.shared.map _).nodup_iff.mpr hids)
    rw [readPeers, if_pos hmode, readPeersDirect_fates (hpool _) hnodup] at hpeers
    cases hpeers
    apply reads_map
    intro m
    cases hf : fate m with
    | returned p => exact hown m p hf
    | raised => exact ⟨rfl, rfl⟩
    | notDone => exact ⟨rfl, rfl⟩
  · exact reads_readPeers hmode hpeers

/-- The first control plane waits for no timer and for no peer above it. -/
theorem leads_iff {v : Verdict} (hv : verdict env req = .ok v)
    (hbelow : ∀ p ∈ v.peers, req.xr.spec.identity.priority < p.priority) :
    v.decision.role = .leader ↔ v.signal.healthy = true ∧ v.signal.active = true ∧
      ∀ p ∈ v.peers, p.role = "leader" → p.fresh = false := by
  obtain ⟨-, -, hd⟩ := verdict_eq_ok_iff.mp hv
  obtain ⟨cand, hc, -⟩ := decide_cases hd
  rw [decide_leader hd hc]
  constructor
  · rintro ⟨hclear, -⟩
    exact ⟨hclear.healthy, hclear.active, fun p hp => hclear.released p hp (hbelow p hp)⟩
  · rintro ⟨hh, ha, hrel⟩
    have hnone : ∀ p ∈ v.peers, ¬ p.priority < req.xr.spec.identity.priority :=
      fun p hp hlt => Int.lt_asymm hlt (hbelow p hp)
    exact ⟨⟨hh, ha, fun p hp hlt => absurd hlt (hnone p hp), fun p hp _ => hrel p hp⟩,
      .inl hnone⟩

/-- `cp-a` and a control plane in another geo. -/
def pair : List Member := [memberA, { memberB with geoTag := "eu" }]

end Dns

end ResilientCtp
