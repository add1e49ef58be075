import ResilientCtp.Cluster.System
import ResilientCtp.Model.Compose

/-!
# A run of the function is a step of the set

In `mr` mode a control plane observes its own heartbeat and those of its peers as composed
resources. Where these mirror the ledger, as of some moments within the lag, a run of `compose`
that returns is a reconcile of the set, and publishes its status and its heartbeat
(`compose_reconciles`). So what holds in every run of the set holds of the code.
-/

namespace ResilientCtp

open Py Election Heartbeat

namespace Cluster

variable {F : Fleet} {c : State} {m : Member} {view : String → Int} {env : Env} {req : Request}
  {rsp : Response}

theorem prevTags_congr {o o' : Dict}
    (h : Dict.getD o selfHb (.dict []) = Dict.getD o' selfHb (.dict [])) :
    prevTags o = prevTags o' := by
  unfold prevTags
  rw [h]

/-- The request of `m` mirrors the ledger: its own heartbeat as it wrote it last, that of each
peer `p` as it was at `view p.id`. -/
structure Mirrors (F : Fleet) (c : State) (m : Member) (view : String → Int) (req : Request) :
    Prop where
  mode : req.xr.spec.readMode ≠ "directApi"
  identity : req.xr.spec.identity = m.toIdentity
  members : req.xr.spec.members = F.members
  settings : req.xr.spec.settings (req.xr.ns.getD "default") = F.settings
  status : req.xr.status = F.statusOf c.log m.id
  own : Dict.getD req.observed selfHb (.dict []) =
    Dict.getD (F.ownObserved c.log m) selfHb (.dict [])
  peers : ∀ p ∈ F.peersOf m, Dict.getD req.observed (peerHbResourceName p.id) (.dict []) =
    ((F.tagsAt c.log p.id (view p.id)).map (observedHeartbeat p.provider)).getD (.dict [])

/-- The moments as of which `m` may see its peers. -/
structure MaySee (F : Fleet) (c : State) (m : Member) (view : String → Int) : Prop where
  le : ∀ p ∈ F.members, view p.id ≤ c.now
  lag : ∀ p ∈ F.members, c.now - F.lag ≤ view p.id
  mono : ∀ e₀, latest c.log m.id = some e₀ → ∀ p ∈ F.members, e₀.view p.id ≤ view p.id

theorem Mirrors.readPeers (h : Mirrors F c m view req) : readPeers env req.xr.spec req.observed =
    .ok ((F.peersOf m).map fun p => livenessFromTags p (F.tagsAt c.log p.id (view p.id))
      F.settings.tsTag env.now F.settings.ttl) := by
  have hpeers : req.xr.spec.peerMembers = F.peersOf m := by
    rw [Spec.peerMembers, h.members, h.identity]
    rfl
  have htag : req.xr.spec.tsTag = F.settings.tsTag := by rw [← h.settings]; rfl
  have httl : req.xr.spec.ttl = F.settings.ttl := by rw [← h.settings]; rfl
  unfold ResilientCtp.readPeers
  rw [if_neg h.mode, hpeers, htag, httl]
  refine mapM_ok_iff.mpr (List.forall₂_map_right_iff.mpr (List.forall₂_same.mpr ?_))
  intro p hp
  have hobs := h.peers p hp
  cases ht : F.tagsAt c.log p.id (view p.id) with
  | none => rw [ht] at hobs; exact readPeer_unobserved _ _ _ hobs
  | some tags => rw [ht] at hobs; exact readPeer_observed _ _ _ hobs

/-- **A run of the function is a reconcile of the set.** -/
theorem compose_reconciles (hm : m ∈ F.members) (hv : MaySee F c m view)
    (hmir : Mirrors F c m view req) (hnow : env.now = c.now + F.offset m.id)
    (h : compose env req = .ok rsp) :
    ∃ e, Reconciles F c e ∧ e.cp = m ∧ e.view = view ∧ rsp.status = e.out.status ∧
      Dict.get? rsp.resources selfHb = some e.out.heartbeat := by
  obtain ⟨g, r, hc⟩ := compose_ok h
  obtain ⟨peers, prev, hp, hpv, hr⟩ := hc.reconciled
  have hconv : converted req.xr.spec req.observed = req.observed := by
    rw [converted, if_neg hmir.mode]
  rw [hconv] at hp hpv
  rw [hmir.readPeers] at hp
  rw [prevTags_congr hmir.own] at hpv
  rw [hmir.settings, hmir.identity] at hr
  have hpeers := Except.ok.inj hp
  refine ⟨⟨m, c.now, view, _, r⟩, ⟨hm, rfl, hv.le, hv.lag, hv.mono, hnow, ?_, hmir.status, hpv, hr⟩,
    rfl, rfl, hc.status, hc.heartbeat⟩
  exact hpeers.symm

end Cluster

end ResilientCtp
