import ResilientCtp.Lib.Collect
import ResilientCtp.Model.Entry
import ResilientCtp.Reads.Ledger

/-!
# The cloud objects under the heartbeats

The composed resources of a control plane are written and observed by the providers, each at the
address of its resource. A provider may change the object of a resource whose
`managementPolicies` allow it (`Manages`).

* `writes_iff`: of all that a response renders, its own heartbeat alone writes tags.
* `ReadsFrom`: the record of a peer shows its object, or nothing. In `mr` mode the peer is read from
  the report on its Observe resource, in `directApi` mode by a read of the pool (`readsFrom`).
-/

namespace ResilientCtp

open Py Election Heartbeat

/-- The objects of the clouds, by their address, with their tags. -/
abbrev Cloud : Type := Address → Option Dict

/-- The heartbeat of a control plane, as the API of its cloud names it. -/
def heartbeatObject (provider name region : String) : Address :=
  let (apiVersion, kind) :=
    if provider = "aws" then ("ssm.aws.m.upbound.io/v1beta1", "Parameter")
    else if provider = "azure" then ("azure.m.upbound.io/v1beta1", "ResourceGroup")
    else ("storage.gcp.m.upbound.io/v1beta1", "Bucket")
  ⟨.str apiVersion, .str kind, .str name, .str region⟩

def objectOf (i : Identity) : Address :=
  heartbeatObject i.provider (heartbeatExternalName i.id) i.region

/-! ## What a provider does with a resource -/

/-- `managementPolicies`; a resource without them is managed in full. -/
def policies (res : Value) : Except Err Value := do
  (← res.get "spec" .null).get "managementPolicies" (.list [.str "*"])

/-- A provider may change the object. -/
def Manages (res : Value) : Prop :=
  ∃ ps, policies res = .ok (.list ps) ∧ ps.any (·.isStr "*") = true

/-- The tags that the resource asks for. -/
def askedTags (res : Value) : Except Err Dict := do
  let field := if (← res.get "kind" .null).isStr "Bucket" then "labels" else "tags"
  (← (← forProvider res).get field .null).asDict

/-- The resources have the tags of the object at `a` set to `tags`. -/
def Writes (resources : Dict) (a : Address) (tags : Dict) : Prop :=
  ∃ name res, Dict.get? resources name = some res ∧ Manages res ∧ address res = .ok a ∧
    askedTags res = .ok tags

/-- What the providers make of the resources. -/
structure Applied (cloud : Cloud) (resources : Dict) (cloud' : Cloud) : Prop where
  written : ∀ a tags, Writes resources a tags → cloud' a = some tags
  kept : ∀ a, (∀ tags, ¬ Writes resources a tags) → cloud' a = cloud a

/-- The report on a resource of the object `a`: nothing yet, or the tags of the object. -/
def Reports (cloud : Cloud) (provider : String) (a : Address) (v : Value) : Prop :=
  (∃ fields, v = .dict fields ∧ Dict.get? fields "status" = none) ∨
    ∃ tags, cloud a = some tags ∧ ShowsTags provider tags v

section

variable {provider name ns id region pc tsTag : String} {mgmt : List String} {tags : Dict}
  {res : Value} {a : Address}

/-- What a heartbeat resource says to its provider. -/
theorem buildParameter_object
    (h : buildParameter provider name ns id region pc mgmt tags = .ok res) :
    address res = .ok (heartbeatObject provider (heartbeatExternalName id) region) ∧
      policies res = .ok (.list (mgmt.map .str)) ∧ askedTags res = .ok tags := by
  rcases buildParameter_ok h with rfl | rfl | rfl
  all_goals
    cases h
    exact ⟨rfl, rfl, rfl⟩

theorem not_writes_install {spec : Spec} {found installed : Bool}
    (h : (name, res) ∈ installResources spec ns found installed) : askedTags res ≠ .ok tags := by
  unfold installResources K8gbInstall.build at h
  split at h
  · simp only [List.mem_cons, List.not_mem_nil, or_false, Prod.mk.injEq] at h
    rcases h with ⟨-, rfl⟩ | ⟨-, rfl⟩ <;> exact nofun
  · cases h

theorem not_writes_gslb {spec : Spec} {ready found : Bool}
    (h : (name, res) ∈ gslbResources spec ns ready found) : askedTags res ≠ .ok tags := by
  unfold gslbResources GslbBuild.build at h
  split at h
  swap
  · cases h
  rcases List.mem_append.mp h with h | h
  · cases List.mem_singleton.mp h
    exact nofun
  · split at h
    · simp only [List.mem_cons, List.not_mem_nil, or_false, Prod.mk.injEq] at h
      rcases h with ⟨-, rfl⟩ | ⟨-, rfl⟩ <;> exact nofun
    · cases h

theorem objectOf_id {i j : Identity} (h : objectOf i = objectOf j) : i.id = j.id := by
  have hname : heartbeatExternalName i.id = heartbeatExternalName j.id :=
    Value.str.inj (congrArg Address.externalName h)
  have := congrArg String.toList hname
  simp only [heartbeatExternalName, String.toList_append, List.append_cancel_left_eq] at this
  exact String.toList_injective this

end

/-! ## The writer -/

variable {env : Env} {req : Request} {v : Verdict} {epoch : Int} {kvs : List (String × Value)}
  {cloud cloud' : Cloud} {a : Address} {tags : Dict} {name : String} {res : Value}

/-- The tags of the own heartbeat of a run. -/
def ownTagsOf (req : Request) (epoch : Int) (role : Role) : Dict :=
  ownTags req.xr.spec.identity req.xr.spec.tsTag epoch role.text

/-- What a run renders. -/
structure Renders (env : Env) (req : Request) (v : Verdict) (epoch : Int)
    (kvs : List (String × Value)) : Prop where
  throttled : ∃ prev, prevTags (converted req.xr.spec req.observed) = .ok prev ∧ epoch =
    epochToWrite prev req.xr.spec.tsTag env.now req.xr.spec.throttle v.decision.role
  own : ∃ own, (selfHb, own) ∈ kvs
  cases : ∀ name res, (name, res) ∈ kvs →
    (name = selfHb ∧ ∃ ns pc, buildParameter req.xr.spec.identity.provider selfHb ns
      req.xr.spec.identity.id req.xr.spec.identity.region pc ["*"]
      (ownTagsOf req epoch v.decision.role) = .ok res) ∨
    (∃ m ∈ req.xr.spec.peerMembers, name = peerHbResourceName m.id ∧ ∃ ns pc,
      buildParameter m.provider name ns m.id m.region pc ["Observe"] [] = .ok res) ∨
    (∃ ns found installed, (name, res) ∈ installResources req.xr.spec ns found installed) ∨
    ∃ ns ready found, (name, res) ∈ gslbResources req.xr.spec ns ready found

theorem rendered_renders (h : rendered env req v = .ok (epoch, kvs)) :
    Renders env req v epoch kvs := by
  obtain ⟨prev, own, observes, ready, hprev, hepoch, hown, ho, -, rfl⟩ :=
    rendered_eq_ok_iff.mp h
  obtain ⟨res, hres, hown⟩ := bind_ok hown
  cases hown
  refine ⟨⟨prev, hprev, hepoch⟩, ⟨res, by simp⟩, fun name res' hmem => ?_⟩
  rcases List.mem_append.mp hmem with hmem | hmem
  · rcases List.mem_append.mp hmem with hmem | hmem
    · rcases List.mem_cons.mp hmem with hmem | hmem
      · cases hmem
        exact .inl ⟨rfl, _, _, hres⟩
      · obtain ⟨m, hm, hkv⟩ := (mapM_ok ho).2 _ hmem
        obtain ⟨res'', hres'', hkv⟩ := bind_ok hkv
        cases hkv
        exact .inr (.inl ⟨m, hm, rfl, _, _, hres''⟩)
    · exact .inr (.inr (.inl ⟨_, _, _, hmem⟩))
  · exact .inr (.inr (.inr ⟨_, _, _, hmem⟩))

theorem mem_of_get?_setAll (h : Dict.get? (setAll [] kvs) name = some res) : (name, res) ∈ kvs := by
  rcases get?_setAll h with hmem | hnil
  · exact hmem
  · cases hnil

/-- The resource under the own name is the own heartbeat. -/
theorem Renders.own_resource (h : Renders env req v epoch kvs) : ∃ res ns pc,
    Dict.get? (setAll [] kvs) selfHb = some res ∧
      buildParameter req.xr.spec.identity.provider selfHb ns req.xr.spec.identity.id
        req.xr.spec.identity.region pc ["*"] (ownTagsOf req epoch v.decision.role) = .ok res := by
  obtain ⟨own, hown⟩ := h.own
  obtain ⟨res, hres⟩ := Option.isSome_iff_exists.mp
    (@get?_setAll_isSome kvs [] selfHb (.inl (List.mem_map.mpr ⟨_, hown, rfl⟩)))
  rcases h.cases _ _ (mem_of_get?_setAll hres) with ⟨-, ns, pc, hb⟩ | ⟨m, -, hname, -⟩ |
    ⟨_, _, _, hmem⟩ | ⟨_, _, _, hmem⟩
  · exact ⟨res, ns, pc, hres, hb⟩
  · exact absurd hname.symm (peerHbResourceName_ne_selfHb m.id)
  · exact absurd (mem_installResources hmem) (by decide)
  · exact absurd (mem_gslbResources hmem) (by decide)

theorem peerHbResourceName_injective {a b : String}
    (h : peerHbResourceName a = peerHbResourceName b) : a = b := by
  have := congrArg String.toList h
  rw [toList_peerHbResourceName, toList_peerHbResourceName, List.append_cancel_left_eq] at this
  exact String.toList_injective this

/-- The resource under the name of a peer is an Observe resource of its heartbeat. -/
theorem Renders.peer_resource (h : Renders env req v epoch kvs) {id : String}
    (hres : Dict.get? (setAll [] kvs) (peerHbResourceName id) = some res) :
    ∃ m ∈ req.xr.spec.peerMembers, m.id = id ∧ address res = .ok (objectOf m.toIdentity) := by
  rcases h.cases _ _ (mem_of_get?_setAll hres) with ⟨hname, -⟩ | ⟨m, hm, hname, ns, pc, hb⟩ |
    ⟨_, _, _, hmem⟩ | ⟨_, _, _, hmem⟩
  · exact absurd hname (peerHbResourceName_ne_selfHb id)
  · have hid := peerHbResourceName_injective hname
    exact ⟨m, hm, hid.symm, (buildParameter_object hb).1⟩
  · exact absurd rfl (peerHbResourceName_ne id (by rw [mem_installResources hmem]; decide))
  · exact absurd rfl (peerHbResourceName_ne id (by rw [mem_gslbResources hmem]; decide))

/-- **The sole writer.** A response writes the own heartbeat and no other object. -/
theorem Renders.writes_iff (h : Renders env req v epoch kvs) :
    Writes (setAll [] kvs) a tags ↔
      a = objectOf req.xr.spec.identity ∧ tags = ownTagsOf req epoch v.decision.role := by
  constructor
  · rintro ⟨name, res, hres, ⟨ps, hps, hstar⟩, haddr, htags⟩
    rcases h.cases _ _ (mem_of_get?_setAll hres) with ⟨-, ns, pc, hb⟩ | ⟨m, -, -, ns, pc, hb⟩ |
      ⟨_, _, _, hmem⟩ | ⟨_, _, _, hmem⟩
    · obtain ⟨haddr', -, htags'⟩ := buildParameter_object hb
      exact ⟨Except.ok.inj (haddr.symm.trans haddr'), Except.ok.inj (htags.symm.trans htags')⟩
    · -- an Observe resource writes nothing
      obtain ⟨-, hps', -⟩ := buildParameter_object hb
      cases hps.symm.trans hps'
      exact absurd hstar (by decide)
    · exact absurd htags (not_writes_install hmem)
    · exact absurd htags (not_writes_gslb hmem)
  · rintro ⟨rfl, rfl⟩
    obtain ⟨res, ns, pc, hres, hb⟩ := h.own_resource
    obtain ⟨haddr, hps, htags⟩ := buildParameter_object hb
    exact ⟨selfHb, res, hres, ⟨_, hps, rfl⟩, haddr, htags⟩

theorem Renders.applied (h : Renders env req v epoch kvs)
    (hc : Applied cloud (setAll [] kvs) cloud') :
    cloud' (objectOf req.xr.spec.identity) = some (ownTagsOf req epoch v.decision.role) ∧
      ∀ a, a ≠ objectOf req.xr.spec.identity → cloud' a = cloud a :=
  ⟨hc.written _ _ (h.writes_iff.mpr ⟨rfl, rfl⟩),
    fun _ hne => hc.kept _ fun _ hw => hne (h.writes_iff.mp hw).1⟩

theorem Renders.exists_applied (h : Renders env req v epoch kvs) (cloud : Cloud) :
    ∃ cloud', Applied cloud (setAll [] kvs) cloud' := by
  classical
  refine ⟨Function.update cloud (objectOf req.xr.spec.identity)
    (some (ownTagsOf req epoch v.decision.role)), fun a tags hw => ?_, fun a hno => ?_⟩
  · obtain ⟨rfl, rfl⟩ := h.writes_iff.mp hw
    exact Function.update_self ..
  · exact Function.update_of_ne (fun he => hno _ (h.writes_iff.mpr ⟨he, rfl⟩)) ..

/-! ## The reader -/

/-- The record `q` of the peer `m` shows its object, or nothing. -/
def ShowsPeer (cloud : Cloud) (m : Member) (tsTag : String) (now ttl : Int) (q : PeerLiveness) :
    Prop :=
  q = livenessFromTags m none tsTag now ttl ∨ ∃ tags, cloud (objectOf m.toIdentity) = some tags ∧
    q = livenessFromTags m (some tags) tsTag now ttl

/-- What a future of the pool returned was read from the object, unless the read failed. -/
def ReadsObject (cloud : Cloud) (m : Member) (tsTag : String) (now ttl : Int) : Fate → Prop
  | .returned q => q = readPeerDirect (fun _ _ _ => none) m tsTag now ttl ∨
      q = readPeerDirect (fun provider name region => cloud (heartbeatObject provider name region))
        m tsTag now ttl
  | .raised | .notDone => True

/-- The peers of a run are read from their objects, each in the way of the read mode. -/
structure ReadsFrom (cloud : Cloud) (env : Env) (req : Request) : Prop where
  mr : req.xr.spec.readMode ≠ "directApi" → ∀ m ∈ req.xr.spec.peerMembers, ∀ v,
    Dict.get? req.observed (peerHbResourceName m.id) = some v →
      Reports cloud m.provider (objectOf m.toIdentity) v
  collected : req.xr.spec.readMode = "directApi" → ∀ m ∈ req.xr.spec.peerMembers,
    ∃ mf ∈ env.pool req.xr.spec.peerMembers, mf.1 = m
  directApi : req.xr.spec.readMode = "directApi" → ∀ mf ∈ env.pool req.xr.spec.peerMembers,
    mf.1 ∈ req.xr.spec.peerMembers ∧
      ReadsObject cloud mf.1 req.xr.spec.tsTag env.now req.xr.spec.ttl mf.2

variable {m : Member} {tsTag : String} {now ttl : Int} {q : PeerLiveness}
  {peers : List PeerLiveness} {observed : Dict}

theorem shows_readPeer (h : ∀ v, Dict.get? observed (peerHbResourceName m.id) = some v →
      Reports cloud m.provider (objectOf m.toIdentity) v)
    (hq : readPeer m observed tsTag now ttl = .ok q) : ShowsPeer cloud m tsTag now ttl q := by
  cases hv : Dict.get? observed (peerHbResourceName m.id) with
  | none =>
    rw [readPeer_unobserved _ _ _ (by rw [Dict.getD, hv]; rfl)] at hq
    exact .inl (Except.ok.inj hq).symm
  | some v =>
    rcases h v hv with ⟨fields, rfl, hstatus⟩ | ⟨tags, htags, hshows⟩
    · -- nothing is reported yet
      unfold readPeer at hq
      simp only [Dict.getD, hv, hstatus, Option.getD_some, Value.get_dict, Option.getD_none,
        ok_bind] at hq
      refine .inl ?_
      split at hq <;> exact (Except.ok.inj hq).symm
    · rw [readPeer_shows hv hshows] at hq
      exact .inr ⟨tags, htags, (Except.ok.inj hq).symm⟩

theorem shows_liveness {f : Fate} (h : ReadsObject cloud m tsTag now ttl f) :
    ShowsPeer cloud m tsTag now ttl (f.liveness m) := by
  cases f with
  | raised => exact .inl rfl
  | notDone => exact .inl rfl
  | returned q =>
    rcases h with rfl | rfl
    · exact .inl rfl
    · show ShowsPeer cloud m tsTag now ttl
        (livenessFromTags m (cloud (objectOf m.toIdentity)) tsTag now ttl)
      cases hc : cloud (objectOf m.toIdentity) with
      | none => exact .inl rfl
      | some tags => exact .inr ⟨tags, hc, rfl⟩

/-- **The readers.** In either mode the record of every peer shows its object, or nothing. -/
theorem ReadsFrom.shows (h : ReadsFrom cloud env req)
    (hids : (req.xr.spec.members.map (·.id)).Nodup)
    (hpeers : readPeers env req.xr.spec (converted req.xr.spec req.observed) = .ok peers)
    (hm : m ∈ req.xr.spec.peerMembers) :
    ∃ q ∈ peers, ShowsPeer cloud m req.xr.spec.tsTag env.now req.xr.spec.ttl q := by
  unfold readPeers at hpeers
  split at hpeers
  · next hmode =>
    obtain ⟨q, hq, hlookup⟩ := (mapM_ok hpeers).1 m hm
    refine ⟨q, hq, ?_⟩
    cases hl : (livenessById (env.pool req.xr.spec.peerMembers)).lookup m.id with
    | none => rw [hl] at hlookup; cases hlookup
    | some p =>
      rw [hl] at hlookup
      cases hlookup
      -- the result under the id is that of a future of this member
      have hmem : (m.id, q) ∈ Collect.collect (fun mf : Member × Fate => mf.1.id)
          (fun mf => mf.2.liveness mf.1) (env.pool req.xr.spec.peerMembers) := by
        obtain ⟨l₁, l₂, he, -⟩ := List.lookup_eq_some_iff.mp hl
        show _ ∈ livenessById (env.pool req.xr.spec.peerMembers)
        rw [he]
        simp
      rw [Collect.collect_eq, List.mem_reverse] at hmem
      obtain ⟨mf, hmf, he⟩ := List.mem_map.mp hmem
      obtain ⟨hid, rfl⟩ := Prod.mk.inj he
      obtain ⟨hpeer, hread⟩ := h.directApi hmode mf hmf
      have hmm : mf.1 = m := List.inj_on_of_nodup_map hids (List.mem_filter.mp hpeer).1
        (List.mem_filter.mp hm).1 hid
      rw [hmm] at hread ⊢
      exact shows_liveness hread
  · next hmode =>
    rw [converted, if_neg hmode] at hpeers
    obtain ⟨q, hq, hread⟩ := (mapM_ok hpeers).1 m hm
    exact ⟨q, hq, shows_readPeer (h.mr hmode m hm) hread⟩

end ResilientCtp
