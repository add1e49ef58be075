import ResilientCtp.Cluster.Cloud
import ResilientCtp.Cluster.SingleLeader
import ResilientCtp.Reads.Signal

/-!
# Whole runs of the function over the clouds

The control planes of a set call `compose` in any order, on any status, GSLB and own heartbeat,
and in either read mode. The providers apply what the responses render, and the peers are read
from the objects that result, without a lag, where a read succeeds at all. What a control plane
publishes is `status.managementPolicy`.

* `Synced`: the object of a control plane has the tags of its last response.
* `refines_lease`: the heartbeats are leases, as long as no leading round is blind to a leader.
* `blame`: where two control planes hold `["*"]`, a round took it without reading the heartbeat
  of another one that held it.
-/

namespace ResilientCtp

open Py Election Heartbeat

namespace World

structure Round where
  cp : Member
  time : Int
  env : Env
  req : Request
  rsp : Response

namespace Round

variable (r : Round)

def spec : Spec := r.req.xr.spec

/-- It published `["*"]`. -/
def holds : Bool :=
  match Dict.get? r.rsp.status "managementPolicy" with
  | some (.list [.str policy]) => policy == "*"
  | _ => false

/-- The epoch that it published. -/
def epoch : Int := Status.selfEpoch r.rsp.status

/-- It could not read the heartbeat of `p`, which did not hold it back: `p` has a lower priority,
or the GSLB routes to this control plane alone. -/
def Blind (p : Member) : Prop :=
  ∃ v, verdict r.env r.req = .ok v ∧ (∃ q ∈ v.peers, q.cpId = p.id ∧ q.readable = false) ∧
    (r.cp.priority < p.priority ∨ gslbActiveFailover v.signal r.spec.gslb.strategy = true)

end Round

structure State where
  now : Int
  cloud : Cloud
  log : List Round

inductive Act where
  | advance (t : Int)
  | compose (r : Round)

/-- The newest round of `id`. -/
def latest (log : List Round) (id : String) : Option Round := log.find? fun r => r.cp.id == id

/-- A run of the function by a member of the set. -/
structure Valid (F : Cluster.Fleet) (r : Round) : Prop where
  member : r.cp ∈ F.members
  identity : r.spec.identity = r.cp.toIdentity
  members : r.spec.members = F.members
  tsTag : r.spec.tsTag = F.settings.tsTag
  ttl : r.spec.ttl = F.settings.ttl
  throttle : r.spec.throttle = F.settings.throttle
  out : compose r.env r.req = .ok r.rsp

/-- What the round reads of its peers. In `mr` mode a provider reports on a resource that an earlier
round of the control plane rendered; in `directApi` mode every member has a future. -/
structure Sees (c : State) (r : Round) : Prop where
  mr : r.spec.readMode ≠ "directApi" → ∀ m ∈ r.spec.peerMembers, ∀ v,
    Dict.get? r.req.observed (peerHbResourceName m.id) = some v → ∃ q ∈ c.log, q.cp = r.cp ∧
      ∃ res a, Dict.get? q.rsp.resources (peerHbResourceName m.id) = some res ∧
        address res = .ok a ∧ Reports c.cloud m.provider a v
  collected : r.spec.readMode = "directApi" → ∀ m ∈ r.spec.peerMembers,
    ∃ mf ∈ r.env.pool r.spec.peerMembers, mf.1 = m
  directApi : r.spec.readMode = "directApi" → ∀ mf ∈ r.env.pool r.spec.peerMembers,
    mf.1 ∈ r.spec.peerMembers ∧ ReadsObject c.cloud mf.1 r.spec.tsTag r.env.now r.spec.ttl mf.2

/-- The round can be the next. -/
structure Next (F : Cluster.Fleet) (c : State) (r : Round) : Prop extends Valid F r where
  time : r.time = c.now
  clock : r.env.now = c.now + F.offset r.cp.id
  sees : Sees c r

/-- The set, over clouds that hold anything at the start. -/
def system (F : Cluster.Fleet) : Lts.System State Act where
  init c := c.now = F.start ∧ c.log = []
  step c a c' := match a with
    | .advance t => c.now ≤ t ∧ c' = { c with now := t }
    | .compose r => Next F c r ∧ ∃ cloud', Applied c.cloud r.rsp.resources cloud' ∧
        c' = { c with cloud := cloud', log := r :: c.log }

variable {F : Cluster.Fleet} {c : State} {r x : Round} {log : List Round} {id : String}
  {m p : Member} {d skew : Int}

theorem latest_cons_self (r : Round) (log : List Round) :
    latest (r :: log) r.cp.id = some r := by simp [latest]

theorem latest_cons_ne (log : List Round) (h : r.cp.id ≠ id) :
    latest (r :: log) id = latest log id := by simp [latest, h]

theorem latest_mem (h : latest log id = some r) : r ∈ log ∧ r.cp.id = id :=
  ⟨List.mem_of_find?_eq_some h, by simpa using List.find?_some h⟩

/-! ## A round -/

/-- What a run of the function comes to. -/
structure Outcome (r : Round) (v : Verdict) (kvs : List (String × Value)) : Prop where
  verdict : ResilientCtp.verdict r.env r.req = .ok v
  renders : Renders r.env r.req v r.epoch kvs
  resources : r.rsp.resources = setAll [] kvs
  holds : r.holds = true ↔ v.decision.role = .leader
  peers : readPeers r.env r.spec (converted r.spec r.req.observed) = .ok v.peers
  clear : v.decision.role = .leader →
    Clear r.spec.identity v.signal r.spec.gslb.strategy v.peers

theorem Valid.outcome (h : Valid F r) : ∃ v kvs, Outcome r v kvs := by
  obtain ⟨v, epoch, kvs, hv, hk, hrsp⟩ := compose_eq_ok_iff.mp h.out
  have hepoch : r.epoch = epoch := by
    rw [Round.epoch, hrsp, respond, Status.selfEpoch_buildStatus]
  obtain ⟨-, hp, hd⟩ := verdict_eq_ok_iff.mp hv
  have hpolicy : Dict.get? r.rsp.status "managementPolicy" =
      some (.list (v.decision.managementPolicy.map .str)) := by
    rw [hrsp]
    rfl
  refine ⟨_, kvs, hv, hepoch ▸ rendered_renders hk, by rw [hrsp]; rfl, ?_, hp, fun hl => ?_⟩
  · rw [Round.holds, hpolicy, decide_policy hd]
    cases v.decision.role <;> decide
  · obtain ⟨cand, hc, -⟩ := decide_cases hd
    exact ((decide_leader hd hc).mp hl).1

/-- The epoch is less than a throttle old. -/
theorem Next.recent (h : Next F c r) :
    c.now + F.offset r.cp.id - F.settings.throttle < r.epoch := by
  obtain ⟨v, kvs, ho⟩ := h.toValid.outcome
  obtain ⟨prev, -, hp⟩ := ho.renders.throttled
  have hthrottle := F.admitted.throttle
  have hclock := h.clock
  have hspec : r.req.xr.spec.throttle = F.settings.throttle := h.throttle
  rcases epochToWrite_cases prev r.req.xr.spec.tsTag r.env.now r.req.xr.spec.throttle
    v.decision.role with hw | ⟨e, -, -, hlt, hw⟩ <;> omega

/-! ## The objects -/

/-- The newest round of every member has written its object. -/
structure Synced (F : Cluster.Fleet) (c : State) : Prop where
  start : F.start ≤ c.now
  valid : ∀ x ∈ c.log, Valid F x ∧ F.start + F.offset x.cp.id - F.settings.throttle < x.epoch
  objects : ∀ m ∈ F.members, ∀ x, latest c.log m.id = some x → ∃ role,
    c.cloud (objectOf m.toIdentity) =
      some (ownTags m.toIdentity F.settings.tsTag x.epoch (Role.text role)) ∧
    (x.holds = true ↔ role = .leader)

theorem synced_inductive (F : Cluster.Fleet) : (system F).Inductive (Synced F) where
  init := by
    rintro c ⟨hnow, hlog⟩
    exact ⟨Int.le_of_eq hnow.symm, by simp [hlog], by simp [hlog, latest]⟩
  step := by
    rintro c a c' - ih hst
    cases a with
    | advance t =>
      obtain ⟨ht, rfl⟩ := hst
      exact ⟨Int.le_trans ih.start ht, ih.valid, ih.objects⟩
    | compose r =>
      obtain ⟨hn, cloud', happ, rfl⟩ := hst
      obtain ⟨v, kvs, ho⟩ := hn.toValid.outcome
      rw [ho.resources] at happ
      obtain ⟨hown, hother⟩ := ho.renders.applied happ
      have hid : r.req.xr.spec.identity = r.cp.toIdentity := hn.identity
      have htag : r.req.xr.spec.tsTag = F.settings.tsTag := hn.tsTag
      have hstart := ih.start
      have hrecent := hn.recent
      refine ⟨hstart, fun x hx => ?_, fun m hm x hx => ?_⟩
      · rcases List.mem_cons.mp hx with rfl | hx
        · exact ⟨hn.toValid, by omega⟩
        · exact ih.valid x hx
      · by_cases hmid : r.cp.id = m.id
        · have hcp := F.eq_of_id hn.member hm hmid
          subst hcp
          rw [latest_cons_self, Option.some.injEq] at hx
          subst hx
          rw [hid, ownTagsOf, hid, htag] at hown
          exact ⟨v.decision.role, hown, ho.holds⟩
        · rw [latest_cons_ne c.log hmid] at hx
          have hne : objectOf m.toIdentity ≠ objectOf r.req.xr.spec.identity := by
            intro he
            exact hmid (by rw [objectOf_id he, hid])
          have := ih.objects m hm x hx
          rwa [← hother _ hne] at this

/-- What a round reads of its peers is their objects. -/
theorem Next.readsFrom (h : Next F c r) (hs : Synced F c) : ReadsFrom c.cloud r.env r.req where
  mr hmode m hm v hv := by
    obtain ⟨q, hq, hcp, res, a, hres, haddr, hrep⟩ := h.sees.mr hmode m hm v hv
    have hvalid := (hs.valid q hq).1
    obtain ⟨w, kvs, ho⟩ := hvalid.outcome
    rw [ho.resources] at hres
    obtain ⟨m', hm', hid, haddr'⟩ := ho.renders.peer_resource hres
    cases haddr.symm.trans haddr'
    -- the resource is that of the same member
    have hmem : m' ∈ F.members := by
      rw [← hvalid.members]
      exact (List.mem_filter.mp hm').1
    have hmem' : m ∈ F.members := by
      rw [← h.members]
      exact (List.mem_filter.mp hm).1
    rwa [F.eq_of_id hmem hmem' hid] at hrep
  collected := h.sees.collected
  directApi := h.sees.directApi

theorem Next.peer_mem (h : Next F c r) (hp : p ∈ F.members) (hne : p.id ≠ r.cp.id) :
    p ∈ r.spec.peerMembers := by
  refine List.mem_filter.mpr ⟨by rw [h.members]; exact hp, ?_⟩
  rw [h.identity]
  simpa using hne

/-- The providers can apply what any next round renders. -/
theorem reach_compose (hr : (system F).Reach c) (h : Next F c r) :
    ∃ cloud', (system F).Reach ⟨c.now, cloud', r :: c.log⟩ := by
  obtain ⟨v, kvs, ho⟩ := h.toValid.outcome
  obtain ⟨cloud', happ⟩ := ho.renders.exists_applied c.cloud
  rw [← ho.resources] at happ
  exact ⟨cloud', .step (a := .compose r) hr ⟨h, cloud', happ, rfl⟩⟩

/-! ## The leases -/

/-- A leading round read the heartbeat of every other control plane that leads and is not past its
TTL. -/
def Sighted (F : Cluster.Fleet) (c : State) : Act → Prop
  | .advance _ => True
  | .compose r => r.holds = true → ∀ p ∈ F.members, p.id ≠ r.cp.id → ∀ x,
      latest c.log p.id = some x → x.holds = true → r.env.now - x.epoch ≤ F.settings.ttl →
        ¬ r.Blind p

def note (r : Round) : Lease.Note := ⟨r.epoch, r.holds, r.time⟩

def leases (c : State) : Lease.Board String := ⟨c.now, fun id => (latest c.log id).map note⟩

/-- The clocks of the set are past the first throttle of the epoch. -/
def Late (F : Cluster.Fleet) : Prop :=
  ∀ m ∈ F.members, F.settings.throttle ≤ F.start + F.offset m.id

/-- A round that takes the lead has seen every other claim past its TTL, or is blind to it. -/
theorem Next.stale (hlate : Late F) (hs : Synced F c) (h : Next F c r)
    (hsight : Sighted F c (.compose r)) (hl : r.holds = true) (hp : p ∈ F.members)
    (hne : p.id ≠ r.cp.id) (hx : latest c.log p.id = some x) (hxl : x.holds = true) :
    F.settings.ttl < r.env.now - x.epoch := by
  by_contra hfresh
  obtain ⟨v, kvs, ho⟩ := h.toValid.outcome
  have hclear := ho.clear (ho.holds.mp hl)
  obtain ⟨hxm, hxid⟩ := latest_mem hx
  obtain ⟨hxv, hxe⟩ := hs.valid x hxm
  have hpos : 0 < x.epoch := by
    have := hlate x.cp hxv.member
    omega
  have hpm := h.peer_mem hp hne
  have hids : (r.req.xr.spec.members.map (·.id)).Nodup := by
    rw [show r.req.xr.spec.members = F.members from h.members]
    exact F.ids
  obtain ⟨q, hq, hshows⟩ := (h.readsFrom hs).shows hids ho.peers hpm
  have hprio : p.priority ≠ r.spec.identity.priority := by
    rw [h.identity]
    exact F.priority_ne hp h.member hne
  rcases hshows with rfl | ⟨tags, htags, rfl⟩
  · -- the record shows nothing
    refine hsight hl p hp hne x hx hxl (by omega) ⟨v, ho.verdict, ⟨_, hq, rfl, rfl⟩, ?_⟩
    by_cases hlt : r.cp.priority < p.priority
    · exact .inl hlt
    · right
      have hhigher : p.priority < r.spec.identity.priority := by
        rw [h.identity] at hprio ⊢
        omega
      rcases blocks_eq_none.mp (hclear.unblocked _ hq hhigher) with ⟨-, haf⟩ | ⟨hr, -⟩ | ⟨hr, -⟩
      · exact haf
      · cases hr
      · cases hr
  · -- it shows the tags of the claim
    obtain ⟨role, hobj, hrole⟩ := hs.objects p hp x hx
    cases htags.symm.trans hobj
    obtain ⟨hread, he, ht⟩ := livenessFromTags_ownTags F.key p p.toIdentity x.epoch role.text
      r.env.now F.settings.ttl
    rw [show r.req.xr.spec.tsTag = _ from h.tsTag, show r.req.xr.spec.ttl = _ from h.ttl] at hq
    have hstale := hclear.not_fresh_leader hq hprio hread
      (ht.trans (Role.text_eq_leader.mpr (hrole.mp hxl)))
    rw [Bool.eq_false_iff, Ne, fresh_livenessFromTags, he] at hstale
    exact hstale ⟨hpos, by omega⟩

theorem leases_cons (c : State) (cloud' : Cloud) (r : Round) :
    leases { c with cloud := cloud', log := r :: c.log } = (leases c).post r.cp.id (note r) := by
  unfold leases Lease.Board.post
  congr 1
  funext id
  by_cases h : id = r.cp.id
  · subst h
    rw [Function.update_self, latest_cons_self, Option.map_some]
  · rw [Function.update_of_ne h, latest_cons_ne c.log (Ne.symm h)]

/-- **Refinement.** Where no leading round is blind to a leader, the heartbeats are leases. -/
theorem refines_lease (hlate : Late F) : ((system F).restrict (Sighted F)).Refines
    (Lease.board (Cluster.leaseTerms F)) leases where
  init := by
    rintro c ⟨-, hlog⟩ id
    simp [leases, hlog, latest]
  step := by
    rintro c a c' hr ⟨hst, hsight⟩
    right
    have hs := (synced_inductive F).reach hr.of_restrict
    cases a with
    | advance t =>
      obtain ⟨ht, rfl⟩ := hst
      exact ⟨.tick t, ht, rfl⟩
    | compose r =>
      obtain ⟨hn, cloud', -, rfl⟩ := hst
      refine ⟨.post r.cp.id (note r), ⟨hn.time, hn.recent, ?_⟩, leases_cons c cloud' r⟩
      intro hl j hj n hnote hnl
      obtain ⟨x, hx, rfl⟩ := Option.map_eq_some_iff.mp hnote
      obtain ⟨hxm, rfl⟩ := latest_mem hx
      have hstale := hn.stale hlate hs hsight hl (hs.valid x hxm).1.member hj hx hnl
      rw [hn.clock] at hstale
      exact hstale

/-! ## Blame -/

/-- The newest response of `id` published `["*"]`, within the last `d` seconds. -/
def HoldsWithin (c : State) (d : Int) (id : String) : Prop :=
  ∃ r, latest c.log id = some r ∧ r.holds = true ∧ c.now - r.time ≤ d

/-- A round of the log took the lead blind to a control plane that led, and was not past its
TTL. -/
def LedBlind (F : Cluster.Fleet) (log : List Round) : Prop :=
  ∃ later r rest, log = later ++ r :: rest ∧ r.holds = true ∧ ∃ p ∈ F.members, p.id ≠ r.cp.id ∧
    ∃ x, latest rest p.id = some x ∧ x.holds = true ∧ r.env.now - x.epoch ≤ F.settings.ttl ∧
      r.Blind p

theorem LedBlind.cons (h : LedBlind F log) (r : Round) : LedBlind F (r :: log) := by
  obtain ⟨later, y, rest, rfl, hy⟩ := h
  exact ⟨r :: later, y, rest, rfl, hy⟩

theorem sighted_of_not_ledBlind (hr : (system F).Reach c) (h : ¬ LedBlind F c.log) :
    ((system F).restrict (Sighted F)).Reach c := by
  induction hr with
  | init hi => exact .init hi
  | @step c c' a _ hst ih =>
    cases a with
    | advance t =>
      obtain ⟨ht, rfl⟩ := hst
      exact .step (a := .advance t) (ih h) ⟨⟨ht, rfl⟩, trivial⟩
    | compose r =>
      obtain ⟨hn, cloud', happ, rfl⟩ := hst
      refine .step (a := .compose r) (ih fun hb => h (hb.cons r)) ⟨⟨hn, cloud', happ, rfl⟩, ?_⟩
      intro hl p hp hne x hx hxl hfresh hblind
      exact h ⟨[], r, c.log, rfl, hl, p, hp, hne, x, hx, hxl, hfresh, hblind⟩

/-- **Blame.** Two control planes hold `["*"]` within `d` seconds only where a round took it blind
to another one that held it. -/
theorem blame (hlate : Late F)
    (hskew : ∀ p ∈ F.members, ∀ q ∈ F.members, F.offset p.id - F.offset q.id ≤ skew)
    (hd : F.settings.throttle + d + skew ≤ F.settings.ttl) (hr : (system F).Reach c)
    {i j : String} (hij : i ≠ j) (hi : HoldsWithin c d i) (hj : HoldsWithin c d j) :
    LedBlind F c.log := by
  by_contra hb
  have hr' := sighted_of_not_ledBlind hr hb
  have hs := (synced_inductive F).reach hr
  obtain ⟨x, hx, hxl, hxd⟩ := hi
  obtain ⟨y, hy, hyl, hyd⟩ := hj
  obtain ⟨hxm, rfl⟩ := latest_mem hx
  obtain ⟨hym, rfl⟩ := latest_mem hy
  have hxv := (hs.valid x hxm).1.member
  have hyv := (hs.valid y hym).1.member
  exact Lease.exclusive (Cluster.leaseTerms F) hd ((refines_lease hlate).reach hr') hij
    (hskew _ hxv _ hyv) (hskew _ hyv _ hxv) (congrArg (Option.map note) hx)
    (congrArg (Option.map note) hy) hxl hyl hxd hyd

/-! ## Two rounds that read nothing -/

/-- The pair with the defaults, from 1000 on. -/
def latePair : Cluster.Fleet :=
  { Cluster.defaultPair with
    start := 1000
    clock := fun _ _ => show (0 : Int) < 1000 + 0 by decide
    boot := fun _ _ _ h => by cases h }

/-- A Gslb that routes to this control plane. -/
def routedGslb : Value :=
  gslbOf [("serviceHealth", .dict [("app.cloud.example.com", .str "Healthy")]),
    ("healthyRecords", .dict [("app.cloud.example.com", .list [.str "10.0.0.1"])]),
    ("loadBalancer", .dict [("exposedIps", .list [.str "10.0.0.1"])])]

def blindEnv : Env := ⟨1000, "", true, fun _ => []⟩

/-- A request of `m` that observes no other resource. -/
def blindRequest (m : Member) (status : Dict) : Request :=
  ⟨⟨none, sampleSpec m.toIdentity [memberA, memberB], status⟩, contextOf [routedGslb], []⟩

theorem exists_blind (m : Member) (status : Dict) (hr : (system latePair).Reach c)
    (hnow : c.now = 1000) (hm : m ∈ latePair.members)
    (hout : ∃ rsp, compose blindEnv (blindRequest m status) = .ok rsp)
    (hrole : (verdict blindEnv (blindRequest m status)).map (·.decision.role) = .ok .leader) :
    ∃ r cloud', (system latePair).Reach ⟨1000, cloud', r :: c.log⟩ ∧ r.cp = m ∧ r.time = 1000 ∧
      r.holds = true := by
  obtain ⟨rsp, hrsp⟩ := hout
  have hvalid : Valid latePair ⟨m, 1000, blindEnv, blindRequest m status, rsp⟩ :=
    ⟨hm, rfl, rfl, rfl, rfl, rfl, hrsp⟩
  have hmode : (sampleSpec m.toIdentity [memberA, memberB]).readMode ≠ "directApi" :=
    show "mr" ≠ "directApi" by decide
  obtain ⟨cloud', hr'⟩ := reach_compose hr ⟨hvalid, hnow.symm, by rw [hnow]; rfl,
    fun _ _ _ _ => nofun, fun h => absurd h hmode, fun h => absurd h hmode⟩
  obtain ⟨v, kvs, ho⟩ := hvalid.outcome
  rw [show verdict blindEnv (blindRequest m status) = .ok v from ho.verdict] at hrole
  rw [hnow] at hr'
  exact ⟨_, cloud', hr', rfl, rfl, ho.holds.mpr (Except.ok.inj hrole)⟩

/-- Both control planes of the pair take the lead at 1000, as neither has read the other. -/
theorem blame_latePair : ∃ c, (system latePair).Reach c ∧ HoldsWithin c 60 "cp-a" ∧
    HoldsWithin c 60 "cp-b" ∧ LedBlind latePair c.log := by
  have h0 : (system latePair).Reach ⟨1000, fun _ => none, []⟩ := .init ⟨rfl, rfl⟩
  obtain ⟨a, _, ha, hacp, hat, hal⟩ := exists_blind memberA [] h0 rfl List.mem_cons_self
    ⟨_, rfl⟩ rfl
  obtain ⟨b, cloud, hb, hbcp, hbt, hbl⟩ := exists_blind memberB
    [("promotionCandidateSince", .str "1")] ha rfl (List.mem_cons_of_mem _ List.mem_cons_self)
    ⟨_, rfl⟩ rfl
  have hA : HoldsWithin ⟨1000, cloud, [b, a]⟩ 60 "cp-a" :=
    ⟨a, by simp [latest, hacp, hbcp, memberA, memberB], hal, by rw [hat]; simp⟩
  have hB : HoldsWithin ⟨1000, cloud, [b, a]⟩ 60 "cp-b" :=
    ⟨b, by simp [latest, hbcp, memberB], hbl, by rw [hbt]; simp⟩
  have hlate : Late latePair := fun _ _ => show (60 : Int) ≤ 1000 + 0 by decide
  have hskew : ∀ p ∈ latePair.members, ∀ q ∈ latePair.members,
      latePair.offset p.id - latePair.offset q.id ≤ 0 :=
    fun _ _ _ _ => show (0 : Int) - 0 ≤ 0 by decide
  exact ⟨_, hb, hA, hB, blame hlate hskew (by decide) hb (by decide) hA hB⟩

end World

end ResilientCtp
