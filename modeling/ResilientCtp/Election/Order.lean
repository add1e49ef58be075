import ResilientCtp.Election.LostReads
import ResilientCtp.Model.Compose
import Mathlib.Data.List.Nodup

/-!
# The priority order between two control planes

The election of a control plane compares its `identity.priority` with the priorities of the other
members. Admission makes the priorities of one member list distinct, and says nothing about
`identity`: a spec whose identity disagrees with its member entry is admitted.

* `Reads`: the peer records of a run, one for each member of the list, with its id and priority.
* `OrderOk`: what two specs need of each other: each has the other on one side, on opposite
  sides, and two leaders that see each other both step down.
* `orderOk_iff`: two specs have it if and only if one ranks above the other in both of them
  (`RanksAbove`); `ranksAbove_of_consistent`: always so where the ids are distinct and each
  identity has the priority of its member entry.
* `mutual_block`: two admitted specs, each with the other above it.
-/

namespace ResilientCtp

open Py Heartbeat

namespace Election

/-- `peers` has one record for each of `members`, with its id and priority. -/
def Reads (members : List Member) (peers : List PeerLiveness) : Prop :=
  peers.map (fun p => (p.cpId, p.priority)) = members.map fun m => (m.id, m.priority)

theorem reads_map {f : Member → PeerLiveness} (members : List Member)
    (hf : ∀ m, (f m).cpId = m.id ∧ (f m).priority = m.priority) :
    Reads members (members.map f) := by
  simp [Reads, hf]

/-- The peers that a run in `mr` mode decides on: one record for each other member. -/
theorem reads_readPeers {env : Env} {spec : Spec} {observed : Dict} {peers : List PeerLiveness}
    (hmode : spec.readMode ≠ "directApi") (h : readPeers env spec observed = .ok peers) :
    Reads spec.peerMembers peers := by
  unfold readPeers at h
  rw [if_neg hmode] at h
  have hall := mapM_ok_iff.mp h
  generalize spec.peerMembers = members at hall
  clear h
  induction hall with
  | nil => rfl
  | cons hq _ ih =>
    unfold readPeer at hq
    obtain ⟨_, -, hq⟩ := bind_ok hq
    obtain ⟨_, -, hq⟩ := bind_ok hq
    obtain ⟨_, -, hq⟩ := bind_ok hq
    obtain ⟨_, -, hq⟩ := bind_ok hq
    cases hq
    simp only [Reads, List.map_cons] at ih ⊢
    rw [ih]
    rfl

theorem Reads.exists_peer {members : List Member} {peers : List PeerLiveness}
    (h : Reads members peers) {m : Member} (hm : m ∈ members) :
    ∃ p ∈ peers, p.cpId = m.id ∧ p.priority = m.priority := by
  have : (m.id, m.priority) ∈ peers.map fun p => (p.cpId, p.priority) := by
    rw [h]; exact List.mem_map.mpr ⟨m, hm, rfl⟩
  obtain ⟨p, hp, e⟩ := List.mem_map.mp this
  exact ⟨p, hp, congrArg Prod.fst e, congrArg Prod.snd e⟩

theorem Reads.exists_member {members : List Member} {peers : List PeerLiveness}
    (h : Reads members peers) {p : PeerLiveness} (hp : p ∈ peers) :
    ∃ m ∈ members, m.id = p.cpId ∧ m.priority = p.priority := by
  have : (p.cpId, p.priority) ∈ members.map fun m => (m.id, m.priority) := by
    rw [← h]; exact List.mem_map.mpr ⟨p, hp, rfl⟩
  obtain ⟨m, hm, e⟩ := List.mem_map.mp this
  exact ⟨m, hm, congrArg Prod.fst e, congrArg Prod.snd e⟩

/-! ## The two sides of a partition -/

/-- `decide` puts the control plane `id` in `higher`. -/
def InHigher (identity : Identity) (peers : List PeerLiveness) (id : String) : Prop :=
  ∃ p ∈ higher identity peers, p.cpId = id

/-- `decide` puts the control plane `id` in `lower`. -/
def InLower (identity : Identity) (peers : List PeerLiveness) (id : String) : Prop :=
  ∃ p ∈ lower identity peers, p.cpId = id

/-- An entry of `id` in the member list has a priority that satisfies `P`. -/
def HasEntry (members : List Member) (id : String) (P : Int → Prop) : Prop :=
  ∃ m ∈ members, m.id = id ∧ P m.priority

/-- The records of `id` are read from its entries. -/
theorem exists_record_iff {spec : Spec} {peers : List PeerLiveness}
    (h : Reads spec.peerMembers peers) {id : String} (hne : id ≠ spec.identity.id)
    (P : Int → Prop) :
    (∃ p ∈ peers, P p.priority ∧ p.cpId = id) ↔ HasEntry spec.members id P := by
  constructor
  · rintro ⟨p, hp, hP, e⟩
    obtain ⟨m, hm, hid, hpr⟩ := h.exists_member hp
    exact ⟨m, (List.mem_filter.mp hm).1, hid.trans e, by rw [hpr]; exact hP⟩
  · rintro ⟨m, hm, hid, hP⟩
    have : m ∈ spec.peerMembers := List.mem_filter.mpr ⟨hm, by simpa [hid] using hne⟩
    obtain ⟨p, hp, e, hpr⟩ := h.exists_peer this
    exact ⟨p, hp, by rw [hpr]; exact hP, e.trans hid⟩

/-- A peer's side depends on the member list and on the own priority alone. -/
theorem inHigher_iff {spec : Spec} {peers : List PeerLiveness} (h : Reads spec.peerMembers peers)
    {id : String} (hne : id ≠ spec.identity.id) :
    InHigher spec.identity peers id ↔ HasEntry spec.members id (· < spec.identity.priority) := by
  rw [← exists_record_iff h hne]
  simp only [InHigher, higher, List.mem_filter, decide_eq_true_eq, and_assoc]

theorem inLower_iff {spec : Spec} {peers : List PeerLiveness} (h : Reads spec.peerMembers peers)
    {id : String} (hne : id ≠ spec.identity.id) :
    InLower spec.identity peers id ↔ HasEntry spec.members id (spec.identity.priority < ·) := by
  rw [← exists_record_iff h hne]
  simp only [InLower, lower, List.mem_filter, decide_eq_true_eq, gt_iff_lt, and_assoc]

/-- Every record of `id` is readable, fresh and a leader. -/
def SeesLeader (peers : List PeerLiveness) (id : String) : Prop :=
  ∀ p ∈ peers, p.cpId = id → p.readable = true ∧ p.fresh = true ∧ p.role = "leader"

/-- A control plane with a leader on either side decides standby. -/
theorem standby_of_seesLeader {identity : Identity} {gslb : GslbSignal} {strategy isoNow : String}
    {peers : List PeerLiveness} {priorStatus : Dict} {hysteresis throttle now : Int} {d : Decision}
    {id : String} (hs : SeesLeader peers id)
    (hside : InHigher identity peers id ∨ InLower identity peers id)
    (hd : Election.decide identity gslb peers priorStatus hysteresis throttle now strategy isoNow =
      .ok d) : d.role = .standby := by
  rw [Role.eq_standby]
  intro hl
  obtain ⟨cand, hc, -⟩ := decide_cases hd
  have hclear := ((decide_leader hd hc).mp hl).1
  obtain ⟨p, hp, hne, hid⟩ : ∃ p ∈ peers, p.priority ≠ identity.priority ∧ p.cpId = id := by
    rcases hside with ⟨p, hp, hid⟩ | ⟨p, hp, hid⟩
    · obtain ⟨hm, hlt⟩ := List.mem_filter.mp hp
      exact ⟨p, hm, Int.ne_of_lt (of_decide_eq_true hlt), hid⟩
    · obtain ⟨hm, hgt⟩ := List.mem_filter.mp hp
      exact ⟨p, hm, Int.ne_of_gt (of_decide_eq_true hgt), hid⟩
  obtain ⟨hr, hf, hle⟩ := hs p hp hid
  rw [hclear.not_fresh_leader hp hne hr hle] at hf
  cases hf

/-! ## The order of two specs -/

/-- What the elections of two control planes need of their specs. -/
structure OrderOk (x y : Spec) : Prop where
  /-- Opposite sides. -/
  sides : ∀ px py, Reads x.peerMembers px → Reads y.peerMembers py →
    ((InHigher x.identity px y.identity.id ↔ InLower y.identity py x.identity.id) ∧
      (InLower x.identity px y.identity.id ↔ InHigher y.identity py x.identity.id))
  /-- Never in neither list. -/
  total : ∀ px py, Reads x.peerMembers px → Reads y.peerMembers py →
    ((InHigher x.identity px y.identity.id ∨ InLower x.identity px y.identity.id) ∧
      (InHigher y.identity py x.identity.id ∨ InLower y.identity py x.identity.id))
  /-- Never each above the other. -/
  antisymm : ∀ px py, Reads x.peerMembers px → Reads y.peerMembers py →
    ¬ (InHigher x.identity px y.identity.id ∧ InHigher y.identity py x.identity.id)
  /-- Two leaders that see each other both step down. -/
  stepDown : ∀ px py, Reads x.peerMembers px → Reads y.peerMembers py →
    SeesLeader px y.identity.id → SeesLeader py x.identity.id →
    ∀ gx gy sx sy stx sty hx hy tx ty nx ny ix iy dx dy,
      Election.decide x.identity gx px stx hx tx nx sx ix = .ok dx →
      Election.decide y.identity gy py sty hy ty ny sy iy = .ok dy →
      dx.role = .standby ∧ dy.role = .standby

/-- `x` ranks above `y` in both specs: its entries are not below `y`, one of them above, and
`y`'s entries are not above `x`, one of them below. -/
structure RanksAbove (x y : Spec) : Prop where
  above : ∀ m ∈ y.members, m.id = x.identity.id → m.priority ≤ y.identity.priority
  someAbove : HasEntry y.members x.identity.id (· < y.identity.priority)
  below : ∀ m ∈ x.members, m.id = y.identity.id → x.identity.priority ≤ m.priority
  someBelow : HasEntry x.members y.identity.id (x.identity.priority < ·)

theorem RanksAbove.noneBelow {x y : Spec} (h : RanksAbove x y) :
    ¬ HasEntry y.members x.identity.id (y.identity.priority < ·) := by
  rintro ⟨m, hm, hid, hlt⟩
  exact Int.not_lt.mpr (h.above m hm hid) hlt

theorem RanksAbove.noneAbove {x y : Spec} (h : RanksAbove x y) :
    ¬ HasEntry x.members y.identity.id (· < x.identity.priority) := by
  rintro ⟨m, hm, hid, hlt⟩
  exact Int.not_lt.mpr (h.below m hm hid) hlt

variable {x y : Spec}

theorem RanksAbove.orderOk (hne : x.identity.id ≠ y.identity.id) (h : RanksAbove x y) :
    OrderOk x y := by
  have key : ∀ px py, Reads x.peerMembers px → Reads y.peerMembers py →
      ¬ InHigher x.identity px y.identity.id ∧ InLower x.identity px y.identity.id ∧
        InHigher y.identity py x.identity.id ∧ ¬ InLower y.identity py x.identity.id := by
    intro px py hx hy
    rw [inHigher_iff hx hne.symm, inLower_iff hx hne.symm, inHigher_iff hy hne, inLower_iff hy hne]
    exact ⟨h.noneAbove, h.someBelow, h.someAbove, h.noneBelow⟩
  refine ⟨fun px py hx hy => ?_, fun px py hx hy => ?_, fun px py hx hy => ?_,
    fun px py hx hy hsx hsy gx gy sx sy stx sty hx' hy' tx ty nx ny ix iy dx dy hdx hdy => ?_⟩ <;>
    obtain ⟨h1, h2, h3, h4⟩ := key px py hx hy
  · exact ⟨iff_of_false h1 h4, iff_of_true h2 h3⟩
  · exact ⟨.inr h2, .inl h3⟩
  · exact fun e => h1 e.1
  · exact ⟨standby_of_seesLeader hsx (.inr h2) hdx, standby_of_seesLeader hsy (.inl h3) hdy⟩

theorem OrderOk.symm (h : OrderOk x y) : OrderOk y x where
  sides px py hx hy := ⟨(h.sides py px hy hx).2.symm, (h.sides py px hy hx).1.symm⟩
  total px py hx hy := (h.total py px hy hx).symm
  antisymm px py hx hy e := h.antisymm py px hy hx e.symm
  stepDown px py hx hy hsx hsy gx gy sx sy stx sty hx' hy' tx ty nx ny ix iy dx dy hdx hdy :=
    (h.stepDown py px hy hx hsy hsx gy gx sy sx sty stx hy' hx' ty tx ny nx iy ix dy dx hdy
      hdx).symm

/-- **The order of two specs.** Two control planes with one member list order each other if and
only if one ranks above the other in both of their specs. -/
theorem orderOk_iff (x y : Spec) (hne : x.identity.id ≠ y.identity.id) :
    OrderOk x y ↔ RanksAbove x y ∨ RanksAbove y x := by
  constructor
  · intro h
    have hx := @reads_map unreadablePeer x.peerMembers fun _ => ⟨rfl, rfl⟩
    have hy := @reads_map unreadablePeer y.peerMembers fun _ => ⟨rfl, rfl⟩
    have hs := h.sides _ _ hx hy
    have ht := h.total _ _ hx hy
    have ha := h.antisymm _ _ hx hy
    rw [inHigher_iff hx hne.symm, inLower_iff hx hne.symm, inHigher_iff hy hne,
      inLower_iff hy hne] at hs ht
    rw [inHigher_iff hx hne.symm, inHigher_iff hy hne] at ha
    -- an entry on the wrong side would put both control planes on one side
    have hnot : ∀ {ms : List Member} {id : String} {P : Int → Prop}, ¬ HasEntry ms id P →
        ∀ m ∈ ms, m.id = id → ¬ P m.priority := fun hn m hm hid hp => hn ⟨m, hm, hid, hp⟩
    by_cases hh : HasEntry x.members y.identity.id (· < x.identity.priority)
    · right
      have hyl := hs.1.mp hh
      have hyh : ¬ HasEntry y.members x.identity.id (· < y.identity.priority) :=
        fun e => ha ⟨hh, e⟩
      have hxl : ¬ HasEntry x.members y.identity.id (x.identity.priority < ·) :=
        fun e => hyh (hs.2.mp e)
      exact ⟨fun m hm hid => Int.not_lt.mp (hnot hxl m hm hid), hh,
        fun m hm hid => Int.not_lt.mp (hnot hyh m hm hid), hyl⟩
    · left
      have hxl := ht.1.resolve_left hh
      have hyl : ¬ HasEntry y.members x.identity.id (y.identity.priority < ·) :=
        fun e => hh (hs.1.mpr e)
      exact ⟨fun m hm hid => Int.not_lt.mp (hnot hyl m hm hid), hs.2.mp hxl,
        fun m hm hid => Int.not_lt.mp (hnot hh m hm hid), hxl⟩
  · rintro (h | h)
    · exact h.orderOk hne
    · exact (h.orderOk hne.symm).symm

/-- What admission leaves out: the ids of the list are distinct, and the identity has the priority
of its member entry. -/
structure Consistent (spec : Spec) : Prop where
  ids : (spec.members.map (·.id)).Nodup
  entry : ∃ m ∈ spec.members, m.id = spec.identity.id ∧ m.priority = spec.identity.priority

theorem Consistent.priority_eq {spec : Spec} (h : Consistent spec) {m : Member}
    (hm : m ∈ spec.members) (hid : m.id = spec.identity.id) :
    m.priority = spec.identity.priority := by
  obtain ⟨e, he, heid, hep⟩ := h.entry
  rw [List.inj_on_of_nodup_map h.ids hm he (hid.trans heid.symm), hep]

/-- Two consistent specs with one admitted member list order each other. -/
theorem ranksAbove_of_consistent (hx : Consistent x) (hy : Consistent y)
    (hp : DistinctPriorities x.members) (hms : x.members = y.members)
    (hne : x.identity.id ≠ y.identity.id) : RanksAbove x y ∨ RanksAbove y x := by
  obtain ⟨mx, hmx, hxid, hxp⟩ := hx.entry
  obtain ⟨my, hmy, hyid, hyp⟩ := hy.entry
  have hmy' : my ∈ x.members := hms ▸ hmy
  have hdiff : x.identity.priority ≠ y.identity.priority := fun e =>
    hne (by rw [← hxid, ← hyid, hp.eq_of_priority hmy' hmx (by rw [hxp, hyp, e])])
  have hxe : ∀ m ∈ x.members, m.id = x.identity.id → m.priority = x.identity.priority :=
    fun m hm hid => hx.priority_eq hm hid
  have hye : ∀ m ∈ x.members, m.id = y.identity.id → m.priority = y.identity.priority :=
    fun m hm hid => hy.priority_eq (hms ▸ hm) hid
  rcases Int.lt_or_gt_of_ne hdiff with hlt | hgt
  · left
    refine ⟨fun m hm hid => ?_, ⟨mx, hms ▸ hmx, hxid, ?_⟩, fun m hm hid => ?_,
      ⟨my, hmy', hyid, ?_⟩⟩
    · rw [hxe m (hms ▸ hm) hid]; omega
    · show mx.priority < y.identity.priority
      omega
    · rw [hye m hm hid]; omega
    · show x.identity.priority < my.priority
      omega
  · right
    refine ⟨fun m hm hid => ?_, ⟨my, hmy', hyid, ?_⟩, fun m hm hid => ?_,
      ⟨mx, hms ▸ hmx, hxid, ?_⟩⟩
    · rw [hye m hm hid]; omega
    · show my.priority < x.identity.priority
      omega
    · rw [hxe m (hms ▸ hm) hid]; omega
    · show y.identity.priority < mx.priority
      omega

/-- The two members of the tests order each other. -/
theorem orderOk_members :
    OrderOk (sampleSpec memberA.toIdentity [memberA, memberB])
        (sampleSpec memberB.toIdentity [memberA, memberB]) ↔
      RanksAbove (sampleSpec memberA.toIdentity [memberA, memberB])
          (sampleSpec memberB.toIdentity [memberA, memberB]) ∨
        RanksAbove (sampleSpec memberB.toIdentity [memberA, memberB])
          (sampleSpec memberA.toIdentity [memberA, memberB]) :=
  orderOk_iff _ _ (by decide)

/-- `memberA` with the priority of its identity past `memberB`'s. -/
def misrankedA : Identity := { memberA.toIdentity with priority := 5 }

/-- Two admitted specs with one member list: each control plane has the other above it. -/
theorem mutual_block :
    let x := sampleSpec misrankedA [memberA, memberB]
    let y := sampleSpec memberB.toIdentity [memberA, memberB]
    x.Admitted ∧ y.Admitted ∧ x.members = y.members ∧ x.identity.id ≠ y.identity.id ∧
      (∃ m ∈ x.members, m.id = x.identity.id) ∧ (∃ m ∈ x.members, m.id = y.identity.id) ∧
      ¬ OrderOk x y := by
  have hm : ∀ m ∈ [memberA, memberB], m.toIdentity.Admitted := by
    intro m hm
    rcases List.mem_cons.mp hm with rfl | hm
    · exact ⟨by decide, by decide⟩
    · rw [List.mem_singleton.mp hm]; exact ⟨by decide, by decide⟩
  refine ⟨sampleSpec_admitted ⟨by decide, by decide⟩ hm (by decide) (by decide) (by decide),
    sampleSpec_admitted ⟨by decide, by decide⟩ hm (by decide) (by decide) (by decide), rfl,
    by decide, ⟨memberA, by decide, rfl⟩, ⟨memberB, by decide, rfl⟩, fun h => ?_⟩
  refine h.antisymm [unreadablePeer memberB] [unreadablePeer memberA] rfl rfl ⟨?_, ?_⟩
  · exact ⟨unreadablePeer memberB, by decide, rfl⟩
  · exact ⟨unreadablePeer memberA, by decide, rfl⟩

end Election

end ResilientCtp
