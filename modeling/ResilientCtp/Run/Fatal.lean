import ResilientCtp.Reads.Total
import ResilientCtp.Run.Loop

/-!
# All rounds are fatal, or none is

On readings of the right type the loop of an XR either never raises or does nothing else, and the
providers of the set decide which (`fatal_all_or_none`): one member on a provider that the schema
admits, but that has no heartbeat resource, is enough. The rounds of such a loop raise after the
decision, so no status is ever published and each of them has the event of a transition.
-/

namespace ResilientCtp

open Py Election

namespace Loop

/-- The loops whose readings are of the right type. -/
def typed (spec : Spec) (ns : Option String) : Lts.System (List Round) Round :=
  (run spec ns).restrict fun _ r => Typed r.req ∧ Collects r.env.pool

variable {spec : Spec} {ns : Option String} {rs : List Round} {r : Round}

/-- The timer that a loop published is legible. -/
theorem timer_published (h : (run spec ns).Reach rs) :
    ∃ cand, priorCandidateSince (published rs) = .ok cand := by
  obtain ⟨ss, hss, -, hstatus⟩ := refines_solo h
  rw [hstatus]
  exact ⟨_, Solo.priorCandidateSince_persisted hss⟩

theorem Next.completes_iff (hrs : (run spec ns).Reach rs) (h : Next spec ns rs r)
    (ht : Typed r.req) (hp : Collects r.env.pool) : r.Completes ↔ Supported spec := by
  obtain ⟨cand, hc⟩ := timer_published hrs
  rw [← h.status] at hc
  rw [Loop.completes_iff, compose_returns_iff ht hp hc, h.spec]

/-- Where no status was published, a round that decides announces. -/
theorem Next.announces (hrs : (run spec ns).Reach rs) (h : Next spec ns rs r)
    (ht : Typed r.req) (hp : Collects r.env.pool) (hnone : published rs = []) : r.Announces := by
  obtain ⟨cand, hc⟩ := timer_published hrs
  rw [← h.status] at hc
  obtain ⟨v, hv⟩ := verdict_returns ht hp hc
  refine (announces_iff r).mpr ⟨v.decision.role, by rw [Round.role, hv], ?_⟩
  rw [h.status, hnone]
  cases v.decision.role <;> rfl

/-- **All or none.** Every round of a loop completes, where every provider of the set has a
heartbeat resource. Otherwise none does, no status is ever published, and every round announces a
role. -/
theorem fatal_all_or_none (h : (typed spec ns).Reach rs) :
    (Supported spec ∧ ∀ r ∈ rs, r.Completes) ∨
      (¬ Supported spec ∧ published rs = [] ∧ ∀ r ∈ rs, ¬ r.Completes ∧ r.Announces) := by
  induction rs with
  | nil =>
    by_cases hs : Supported spec
    · exact .inl ⟨hs, fun r hr => nomatch hr⟩
    · exact .inr ⟨hs, rfl, fun r hr => nomatch hr⟩
  | cons r rs ih =>
    obtain ⟨hrs, hn, ht, hp⟩ := next_of_reach h
    have hiff := hn.completes_iff hrs.of_restrict ht hp
    rcases ih hrs with ⟨hs, hall⟩ | ⟨hs, hnone, hall⟩
    · refine .inl ⟨hs, fun x hx => ?_⟩
      rcases List.mem_cons.mp hx with rfl | hx
      · exact hiff.mpr hs
      · exact hall x hx
    · have hfatal : ¬ r.Completes := fun hc => hs (hiff.mp hc)
      refine .inr ⟨hs, (published_of_fatal hfatal).trans hnone, fun x hx => ?_⟩
      rcases List.mem_cons.mp hx with rfl | hx
      · exact ⟨hfatal, hn.announces hrs.of_restrict ht hp hnone⟩
      · exact hall x hx

/-- `cp-a`, with a peer on a provider without a heartbeat resource. -/
def alibabaSpec : Spec :=
  sampleSpec memberA.toIdentity [memberA, { memberB with provider := "alibaba" }]

/-- The schema admits the peer, and both rounds of `cp-a` are fatal and announce its role. -/
theorem fatal_all_or_none_alibaba : ∃ r q : Round, (typed alibabaSpec none).Reach [r, q] ∧
    ∀ x ∈ [r, q], ¬ x.Completes ∧ x.Announces := by
  have hno : ¬ Supported alibabaSpec := by decide
  have htyped : ∀ now, Typed (aloneRound alibabaSpec now []).req ∧
      Collects (aloneRound alibabaSpec now []).env.pool := by
    intro now
    refine ⟨⟨.object (fun k s v _ h => nomatch h), fun name v h => nomatch h⟩, ?_⟩
    exact fun ms m hm => ⟨(m, .notDone), List.mem_map.mpr ⟨m, hm, rfl⟩, rfl⟩
  have h1 : (typed alibabaSpec none).Reach [aloneRound alibabaSpec 1 []] :=
    .step (.init rfl) ⟨⟨⟨rfl, rfl, rfl, by decide, by simp⟩, rfl⟩, htyped 1⟩
  have hnone : published [aloneRound alibabaSpec 1 []] = [] := by
    rcases fatal_all_or_none h1 with ⟨hs, -⟩ | ⟨-, hnone, -⟩
    · exact absurd hs hno
    · exact hnone
  have h2 : (typed alibabaSpec none).Reach
      [aloneRound alibabaSpec 2 [], aloneRound alibabaSpec 1 []] :=
    .step h1 ⟨⟨⟨rfl, rfl, hnone.symm, by decide, by simp [aloneRound]⟩, rfl⟩, htyped 2⟩
  refine ⟨_, _, h2, ?_⟩
  rcases fatal_all_or_none h2 with ⟨hs, -⟩ | ⟨-, -, hall⟩
  · exact absurd hs hno
  · exact hall

end Loop

end ResilientCtp
