import ResilientCtp.Run.Solo

/-!
# The hysteresis over a run

The timer lives in the published status. `Held` is what it stands for: a running timer carries the
clock of an earlier round, and nothing interrupted the candidacy since. Every round keeps it
(`held_step`), so a round that leads past a higher-priority peer is always preceded by a whole
window of clear rounds (`hysteresis_served`).
-/

namespace ResilientCtp

open Py Election

namespace Solo

variable {s : Settings} {identity : Identity} {rs later earlier : List Round} {r n : Round}

/-- The rounds from the newest of `rs` back to `i`, the first of the candidacy, are clear. -/
structure Candidacy (identity : Identity) (rs mid : List Round) (i : Round)
    (rest : List Round) : Prop where
  split : rs = mid ++ i :: rest
  clear : ∀ r ∈ mid ++ [i], r.Clear identity

/-- A running timer stands for a candidacy. -/
def Held (identity : Identity) (rs : List Round) : Prop :=
  0 < pending rs → ∃ mid i rest, Candidacy identity rs mid i rest ∧ pending rs = i.now

theorem Candidacy.cons {mid rest : List Round} {i : Round} (h : Candidacy identity rs mid i rest)
    (hr : r.Clear identity) : Candidacy identity (r :: rs) (r :: mid) i rest where
  split := by rw [h.split, List.cons_append]
  clear := by
    intro x hx
    rcases List.mem_cons.mp hx with rfl | hx
    · exact hr
    · exact h.clear x hx

theorem held_step (hrs : (run s identity).Reach rs) (ih : Held identity rs)
    (h : Next s identity rs r) : Held identity (r :: rs) := by
  intro hpos
  rcases h.cases hrs with ⟨-, -, -, h0⟩ | ⟨hc, -, -, ht⟩ | ⟨-, -, h0⟩
  · exact absurd h0 (Int.ne_of_gt hpos)
  · by_cases h0 : pending rs ≤ 0
    · -- the candidacy starts here
      rw [if_pos h0] at ht
      exact ⟨[], r, rs, ⟨rfl, by simpa using hc⟩, ht⟩
    · rw [if_neg h0] at ht
      obtain ⟨mid, i, rest, hcand, hi⟩ := ih (by omega)
      exact ⟨r :: mid, i, rest, hcand.cons hc, ht.trans hi⟩
  · exact absurd h0 (Int.ne_of_gt hpos)

theorem held_inductive (s : Settings) (identity : Identity) :
    (run s identity).Inductive (Held identity) where
  init rs hi := by
    cases hi
    intro hpos
    cases hpos
  step := by
    rintro rs r - hrs ih ⟨hn, rfl⟩
    exact held_step hrs ih hn

/-- **Hysteresis.** A round that leads past a higher-priority peer, also one after a round that led,
has an earlier round a whole window before it, and every round between the two was clear. -/
theorem hysteresis_served (h : (run s identity).Reach (later ++ n :: earlier)) (hl : n.Leads)
    (hh : n.HasHigher identity) :
    ∃ mid i rest, earlier = mid ++ i :: rest ∧ window s ≤ n.now - i.now ∧
      ∀ r ∈ n :: mid ++ [i], r.Clear identity := by
  obtain ⟨hrs, hn⟩ := next_of_reach_run (reach_suffix_run h)
  obtain ⟨hclear, hserved⟩ := (hn.leads_iff hrs).mp hl
  rcases hserved with hno | ⟨hpos, hw⟩
  · exact absurd hh hno
  · obtain ⟨mid, i, rest, hcand, hi⟩ := (held_inductive s identity).reach hrs hpos
    refine ⟨mid, i, rest, hcand.split, by rw [← hi]; exact hw, ?_⟩
    intro x hx
    rcases List.mem_cons.mp hx with rfl | hx
    · exact hclear
    · exact hcand.clear x hx

/-! ## A run -/

/-- The control plane `cp-a`, seen as down. -/
def downA : PeerLiveness := ⟨"cp-a", 1, "us", 0, unknownAge, false, true, ""⟩

theorem downA_down : ∀ p ∈ [downA], p.readable = true ∧ p.fresh = false := by decide

/-- The control plane `cp-b`, whose only peer is down, starts its timer at 1 and leads at `now`. -/
theorem exists_promotion {now : Int} (hnow : 181 ≤ now) : ∃ n i : Round,
    (run Settings.default memberB.toIdentity).Reach [n, i] ∧
      n.inp = quiet "failover" [downA] [i] [] now ∧ i.inp = quiet "failover" [downA] [] [] 1 ∧
      n.Leads ∧ ¬ i.Leads ∧ i.timer = 1 := by
  have hnil : (run Settings.default memberB.toIdentity).Reach [] := .init rfl
  obtain ⟨i, hi, ei⟩ := exists_next hnil (.inl rfl) (quiet "failover" [downA] [] [] 1)
    (by decide) (by simp) rfl
  have hi1 : (run Settings.default memberB.toIdentity).Reach [i] := .step hnil ⟨hi, rfl⟩
  obtain ⟨hil, hit⟩ := hi.first (clear_of_quiet ei downA_down)
    ⟨downA, by rw [ei]; exact List.mem_singleton_self _, by decide⟩
  have h1 : i.now = 1 := by rw [Round.now, ei]; rfl
  obtain ⟨n, hn, en⟩ := exists_next hi1 (.inl rfl) (quiet "failover" [downA] [i] [] now)
    (show 0 < now by omega) (fun p hp => by cases hp; rw [h1]; show 1 ≤ now; omega) rfl
  have hn1 : n.now = now := by rw [Round.now, en]; rfl
  have hp : pending [i] = 1 := hit.trans h1
  refine ⟨n, i, .step hi1 ⟨hn, rfl⟩, en, ei, ?_, hil, hp⟩
  refine hn.leads_of_timer hi1 (clear_of_quiet en downA_down) (by rw [hp]; decide) ?_
  rw [hp, hn1]
  show (180 : Int) ≤ now - 1
  omega

theorem hysteresis_served_memberB : ∃ n i : Round,
    (run Settings.default memberB.toIdentity).Reach [n, i] ∧ n.Leads ∧
      ∃ mid j rest, [i] = mid ++ j :: rest ∧ window Settings.default ≤ n.now - j.now ∧
        ∀ r ∈ n :: mid ++ [j], r.Clear memberB.toIdentity := by
  obtain ⟨n, i, hr, en, -, hnl, -⟩ := @exists_promotion 181 (by decide)
  refine ⟨n, i, hr, hnl, @hysteresis_served _ _ [] _ _ hr hnl ?_⟩
  exact ⟨downA, by rw [en]; exact List.mem_singleton_self _, by decide⟩

end Solo

end ResilientCtp
