import ForkParser.Proofs.Choice
import ForkParser.Proofs.Identity

/-!
# ForkParser.Proofs.Failure

The error that a search ends with.

A branch that fails does so at some place of the input, whatever the step was
(`Branch.pointsAt_of_mem_step`), and so does the deepest failure of a search
(`Parser.located_search`).  An error that points nowhere is therefore the limit that
stopped the search (`Search.failure_eq_iff`), and a parse returns it when nothing was
accepted before (`Parser.parse_eq_error_iff`).
-/

namespace ForkParser

/-! ## failed branches -/

namespace Branch

variable {p : Parser} {b b' : Branch} {input : Array Token}

/-- The error of the branch is about a place of the input, if it has failed. -/
def PointsAt (b : Branch) : Prop := ∀ e, b.error? = some e → e.AtPlace

theorem pointsAt_fail {e : Error} (he : e.AtPlace) : (b.fail e).PointsAt := by
  intro e' h
  obtain rfl : e = e' := by simpa [error?, fail] using h
  exact he

theorem pointsAt_of_isActive (h : b.isActive = true) : b.PointsAt := by
  intro e he
  rw [error?_of_isActive h] at he
  contradiction

/-- A move that fails does so at some place of the input. -/
theorem Effect.pointsAt {start : Symbol} {move : Move} (h : b.Effect start input move b')
    (hactive : b.isActive = true) : b'.PointsAt := by
  cases h with
  | taken => exact pointsAt_of_isActive hactive
  | exhausted => exact pointsAt_fail trivial
  | mismatched => exact pointsAt_fail trivial
  | reduced => exact pointsAt_of_isActive hactive
  | accepted => simp [PointsAt, error?]
  | refused => exact pointsAt_fail trivial

/-- Every error that a step ends with is about a place of the input. -/
theorem pointsAt_of_mem_step (hcommitted : b.stack.changes = []) (hactive : b.isActive = true)
    (h : b' ∈ p.step b input) : b'.PointsAt := by
  rcases Parser.step_cases p b input with ⟨-, e, he, hstep⟩ | ⟨-, hstep⟩
  · rw [hstep] at h
    obtain rfl := List.mem_singleton.1 h
    exact pointsAt_fail he
  · rw [hstep] at h
    obtain ⟨c, -, rfl⟩ := List.mem_map.1 h
    exact (Parser.effect_follow hcommitted c).pointsAt hactive

end Branch

/-! ## the deepest failure -/

namespace Search

/-- The failure is about a place of the input, if there is one. -/
def Located (deepest : Option Failure) : Prop := ∀ f, deepest = some f → f.error.AtPlace

theorem Located.deeper {deepest : Option Failure} (h : Located deepest) {b : Branch}
    (hb : b.PointsAt) : Located (deeper deepest b) := by
  cases hstatus : b.status with
  | active => simpa [Search.deeper, hstatus] using h
  | accepted => simpa [Search.deeper, hstatus] using h
  | failed e =>
      have he : e.AtPlace := hb e (by simp [Branch.error?, hstatus])
      cases deepest with
      | none => simpa [Search.deeper, hstatus, Located] using he
      | some f =>
          simp only [Search.deeper, hstatus]
          split
          · simpa [Located] using he
          · exact h

/-- Of failures about places of the input, the deepest one is. -/
theorem Located.foldl {branches : List Branch} (hbranches : ∀ b ∈ branches, b.PointsAt)
    {deepest : Option Failure} (h : Located deepest) :
    Located (branches.foldl Search.deeper deepest) := by
  induction branches generalizing deepest with
  | nil => exact h
  | cons b branches ih =>
      exact ih (fun x hx => hbranches x (by simp [hx])) (h.deeper (hbranches b (by simp)))

/-- A search that has accepted nothing ends with an error that points nowhere exactly when
that is the limit that stopped it. -/
theorem failure_eq_iff {s : Search} (settings : Settings) (hdeepest : Located s.deepest) {e : Error}
    (he : e.position = none) : s.failure settings = e ↔ s.limit? settings = some e := by
  rw [failure]
  cases s.limit? settings with
  | some limit => simp
  | none =>
      cases hs : s.deepest with
      | none =>
          have hne : e ≠ .noAccept 0 := by
            rintro rfl
            contradiction
          simpa using hne.symm
      | some f =>
          have hne : f.error ≠ e := by
            rintro rfl
            exact (hdeepest f hs).position_ne_none he
          simpa using hne

end Search

/-- Whatever fails in a search fails at some place of the input. -/
theorem Parser.located_search {p : Parser} {input : Array Token} {s : Search}
    (h : p.search input = .ok s) : Search.Located s.deepest := by
  obtain ⟨token, htoken, -, hs, -⟩ := search_eq_after h
  rw [hs]
  generalize s.rounds = n
  induction n with
  | zero => exact nofun
  | succ n ih =>
      refine ih.foldl fun b' hb' => ?_
      obtain ⟨b, hb, hstep⟩ := List.mem_flatMap.1 hb'
      obtain ⟨hreach, hactive⟩ := (Search.mem_active_opening htoken).1 hb
      exact Branch.pointsAt_of_mem_step hreach.accounted.committed hactive hstep

/-! ## the error of a parse -/

/-- Mapping a list fails with the error of one of its members. -/
theorem exists_of_mapM_eq_error {α β ε : Type} {f : α → Except ε β} {l : List α} {e : ε}
    (h : l.mapM f = .error e) : ∃ a ∈ l, f a = .error e := by
  induction l with
  | nil => contradiction
  | cons a l ih =>
      rw [List.mapM_cons] at h
      cases ha : f a with
      | error e' =>
          rw [ha] at h
          obtain rfl : e' = e := Except.error.inj h
          exact ⟨a, by simp, ha⟩
      | ok b =>
          cases hl : l.mapM f with
          | error e' =>
              rw [ha, hl] at h
              obtain rfl : e' = e := Except.error.inj h
              obtain ⟨x, hx, hfx⟩ := ih hl
              exact ⟨x, by simp [hx], hfx⟩
          | ok bs =>
              rw [ha, hl] at h
              contradiction

/-- A stack that does not turn into trees has a token that is reached twice. -/
theorem Branch.exists_cycle_of_trees {b : Branch} {e : Error} (h : b.trees = .error e) :
    ∃ symbol position, e = .cycle symbol position := by
  unfold trees at h
  split at h
  · contradiction
  · next e' hitems =>
      obtain rfl : e' = e := Except.error.inj h
      obtain ⟨t, -, ht⟩ := exists_of_mapM_eq_error hitems
      unfold Token.tree at ht
      split at ht
      · exact ⟨_, _, (Except.error.inj ht).symm⟩
      · contradiction

/-- A parse ends with an error that points nowhere exactly when nothing is accepted and
that is the limit that stopped the search. -/
theorem Parser.parse_eq_error_iff {p : Parser} {tokens : List Token} {s : Search}
    (hne : tokens ≠ []) (hs : p.search (inputOf tokens) = .ok s) {e : Error}
    (he : e.position = none) :
    p.parse tokens = .error e ↔ s.accepted = [] ∧ s.limit? p.settings = some e := by
  rw [parse, List.isEmpty_eq_false_iff.2 hne, if_neg Bool.false_ne_true, hs]
  by_cases hnone : s.accepted = []
  · simp [Search.outcome, hnone, Search.failure_eq_iff _ (located_search hs) he]
  · suffices hforest : s.forest ≠ .error e by simpa [Search.outcome, hnone] using hforest
    intro h
    unfold Search.forest at h
    split at h
    · contradiction
    · next e' htrees =>
        obtain rfl : e' = e := Except.error.inj h
        obtain ⟨b, -, hb⟩ := exists_of_mapM_eq_error htrees
        obtain ⟨symbol, position, rfl⟩ := Branch.exists_cycle_of_trees hb
        contradiction

end ForkParser
