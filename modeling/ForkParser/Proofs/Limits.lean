import ForkParser.Proofs.Growth

/-!
# ForkParser.Proofs.Limits

Raising the limits of a search.

The limits say when a search stops and have no part in what its rounds do.  So a
search under greater limits plays the rounds of a search under lower ones and goes on
from where that one stopped (`Search.exists_run_eq_run`).  What was accepted by then
stays in front of what is accepted later, and a search that came to its end by itself
(`Parser.Settles`) has nothing to go on with.
-/

namespace ForkParser

namespace Search

variable {p p' : Parser} {input : Array Token} {s : Search}

/-- What is over under greater limits is over under lower ones. -/
theorem isOver_of_le {settings settings' : Settings}
    (hbranches : settings.maxBranches ≤ settings'.maxBranches)
    (h : s.isOver settings' = true) : s.isOver settings = true := by
  simp only [isOver, Bool.or_eq_true, decide_eq_true_eq] at h ⊢
  exact h.imp_right (Nat.lt_of_le_of_lt hbranches)

/-- Nothing is played with no active branch. -/
theorem run_of_inactive (h : s.active = []) (left : Nat) : s.run p input left = s := by
  cases left with
  | zero => rfl
  | succ left => simp [run, isOver, h]

/-- What was accepted before stays, in front of what a search accepts. -/
theorem accepted_prefix_run (left : Nat) :
    s.accepted <+: (s.run p input left).accepted := by
  obtain ⟨n, -, hrun, -⟩ := run_eq_after p input left s
  have hgrows : s.accepted <+: (after p input (0 + n) s).accepted := accepted_prefix 0 n s
  rw [Nat.zero_add] at hgrows
  rw [hrun]
  exact hgrows

/-- A search under greater limits goes on from where a search under lower ones
stops. -/
theorem exists_run_eq_run (hstep : ∀ b, p.step b input = p'.step b input)
    (hbranches : p.settings.maxBranches ≤ p'.settings.maxBranches) {left left' : Nat}
    (hleft : left ≤ left') (s : Search) :
    ∃ more, s.run p' input left' = (s.run p input left).run p' input more := by
  have hadvance : ∀ s : Search, s.advance p input = s.advance p' input := by
    intro s
    simp only [advance, successors, hstep]
  induction left generalizing left' s with
  | zero => exact ⟨left', rfl⟩
  | succ left ih =>
      obtain ⟨left', rfl⟩ : ∃ n, left' = n + 1 := ⟨left' - 1, by omega⟩
      by_cases hover : s.isOver p.settings = true
      · exact ⟨left' + 1, by simp [run, hover]⟩
      · -- neither is over, so both play the same round
        have hgoing : ¬ s.isOver p'.settings = true := mt (isOver_of_le hbranches) hover
        rw [run, if_neg hgoing, run, if_neg hover, hadvance]
        exact ih (by omega) _

end Search

namespace Parser

/-- No limit stops the search over the tokens: it ends with no active branch. -/
def Settles (p : Parser) (tokens : List Token) : Prop :=
  ∃ s, p.search (inputOf tokens) = .ok s ∧ s.limit? p.settings = none

/-- Over one input, the search under greater limits goes on from the end of the search
under lower ones. -/
theorem exists_search_eq_run {table : Table} {limits limits' : Settings}
    (hbranches : limits.maxBranches ≤ limits'.maxBranches)
    (hsteps : limits.maxSteps ≤ limits'.maxSteps) {input : Array Token} {s s' : Search}
    (hs : (withLimits table limits).search input = .ok s)
    (hs' : (withLimits table limits').search input = .ok s') :
    ∃ more, s' = s.run (withLimits table limits') input more := by
  obtain ⟨token, htoken, -⟩ := search_eq_after hs
  rw [search, seed_eq_ok htoken] at hs hs'
  obtain rfl := Except.ok.inj hs
  obtain rfl := Except.ok.inj hs'
  have hstep : ∀ b, (withLimits table limits).step b input =
      (withLimits table limits').step b input := fun _ => rfl
  exact Search.exists_run_eq_run hstep hbranches hsteps _

/-- **Limits only cut the tail.**  If a parser returns a forest, then under greater limits
it returns a forest that begins with the same trees; and where no limit stopped its
search, greater limits change nothing about its result. -/
theorem parse_of_raised_limits (table : Table) {limits limits' : Settings}
    (hbranches : limits.maxBranches ≤ limits'.maxBranches)
    (hsteps : limits.maxSteps ≤ limits'.maxSteps) {tokens : List Token} (hne : tokens ≠ [])
    (hleaf : ∀ t ∈ tokens, t.isLeaf = true) :
    (∀ forest, (withLimits table limits).parse tokens = .ok forest →
      ∃ forest', (withLimits table limits').parse tokens = .ok forest' ∧
        forest.trees <+: forest'.trees) ∧
    ((withLimits table limits).Settles tokens →
      (withLimits table limits').parse tokens = (withLimits table limits).parse tokens) := by
  obtain ⟨s, hs⟩ := exists_search (p := withLimits table limits) hne
  obtain ⟨s', hs'⟩ := exists_search (p := withLimits table limits') hne
  obtain ⟨more, hmore⟩ := exists_search_eq_run hbranches hsteps hs hs'
  rw [parse_eq hne hleaf hs, parse_eq hne hleaf hs']
  constructor
  · intro forest hforest
    obtain ⟨rest, hrest⟩ : s.accepted <+: s'.accepted := hmore ▸ Search.accepted_prefix_run more
    split at hforest
    · contradiction
    · next hsome =>
        obtain rfl := Except.ok.inj hforest
        have hsome' : s'.accepted ≠ [] := by
          rw [← hrest]
          exact List.append_ne_nil_of_left_ne_nil hsome rest
        rw [if_neg hsome']
        refine ⟨_, rfl, ?_⟩
        rw [← hrest, List.flatMap_append]
        exact List.prefix_append _ _
  · rintro ⟨settled, hsettled, hlimit⟩
    obtain rfl := Except.ok.inj (hs.symm.trans hsettled)
    have hinactive := Search.active_eq_nil_of_limit? _ hlimit
    obtain rfl : s' = s := hmore.trans (Search.run_of_inactive hinactive more)
    -- with no active branch, the failure does not depend on the limits
    simp [Search.failure, Search.limit?, hinactive]

/-- Two symbols that stand for each other, so that a word is read in ever more ways. -/
def laps : Grammar where
  settings := { start := ⟨"s"⟩ }
  symbols := .ofList [⟨"s"⟩, ⟨"a"⟩, ⟨"b"⟩, ⟨"X"⟩, ⟨"EOF"⟩]
  productions :=
    [⟨⟨"s"⟩, [⟨"a"⟩, ⟨"EOF"⟩]⟩, ⟨⟨"a"⟩, [⟨"b"⟩]⟩, ⟨⟨"b"⟩, [⟨"a"⟩]⟩, ⟨⟨"a"⟩, [⟨"X"⟩]⟩]
  faultless := by decide +kernel

/-- The source `x`. -/
def lapsSource : List Lexeme := [⟨⟨"X"⟩, "x", 0⟩]

/-- Each lap takes two rounds more and accepts once more, after what was accepted
before; an end of input alone fails at once, however many rounds there may be. -/
theorem parse_of_raised_limits_laps :
    ∃ table forest forest', laps.table = .ok table ∧
      (withLimits table { maxSteps := 3 }).parse (stream lapsSource ⟨"EOF"⟩) = .ok forest ∧
      (withLimits table { maxSteps := 5 }).parse (stream lapsSource ⟨"EOF"⟩) = .ok forest' ∧
      forest.trees.length = 1 ∧ forest'.trees.length = 2 ∧ forest.trees <+: forest'.trees ∧
      (withLimits table { maxSteps := 3 }).Settles (stream [] ⟨"EOF"⟩) ∧
      (withLimits table { maxSteps := 5 }).parse (stream [] ⟨"EOF"⟩) =
        (withLimits table { maxSteps := 3 }).parse (stream [] ⟨"EOF"⟩) := by
  have hg : laps.table = .ok ⟨laps.settings, laps.productions, laps.buckets⟩ := rfl
  obtain ⟨forest, hforest, hone⟩ : ∃ forest,
      (withLimits ⟨laps.settings, laps.productions, laps.buckets⟩ { maxSteps := 3 }).parse
        (stream lapsSource ⟨"EOF"⟩) = .ok forest ∧ forest.trees.length = 1 := ⟨_, rfl, rfl⟩
  obtain ⟨forest', hforest', htwo⟩ : ∃ forest',
      (withLimits ⟨laps.settings, laps.productions, laps.buckets⟩ { maxSteps := 5 }).parse
        (stream lapsSource ⟨"EOF"⟩) = .ok forest' ∧ forest'.trees.length = 2 := ⟨_, rfl, rfl⟩
  have hsettles : (withLimits ⟨laps.settings, laps.productions, laps.buckets⟩
      { maxSteps := 3 }).Settles (stream [] ⟨"EOF"⟩) := ⟨_, rfl, rfl⟩
  have hbranches : ({ maxSteps := 3 } : Settings).maxBranches ≤
      ({ maxSteps := 5 } : Settings).maxBranches := by decide
  have hsteps : ({ maxSteps := 3 } : Settings).maxSteps ≤
      ({ maxSteps := 5 } : Settings).maxSteps := by decide
  have hraised (lexemes : List Lexeme) :=
    parse_of_raised_limits ⟨laps.settings, laps.productions, laps.buckets⟩ hbranches hsteps
      (stream_ne_nil lexemes ⟨"EOF"⟩) (isLeaf_stream lexemes ⟨"EOF"⟩)
  obtain ⟨forest'', hforest'', hbegins⟩ := (hraised lapsSource).1 forest hforest
  obtain rfl := Except.ok.inj (hforest''.symm.trans hforest')
  exact ⟨_, forest, forest'', hg, hforest, hforest', hone, htwo, hbegins, hsettles,
    (hraised []).2 hsettles⟩

end Parser

end ForkParser
