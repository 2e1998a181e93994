import ForkParser.Symbol

/-!
# ForkParser.Settings

What a grammar and a search over it are told from outside: the two
distinguished symbols, and the limits of the search.
-/

namespace ForkParser

/-- The start symbol and the end-of-input symbol of a grammar, and the
greatest number of live branches and of rounds of a search. -/
structure Settings where
  start : Symbol := ⟨"start"⟩
  eof : Symbol := ⟨"EOF"⟩
  maxBranches : Nat := 1024
  maxSteps : Nat := 1000000
deriving DecidableEq, Inhabited

namespace Settings

/-- The same symbols under the limits of `limits`. -/
def withLimits (s limits : Settings) : Settings :=
  { s with maxBranches := limits.maxBranches, maxSteps := limits.maxSteps }

end Settings

end ForkParser
