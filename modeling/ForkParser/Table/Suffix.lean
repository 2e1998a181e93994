import ForkParser.Candidate

/-!
# ForkParser.Table.Suffix

The search for the shortest suffixes that tell candidates apart.

The candidates of one symbol are first parted by their lookaheads.  Within a
part, the contexts (the symbols a place expects on the stack, top first) are
compared one symbol deeper at a time: candidates that agree so far stay
together, and a candidate that is alone needs no further symbol.  Where a
context runs out while another goes on, the shorter one is settled by the
start of its production; where two run out together, they are tied and the
grammar is ambiguous.

The outcome is a list of `Verdict`s in the order of the walk: at each depth the
candidates at the start of their production come first, then the groups by
symbol.  What a candidate has to match, the first tie and the log of the walk
are all read off that list.
-/

namespace ForkParser.Suffix

/-! ## parts by lookahead -/

/-- The lookaheads of some candidates, each once: none first, then by symbol. -/
def lookaheads (candidates : List Candidate) : List (Option Symbol) :=
  (if candidates.any (·.action.lookahead.isNone) then [none] else [])
    ++ (SymbolSet.ofList (candidates.filterMap (·.action.lookahead))).toList.map some

/-- The candidates with one lookahead. -/
def partWith (candidates : List Candidate) (lookahead : Option Symbol) : List Candidate :=
  candidates.filter (·.action.lookahead = lookahead)

/-! ## the walk -/

/-- What the walk finds out about a candidate, or about several it cannot tell
apart. -/
inductive Verdict where
  /-- The contexts of several candidates ran out together. -/
  | tied (members : List Candidate)
  /-- The context of one candidate ran out after `depth` symbols, alone. -/
  | byStart (member : Candidate) (depth : Nat)
  /-- The symbol `depth` below the top is one that only this candidate has. -/
  | bySuffix (member : Candidate) (depth : Nat)

/-- The verdict on the candidates of a group that are at the start of their
production, if there are any. -/
def startVerdict (depth : Nat) : List Candidate → List Verdict
  | [] => []
  | [member] => [.byStart member depth]
  | members => [.tied members]

/-- Candidates of a group at the start of their production: nothing is left of
their context at `depth`. -/
def atStart (depth : Nat) (group : List Candidate) : List Candidate :=
  group.filter (·.occurrence.symbolBefore depth = none)

/-- Candidates of a group whose context has `symbol` at `depth`. -/
def atSymbol (depth : Nat) (symbol : Symbol) (group : List Candidate) : List Candidate :=
  group.filter (·.occurrence.symbolBefore depth = some symbol)

/-- The symbols that the contexts of a group have at `depth`, in order. -/
def symbolsAt (depth : Nat) (group : List Candidate) : SymbolSet :=
  .ofList (group.filterMap (·.occurrence.symbolBefore depth))

/-- Tells apart the candidates of a group that agree on the first `depth`
symbols of their contexts.  `height` bounds how many symbols any of the
contexts has left, so the walk ends when there are none. -/
def distinguish : (height depth : Nat) → List Candidate → List Verdict
  | 0, depth, group => startVerdict depth (atStart depth group)
  | height + 1, depth, group =>
    startVerdict depth (atStart depth group)
      ++ (symbolsAt depth group).toList.flatMap fun symbol =>
        match atSymbol depth symbol group with
        | [member] => [.bySuffix member depth]
        | members => distinguish height (depth + 1) members

def longestContext (candidates : List Candidate) : Nat :=
  candidates.foldr (fun c n => max c.occurrence.context.length n) 0

/-- The verdicts on a part, which needs telling apart only if it has two
members. -/
def verdictsOf (part : List Candidate) : List Verdict :=
  if part.length < 2 then [] else distinguish (longestContext part) 0 part

/-! ## what the verdicts say -/

namespace Verdict

/-- How many symbols of its context `c` has to match by this verdict, if it is
about `c`. -/
def depthFor? (c : Candidate) : Verdict → Option Nat
  | tied _ => none
  | byStart member depth => if member = c then some depth else none
  | bySuffix member depth => if member = c then some (depth + 1) else none

def tie? : Verdict → Option (List Candidate)
  | tied members => some members
  | _ => none

end Verdict

/-- The candidates of one symbol, each with the shortest suffix that tells it
from the others of its lookahead. -/
def resolve (candidates : List Candidate) : List Candidate :=
  let verdicts := (lookaheads candidates).flatMap fun l =>
    verdictsOf (partWith candidates l)
  candidates.map fun c => c.withMatched ((verdicts.findSome? (·.depthFor? c)).getD 0)

/-- The first tie among the candidates of one symbol. -/
def tie? (candidates : List Candidate) : Option (List Candidate) :=
  (lookaheads candidates).findSome? fun l =>
    (verdictsOf (partWith candidates l)).findSome? Verdict.tie?

end ForkParser.Suffix
