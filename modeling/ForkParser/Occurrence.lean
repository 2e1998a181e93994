import ForkParser.Production

/-!
# ForkParser.Occurrence

One place on the right-hand side of a production: "the stack top is the symbol
at this place".  The decision table is a list of such places, each with what
to do there.
-/

namespace ForkParser

/-- A place inside the right-hand side of a production, and the number of that
production in the grammar. -/
structure Occurrence where
  production : Production
  pos : Nat
  ruleIndex : Nat
  inside : pos < production.rhs.length
deriving DecidableEq

namespace Occurrence

/-- The place `pos` of a production; `none` past its end, so always for an
empty production. -/
def at? (production : Production) (pos ruleIndex : Nat) : Option Occurrence :=
  if h : pos < production.rhs.length then some ⟨production, pos, ruleIndex, h⟩ else none

def symbol (o : Occurrence) : Symbol := o.production.rhs.get ⟨o.pos, o.inside⟩

/-- Whether the production ends at the place. -/
def isLast (o : Occurrence) : Bool := o.pos + 1 == o.production.rhs.length

def next? (o : Occurrence) : Option Symbol := o.production.rhs[o.pos + 1]?

/-- The symbol at the place and those before it, read backwards: what the
stack holds there, top first. -/
def context (o : Occurrence) : List Symbol := (o.production.rhs.take (o.pos + 1)).reverse

/-- The symbol `depth` places before this one; `none` past the start of the
production. -/
def symbolBefore (o : Occurrence) (depth : Nat) : Option Symbol := o.context[depth]?

/-- The terminal that has to come next in the input for a shift at this place:
the symbol after it, if that is a terminal. -/
def lookahead (o : Occurrence) : Option Symbol := o.next?.filter Symbol.isTerminal

/-- The production with the place between square brackets:
`key -> key [WORD]`. -/
def text (o : Occurrence) : String :=
  o.production.lhs.name ++ " ->"
    ++ String.join (o.production.rhs.zipIdx.map fun (s, i) =>
      if i = o.pos then " [" ++ s.name ++ "]" else " " ++ s.name)

/-- The context reaches from the place back to the start of the production. -/
@[simp] theorem length_context (o : Occurrence) : o.context.length = o.pos + 1 := by
  have := o.inside
  rw [context, List.length_reverse, List.length_take]
  omega

/-- The last place of a production has nothing after it. -/
theorem next?_eq_none_iff (o : Occurrence) : o.next? = none ↔ o.isLast = true := by
  have := o.inside
  rw [next?, List.getElem?_eq_none_iff, isLast, beq_iff_eq]
  omega

/-- Reading backwards starts at the place itself. -/
theorem symbolBefore_zero (o : Occurrence) : o.symbolBefore 0 = some o.symbol := by
  have := o.inside
  simp [symbolBefore, context, symbol, Nat.min_eq_left this]

end Occurrence

/-! ## all places of a production list -/

/-- The places of one production, first to last. -/
def Production.occurrences (p : Production) (ruleIndex : Nat) : List Occurrence :=
  (List.range p.rhs.length).filterMap fun pos => Occurrence.at? p pos ruleIndex

/-- The places where `symbol` occurs, by production and then by position. -/
def occurrencesOf (symbol : Symbol) (productions : List Production) : List Occurrence :=
  (productions.zipIdx.flatMap fun (p, i) => p.occurrences i).filter fun o => o.symbol = symbol

end ForkParser
