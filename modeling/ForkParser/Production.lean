import ForkParser.Symbol

/-!
# ForkParser.Production

Productions `lhs -> rhs` of a grammar.  A production whose right-hand side
has no symbols is empty, and is shown with an `ε`.
-/

namespace ForkParser

/-- A production: the symbol on the left may be expanded to those on the
right. -/
structure Production where
  lhs : Symbol
  rhs : List Symbol
deriving DecidableEq, Inhabited

namespace Production

/-- Productions are ordered by their left-hand sides, then by their
right-hand sides symbol by symbol. -/
instance : Ord Production :=
  ⟨fun p q => (compare p.lhs q.lhs).then (List.compareLex compare p.rhs q.rhs)⟩

def isEmpty (p : Production) : Bool := p.rhs.isEmpty

/-- Every symbol of the production, the left-hand side first. -/
def symbols (p : Production) : List Symbol := p.lhs :: p.rhs

/-- Expands the symbol at `index` of the right-hand side into `symbols`;
`none` where the right-hand side has no such index. -/
def substitute (p : Production) (index : Nat) (symbols : List Symbol) : Option Production :=
  if index < p.rhs.length then
    some ⟨p.lhs, p.rhs.take index ++ symbols ++ p.rhs.drop (index + 1)⟩
  else
    none

/-- Exchanges the symbol at `index` of the right-hand side. -/
def replace (p : Production) (index : Nat) (symbol : Symbol) : Option Production :=
  p.substitute index [symbol]

/-- The production on one line: `key -> key WORD`, or `nothing -> ε`. -/
def text (p : Production) : String :=
  p.lhs.name ++ " -> " ++ (if p.isEmpty then "ε" else Symbol.joinNames p.rhs)

end Production

end ForkParser
