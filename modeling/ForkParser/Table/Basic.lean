import ForkParser.Grammar
import ForkParser.Table.Suffix

/-!
# ForkParser.Table.Basic

The decision table of a grammar: for every symbol that occurs on a right-hand
side, all its places, each with the action taken there.

Buckets are kept in symbol order and their candidates by production and
position, so the table depends on nothing but the productions and the
end-of-input symbol.
-/

namespace ForkParser

/-- The candidates of one symbol. -/
structure Bucket where
  symbol : Symbol
  candidates : List Candidate
deriving DecidableEq

/-- The per-symbol decision table of a grammar. -/
structure Table where
  settings : Settings
  productions : List Production
  buckets : List Bucket
deriving DecidableEq

/-! ## construction -/

/-- The candidates of one symbol with their lookaheads, before they are told
apart. -/
def candidatesOf (symbol eof : Symbol) (productions : List Production) : List Candidate :=
  (occurrencesOf symbol productions).map fun o => (Candidate.ofOccurrence eof o).withLookahead

/-- The buckets of all symbols that occur on a right-hand side, in symbol
order, before their candidates are told apart. -/
def Grammar.openBuckets (g : Grammar) : List Bucket :=
  (g.symbols.toList.map fun s => ⟨s, candidatesOf s g.settings.eof g.productions⟩).filter
    fun b => !b.candidates.isEmpty

def conflictOf (members : List Candidate) : Conflict :=
  if members.all (·.action.isShift) then .shiftShift
  else if members.any (·.action.isShift) then .shiftReduce
  else .reduceReduce

/-- The error that reports tied candidates of a symbol. -/
def ambiguity (symbol : Symbol) (members : List Candidate) : Error :=
  .ambiguous symbol (conflictOf members) (members.map (·.occurrence.production.text))

namespace Bucket

/-- The same bucket with its candidates told apart. -/
def resolve (b : Bucket) : Bucket := { b with candidates := Suffix.resolve b.candidates }

/-- Whether two candidates are chosen under the same conditions. -/
def sameConditions (a b : Candidate) : Bool :=
  a.action.lookahead = b.action.lookahead && a.action.matched = b.action.matched

/-- The first candidate that is chosen under the same conditions as one before
it, `seen` holding those before. -/
def clashAmong (seen : List Candidate) : List Candidate → Option (List Candidate)
  | [] => none
  | c :: rest =>
    match seen.find? (sameConditions c) with
    | some earlier => some [earlier, c]
    | none => clashAmong (c :: seen) rest

/-- Two candidates of a bucket that are chosen under the same conditions. -/
def clash? (b : Bucket) : Option (List Candidate) := clashAmong [] b.candidates

end Bucket

/-- The first tie of a grammar, by symbol. -/
def Grammar.tie? (g : Grammar) : Option (Symbol × List Candidate) :=
  g.openBuckets.findSome? fun b => (Suffix.tie? b.candidates).map (b.symbol, ·)

/-- The buckets of a grammar with their candidates told apart. -/
def Grammar.buckets (g : Grammar) : List Bucket := g.openBuckets.map Bucket.resolve

/-- The first two candidates of a grammar that are chosen under the same
conditions although nothing was tied. -/
def Grammar.clash? (g : Grammar) : Option (Symbol × List Candidate) :=
  g.buckets.findSome? fun b => b.clash?.map (b.symbol, ·)

/-- The decision table of a grammar, or the ambiguity that prevents it. -/
def Grammar.table (g : Grammar) : Except Error Table :=
  match g.tie?.or g.clash? with
  | some (symbol, members) => .error (ambiguity symbol members)
  | none => .ok ⟨g.settings, g.productions, g.buckets⟩

/-- The decision table of productions over some symbols, or what is wrong with them. -/
def Table.build (settings : Settings) (symbols : List Symbol) (productions : List Production) :
    Except Error Table :=
  match Grammar.withSymbols settings (.ofList symbols) productions with
  | .error fault => .error fault.toError
  | .ok g => g.table

/-! ## reading a table -/

/-- Two candidates of one bucket whose conditions can hold together, by their
numbers in the bucket.  The parser forks there. -/
structure Overlap where
  symbol : Symbol
  first : Nat
  second : Nat
  firstOccurrence : Occurrence
  secondOccurrence : Occurrence
deriving DecidableEq

/-- The pairs of candidates of a bucket that overlap, in order. -/
def Bucket.overlaps (b : Bucket) : List Overlap :=
  b.candidates.zipIdx.flatMap fun (x, i) =>
    (b.candidates.zipIdx.drop (i + 1)).filterMap fun (y, j) =>
      if x.overlaps y then some ⟨b.symbol, i, j, x.occurrence, y.occurrence⟩ else none

namespace Table

/-- The candidates of a symbol; none for a symbol that occurs nowhere. -/
def lookup (t : Table) (symbol : Symbol) : List Candidate :=
  match t.buckets.find? (·.symbol = symbol) with
  | some b => b.candidates
  | none => []

/-- The number of candidates in all buckets. -/
def size (t : Table) : Nat := t.buckets.foldr (fun b n => b.candidates.length + n) 0

def isEmpty (t : Table) : Bool := t.buckets.isEmpty

/-- Every pair of candidates whose conditions can hold together. -/
def overlaps (t : Table) : List Overlap := t.buckets.flatMap Bucket.overlaps

/-- The buckets as text: each symbol on a line, its candidates indented
below. -/
def text (t : Table) : String :=
  String.join (t.buckets.map fun b =>
    b.symbol.name ++ "\n" ++ String.join (b.candidates.map fun c => "    " ++ c.text ++ "\n"))

end Table

end ForkParser
