import ForkParser.Event
import ForkParser.Table.Basic

/-!
# ForkParser.Table.Log

The events of building a table, read off the verdicts of the suffix search:
bucket by bucket and part by part up to the first tie, then a summary and the
fork points.
-/

namespace ForkParser

def Suffix.Verdict.event (symbol : Symbol) : Verdict → Event
  | tied members => .tied symbol (conflictOf members)
  | byStart member depth => .resolvedByStart symbol depth member.occurrence
  | bySuffix member depth => .resolvedBySuffix symbol depth member.occurrence

def partEvents (symbol : Symbol) (lookahead : Option Symbol) (part : List Candidate) :
    List Event :=
  if part.length < 2 then []
  else
    .resolvingPart symbol lookahead part.length
      :: (Suffix.verdictsOf part).map (Suffix.Verdict.event symbol)

/-- The events of telling apart the candidates of a bucket. -/
def Bucket.events (b : Bucket) : List Event :=
  (Suffix.lookaheads b.candidates).flatMap fun l =>
    partEvents b.symbol l (Suffix.partWith b.candidates l)

/-- The events up to the first tie, which is the last one reported. -/
def uptoTie : List Event → List Event
  | [] => []
  | e@(.tied ..) :: _ => [e]
  | e :: rest => e :: uptoTie rest

def Table.events (g : Grammar) (t : Table) : List Event :=
  .tableBuilt g.symbols.size t.productions.length t.buckets.length t.size
    :: t.overlaps.map fun o => .forkPoint o.symbol o.firstOccurrence o.secondOccurrence

def Grammar.tableEvents (g : Grammar) : List Event :=
  uptoTie (g.openBuckets.flatMap Bucket.events)
    ++ match g.tie?, g.clash?, g.table with
      | none, some (symbol, members), _ => [.tied symbol (conflictOf members)]
      | _, _, .ok t => t.events g
      | _, _, .error _ => []

end ForkParser
