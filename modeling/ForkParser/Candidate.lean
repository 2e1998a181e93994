import ForkParser.Occurrence

/-!
# ForkParser.Candidate

What the parser may do for the symbol on its stack top.

An `Action` is a move (shift, or reduce by a production) with the conditions
under which it is chosen: a terminal that comes next in the input, and symbols
that the stack holds from the top down.  A `Candidate` is a place of the
grammar together with its action.
-/

namespace ForkParser

/-- What a parser does to its stack. -/
inductive Move where
  /-- Takes the next token of the input. -/
  | shift
  /-- Replaces the right-hand side of `rule` by its left-hand side; with
  `accepts` the input is accepted if the parse is complete then. -/
  | reduce (rule : Production) (accepts : Bool)
deriving DecidableEq, Inhabited

/-- A move and the conditions under which it is chosen. -/
structure Action where
  move : Move
  lookahead : Option Symbol := none
  matched : List Symbol := []
deriving DecidableEq, Inhabited

namespace Action

def isShift (a : Action) : Bool :=
  match a.move with
  | .shift => true
  | .reduce .. => false

def accepts (a : Action) : Bool :=
  match a.move with
  | .shift => false
  | .reduce _ accepts => accepts

/-- The action on one line: `reduce | match WORD key | lookahead -`. -/
def text (a : Action) : String :=
  (if a.isShift then "shift" else if a.accepts then "accept" else "reduce")
    ++ " | match " ++ (if a.matched.isEmpty then "-" else Symbol.joinNames a.matched)
    ++ " | lookahead " ++ (match a.lookahead with | some s => s.name | none => "-")

end Action

/-- A place of the grammar and the action the parser takes there. -/
structure Candidate where
  occurrence : Occurrence
  action : Action
deriving DecidableEq

namespace Candidate

/-- The candidate of a place before any conditions are known: the end of a
production reduces, and accepts if the symbol there is the end of input; any
other place shifts. -/
def ofOccurrence (eof : Symbol) (o : Occurrence) : Candidate where
  occurrence := o
  action := { move := if o.isLast then .reduce o.production (o.symbol = eof) else .shift }

/-- Adds the condition that a shift towards a terminal needs that terminal
next in the input. -/
def withLookahead (c : Candidate) : Candidate :=
  if c.action.isShift then
    { c with action := { c.action with lookahead := c.occurrence.lookahead } }
  else
    c

/-- Adds the condition that the stack holds the first `depth` symbols of the
place's context. -/
def withMatched (c : Candidate) (depth : Nat) : Candidate :=
  { c with action := { c.action with matched := c.occurrence.context.take depth } }

/-- Whether the conditions of two candidates can hold together: neither
lookahead excludes the other, and of the two suffixes the shorter begins the
longer. -/
def overlaps (a b : Candidate) : Bool :=
  let n := min a.action.matched.length b.action.matched.length
  (match a.action.lookahead, b.action.lookahead with
    | some x, some y => decide (x = y)
    | _, _ => true)
  && decide (a.action.matched.take n = b.action.matched.take n)

/-- The candidate on one line:
`#1 key -> [WORD] | reduce | match WORD | lookahead -`. -/
def text (c : Candidate) : String :=
  "#" ++ c.occurrence.ruleIndex.repr ++ " " ++ c.occurrence.text ++ " | " ++ c.action.text

end Candidate

end ForkParser
