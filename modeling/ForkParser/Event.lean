import ForkParser.Error
import ForkParser.Occurrence
import ForkParser.Text.Quoted

/-!
# ForkParser.Event

What the construction of a table and a search report as they go, for readers
who want to know why.  An event is shown on one line: its level, its title and
its fields as `name=value`.
-/

namespace ForkParser

/-- Something that happened while a table was built or an input parsed. -/
inductive Event where
  /-- Candidates with one lookahead have to be told apart. -/
  | resolvingPart (symbol : Symbol) (lookahead : Option Symbol) (members : Nat)
  /-- A candidate is settled by the start of its production. -/
  | resolvedByStart (symbol : Symbol) (depth : Nat) (place : Occurrence)
  /-- A candidate is settled by a symbol that no other has. -/
  | resolvedBySuffix (symbol : Symbol) (depth : Nat) (place : Occurrence)
  | tied (symbol : Symbol) (kind : Conflict)
  | tableBuilt (symbols rules buckets candidates : Nat)
  /-- Two candidates of the table overlap. -/
  | forkPoint (symbol : Symbol) (first second : Occurrence)
  /-- The symbol on the stack top has no candidates. -/
  | noCandidates (symbol : Symbol) (position : Nat)
  /-- There is a single candidate. -/
  | forced (place : Occurrence)
  /-- No candidate matches; the error is that of the first one. -/
  | noMatch (symbol : Symbol) (error : Error)
  /-- Several candidates match. -/
  | fork (symbol : Symbol) (branches : Nat)
  /-- The action of a candidate failed. -/
  | branchFailed (place : Occurrence) (error : Error)
  /-- The search was stopped by a limit. -/
  | limitReached (steps dropped : Nat) (error : Error)
  /-- No branch was accepted. -/
  | parseFailed (steps : Nat) (error : Error)
  /-- Some branches were accepted. -/
  | parseAccepted (steps accepted : Nat)
deriving DecidableEq

/-- How much attention an event asks for. -/
inductive Level where
  | trace
  | debug
deriving DecidableEq

def Level.text : Level → String
  | .trace => "TRACE"
  | .debug => "DEBUG"

namespace Event

/-- The level of an event: what concerns the whole table or the whole search is
for debugging, single steps are a trace. -/
def level : Event → Level
  | tied .. | tableBuilt .. | forkPoint .. | limitReached .. | parseFailed .. | parseAccepted .. =>
    .debug
  | _ => .trace

def title : Event → String
  | resolvingPart .. => "resolving partition"
  | resolvedByStart .. => "resolved by production start"
  | resolvedBySuffix .. => "resolved by suffix"
  | tied .. => "unresolvable conflict"
  | tableBuilt .. => "decision table built"
  | forkPoint .. => "fork point"
  | noCandidates .. => "no candidates"
  | forced .. => "forced"
  | noMatch .. => "no candidate matches"
  | fork .. => "fork"
  | branchFailed .. => "branch failed"
  | limitReached .. => "search limit reached"
  | parseFailed .. => "parse failed"
  | parseAccepted .. => "parse accepted"

/-- An optional name, as `None` or `Some("X")`. -/
def optionalName : Option Symbol → String
  | none => "None"
  | some s => "Some(" ++ Text.quote s.name ++ ")"

/-- The fields of an event with their values, in order. -/
def fields : Event → List (String × String)
  | resolvingPart symbol lookahead members =>
    [("symbol", symbol.name), ("lookahead", optionalName lookahead),
      ("conflicting", members.repr)]
  | resolvedByStart symbol depth place | resolvedBySuffix symbol depth place =>
    [("symbol", symbol.name), ("depth", depth.repr), ("helper", place.text)]
  | tied symbol kind => [("symbol", symbol.name), ("kind", kind.text)]
  | tableBuilt symbols rules buckets candidates =>
    [("symbols", symbols.repr), ("rules", rules.repr), ("buckets", buckets.repr),
      ("helpers", candidates.repr)]
  | forkPoint symbol first second =>
    [("symbol", symbol.name), ("first", first.text), ("second", second.text)]
  | noCandidates symbol position => [("symbol", symbol.name), ("position", position.repr)]
  | forced place => [("helper", place.text)]
  | noMatch symbol error => [("symbol", symbol.name), ("err", error.message)]
  | fork symbol branches => [("symbol", symbol.name), ("branches", branches.repr)]
  | branchFailed place error => [("helper", place.text), ("err", error.message)]
  | limitReached steps dropped error =>
    [("steps", steps.repr), ("dropped", dropped.repr), ("err", error.message)]
  | parseFailed steps error => [("steps", steps.repr), ("err", error.message)]
  | parseAccepted steps accepted => [("steps", steps.repr), ("accepted", accepted.repr)]

def text (e : Event) : String :=
  e.level.text ++ " " ++ e.title
    ++ String.join (e.fields.map fun (name, value) => " " ++ name ++ "=" ++ value)

end Event

end ForkParser
