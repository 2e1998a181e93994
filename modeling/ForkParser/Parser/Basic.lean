import ForkParser.Branch
import ForkParser.Table.Basic

/-!
# ForkParser.Parser.Basic

A parser and its steps.  A step looks at the symbol on the stack top and
decides, by the candidates of that symbol, what becomes of the branch: it
fails, goes on in one way, or goes on in several.

A symbol with a single candidate forces it: the conditions of the candidate are
not looked at, since they only serve to choose between several.
-/

namespace ForkParser

/-- A decision table, and the settings a search over it works under. -/
structure Parser where
  table : Table
  settings : Settings

/-- What a step of a branch comes down to. -/
inductive Decision where
  | emptyStack (position : Nat)
  /-- The symbol on the stack top has no candidates. -/
  | noCandidates (symbol : Symbol) (position : Nat)
  /-- It has one candidate. -/
  | forced (candidate : Candidate)
  /-- It has several candidates, but the conditions of none hold. -/
  | noMatch (symbol : Symbol) (error : Error)
  /-- It has several candidates, and the conditions of these hold. -/
  | choice (symbol : Symbol) (candidates : List Candidate)

namespace Parser

/-- The parser of a table under the table's own settings. -/
def ofTable (table : Table) : Parser := ⟨table, table.settings⟩

/-- The parser of a table under other limits.  The start symbol and the end of
input stay those the table was built with. -/
def withLimits (table : Table) (limits : Settings) : Parser :=
  ⟨table, table.settings.withLimits limits⟩

/-- Whether the conditions of a candidate hold on a branch.  A probe leaves the
branch as it was, so each candidate is probed on the branch itself. -/
def probe (b : Branch) (input : Array Token) (c : Candidate) : Except Error Unit :=
  (b.probe c.action input).2

/-- The candidates whose conditions hold. -/
def matching (b : Branch) (input : Array Token) (candidates : List Candidate) : List Candidate :=
  candidates.filter fun c => (probe b input c).isOk

/-- Why the first candidate whose conditions do not hold is rejected. -/
def rejection? (b : Branch) (input : Array Token) (candidates : List Candidate) : Option Error :=
  candidates.findSome? fun c =>
    match probe b input c with
    | .error e => some e
    | .ok _ => none

/-- The decision among several candidates for the token on the stack top. -/
def choose (b : Branch) (input : Array Token) (top : Token) (candidates : List Candidate) :
    Decision :=
  match matching b input candidates with
  | [] =>
    .noMatch top.symbol
      ((rejection? b input candidates).getD (.noElements top.symbol top.position))
  | chosen => .choice top.symbol chosen

/-- What becomes of a branch. -/
def decision (p : Parser) (b : Branch) (input : Array Token) : Decision :=
  match b.stack.peek? with
  | none => .emptyStack ((input[0]?.map Token.position).getD 0)
  | some top =>
    match p.table.lookup top.symbol with
    | [] => .noCandidates top.symbol top.position
    | [candidate] => .forced candidate
    | candidates => choose b input top candidates

/-- A branch after the action of a candidate; it has failed if the action
did. -/
def follow (p : Parser) (b : Branch) (input : Array Token) (c : Candidate) : Branch :=
  match b.execute c.action p.settings.start input with
  | (b, .ok ()) => b
  | (b, .error e) => b.fail e

/-- The successors of a branch: one for each candidate decided on, or the
failed branch itself if there are none. -/
def step (p : Parser) (b : Branch) (input : Array Token) : List Branch :=
  match p.decision b input with
  | .emptyStack position => [b.fail (.noAccept position)]
  | .noCandidates symbol position => [b.fail (.noElements symbol position)]
  | .forced c => [p.follow b input c]
  | .noMatch _ error => [b.fail error]
  | .choice _ cs => cs.map (p.follow b input)

end Parser

end ForkParser
