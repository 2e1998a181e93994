import ForkParser.Production
import ForkParser.Text.Words

/-!
# ForkParser.GrammarFile

Grammar files: one production on a line, as `key -> key WORD`.  A `#` starts a
comment, and lines with nothing else on them are skipped.  Faults are reported
with the number of their line, counted from 1.
-/

namespace ForkParser.GrammarFile

/-- What can be wrong with a line. -/
inductive LineFault where
  | noArrow
  /-- Nothing stands before the arrow. -/
  | noLeft
  /-- Several words stand before the arrow. -/
  | manyLeft
deriving DecidableEq

/-- What can be wrong with a file. -/
inductive Fault where
  | line (number : Nat) (fault : LineFault)
  /-- No line has a production. -/
  | noRules
deriving DecidableEq

def LineFault.message : LineFault → String
  | noArrow => "expected \"->\"."
  | noLeft => "missing left-hand side."
  | manyLeft => "the left-hand side is a single symbol."

def Fault.message : Fault → String
  | line number fault => "line " ++ number.repr ++ " : " ++ fault.message
  | noRules => "No rules."

/-- The parts of a line before and after its first arrow. -/
def splitArrow? : List Char → Option (List Char × List Char)
  | [] => none
  | '-' :: '>' :: rest => some ([], rest)
  | c :: rest => (splitArrow? rest).map fun (before, after) => (c :: before, after)

def withoutComment (line : List Char) : List Char := line.takeWhile (· != '#')

/-- The words of a text as symbols. -/
def symbolsOf (cs : List Char) : List Symbol := (Text.words cs).map fun w => ⟨w.text⟩

/-- The production of a line, if it has one. -/
def readLine (line : List Char) : Except LineFault (Option Production) :=
  let content := withoutComment line
  if content.all Text.isBlank then .ok none
  else
    match splitArrow? content with
    | none => .error .noArrow
    | some (before, after) =>
      match symbolsOf before with
      | [] => .error .noLeft
      | [lhs] => .ok (some ⟨lhs, symbolsOf after⟩)
      | _ => .error .manyLeft

/-- The productions of consecutive lines, the first of which has the given
number, up to the first malformed line. -/
def readLines (number : Nat) : List (List Char) → Except Fault (List Production)
  | [] => .ok []
  | line :: rest =>
    match readLine line with
    | .error fault => .error (.line number fault)
    | .ok production? =>
      match readLines (number + 1) rest with
      | .error fault => .error fault
      | .ok productions => .ok (production?.toList ++ productions)

/-- The productions of a grammar file. -/
def load (source : String) : Except Fault (List Production) :=
  match readLines 1 (Text.lines source.toList) with
  | .error fault => .error fault
  | .ok [] => .error .noRules
  | .ok productions => .ok productions

end ForkParser.GrammarFile
