import ForkParser.Command.Arguments
import ForkParser.GrammarFile
import ForkParser.Parser.Search
import ForkParser.TokenFile
import ForkParser.Tree.Printer

/-!
# ForkParser.Command.Basic

The command line program: what it prints for given arguments and files.  Files
are looked up by name, so the program is a function of its arguments and of
what the look-up gives.
-/

namespace ForkParser.Command

/-! ## files -/

/-- Why a file gives no text. -/
inductive FileFailure where
  | missing
  /-- Part of its path is a file. -/
  | notDirectory
  /-- It is a directory, which can be opened but not read. -/
  | directory
  /-- Its bytes are not UTF-8. -/
  | notText
deriving DecidableEq

def FileFailure.message (name : String) : FileFailure → String
  | missing => "Couldn't open " ++ name ++ " : No such file or directory (os error 2)"
  | notDirectory => "Couldn't open " ++ name ++ " : Not a directory (os error 20)"
  | directory => "Is a directory (os error 21)"
  | notText => "stream did not contain valid UTF-8"

/-- The text of each file, by name. -/
abbrev Files := String → Except FileFailure String

/-- The text of a file, or what to say about it. -/
def Files.text (files : Files) (name : String) : Except String String :=
  (files name).mapError (·.message name)

/-! ## branch limits -/

/-- Why a text is no number of branches. -/
inductive LimitFault where
  | empty
  | digit
  /-- The number does not fit in 64 bits. -/
  | tooLarge
deriving DecidableEq

def LimitFault.message : LimitFault → String
  | empty => "cannot parse integer from empty string"
  | digit => "invalid digit found in string"
  | tooLarge => "number too large to fit in target type"

/-- The number that digits spell after those of `value`. -/
def readDigits (value : Nat) : List Char → Except LimitFault Nat
  | [] => .ok value
  | c :: rest =>
    if !c.isDigit then .error .digit
    else
      let value := 10 * value + (c.toNat - '0'.toNat)
      if value < 2 ^ 64 then readDigits value rest else .error .tooLarge

/-- The number a text spells.  A plus sign may stand before its digits. -/
def readLimit (text : String) : Except LimitFault Nat :=
  match text.toList with
  | [] => .error .empty
  | ['+'] => .error .digit
  | '+' :: digits => readDigits 0 digits
  | digits => readDigits 0 digits

/-! ## tasks -/

def settingsOf (a : Arguments) : Except String Settings :=
  let plain : Settings := {}
  let start := ((a.value? .start).map Symbol.mk).getD plain.start
  let eof := ((a.value? .eof).map Symbol.mk).getD plain.eof
  match a.value? .maxBranches with
  | none => .ok { plain with start, eof }
  | some text =>
    match readLimit text with
    | .ok maxBranches => .ok { plain with start, eof, maxBranches }
    | .error fault =>
      .error ("Invalid branch limit \"" ++ text ++ "\" : " ++ fault.message)

def about (file message : String) : String := file ++ " : " ++ message

/-- The grammar of a grammar file.  The options are looked at after the file has
been read. -/
def grammarOf (a : Arguments) (files : Files) (name : String) : Except String Grammar := do
  let source ← files.text name
  let productions ← (GrammarFile.load source).mapError fun f => about name f.message
  let settings ← settingsOf a
  (Grammar.ofProductions settings productions).mapError fun f => about name f.toError.message

def tableOf (a : Arguments) (files : Files) (name : String) : Except String Table := do
  let grammar ← grammarOf a files name
  grammar.table.mapError Error.message

/-- The table as text, followed by the places where a parser forks, if any. -/
def tableText (t : Table) : String :=
  let forks := t.overlaps.map fun o =>
    "    " ++ o.symbol.name ++ " : " ++ o.firstOccurrence.text ++ " / " ++ o.secondOccurrence.text
      ++ "\n"
  t.text ++ if forks.isEmpty then "" else "\nFork points :\n" ++ String.join forks

/-- The trees as text, with their number if there are several. -/
def forestText (f : Forest) : String :=
  (if f.isAmbiguous then f.size.repr ++ " trees.\n" else "")
    ++ String.join (f.trees.zipIdx.map fun (t, i) =>
      "Tree #" ++ (i + 1).repr ++ " : " ++ t.line ++ "\n" ++ t.listing)

/-- The trees of a token file by the table of a grammar file. -/
def forestOf (a : Arguments) (files : Files) (grammar tokens : String) :
    Except String Forest := do
  let table ← tableOf a files grammar
  let source ← files.text tokens
  let stream ← (TokenFile.load source table.settings.eof).mapError fun f => about tokens f.message
  ((Parser.ofTable table).parse stream).mapError Error.message

/-! ## the program -/

/-- How a run of the program ends. -/
inductive Outcome where
  | printed (text : String)
  | failed (message : String)
  | misused
deriving DecidableEq

namespace Outcome

def code : Outcome → Nat
  | printed _ => 0
  | failed _ => 1
  | misused => 1

def output : Outcome → String
  | printed text => text
  | _ => ""

def errorLine? : Outcome → Option String
  | failed message => some ("Error: " ++ Text.quote message)
  | _ => none

end Outcome

/-- The version of the program, or of one of its tasks, which have none. -/
def versionText : Option Task → String
  | none => "inspect 0.1\n"
  | some task => "inspect-" ++ task.word ++ " \n"

/-- What comes of a text, or of a message in its place. -/
def Outcome.ofResult : Except String String → Outcome
  | .ok text => printed text
  | .error message => failed message

def Request.run (files : Files) : Request → Outcome
  | nothing => .failed "Expected a subcommand, see --help."
  | version task => .printed (versionText task)
  | table a grammar => .ofResult ((tableOf a files grammar).map tableText)
  | parse a grammar tokens => .ofResult ((forestOf a files grammar tokens).map forestText)
  | misused => .misused

def run (args : List String) (files : Files) : Outcome := (Request.ofArguments args).run files

end ForkParser.Command
