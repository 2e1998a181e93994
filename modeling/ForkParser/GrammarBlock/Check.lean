import ForkParser.GrammarBlock.Basic

/-!
# ForkParser.GrammarBlock.Check

The checks a declared grammar has to pass.  Beyond what every grammar has to
satisfy, a block may not give the same rule twice.
-/

namespace ForkParser.GrammarBlock

/-- What can be wrong with a block. -/
inductive Cause where
  | noRules
  /-- A terminal is on the left of a rule. -/
  | terminalExpanded
  /-- A rule is given a second time. -/
  | alreadyDefined
  /-- A symbol with an empty rule is used. -/
  | emptyUsed
  | startTerminal
  /-- No rule expands the start symbol. -/
  | startUndefined
  | eofNotTerminal
deriving DecidableEq

def Cause.message : Cause → String
  | noRules => "No rules."
  | terminalExpanded => "Terminals can't be expanded."
  | alreadyDefined => "Already defined."
  | emptyUsed => "Empty rules can't be used."
  | startTerminal => "The start symbol must be a non-terminal."
  | startUndefined => "No such non-terminal."
  | eofNotTerminal => "The end-of-input symbol must be a terminal."

/-- What is wrong with a block, and the name it is about. -/
structure Fault where
  cause : Cause
  name : Name
deriving DecidableEq

/-- The first rule with a terminal on the left, or that repeats one of the
productions `earlier`. -/
def rulesFault? (earlier : List Production) : List Rule → Option Fault
  | [] => none
  | r :: rest =>
    if r.lhs.symbol.isTerminal then some ⟨.terminalExpanded, r.lhs⟩
    else if r.production ∈ earlier then some ⟨.alreadyDefined, r.lhs⟩
    else rulesFault? (r.production :: earlier) rest

/-- The symbols that have an empty rule. -/
def emptySymbols (rules : List Rule) : List Symbol :=
  (rules.filter (·.rhs.isEmpty)).map (·.lhs.symbol)

/-- The first use of a symbol that has an empty rule. -/
def emptyFault? (rules : List Rule) : Option Fault :=
  ((rules.flatMap Rule.rhs).find? (·.symbol ∈ emptySymbols rules)).map (⟨.emptyUsed, ·⟩)

/-- What is wrong with the distinguished symbols. -/
def namesFault? (b : GrammarBlock) : Option Fault :=
  if b.start.symbol.isTerminal then some ⟨.startTerminal, b.start⟩
  else if !b.rules.any (·.lhs.symbol = b.start.symbol) then some ⟨.startUndefined, b.start⟩
  else if !b.eof.symbol.isTerminal then some ⟨.eofNotTerminal, b.eof⟩
  else none

/-- The first fault of a block: no rules, then the rules one by one, then the
use of empty rules, then the distinguished symbols. -/
def fault? (b : GrammarBlock) : Option Fault :=
  if b.rules.isEmpty then some ⟨.noRules, b.start⟩
  else (rulesFault? [] b.rules).or ((emptyFault? b.rules).or b.namesFault?)

/-! ## places -/

/-- A place in a text: the line, from 1, and the characters before it on that
line. -/
structure Place where
  line : Nat
  column : Nat
deriving DecidableEq

/-- The place after the first `offset` characters of a text. -/
def Place.after (source : List Char) (offset : Nat) : Place :=
  let before := source.take offset
  ⟨before.count '\n' + 1, (before.reverse.takeWhile (· != '\n')).length⟩

/-! ## loading -/

/-- Why a text is refused. -/
inductive Refusal where
  /-- It is no grammar block. -/
  | unreadable (fault : ReadFault)
  /-- It is one, but a faulty one; the place is that of the name at fault. -/
  | faulty (fault : Fault) (place : Place)
deriving DecidableEq

/-- The faultless block that a text holds. -/
def load (source : String) : Except Refusal GrammarBlock :=
  match read source with
  | .error fault => .error (.unreadable fault)
  | .ok b =>
    match b.fault? with
    | some fault => .error (.faulty fault (.after source.toList fault.name.offset))
    | none => .ok b

end ForkParser.GrammarBlock
