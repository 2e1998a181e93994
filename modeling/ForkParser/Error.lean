import ForkParser.Symbol

/-!
# ForkParser.Error

Why a grammar, a token stream or a branch of a search is refused.  Errors are
causes; `Error.message` is the one place that words them.
-/

namespace ForkParser

/-- What the tied places of an ambiguous grammar would do: all shift, all
reduce, or some of either. -/
inductive Conflict where
  | shiftShift
  | shiftReduce
  | reduceReduce
deriving DecidableEq, Inhabited

def Conflict.text : Conflict → String
  | .shiftShift => "shift/shift"
  | .shiftReduce => "shift/reduce"
  | .reduceReduce => "reduce/reduce"

inductive Error where
  /-- The grammar or the token stream is malformed. -/
  | invalidInput (reason : String)
  /-- Places of one symbol that no suffix and no lookahead tell apart. -/
  | ambiguous (symbol : Symbol) (kind : Conflict) (rules : List String)
  /-- The symbol on the stack top occurs nowhere on a right-hand side. -/
  | noElements (symbol : Symbol) (position : Nat)
  /-- Another symbol was wanted in place of the one found, if any. -/
  | unexpectedToken (expected : Symbol) (found : Option Symbol) (position : Nat)
  /-- The input is used up, or the parse complete too early. -/
  | noAccept (position : Nat)
  /-- A token can be reached twice from the root of a tree. -/
  | cycle (symbol : Symbol) (position : Nat)
  /-- Too many branches are live at once. -/
  | branchLimit (limit : Nat)
  /-- The search has had all its rounds. -/
  | stepLimit (limit : Nat)
deriving DecidableEq, Inhabited

namespace Error

/-- A name between plain double quotes. -/
def named (s : Symbol) : String := "\"" ++ s.name ++ "\""

def message : Error → String
  | invalidInput reason => "invalid input: " ++ reason
  | ambiguous symbol kind rules =>
    "ambiguous grammar: " ++ kind.text ++ " conflict on " ++ named symbol ++ " between "
      ++ " | ".intercalate rules
  | noElements symbol position =>
    "no elements found for symbol " ++ named symbol ++ " at position " ++ position.repr
  | unexpectedToken expected found position =>
    "unexpected token at position " ++ position.repr ++ ": expected " ++ named expected
      ++ ", found " ++ (match found with | some s => named s | none => "nothing")
  | noAccept position => "input ended at position " ++ position.repr ++ " without being accepted"
  | cycle symbol position =>
    "cycle detected: token " ++ named symbol ++ " at position " ++ position.repr
      ++ " is reachable twice"
  | branchLimit limit => "more than " ++ limit.repr ++ " parse branches are active at once"
  | stepLimit limit => "parse did not settle within " ++ limit.repr ++ " steps"

/-- The input position an error points at, for errors about input. -/
def position : Error → Option Nat
  | noElements _ position
  | unexpectedToken _ _ position
  | noAccept position
  | cycle _ position => some position
  | _ => none

end Error

end ForkParser
