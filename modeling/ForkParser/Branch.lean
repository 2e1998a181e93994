import ForkParser.Candidate
import ForkParser.Error
import ForkParser.Tree.Basic
import ForkParser.UndoStack

/-!
# ForkParser.Branch

One path of the search: a stack of tokens and a place in the input.

Popping is speculative.  A reduction and a probe pop tokens one by one while
they agree with the symbols wanted; on a disagreement the stack is rolled back,
and a probe rolls it back in any case.  Operations return the branch along with
their result, since a refused acceptance leaves its reduction on the stack.
-/

namespace ForkParser

/-- Where a branch stands. -/
inductive Status where
  | active
  | accepted
  | failed (error : Error)
deriving DecidableEq, Inhabited

/-- A stack of tokens, the number of input tokens taken so far, the number of
reductions made so far, and where the branch stands. -/
structure Branch where
  stack : UndoStack Token := .empty
  index : Nat := 0
  reductions : Nat := 0
  status : Status := .active
deriving Inhabited

/-- A symbol that was wanted, and the token found in its place, if any. -/
structure Mismatch where
  expected : Symbol
  found : Option Token

namespace Branch

def start : Branch := {}

def isActive (b : Branch) : Bool := b.status = .active

def isAccepted (b : Branch) : Bool := b.status = .accepted

def error? (b : Branch) : Option Error :=
  match b.status with
  | .failed e => some e
  | _ => none

def fail (b : Branch) (error : Error) : Branch := { b with status := .failed error }

/-- The symbols on the stack, bottom to top. -/
def symbols (b : Branch) : List Symbol := b.stack.toList.map Token.symbol

/-- The source position of the next token of the input, or of the last one
when all are taken. -/
def here (b : Branch) (input : Array Token) : Nat :=
  ((input[b.index]?.or input.back?).map Token.position).getD 0

/-- The error of a mismatch.  It points at the token found; where there is
none, at the next token of the input. -/
def unexpected (b : Branch) (input : Array Token) (m : Mismatch) : Error :=
  .unexpectedToken m.expected (m.found.map Token.symbol)
    ((m.found.map Token.position).getD (b.here input))

/-! ## speculative popping -/

/-- Pops one token for each symbol wanted, top first, as long as they agree,
and puts them in front of `popped`. -/
def popAll (stack : UndoStack Token) (popped : List Token) :
    List Symbol → UndoStack Token × Except Mismatch (List Token)
  | [] => (stack, .ok popped)
  | expected :: rest =>
    match stack.pop with
    | (some token, stack) =>
      if token.symbol = expected then popAll stack (token :: popped) rest
      else (stack, .error ⟨expected, some token⟩)
    | (none, stack) => (stack, .error ⟨expected, none⟩)

/-- Rolling back after any pops is rolling back before them. -/
theorem rollback_popAll (stack : UndoStack Token) (popped : List Token)
    (expected : List Symbol) :
    (popAll stack popped expected).1.rollback = stack.rollback := by
  induction expected generalizing stack popped with
  | nil => rfl
  | cons e rest ih =>
    simp only [popAll]
    split
    · next token stack' h =>
      have h' : stack'.rollback = stack.rollback := by
        rw [← UndoStack.rollback_pop stack, h]
      split
      · rw [ih, h']
      · exact h'
    · next stack' h => rw [← UndoStack.rollback_pop stack, h]

/-! ## moves -/

/-- Takes the next token of the input onto the stack. -/
def shift (b : Branch) (input : Array Token) : Branch × Except Error Unit :=
  match input[b.index]? with
  | some token =>
    ({ b with stack := (b.stack.push token).commit, index := b.index + 1 }, .ok ())
  | none => (b, .error (.noAccept (b.here input)))

/-- The token a reduction makes of the tokens popped.  A reduction of nothing
stands just before the next token of the input. -/
def reduced (b : Branch) (rule : Production) (children : List Token) (input : Array Token) :
    Token :=
  let origin := Origin.reduction b.reductions
  if children.isEmpty then
    .node
      { origin
        symbol := rule.lhs
        position := b.here input
        lookahead := if b.index < input.size then some b.index else none }
      []
  else
    .reduction origin rule.lhs children

/-- Pops the right-hand side of a production and pushes its left-hand side.  On
a mismatch the stack stays as it was. -/
def reduce (b : Branch) (rule : Production) (input : Array Token) :
    Branch × Except Error Token :=
  match popAll b.stack [] rule.rhs.reverse with
  | (stack, .error m) => ({ b with stack := stack.rollback }, .error (b.unexpected input m))
  | (stack, .ok children) =>
    let token := b.reduced rule children input
    ({ b with
        stack := (stack.commit.push token).commit
        reductions := b.reductions + 1 },
      .ok token)

/-- The mismatch between the lookahead an action wants and the token that
follows the stack top. -/
def lookaheadMismatch? (a : Action) (top : Token) (input : Array Token) : Option Mismatch :=
  match a.lookahead with
  | none => none
  | some expected =>
    let next := top.lookahead.bind (input[·]?)
    if next.map Token.symbol = some expected then none else some ⟨expected, next⟩

/-- Whether the conditions of an action hold: its lookahead first, then the
symbols it matches against the stack.  The stack is restored in any case. -/
def probe (b : Branch) (a : Action) (input : Array Token) : Branch × Except Error Unit :=
  match b.stack.peek? with
  | none =>
    match a.matched.head?.or a.lookahead with
    | some expected => (b, .error (b.unexpected input ⟨expected, none⟩))
    | none => (b, .ok ())
  | some top =>
    match lookaheadMismatch? a top input with
    | some m => (b, .error (b.unexpected input m))
    | none =>
      match popAll b.stack [] a.matched with
      | (stack, .error m) => ({ b with stack := stack.rollback }, .error (b.unexpected input m))
      | (stack, .ok _) => ({ b with stack := stack.rollback }, .ok ())

/-- Whether an accepting reduction to `token` ends the parse: nothing else is on
the stack, the token is a start symbol, and the input is used up. -/
def isComplete (b : Branch) (token : Token) (start : Symbol) (input : Array Token) : Bool :=
  b.stack.size = 1 && token.symbol = start && b.index = input.size

/-- Carries out the move of an action.  An accepting reduction that does not
end the parse is an error, but the reduction stays. -/
def execute (b : Branch) (a : Action) (start : Symbol) (input : Array Token) :
    Branch × Except Error Unit :=
  match a.move with
  | .shift => b.shift input
  | .reduce rule accepts =>
    match b.reduce rule input with
    | (b, .error e) => (b, .error e)
    | (b, .ok token) =>
      if accepts then
        if b.isComplete token start input then ({ b with status := .accepted }, .ok ())
        else (b, .error (.noAccept (b.here input)))
      else
        (b, .ok ())

/-- The trees of the tokens on the stack, bottom to top.  They are made from the
top down, so of two errors the one nearer the top is reported. -/
def trees (b : Branch) : Except Error (List Tree) :=
  match b.stack.items.mapM Token.tree with
  | .ok ts => .ok ts.reverse
  | .error e => .error e

end Branch

end ForkParser
