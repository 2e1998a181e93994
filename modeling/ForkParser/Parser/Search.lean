import ForkParser.Parser.Basic

/-!
# ForkParser.Parser.Search

The search over all branches, breadth first.  In each round every active branch
is replaced by its successors.  The search ends when no branch is active, when
there are too many of them, or when it has had all its rounds; what was
accepted until then is kept.
-/

namespace ForkParser

/-- An error and how much input its branch had taken. -/
structure Failure where
  index : Nat
  error : Error
deriving DecidableEq

/-- The state of a search between two rounds. -/
structure Search where
  /-- The branches that can go on. -/
  active : List Branch
  /-- The branches accepted so far, in the order of acceptance. -/
  accepted : List Branch := []
  /-- Of the failed branches, the first that had taken the most input. -/
  deepest : Option Failure := none
  rounds : Nat := 0

namespace Search

/-- The deeper of the deepest failure so far and a branch, if that has failed;
the earlier one if both had taken as much input. -/
def deeper (deepest : Option Failure) (b : Branch) : Option Failure :=
  match b.status, deepest with
  | .failed e, none => some ⟨b.index, e⟩
  | .failed e, some f => if f.index < b.index then some ⟨b.index, e⟩ else some f
  | _, _ => deepest

/-- The successors of all branches, in order. -/
def successors (p : Parser) (input : Array Token) (branches : List Branch) : List Branch :=
  branches.flatMap fun b => p.step b input

def advance (p : Parser) (input : Array Token) (s : Search) : Search :=
  let next := successors p input s.active
  { active := next.filter Branch.isActive
    accepted := s.accepted ++ next.filter Branch.isAccepted
    deepest := next.foldl deeper s.deepest
    rounds := s.rounds + 1 }

/-- Whether no round may follow, however many are left: nothing is active, or
too much. -/
def isOver (settings : Settings) (s : Search) : Bool :=
  s.active.isEmpty || settings.maxBranches < s.active.length

/-- Plays rounds until the search is over, at most `left` of them. -/
def run (p : Parser) (input : Array Token) : (left : Nat) → Search → Search
  | 0, s => s
  | left + 1, s => if s.isOver p.settings then s else run p input left (s.advance p input)

/-- The limit that stopped a search, if branches were still active.  The number
of branches is looked at before the number of rounds. -/
def limit? (settings : Settings) (s : Search) : Option Error :=
  if s.active.isEmpty then none
  else if settings.maxBranches < s.active.length then some (.branchLimit settings.maxBranches)
  else some (.stepLimit settings.maxSteps)

/-- The error of a search that accepted nothing: the limit that stopped it, or
else the deepest failure. -/
def failure (settings : Settings) (s : Search) : Error :=
  ((s.limit? settings).or (s.deepest.map Failure.error)).getD (.noAccept 0)

def forest (s : Search) : Except Error Forest :=
  match s.accepted.mapM Branch.trees with
  | .ok trees => .ok ⟨trees.flatten⟩
  | .error e => .error e

def outcome (settings : Settings) (s : Search) : Except Error Forest :=
  if s.accepted.isEmpty then .error (s.failure settings) else s.forest

end Search

namespace Parser

/-- The tokens of a stream as the input of a search.  Each place of the stream
is a token of its own, though the same token may stand at several places;
below the top, shared tokens stay shared. -/
def inputOf (tokens : List Token) : Array Token :=
  (tokens.zipIdx.map fun (t, i) => t.withOrigin (.input i)).toArray

/-- The search before its first round: one branch, with the first token of the
input on its stack. -/
def seed (input : Array Token) : Except Error Search :=
  match Branch.start.shift input with
  | (b, .ok ()) => .ok { active := [b] }
  | (_, .error e) => .error e

/-- The search over an input at its end. -/
def search (p : Parser) (input : Array Token) : Except Error Search :=
  match seed input with
  | .ok s => .ok (s.run p input p.settings.maxSteps)
  | .error e => .error e

/-- Every tree of a token stream, or why there is none. -/
def parse (p : Parser) (tokens : List Token) : Except Error Forest :=
  if tokens.isEmpty then
    .error (.invalidInput "the token stream is empty")
  else
    match p.search (inputOf tokens) with
    | .ok s => s.outcome p.settings
    | .error e => .error e

/-- The successors of each of the first `left` rounds, from given active
branches on, without any limit on their number. -/
def rounds (p : Parser) (input : Array Token) : (left : Nat) → List Branch → List (List Branch)
  | 0, _ => []
  | left + 1, active =>
    if active.isEmpty then []
    else
      let next := Search.successors p input active
      next :: p.rounds input left (next.filter Branch.isActive)

end Parser

end ForkParser
