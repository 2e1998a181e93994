import ForkParser.Event
import ForkParser.Parser.Search

/-!
# ForkParser.Parser.Log

The events of steps and of whole searches.
-/

namespace ForkParser

namespace Parser

def followEvents (p : Parser) (b : Branch) (input : Array Token) (c : Candidate) : List Event :=
  match b.execute c.action p.settings.start input with
  | (_, .ok ()) => []
  | (_, .error e) => [.branchFailed c.occurrence e]

def stepEvents (p : Parser) (b : Branch) (input : Array Token) : List Event :=
  match p.decision b input with
  | .emptyStack _ => []
  | .noCandidates symbol position => [.noCandidates symbol position]
  | .forced c => .forced c.occurrence :: p.followEvents b input c
  | .noMatch symbol error => [.noMatch symbol error]
  | .choice symbol cs =>
    (if 1 < cs.length then [.fork symbol cs.length] else [])
      ++ cs.flatMap (p.followEvents b input)

def roundEvents (p : Parser) (input : Array Token) (branches : List Branch) : List Event :=
  branches.flatMap fun b => p.stepEvents b input

end Parser

namespace Search

def runEvents (p : Parser) (input : Array Token) : (left : Nat) → Search → List Event
  | 0, _ => []
  | left + 1, s =>
    if s.isOver p.settings then []
    else p.roundEvents input s.active ++ runEvents p input left (s.advance p input)

def endEvents (settings : Settings) (s : Search) : List Event :=
  (match s.limit? settings with
    | some e => [.limitReached s.rounds s.active.length e]
    | none => [])
  ++ if s.accepted.isEmpty then [.parseFailed s.rounds (s.failure settings)]
    else [.parseAccepted s.rounds s.accepted.length]

end Search

/-- What parsing a token stream reports. -/
def Parser.events (p : Parser) (tokens : List Token) : List Event :=
  if tokens.isEmpty then []
  else
    let input := inputOf tokens
    match seed input, p.search input with
    | .ok first, .ok last =>
      first.runEvents p input p.settings.maxSteps ++ last.endEvents p.settings
    | _, _ => []

/-- What the rounds from given active branches on report. -/
def Parser.roundsEvents (p : Parser) (input : Array Token) :
    (left : Nat) → List Branch → List Event
  | 0, _ => []
  | left + 1, active =>
    if active.isEmpty then []
    else
      p.roundEvents input active
        ++ p.roundsEvents input left
          ((Search.successors p input active).filter Branch.isActive)

end ForkParser
