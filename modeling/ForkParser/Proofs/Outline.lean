import ForkParser.Proofs.Soundness

/-!
# ForkParser.Proofs.Outline

A search does not look at texts and positions.

The outline of a token is the token without its text and its position; only its
identity, its symbol and its lookahead are left, and its children, as outlines.  Trees,
errors, branches and searches have outlines of the same kind.  Every operation of a
branch gives on outlines the outline of what it gives (`Branch.popAll_outline`,
`Branch.reduce_outline`, `Branch.execute_outline`), so a step does
(`Parser.step_outline`), a whole search does (`Search.run_outline`), and so does a parse
(`Parser.parse_outline`).  The outline of a stream is made from its symbols
(`map_outline_stream`), so two streams of the same symbols are parsed alike.
-/

namespace ForkParser

/-! ## outlines of tokens and trees -/

/-- A label without its position. -/
def Label.outline (l : Label) : Label := { l with position := 0 }

namespace Token

mutual

/-- A token without its texts and positions. -/
def outline : Token → Token
  | leaf l _ => leaf l.outline ""
  | node l cs => node l.outline (outlines cs)

def outlines : List Token → List Token
  | [] => []
  | t :: ts => t.outline :: outlines ts

end

theorem outlines_eq (ts : List Token) : outlines ts = ts.map outline := by
  induction ts with
  | nil => rfl
  | cons t ts ih => rw [outlines, ih, List.map_cons]

@[simp] theorem label_outline (t : Token) : t.outline.label = t.label.outline := by
  cases t <;> rfl

@[simp] theorem symbol_outline (t : Token) : t.outline.symbol = t.symbol := by
  simp [symbol, Label.outline]

@[simp] theorem position_outline (t : Token) : t.outline.position = 0 := by
  simp [position, Label.outline]

@[simp] theorem lookahead_outline (t : Token) : t.outline.lookahead = t.lookahead := by
  simp [lookahead, Label.outline]

theorem outline_withOrigin (t : Token) (origin : Origin) :
    (t.withOrigin origin).outline = t.outline.withOrigin origin := by
  cases t <;> rfl

theorem outline_reduction (origin : Origin) (s : Symbol) (children : List Token) :
    (reduction origin s children).outline = reduction origin s (children.map outline) := by
  have hlook : (children.map outline).getLast?.bind lookahead =
      children.getLast?.bind lookahead := by
    rw [List.getLast?_map]
    cases children.getLast? <;> simp
  have hplace : ((children.map outline).head?.map position).getD 0 = 0 := by
    cases children <;> simp
  simp only [reduction, outline, outlines_eq, Label.outline, hlook, hplace]

end Token

namespace Tree

mutual

/-- A tree without its texts and positions. -/
def outline : Tree → Tree
  | leaf s _ _ => leaf s "" 0
  | node s _ cs => node s 0 (outlines cs)

def outlines : List Tree → List Tree
  | [] => []
  | t :: ts => t.outline :: outlines ts

end

theorem outlines_eq (ts : List Tree) : outlines ts = ts.map outline := by
  induction ts with
  | nil => rfl
  | cons t ts ih => rw [outlines, ih, List.map_cons]

end Tree

namespace Error

/-- An error without its position. -/
def outline : Error → Error
  | noElements symbol _ => noElements symbol 0
  | unexpectedToken expected found _ => unexpectedToken expected found 0
  | noAccept _ => noAccept 0
  | cycle symbol _ => cycle symbol 0
  | e => e

end Error

/-- A result with its value and its error mapped. -/
def mapResult {α β ε δ : Type} (value : α → β) (error : ε → δ) : Except ε α → Except δ β
  | .ok a => .ok (value a)
  | .error e => .error (error e)

/-! ## from tokens to trees -/

namespace Token

/-- The tree of an outline is the outline of the tree. -/
theorem shape_outline (t : Token) : t.outline.shape = t.shape.outline := by
  induction t using Token.induction with
  | leaf l text => rfl
  | node l cs ih =>
      simp only [outline, shape, Tree.outline, outlines_eq, shapes_eq, Tree.outlines_eq,
        List.map_map]
      exact congrArg _ (List.map_congr_left ih)

mutual

/-- A walk of an outline meets what the walk of the token meets. -/
theorem visit_outline : (t : Token) → (seen : List Origin) →
    t.outline.visit seen = mapResult id outline (t.visit seen)
  | leaf l text, seen => by
      simp only [outline, visit, Label.outline]
      split <;> rfl
  | node l cs, seen => by
      simp only [outline, visit, Label.outline]
      split
      · rfl
      · exact visitAll_outlines cs (l.origin :: seen)

theorem visitAll_outlines : (ts : List Token) → (seen : List Origin) →
    visitAll seen (outlines ts) = mapResult id outline (visitAll seen ts)
  | [], seen => rfl
  | t :: ts, seen => by
      simp only [outlines, visitAll, visit_outline t seen]
      cases t.visit seen with
      | error repeated => rfl
      | ok seen' => exact visitAll_outlines ts seen'

end

theorem tree_outline (t : Token) :
    t.outline.tree = mapResult Tree.outline Error.outline t.tree := by
  simp only [tree, visit_outline]
  cases t.visit [] with
  | error repeated => simp [mapResult, Error.outline]
  | ok seen => simp [mapResult, shape_outline]

end Token

/-- Mapping a list by functions that agree up to outlines gives results that do. -/
theorem mapM_mapResult {α β γ ε δ : Type} {f : α → Except ε β} {f' : α → Except δ γ}
    {value : β → γ} {error : ε → δ} (h : ∀ a, f' a = mapResult value error (f a)) (l : List α) :
    l.mapM f' = mapResult (List.map value) error (l.mapM f) := by
  induction l with
  | nil => rfl
  | cons a l ih =>
      rw [List.mapM_cons, List.mapM_cons, ih, h]
      cases f a with
      | error e => rfl
      | ok b => cases l.mapM f <;> rfl

/-! ## stacks -/

def Change.map {α β : Type} (f : α → β) : Change α → Change β
  | .pushed => .pushed
  | .popped value => .popped (f value)

namespace UndoStack

variable {α β : Type} (f : α → β) (s : UndoStack α)

/-- A stack with its values mapped, also those that can be brought back. -/
def map : UndoStack β := ⟨s.items.map f, s.changes.map (Change.map f)⟩

@[simp] theorem push_map (value : α) : (s.map f).push (f value) = (s.push value).map f := rfl

@[simp] theorem commit_map : (s.map f).commit = s.commit.map f := rfl

theorem pop_map : (s.map f).pop = (s.pop.1.map f, s.pop.2.map f) := by
  obtain ⟨items, changes⟩ := s
  cases items <;> rfl

@[simp] theorem peek?_map : (s.map f).peek? = s.peek?.map f := by
  simp [peek?, map]

@[simp] theorem size_map : (s.map f).size = s.size := by
  simp [size, map]

@[simp] theorem rollback_map : (s.map f).rollback = s.rollback.map f := by
  obtain ⟨items, changes⟩ := s
  simp only [rollback, map]
  induction changes generalizing items with
  | nil => rfl
  | cons change changes ih =>
      have hundo : undo (items.map f) (change.map f) = (undo items change).map f := by
        cases change <;> simp [undo, Change.map]
      rw [List.map_cons, List.foldl_cons, hundo, ih, List.foldl_cons]

end UndoStack

/-! ## branches -/

/-- A mismatch without the position of the token found. -/
def Mismatch.outline (m : Mismatch) : Mismatch := ⟨m.expected, m.found.map Token.outline⟩

def Status.outline : Status → Status
  | .failed e => .failed e.outline
  | status => status

namespace Branch

def outline (b : Branch) : Branch :=
  { b with stack := b.stack.map Token.outline, status := b.status.outline }

variable (b : Branch) (input : Array Token)

@[simp] theorem stack_outline : b.outline.stack = b.stack.map Token.outline := rfl

@[simp] theorem index_outline : b.outline.index = b.index := rfl

@[simp] theorem reductions_outline : b.outline.reductions = b.reductions := rfl

@[simp] theorem isActive_outline : b.outline.isActive = b.isActive := by
  cases h : b.status <;> simp [isActive, outline, Status.outline, h]

@[simp] theorem isAccepted_outline : b.outline.isAccepted = b.isAccepted := by
  cases h : b.status <;> simp [isAccepted, outline, Status.outline, h]

/-- Outlines all stand at one place. -/
@[simp] theorem here_outline : b.outline.here (input.map Token.outline) = 0 := by
  rw [here, Array.getElem?_map, Array.back?_map, index_outline]
  cases input[b.index]? <;> cases input.back? <;> simp

theorem unexpected_outline (m : Mismatch) :
    b.outline.unexpected (input.map Token.outline) m.outline = (b.unexpected input m).outline := by
  obtain ⟨expected, found⟩ := m
  cases found <;> simp [unexpected, Mismatch.outline, Error.outline]

/-! ## the operations of a branch -/

/-- The outcome of an operation without texts and positions. -/
def outcomeOutline {α : Type} (value : α → α) (r : Branch × Except Error α) :
    Branch × Except Error α :=
  (r.1.outline, mapResult value Error.outline r.2)

theorem popAll_outline (stack : UndoStack Token) (popped : List Token) (expected : List Symbol) :
    popAll (stack.map Token.outline) (popped.map Token.outline) expected =
      ((popAll stack popped expected).1.map Token.outline,
        mapResult (List.map Token.outline) Mismatch.outline (popAll stack popped expected).2) := by
  induction expected generalizing stack popped with
  | nil => rfl
  | cons e rest ih =>
      simp only [popAll, UndoStack.pop_map]
      rcases stack.pop with ⟨_ | token, stack'⟩
      · rfl
      · simp only [Option.map_some, Token.symbol_outline]
        split
        · exact ih stack' (token :: popped)
        · rfl

theorem shift_outline :
    b.outline.shift (input.map Token.outline) = outcomeOutline id (b.shift input) := by
  rw [shift, shift, Array.getElem?_map, index_outline]
  cases input[b.index]? with
  | none => simp [outcomeOutline, mapResult, Error.outline]
  | some token => rfl

theorem reduced_outline (rule : Production) (children : List Token) :
    b.outline.reduced rule (children.map Token.outline) (input.map Token.outline) =
      (b.reduced rule children input).outline := by
  by_cases hnil : children = []
  · simp [reduced, hnil, Token.outline, Token.outlines, Label.outline]
  · simp [reduced, hnil, Token.outline_reduction]

theorem reduce_outline (rule : Production) :
    b.outline.reduce rule (input.map Token.outline) =
      outcomeOutline Token.outline (b.reduce rule input) := by
  have hpop := popAll_outline b.stack [] rule.rhs.reverse
  rw [List.map_nil] at hpop
  simp only [reduce, stack_outline, hpop]
  rcases popAll b.stack [] rule.rhs.reverse with ⟨stack, m | children⟩
  · simp only [mapResult, unexpected_outline, UndoStack.rollback_map]
    rfl
  · simp only [mapResult, reduced_outline, UndoStack.commit_map, UndoStack.push_map]
    rfl

theorem lookaheadMismatch?_outline (a : Action) (top : Token) :
    lookaheadMismatch? a top.outline (input.map Token.outline) =
      (lookaheadMismatch? a top input).map Mismatch.outline := by
  cases hlook : a.lookahead with
  | none => simp [lookaheadMismatch?, hlook]
  | some expected =>
      have hnext : top.outline.lookahead.bind ((input.map Token.outline)[·]?) =
          (top.lookahead.bind (input[·]?)).map Token.outline := by
        rw [Token.lookahead_outline]
        cases top.lookahead <;> simp
      have hsymbol (next : Option Token) :
          (next.map Token.outline).map Token.symbol = next.map Token.symbol := by
        cases next <;> simp
      simp only [lookaheadMismatch?, hlook, hnext, hsymbol]
      split <;> rfl

theorem probe_outline (a : Action) :
    b.outline.probe a (input.map Token.outline) = outcomeOutline id (b.probe a input) := by
  simp only [probe, stack_outline, UndoStack.peek?_map]
  cases b.stack.peek? with
  | none =>
      simp only [Option.map_none]
      cases a.matched.head?.or a.lookahead with
      | none => rfl
      | some expected =>
          have herror := b.unexpected_outline input ⟨expected, none⟩
          simp only [outcomeOutline, mapResult, ← herror]
          rfl
  | some top =>
      simp only [Option.map_some, lookaheadMismatch?_outline]
      cases lookaheadMismatch? a top input with
      | some m => simp only [Option.map_some, unexpected_outline, outcomeOutline, mapResult]
      | none =>
          have hpop := popAll_outline b.stack [] a.matched
          rw [List.map_nil] at hpop
          simp only [Option.map_none, hpop]
          rcases popAll b.stack [] a.matched with ⟨stack, m | popped⟩
          · simp only [mapResult, unexpected_outline, UndoStack.rollback_map]
            rfl
          · simp only [mapResult, UndoStack.rollback_map]
            rfl

theorem execute_outline (a : Action) (start : Symbol) :
    b.outline.execute a start (input.map Token.outline) =
      outcomeOutline id (b.execute a start input) := by
  cases hmove : a.move with
  | shift => simp only [execute, hmove, shift_outline]
  | reduce rule accepts =>
      simp only [execute, hmove, reduce_outline]
      rcases b.reduce rule input with ⟨b', e | token⟩
      · rfl
      · have hcomplete : b'.outline.isComplete token.outline start (input.map Token.outline) =
            b'.isComplete token start input := by
          simp [isComplete]
        simp only [outcomeOutline, mapResult, hcomplete, here_outline]
        split
        · split <;> rfl
        · rfl

/-- The trees of an outline are the outlines of the trees. -/
theorem trees_outline :
    b.outline.trees = mapResult (List.map Tree.outline) Error.outline b.trees := by
  have htrees : (b.stack.items.map Token.outline).mapM Token.tree =
      mapResult (List.map Tree.outline) Error.outline (b.stack.items.mapM Token.tree) := by
    rw [List.mapM_map]
    exact mapM_mapResult Token.tree_outline _
  simp only [trees, outline, UndoStack.map, htrees]
  cases b.stack.items.mapM Token.tree with
  | error e => rfl
  | ok ts => simp [mapResult]

end Branch

/-! ## steps -/

namespace Parser

variable (p : Parser) (b : Branch) (input : Array Token)

theorem follow_outline (c : Candidate) :
    p.follow b.outline (input.map Token.outline) c = (p.follow b input c).outline := by
  simp only [follow, Branch.execute_outline]
  rcases b.execute c.action p.settings.start input with ⟨b', e | _⟩
  · rfl
  · rfl

theorem matching_outline (candidates : List Candidate) :
    matching b.outline (input.map Token.outline) candidates = matching b input candidates := by
  refine List.filter_congr fun c _ => ?_
  rw [probe, probe, Branch.probe_outline, Branch.outcomeOutline]
  cases (b.probe c.action input).2 <;> rfl

theorem rejection?_outline (candidates : List Candidate) :
    rejection? b.outline (input.map Token.outline) candidates =
      (rejection? b input candidates).map Error.outline := by
  induction candidates with
  | nil => rfl
  | cons c candidates ih =>
      simp only [rejection?, List.findSome?_cons] at ih ⊢
      simp only [probe, Branch.probe_outline, Branch.outcomeOutline] at ih ⊢
      cases (b.probe c.action input).2 with
      | error e => rfl
      | ok _ => exact ih

/-- The successors of an outline are the outlines of the successors. -/
theorem step_outline :
    p.step b.outline (input.map Token.outline) = (p.step b input).map Branch.outline := by
  simp only [step, decision, Branch.stack_outline, UndoStack.peek?_map]
  cases b.stack.peek? with
  | none =>
      have hfirst : ((input.map Token.outline)[0]?.map Token.position).getD 0 = 0 := by
        cases h : input[0]? <;> simp [h]
      simp only [Option.map_none, hfirst]
      rfl
  | some top =>
      simp only [Option.map_some, Token.symbol_outline]
      rcases p.table.lookup top.symbol with _ | ⟨c, _ | ⟨d, rest⟩⟩
      · simp only [Token.position_outline]
        rfl
      · simp only [follow_outline, List.map_cons, List.map_nil]
      · simp only [choose, matching_outline, rejection?_outline]
        cases matching b input (c :: d :: rest) with
        | nil =>
            simp only [Token.symbol_outline, Token.position_outline]
            cases rejection? b input (c :: d :: rest) <;> rfl
        | cons x xs =>
            simp only [List.map_map]
            exact List.map_congr_left fun c _ => p.follow_outline b input c

end Parser

/-! ## searches -/

def Failure.outline (f : Failure) : Failure := { f with error := f.error.outline }

def Forest.outline (f : Forest) : Forest := ⟨f.trees.map Tree.outline⟩

namespace Search

def outline (s : Search) : Search :=
  { active := s.active.map Branch.outline
    accepted := s.accepted.map Branch.outline
    deepest := s.deepest.map Failure.outline
    rounds := s.rounds }

variable (p : Parser) (input : Array Token) (s : Search)

/-- Which failure is the deeper one does not depend on positions. -/
theorem deeper_outline (deepest : Option Failure) (b : Branch) :
    deeper (deepest.map Failure.outline) b.outline = (deeper deepest b).map Failure.outline := by
  cases hstatus : b.status with
  | active => simp [deeper, Branch.outline, Status.outline, hstatus]
  | accepted => simp [deeper, Branch.outline, Status.outline, hstatus]
  | failed e =>
      cases deepest with
      | none => simp [deeper, Branch.outline, Status.outline, hstatus, Failure.outline]
      | some f =>
          by_cases hdeeper : f.index < b.index
          · simp [deeper, Branch.outline, Status.outline, hstatus, Failure.outline, hdeeper]
          · simp [deeper, Branch.outline, Status.outline, hstatus, Failure.outline, hdeeper]

theorem foldl_deeper_outline (branches : List Branch) (deepest : Option Failure) :
    (branches.map Branch.outline).foldl deeper (deepest.map Failure.outline) =
      (branches.foldl deeper deepest).map Failure.outline := by
  induction branches generalizing deepest with
  | nil => rfl
  | cons b branches ih =>
      rw [List.map_cons, List.foldl_cons, deeper_outline, ih, List.foldl_cons]

theorem filter_outline {P : Branch → Bool} (hP : ∀ b, P b.outline = P b) (bs : List Branch) :
    (bs.map Branch.outline).filter P = (bs.filter P).map Branch.outline := by
  have hcomp : P ∘ Branch.outline = P := funext hP
  rw [List.filter_map, hcomp]

/-- A round over an outline gives the outline of the round. -/
theorem advance_outline :
    s.outline.advance p (input.map Token.outline) = (s.advance p input).outline := by
  have hnext : successors p (input.map Token.outline) (s.active.map Branch.outline) =
      (successors p input s.active).map Branch.outline := by
    simp only [successors, List.flatMap_map, List.map_flatMap, p.step_outline]
  simp only [advance, outline, hnext, foldl_deeper_outline,
    filter_outline Branch.isActive_outline, filter_outline Branch.isAccepted_outline,
    List.map_append]

@[simp] theorem isOver_outline (settings : Settings) :
    s.outline.isOver settings = s.isOver settings := by
  simp [isOver, outline]

@[simp] theorem limit?_outline (settings : Settings) :
    s.outline.limit? settings = s.limit? settings := by
  simp [limit?, outline]

/-- A search over an outline is the outline of the search: it is over after as many
rounds, with as many branches active and as many accepted. -/
theorem run_outline (left : Nat) :
    s.outline.run p (input.map Token.outline) left = (s.run p input left).outline := by
  induction left generalizing s with
  | zero => rfl
  | succ left ih =>
      rw [run, run, isOver_outline]
      split
      · rfl
      · rw [advance_outline, ih]

theorem failure_outline (settings : Settings) :
    s.outline.failure settings = (s.failure settings).outline := by
  rw [failure, failure, limit?_outline]
  cases hlimit : s.limit? settings with
  | some e =>
      obtain rfl | rfl := eq_of_limit? hlimit
      · rfl
      · rfl
  | none => cases hdeepest : s.deepest <;> simp [outline, hdeepest, Failure.outline, Error.outline]

theorem forest_outline :
    s.outline.forest = mapResult Forest.outline Error.outline s.forest := by
  have htrees : (s.accepted.map Branch.outline).mapM Branch.trees =
      mapResult (List.map (List.map Tree.outline)) Error.outline
        (s.accepted.mapM Branch.trees) := by
    rw [List.mapM_map]
    exact mapM_mapResult Branch.trees_outline _
  simp only [forest, outline, htrees]
  cases s.accepted.mapM Branch.trees with
  | error e => rfl
  | ok trees => simp [mapResult, Forest.outline, List.map_flatten]

theorem outcome_outline (settings : Settings) :
    s.outline.outcome settings =
      mapResult Forest.outline Error.outline (s.outcome settings) := by
  rw [outcome, outcome, forest_outline, failure_outline]
  have hnone : s.outline.accepted.isEmpty = s.accepted.isEmpty := by simp [outline]
  rw [hnone]
  split <;> rfl

end Search

/-! ## parses -/

namespace Parser

theorem inputOf_outline (tokens : List Token) :
    inputOf (tokens.map Token.outline) = (inputOf tokens).map Token.outline := by
  simp [inputOf, List.zipIdx_map, Function.comp_def, Token.outline_withOrigin]

/-- The parse of an outline is the outline of the parse. -/
theorem parse_outline (p : Parser) (tokens : List Token) :
    p.parse (tokens.map Token.outline) =
      mapResult Forest.outline Error.outline (p.parse tokens) := by
  have hseed : seed ((inputOf tokens).map Token.outline) =
      mapResult Search.outline Error.outline (seed (inputOf tokens)) := by
    have hshift := Branch.shift_outline Branch.start (inputOf tokens)
    have hstart : Branch.start.outline = Branch.start := rfl
    rw [hstart] at hshift
    rw [seed, hshift, seed]
    rcases Branch.start.shift (inputOf tokens) with ⟨b, e | _⟩ <;> rfl
  simp only [parse, search, inputOf_outline, hseed, List.isEmpty_map]
  split
  · rfl
  · cases seed (inputOf tokens) with
    | error e => rfl
    | ok s => simp only [mapResult, Search.run_outline, Search.outcome_outline]

end Parser

/-! ## streams -/

/-- The symbols of a closed list of lexemes depend on the symbols of the list only. -/
theorem map_symbol_withEnd {lexemes lexemes' : List Lexeme}
    (h : lexemes.map Lexeme.symbol = lexemes'.map Lexeme.symbol) (eof : Symbol) :
    (withEnd lexemes eof).map Lexeme.symbol = (withEnd lexemes' eof).map Lexeme.symbol := by
  have hlast : lexemes.getLast?.map Lexeme.symbol = lexemes'.getLast?.map Lexeme.symbol := by
    rw [← List.getLast?_map, h, List.getLast?_map]
  cases hl : lexemes.getLast? with
  | none =>
      have hl' : lexemes'.getLast? = none := by simpa [hl] using hlast.symm
      simp [withEnd, hl, hl']
  | some l =>
      obtain ⟨l', hl', hsymbol⟩ : ∃ l', lexemes'.getLast? = some l' ∧ l'.symbol = l.symbol := by
        simpa [hl] using hlast.symm
      simp only [withEnd, hl, hl', hsymbol]
      split
      · exact h
      · simp [h]

/-- The outline of a stream is made from its symbols. -/
theorem map_outline_stream (lexemes : List Lexeme) (eof : Symbol) :
    (stream lexemes eof).map Token.outline =
      ((withEnd lexemes eof).map Lexeme.symbol).zipIdx.map fun (s, i) =>
        Lexeme.toToken ((withEnd lexemes eof).map Lexeme.symbol).length i ⟨s, "", 0⟩ := by
  simp only [stream, List.map_map, List.zipIdx_map, List.length_map]
  rfl

/-! ## parses of one outline -/

namespace Parser

/-- The results agree up to texts and positions: both are forests or none is; the
forests have as many trees, and those at one place are equal without their texts and
positions; the errors are equal without their positions. -/
structure AgreeInOutline (r r' : Except Error Forest) : Prop where
  succeed : (∃ forest, r = .ok forest) ↔ ∃ forest', r' = .ok forest'
  trees : ∀ forest forest', r = .ok forest → r' = .ok forest' →
    forest.trees.map Tree.outline = forest'.trees.map Tree.outline
  errors : ∀ e e', r = .error e → r' = .error e' → e.outline = e'.outline

theorem agreeInOutline_of_eq {r r' : Except Error Forest}
    (h : mapResult Forest.outline Error.outline r = mapResult Forest.outline Error.outline r') :
    AgreeInOutline r r' := by
  cases r with
  | error e =>
      cases r' with
      | error e' =>
          have he : e.outline = e'.outline := Except.error.inj h
          exact ⟨by simp, nofun, by rintro _ _ ⟨⟩ ⟨⟩; exact he⟩
      | ok forest' => contradiction
  | ok forest =>
      cases r' with
      | error e' => contradiction
      | ok forest' =>
          have htrees : forest.trees.map Tree.outline = forest'.trees.map Tree.outline :=
            congrArg Forest.trees (Except.ok.inj h)
          exact ⟨by simp, by rintro _ _ ⟨⟩ ⟨⟩; exact htrees, nofun⟩

/-- **Texts and positions do not matter.**  Under any limits, the parses of two streams
made from lexemes of the same symbols agree up to texts and positions. -/
theorem parse_ignores_texts (table : Table) (limits : Settings) (eof : Symbol)
    {lexemes lexemes' : List Lexeme}
    (h : lexemes.map Lexeme.symbol = lexemes'.map Lexeme.symbol) :
    AgreeInOutline ((withLimits table limits).parse (stream lexemes eof))
      ((withLimits table limits).parse (stream lexemes' eof)) := by
  have hstream : (stream lexemes eof).map Token.outline =
      (stream lexemes' eof).map Token.outline := by
    rw [map_outline_stream, map_outline_stream, map_symbol_withEnd h]
  apply agreeInOutline_of_eq
  rw [← parse_outline, hstream, parse_outline]

/-- The source `10 + 20 + 30`. -/
def spacedSums : List Lexeme :=
  [⟨⟨"N"⟩, "10", 0⟩, ⟨⟨"PLUS"⟩, "+", 3⟩, ⟨⟨"N"⟩, "20", 5⟩, ⟨⟨"PLUS"⟩, "+", 8⟩, ⟨⟨"N"⟩, "30", 10⟩]

/-- Two sums that are parsed in two ways each, and what is left of them without their
last number, which fails at different places. -/
theorem parse_ignores_texts_sums :
    ∃ table forest forest' e e', sums.table = .ok table ∧
      (withLimits table {}).parse (stream sumsSource ⟨"EOF"⟩) = .ok forest ∧
      (withLimits table {}).parse (stream spacedSums ⟨"EOF"⟩) = .ok forest' ∧
      forest.trees.length = 2 ∧ forest ≠ forest' ∧
      forest.trees.map Tree.outline = forest'.trees.map Tree.outline ∧
      (withLimits table {}).parse (stream sumsSource.dropLast ⟨"EOF"⟩) = .error e ∧
      (withLimits table {}).parse (stream spacedSums.dropLast ⟨"EOF"⟩) = .error e' ∧
      e ≠ e' ∧ e.outline = e'.outline := by
  have hg : sums.table = .ok ⟨sums.settings, sums.productions, sums.buckets⟩ := rfl
  obtain ⟨forest, hforest, forest', hforest', hlength, hne⟩ :
      ∃ forest, (withLimits ⟨sums.settings, sums.productions, sums.buckets⟩ {}).parse
        (stream sumsSource ⟨"EOF"⟩) = .ok forest ∧
      ∃ forest', (withLimits ⟨sums.settings, sums.productions, sums.buckets⟩ {}).parse
        (stream spacedSums ⟨"EOF"⟩) = .ok forest' ∧ forest.trees.length = 2 ∧
        forest ≠ forest' := ⟨_, rfl, _, rfl, rfl, by decide +kernel⟩
  obtain ⟨e, he, e', he', hplaces⟩ :
      ∃ e, (withLimits ⟨sums.settings, sums.productions, sums.buckets⟩ {}).parse
        (stream sumsSource.dropLast ⟨"EOF"⟩) = .error e ∧
      ∃ e', (withLimits ⟨sums.settings, sums.productions, sums.buckets⟩ {}).parse
        (stream spacedSums.dropLast ⟨"EOF"⟩) = .error e' ∧ e ≠ e' :=
    ⟨_, rfl, _, rfl, by decide +kernel⟩
  have hsame : sumsSource.map Lexeme.symbol = spacedSums.map Lexeme.symbol := rfl
  have hsame' : sumsSource.dropLast.map Lexeme.symbol =
      spacedSums.dropLast.map Lexeme.symbol := rfl
  have hwhole := parse_ignores_texts ⟨sums.settings, sums.productions, sums.buckets⟩ {} ⟨"EOF"⟩
    hsame
  have hcut := parse_ignores_texts ⟨sums.settings, sums.productions, sums.buckets⟩ {} ⟨"EOF"⟩
    hsame'
  exact ⟨_, forest, forest', e, e', hg, hforest, hforest', hlength, hne,
    hwhole.trees forest forest' hforest hforest', he, he', hplaces, hcut.errors e e' he he'⟩

end Parser

end ForkParser
