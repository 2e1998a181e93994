import ForkParser.Proofs.Choice
import ForkParser.Proofs.Growth

/-!
# ForkParser.Proofs.History

The moves of a branch can be read off its stack.

A tree is built in one order only: its children one after the other and then the
node itself (`Tree.moves`).  What a branch has on its stack therefore tells all the
moves it has made, in their order (`Branch.history`), and each further move that
does not fail adds itself at the end (`Branch.Effect.history`,
`Parser.history_follow`).  So a branch that `n` steps lead to has made `n + 1` moves,
the first token being taken before the first step (`Parser.Reaches.length_history`).
-/

namespace ForkParser

namespace Tree

mutual

/-- The moves that build a tree, first to last.  A leaf is taken from the input; a node
is reduced when its children are there, and accepts if it ends with the end of
input. -/
def moves (eof : Symbol) : Tree → List Move
  | leaf .. => [.shift]
  | node s _ cs =>
    movesAll eof cs ++ [.reduce ⟨s, cs.map symbol⟩ ((cs.map symbol).getLast? = some eof)]

def movesAll (eof : Symbol) : List Tree → List Move
  | [] => []
  | t :: ts => t.moves eof ++ movesAll eof ts

end

theorem movesAll_append (eof : Symbol) (ts us : List Tree) :
    movesAll eof (ts ++ us) = movesAll eof ts ++ movesAll eof us := by
  induction ts with
  | nil => rfl
  | cons t ts ih => simp [movesAll, ih]

theorem movesAll_singleton (eof : Symbol) (t : Tree) : movesAll eof [t] = t.moves eof := by
  simp [movesAll]

end Tree

/-! ## the moves of a branch -/

namespace Branch

variable {eof : Symbol} {input : Array Token} {b b' : Branch}

/-- The moves that have led to what is on the stack. -/
def history (eof : Symbol) (b : Branch) : List Move :=
  Tree.movesAll eof (b.stack.toList.map Token.shape)

/-- Taking a leaf adds a shift. -/
theorem history_taking {token : Token} (hleaf : token.isLeaf = true) :
    (b.taking token).history eof = b.history eof ++ [.shift] := by
  cases token with
  | leaf l text =>
      simp [history, taking, UndoStack.toList, Tree.movesAll_append, Tree.movesAll_singleton,
        Token.shape, Tree.moves]
  | node => contradiction

/-- A reduction adds itself, after the moves of its children. -/
theorem history_reducing {rule : Production} {children rest : List Token}
    (hitems : b.stack.items = children.reverse ++ rest)
    (hsymbols : children.map Token.symbol = rule.rhs) (hne : rule.rhs ≠ []) :
    (b.reducing (b.reduced rule children input) rest).history eof =
      b.history eof ++ [.reduce rule (rule.rhs.getLast? = some eof)] := by
  have hchildren : children ≠ [] := by
    rintro rfl
    exact hne hsymbols.symm
  obtain ⟨c, more, rfl⟩ := List.exists_cons_of_ne_nil hchildren
  have hmoves : (b.reduced rule (c :: more) input).shape.moves eof =
      Tree.movesAll eof ((c :: more).map Token.shape) ++
        [.reduce rule (rule.rhs.getLast? = some eof)] := by
    rw [shape_reduced b rule rfl, Tree.moves, Token.map_symbol_shape, hsymbols]
  simp [history, reducing, UndoStack.toList, hitems, Tree.movesAll_append,
    Tree.movesAll_singleton, hmoves]

/-- A move that does not fail is added to the history, if it reduces by a production
with symbols and accepts when that ends with the end of input. -/
theorem Effect.history {start : Symbol} {move : Move} (h : b.Effect start input move b')
    (hlive : b'.error? = none) (hleaf : ∀ t ∈ input, t.isLeaf = true)
    (hmove : ∀ {rule accepts}, move = .reduce rule accepts →
      rule.rhs ≠ [] ∧ (accepts = true ↔ rule.rhs.getLast? = some eof)) :
    b'.history eof = b.history eof ++ [move] := by
  cases h with
  | taken h => exact history_taking (hleaf _ (Array.mem_of_getElem? h))
  | exhausted => contradiction
  | mismatched => contradiction
  | @reduced rule children rest hitems hsymbols =>
      obtain ⟨hne, haccepts⟩ := hmove rfl
      rw [history_reducing hitems hsymbols hne, decide_eq_false (mt haccepts.2 Bool.false_ne_true)]
  | @accepted rule children hitems hsymbols =>
      obtain ⟨hne, haccepts⟩ := hmove rfl
      have hitems' : b.stack.items = children.reverse ++ [] := by simp [hitems]
      rw [← decide_eq_true (haccepts.1 rfl)]
      exact history_reducing hitems' hsymbols hne
  | refused => contradiction

end Branch

namespace Parser

variable {g : Grammar} {p : Parser} {input : Array Token}

/-- Following a candidate adds its move, unless it fails. -/
theorem history_follow (hg : g.table = .ok p.table) (hleaf : ∀ t ∈ input, t.isLeaf = true)
    {b : Branch} (hcommitted : b.stack.changes = []) {c : Candidate}
    (hc : c ∈ p.chosen b input) (hlive : (p.follow b input c).error? = none) :
    (p.follow b input c).history g.settings.eof =
      b.history g.settings.eof ++ [c.action.move] := by
  obtain ⟨top, -, hlookup⟩ := exists_top_of_mem_chosen hc
  refine (effect_follow hcommitted c).history hlive hleaf fun hmove => ?_
  obtain ⟨-, hne, haccepts⟩ := Table.reduce_of_mem_lookup hg hlookup hmove
  exact ⟨hne, haccepts⟩

/-- After `n` steps a branch has made `n + 1` moves. -/
theorem Reaches.length_history (hg : g.table = .ok p.table)
    (hleaf : ∀ t ∈ input, t.isLeaf = true) {n : Nat} {b : Branch} (h : p.Reaches input n b)
    (hlive : b.error? = none) : (b.history g.settings.eof).length = n + 1 := by
  obtain ⟨token, htoken, hrun⟩ := h
  generalize hfirst : Branch.start.taking token = first at hrun
  induction hrun with
  | refl b =>
      rw [← hfirst, Branch.history_taking (hleaf _ (Array.mem_of_getElem? htoken))]
      rfl
  | @step n a b b' hrun hactive hstep ih =>
      have hcommitted := (Reaches.accounted (p := p) ⟨token, htoken, hfirst ▸ hrun⟩).committed
      obtain ⟨c, hc, rfl⟩ := exists_chosen_of_mem_step hstep hlive
      rw [history_follow hg hleaf hcommitted hc hlive, List.length_append,
        ih (Branch.error?_of_isActive hactive) hfirst]
      rfl

end Parser

end ForkParser
