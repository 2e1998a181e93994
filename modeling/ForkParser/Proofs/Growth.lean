import ForkParser.Proofs.Derivation
import ForkParser.Proofs.Identity
import ForkParser.Proofs.Places

/-!
# ForkParser.Proofs.Growth

What stands on the stack of a branch, over an input of leaves.

A token is grown from leaves by reductions (`Token.Grown`), and its tree is then
grown by the same productions.  `Branch.Consistent` is the invariant of a search:
the leaves on the stack, bottom to top, are the input tokens taken so far, and
every token there is grown.  Taking a token and reducing keep it
(`Consistent.taking`, `Consistent.reducing`), and it ties the lookahead of the
stack top to the last token taken (`Consistent.lookahead_top`).
-/

namespace ForkParser

/-! ## the tree of a token -/

namespace Token

/-- A leaf as the lexeme it was made from.  An inner token has no text of its
own. -/
def lexeme (t : Token) : Lexeme := ⟨t.symbol, t.text?.getD "", t.position⟩

theorem shapes_eq (ts : List Token) : shapes ts = ts.map shape := by
  induction ts with
  | nil => rfl
  | cons t ts ih => rw [shapes, ih, List.map_cons]

@[simp] theorem symbol_shape (t : Token) : t.shape.symbol = t.symbol := by
  cases t <;> rfl

@[simp] theorem position_shape (t : Token) : t.shape.position = t.position := by
  cases t <;> rfl

theorem map_symbol_shape (ts : List Token) :
    (ts.map shape).map Tree.symbol = ts.map Token.symbol := by
  rw [List.map_map]
  exact List.map_congr_left fun t _ => t.symbol_shape

theorem head?_position_shape (ts : List Token) :
    (ts.map shape).head?.map Tree.position = ts.head?.map Token.position := by
  cases ts with
  | nil => rfl
  | cons t rest => simp

mutual

/-- The leaves of a token from left to right. -/
def frontier : Token → List Token
  | leaf l text => [leaf l text]
  | node _ cs => frontierAll cs

def frontierAll : List Token → List Token
  | [] => []
  | t :: ts => t.frontier ++ frontierAll ts

end

theorem frontierAll_eq (ts : List Token) : frontierAll ts = ts.flatMap frontier := by
  induction ts with
  | nil => rfl
  | cons t ts ih => rw [frontierAll, ih, List.flatMap_cons]

/-- The leaves of a token's tree are the lexemes of its leaves. -/
theorem leaves_shape (t : Token) : t.shape.leaves = t.frontier.map lexeme := by
  induction t using Token.induction with
  | leaf l text => rfl
  | node l cs ih =>
      rw [shape, Tree.leaves, Tree.leavesAll_eq, shapes_eq, frontier, frontierAll_eq,
        List.flatMap_map, List.map_flatMap, List.flatMap_def, List.flatMap_def,
        List.map_congr_left ih]

theorem leavesAll_map_shape (ts : List Token) :
    Tree.leavesAll (ts.map shape) = (ts.flatMap frontier).map lexeme := by
  rw [Tree.leavesAll_eq, List.flatMap_map, List.map_flatMap, List.flatMap_def, List.flatMap_def,
    List.map_congr_left fun t _ => t.leaves_shape]

/-- The tree of a reduction is a node that starts where the first child does. -/
theorem shape_reduction {origin : Origin} {symbol : Symbol} {c : Token} {rest : List Token} :
    (reduction origin symbol (c :: rest)).shape =
      .node symbol c.position ((c :: rest).map shape) := by
  rw [reduction, shape, shapes_eq]
  rfl

/-! ## grown tokens -/

/-- A token grown from leaves by reductions with the productions `rules`. -/
inductive Grown (rules : List Production) : Token → Prop
  | leaf (l : Label) (text : String) : Grown rules (.leaf l text)
  | reduction (origin : Origin) {symbol : Symbol} {children : List Token} (hne : children ≠ [])
      (hrule : ⟨symbol, children.map Token.symbol⟩ ∈ rules)
      (hchildren : ∀ c ∈ children, Grown rules c) :
      Grown rules (.reduction origin symbol children)

theorem Grown.of_isLeaf {rules : List Production} {t : Token} (h : t.isLeaf = true) :
    t.Grown rules := by
  cases t with
  | leaf l text => exact .leaf l text
  | node => contradiction

/-- The tree of a grown token is grown. -/
theorem Grown.shape {rules : List Production} {t : Token} (h : t.Grown rules) :
    t.shape.Grown rules := by
  induction h with
  | leaf l text => exact .leaf _ _ _
  | @reduction origin symbol children hne hrule hchildren ih =>
      obtain ⟨c, rest, rfl⟩ := List.exists_cons_of_ne_nil hne
      rw [shape_reduction]
      refine .node (mt List.map_eq_nil_iff.1 hne) ?_ ?_ ?_
      · rw [map_symbol_shape]
        exact hrule
      · simp
      · intro d hd
        obtain ⟨e, he, rfl⟩ := List.mem_map.1 hd
        exact ih e he

/-- A grown token has leaves. -/
theorem Grown.frontier_ne_nil {rules : List Production} {t : Token} (h : t.Grown rules) :
    t.frontier ≠ [] := by
  intro hnil
  apply h.shape.leaves_ne_nil
  rw [leaves_shape, hnil, List.map_nil]

/-- Of several tokens the last one has the last leaf. -/
theorem getLast?_frontier {rules : List Production} {t : Token} (h : t.Grown rules)
    (front : List Token) :
    ((front ++ [t]).flatMap frontier).getLast? = t.frontier.getLast? := by
  rw [List.flatMap_append, List.flatMap_singleton, List.getLast?_append,
    List.getLast?_eq_some_getLast h.frontier_ne_nil, Option.some_or]

/-- A grown token looks ahead at what follows its last leaf. -/
theorem Grown.lookahead_eq {rules : List Production} {t : Token} (h : t.Grown rules) :
    t.lookahead = t.frontier.getLast?.bind Token.lookahead := by
  induction h with
  | leaf => rfl
  | @reduction origin symbol children hne hrule hchildren ih =>
      obtain ⟨front, c, rfl⟩ : ∃ front c, children = front ++ [c] :=
        ⟨_, _, (List.dropLast_concat_getLast hne).symm⟩
      have hc : c ∈ front ++ [c] := by simp
      have hlook : (Token.reduction origin symbol (front ++ [c])).lookahead = c.lookahead := by
        simp [Token.reduction, Token.lookahead, Token.label]
      rw [hlook, ih c hc, Token.reduction, frontier, frontierAll_eq,
        getLast?_frontier (hchildren c hc)]

end Token

/-! ## the invariant of a search -/

namespace Branch

/-- The stack holds the input taken so far, grown by `rules`. -/
structure Consistent (rules : List Production) (input : Array Token) (b : Branch) : Prop where
  index_le : b.index ≤ input.size
  frontier_eq : b.stack.toList.flatMap Token.frontier = input.toList.take b.index
  grown : ∀ t ∈ b.stack.items, t.Grown rules

theorem status_eq_active {b : Branch} (h : b.isActive = true) : b.status = .active := by
  rwa [isActive, decide_eq_true_eq] at h

/-- Taking a leaf keeps a branch consistent. -/
theorem Consistent.taking {rules : List Production} {input : Array Token} {b : Branch}
    {token : Token} (hb : b.Consistent rules input) (h : input[b.index]? = some token)
    (hleaf : token.isLeaf = true) : (b.taking token).Consistent rules input := by
  have hlt : b.index < input.size := (Array.getElem?_eq_some_iff.1 h).1
  have hfrontier : token.frontier = [token] := by
    cases token with
    | leaf => rfl
    | node => contradiction
  refine ⟨hlt, ?_, ?_⟩
  · have hold := hb.frontier_eq
    rw [UndoStack.toList] at hold
    simp only [Branch.taking, UndoStack.toList, List.reverse_cons, List.flatMap_append,
      List.flatMap_singleton, hold, hfrontier, take_index_succ h]
  · intro t ht
    rcases List.mem_cons.1 ht with rfl | ht
    · exact .of_isLeaf hleaf
    · exact hb.grown t ht

theorem reduced_eq (b : Branch) (rule : Production) {children : List Token}
    (hne : children ≠ []) (input : Array Token) :
    b.reduced rule children input = .reduction (.reduction b.reductions) rule.lhs children := by
  rw [reduced, List.isEmpty_eq_false_iff.2 hne]
  rfl

/-- The tree of a reduction of some tokens starts where the first of them does. -/
theorem shape_reduced (b : Branch) (rule : Production) {children : List Token} {q : Nat}
    (hpos : children.head?.map Token.position = some q) (input : Array Token) :
    (b.reduced rule children input).shape = .node rule.lhs q (children.map Token.shape) := by
  cases children with
  | nil => contradiction
  | cons c rest =>
      obtain rfl : c.position = q := Option.some.inj hpos
      rw [reduced_eq b rule (List.cons_ne_nil c rest), Token.shape_reduction]

/-- A reduction by one of the productions keeps a branch consistent. -/
theorem Consistent.reducing {rules : List Production} {input : Array Token} {b : Branch}
    {rule : Production} {children rest : List Token} (hb : b.Consistent rules input)
    (hitems : b.stack.items = children.reverse ++ rest)
    (hsymbols : children.map Token.symbol = rule.rhs) (hne : rule.rhs ≠ [])
    (hrule : rule ∈ rules) :
    (b.reducing (b.reduced rule children input) rest).Consistent rules input := by
  have hchildren : children ≠ [] := by
    rintro rfl
    exact hne hsymbols.symm
  have hreduced := b.reduced_eq rule hchildren input
  refine ⟨hb.index_le, ?_, ?_⟩
  · have hold := hb.frontier_eq
    rw [UndoStack.toList, hitems, List.reverse_append, List.reverse_reverse,
      List.flatMap_append] at hold
    simp only [Branch.reducing, UndoStack.toList, List.reverse_cons, List.flatMap_append,
      List.flatMap_singleton, hreduced, Token.reduction, Token.frontier, Token.frontierAll_eq]
    exact hold
  · intro t ht
    rcases List.mem_cons.1 ht with rfl | ht
    · rw [hreduced]
      refine .reduction _ hchildren (by rw [hsymbols]; exact hrule) fun c hc => hb.grown c ?_
      rw [hitems]
      exact List.mem_append_left _ (List.mem_reverse.2 hc)
    · exact hb.grown t (hitems ▸ List.mem_append_right _ ht)

/-- Something is on the stack only after something was taken. -/
theorem Consistent.index_pos {rules : List Production} {input : Array Token} {b : Branch}
    (hb : b.Consistent rules input) {top : Token} (htop : top ∈ b.stack.items) : 0 < b.index := by
  refine Nat.pos_of_ne_zero fun hzero => (hb.grown top htop).frontier_ne_nil ?_
  have hfrontier := hb.frontier_eq
  rw [hzero, List.take_zero, List.flatMap_eq_nil_iff] at hfrontier
  exact hfrontier top (List.mem_reverse.2 htop)

/-- The top of a consistent stack looks ahead as the last token taken does. -/
theorem Consistent.lookahead_top {rules : List Production} {input : Array Token} {b : Branch}
    (hb : b.Consistent rules input) {top : Token} {rest : List Token}
    (hitems : b.stack.items = top :: rest) :
    top.lookahead = (input[b.index - 1]?).bind Token.lookahead := by
  have htop : top ∈ b.stack.items := hitems ▸ List.mem_cons_self
  have hlast : (input.toList.take b.index).getLast? = top.frontier.getLast? := by
    rw [← hb.frontier_eq, UndoStack.toList, hitems, List.reverse_cons,
      Token.getLast?_frontier (hb.grown top htop)]
  have hlen : (input.toList.take b.index).length = b.index := by
    rw [List.length_take, Array.length_toList]
    exact Nat.min_eq_left hb.index_le
  have hpos := hb.index_pos htop
  rw [(hb.grown top htop).lookahead_eq, ← hlast, List.getLast?_eq_getElem?, hlen,
    List.getElem?_take_of_lt (by omega), Array.getElem?_toList]

end Branch

/-! ## linked inputs -/

/-- Each token looks ahead at the next one, and the last one at nothing. -/
def Linked (input : Array Token) : Prop :=
  ∀ i token, input[i]? = some token →
    token.lookahead = if i + 1 < input.size then some (i + 1) else none

/-- On a linked input the top of a consistent stack looks ahead at the next token
to be taken. -/
theorem Branch.Consistent.lookahead_top_of_linked {rules : List Production} {input : Array Token}
    {b : Branch} (hb : b.Consistent rules input) (hlinked : Linked input) {top : Token}
    {rest : List Token} (hitems : b.stack.items = top :: rest) :
    top.lookahead = if b.index < input.size then some b.index else none := by
  have hpos := hb.index_pos (hitems ▸ List.mem_cons_self : top ∈ b.stack.items)
  have hle := hb.index_le
  have hlast : input[b.index - 1]? = some input[b.index - 1] :=
    Array.getElem?_eq_getElem (by omega)
  have hnext : b.index - 1 + 1 = b.index := Nat.sub_add_cancel hpos
  rw [hb.lookahead_top hitems, hlast, Option.bind_some, hlinked _ _ hlast, hnext]

theorem isLeaf_stream (lexemes : List Lexeme) (eof : Symbol) :
    ∀ t ∈ stream lexemes eof, t.isLeaf = true := by
  intro t ht
  obtain ⟨⟨l, i⟩, -, rfl⟩ := List.mem_map.1 ht
  rfl

theorem withEnd_ne_nil (lexemes : List Lexeme) (eof : Symbol) : withEnd lexemes eof ≠ [] := by
  rw [withEnd]
  split
  · next l hl =>
      split
      · exact List.ne_nil_of_mem (List.mem_of_getLast? hl)
      · simp
  · simp

theorem stream_ne_nil (lexemes : List Lexeme) (eof : Symbol) : stream lexemes eof ≠ [] := by
  simp [stream, withEnd_ne_nil]

theorem linked_stream (lexemes : List Lexeme) (eof : Symbol) :
    Linked (Parser.inputOf (stream lexemes eof)) := by
  intro i token h
  have hsize : (Parser.inputOf (stream lexemes eof)).size = (withEnd lexemes eof).length := by
    simp [Parser.inputOf, stream]
  have hplace : (Parser.inputOf (stream lexemes eof))[i]? = (withEnd lexemes eof)[i]?.map fun l =>
      (l.toToken (withEnd lexemes eof).length i).withOrigin (.input i) := by
    simp [Parser.inputOf, stream, List.getElem?_zipIdx, Function.comp_def]
  rw [hplace, Option.map_eq_some_iff] at h
  obtain ⟨l, -, rfl⟩ := h
  rw [hsize]
  rfl

end ForkParser
