import ForkParser.Proofs.Growth

/-!
# ForkParser.Proofs.Invariant

What holds of a branch at every moment of its life.

`Parser.Visited` is every branch that comes up when the first token is taken and
then steps are made, any number of them and whichever successor is taken; also
failed and accepted branches are stepped on.  `Branch.Tidy` is what all of them
have in common over a stream.  It is read off two invariants of single steps:
the identities are accounted for (`Branch.Accounted`), so nothing is left to
undo, and the stack holds the input taken so far, grown by the productions
(`Branch.Consistent`), which no move disturbs (`Branch.Effect.consistent`).
-/

namespace ForkParser

/-- A grown token starts where its first leaf does. -/
theorem Token.Grown.head?_frontier {rules : List Production} {t : Token} (h : t.Grown rules) :
    t.frontier.head?.map Token.position = some t.position := by
  have hshape := h.shape.head?_leaves
  rw [leaves_shape, position_shape] at hshape
  cases hfrontier : t.frontier with
  | nil => exact absurd hfrontier h.frontier_ne_nil
  | cons leaf rest => simpa [hfrontier, lexeme] using hshape

namespace Branch

variable {rules : List Production} {input : Array Token} {b b' : Branch}

/-- A branch that has failed holds what it held. -/
theorem Consistent.fail (hb : b.Consistent rules input) (e : Error) :
    (b.fail e).Consistent rules input :=
  ⟨hb.index_le, hb.frontier_eq, hb.grown⟩

/-- No move disturbs a branch: a move that fails leaves the stack as it was or
with a reduction on it, and a reduction is by one of the productions. -/
theorem Effect.consistent {start : Symbol} {move : Move} (h : b.Effect start input move b')
    (hb : b.Consistent rules input) (hleaf : ∀ t ∈ input, t.isLeaf = true)
    (hmove : ∀ {rule accepts}, move = .reduce rule accepts → rule ∈ rules ∧ rule.rhs ≠ []) :
    b'.Consistent rules input := by
  cases h with
  | taken h => exact hb.taking h (hleaf _ (Array.mem_of_getElem? h))
  | exhausted => exact hb.fail _
  | mismatched => exact hb.fail _
  | reduced hitems hsymbols =>
      obtain ⟨hrule, hne⟩ := hmove rfl
      exact hb.reducing hitems hsymbols hne hrule
  | @accepted rule children hitems hsymbols =>
      obtain ⟨hrule, hne⟩ := hmove rfl
      have hitems' : b.stack.items = children.reverse ++ [] := by simp [hitems]
      have hreduced := hb.reducing hitems' hsymbols hne hrule
      exact ⟨hreduced.index_le, hreduced.frontier_eq, hreduced.grown⟩
  | refused hitems hsymbols =>
      obtain ⟨hrule, hne⟩ := hmove rfl
      exact (hb.reducing hitems hsymbols hne hrule).fail _

/-- No move empties a stack. -/
theorem Effect.items_ne_nil {start : Symbol} {move : Move} (h : b.Effect start input move b')
    (hb : b.stack.items ≠ []) : b'.stack.items ≠ [] := by
  cases h with
  | taken => simp [taking]
  | exhausted => exact hb
  | mismatched => exact hb
  | reduced => simp [reducing]
  | accepted => simp [reducing]
  | refused => simp [reducing, fail]

/-- On a linked input every token of a consistent stack looks ahead at what follows
its last leaf in the input. -/
theorem Consistent.lookahead_of_linked (hb : b.Consistent rules input) (hlinked : Linked input)
    {front back : List Token} {t : Token} (hstack : b.stack.toList = front ++ t :: back) :
    ∃ i < input.size, t.frontier.getLast? = input[i]? ∧
      t.lookahead = if i + 1 < input.size then some (i + 1) else none := by
  have hgrown : t.Grown rules := by
    refine hb.grown t (List.mem_reverse.1 ?_)
    rw [← UndoStack.toList, hstack]
    simp
  -- what stands up to `t` is the beginning of the input that ends with the last leaf of `t`
  let upTo := (front ++ [t]).flatMap Token.frontier
  have hbegins : upTo <+: input.toList := by
    refine List.IsPrefix.trans ⟨back.flatMap Token.frontier, ?_⟩ (List.take_prefix b.index _)
    rw [← hb.frontier_eq, hstack, ← List.flatMap_append]
    simp
  have hpos : 0 < upTo.length := by
    have hne := hgrown.frontier_ne_nil
    simp only [upTo, List.flatMap_append, List.flatMap_singleton, List.length_append]
    have := List.length_pos_iff.2 hne
    omega
  have hle : upTo.length ≤ input.size := by
    rw [← Array.length_toList]
    exact hbegins.length_le
  have hlast : t.frontier.getLast? = input[upTo.length - 1]? := by
    rw [← Token.getLast?_frontier hgrown front, List.getLast?_eq_getElem?,
      ← Array.getElem?_toList]
    obtain ⟨rest, hrest⟩ := hbegins
    rw [← hrest, List.getElem?_append_left (by omega)]
  have htoken : input[upTo.length - 1]? = some input[upTo.length - 1] :=
    Array.getElem?_eq_getElem (by omega)
  refine ⟨upTo.length - 1, by omega, hlast, ?_⟩
  rw [hgrown.lookahead_eq, hlast, htoken, Option.bind_some, hlinked _ _ htoken]

/-- What a branch over the stream `tokens` keeps in order, the table having the
productions `rules`: the leaves on the stack, bottom to top, are the tokens taken
so far; nothing is left to undo; each token on the stack starts where its first
leaf does and looks ahead at the token after its last leaf, if there is one, so the
top looks ahead at the next token to be taken; and every inner node spells a
production. -/
structure Tidy (rules : List Production) (tokens : List Token) (b : Branch) : Prop where
  index_le : b.index ≤ tokens.length
  taken : b.stack.toList.flatMap Token.frontier = tokens.take b.index
  settled : b.stack.pending = 0
  starts : ∀ t ∈ b.stack.toList, t.frontier.head?.map Token.position = some t.position
  ahead : ∀ t ∈ b.stack.toList, ∃ i < tokens.length, t.frontier.getLast? = tokens[i]? ∧
    t.lookahead = if i + 1 < tokens.length then some (i + 1) else none
  next : b.index < tokens.length →
    ∃ top, b.stack.peek? = some top ∧ top.lookahead = some b.index
  spells : ∀ t ∈ b.stack.toList, ∀ n ∈ t.shape.nodes, n.text? = none →
    n.children ≠ [] ∧ ⟨n.symbol, n.children.map Tree.symbol⟩ ∈ rules

/-- Over a linked input, a consistent branch with nothing to undo is tidy. -/
theorem Consistent.tidy {tokens : List Token} (hb : b.Consistent rules tokens.toArray)
    (hlinked : Linked tokens.toArray) (hcommitted : b.stack.changes = [])
    (hne : b.stack.items ≠ []) : b.Tidy rules tokens where
  index_le := by simpa using hb.index_le
  taken := hb.frontier_eq
  settled := by simp [UndoStack.pending, hcommitted]
  starts t ht := (hb.grown t (List.mem_reverse.1 ht)).head?_frontier
  ahead t ht := by
    obtain ⟨front, back, hstack⟩ := List.append_of_mem ht
    simpa using hb.lookahead_of_linked hlinked hstack
  next hlt := by
    obtain ⟨top, rest, hitems⟩ := List.exists_cons_of_ne_nil hne
    refine ⟨top, by simp [UndoStack.peek?, hitems], ?_⟩
    rw [hb.lookahead_top_of_linked hlinked hitems, List.size_toArray, if_pos hlt]
  spells t ht n hn htext :=
    (Tree.grown_iff_forall_nodes.1 (hb.grown t (List.mem_reverse.1 ht)).shape n hn htext).1

end Branch

namespace Parser

/-- The branches that come up when the first token of the input is taken and then
any number of steps are made, with any successor taken at each. -/
inductive Visited (p : Parser) (input : Array Token) : Branch → Prop
  | seeded {b : Branch} (h : Branch.start.shift input = (b, .ok ())) : Visited p input b
  | stepped {b b' : Branch} (h : Visited p input b) (hstep : b' ∈ p.step b input) :
      Visited p input b'

variable {g : Grammar} {p : Parser} {input : Array Token}

/-- A step of a branch leaves it consistent. -/
theorem consistent_of_mem_step (hg : g.table = .ok p.table)
    (hleaf : ∀ t ∈ input, t.isLeaf = true) {b b' : Branch} (hcommitted : b.stack.changes = [])
    (hb : b.Consistent g.productions input) (h : b' ∈ p.step b input) :
    b'.Consistent g.productions input := by
  rcases mem_step h with ⟨e, rfl⟩ | ⟨top, c, -, hc, rfl⟩
  · exact hb.fail e
  · refine (effect_follow hcommitted c).consistent hb hleaf fun hmove => ?_
    obtain ⟨hrule, hne, -⟩ := Table.reduce_of_mem_lookup hg hc hmove
    exact ⟨hrule, hne⟩

/-- A step of a branch leaves something on its stack. -/
theorem items_ne_nil_of_mem_step {b b' : Branch} (hcommitted : b.stack.changes = [])
    (hb : b.stack.items ≠ []) (h : b' ∈ p.step b input) : b'.stack.items ≠ [] := by
  rcases mem_step h with ⟨e, rfl⟩ | ⟨top, c, -, -, rfl⟩
  · exact hb
  · exact (effect_follow hcommitted c).items_ne_nil hb

/-- Every branch that comes up is accounted for and consistent, and has something on
its stack. -/
theorem Visited.invariant (hg : g.table = .ok p.table) (hleaf : ∀ t ∈ input, t.isLeaf = true)
    {b : Branch} (h : p.Visited input b) :
    b.Accounted input ∧ b.Consistent g.productions input ∧ b.stack.items ≠ [] := by
  induction h with
  | @seeded b h =>
      have haccounted : Branch.start.Accounted input := ⟨rfl, .refl _⟩
      have hconsistent : Branch.start.Consistent g.productions input :=
        ⟨Nat.zero_le _, rfl, nofun⟩
      cases htoken : input[0]? with
      | none =>
          rw [Branch.shift_eq_error (b := Branch.start) htoken] at h
          simp at h
      | some token =>
          rw [Branch.shift_eq_ok (b := Branch.start) htoken] at h
          obtain rfl := (Prod.mk.inj h).1
          have hleaf' := hleaf token (Array.mem_of_getElem? htoken)
          exact ⟨haccounted.taking htoken, hconsistent.taking htoken hleaf',
            by simp [Branch.taking]⟩
  | stepped h hstep ih =>
      obtain ⟨haccounted, hconsistent, hne⟩ := ih
      exact ⟨accounted_of_mem_step haccounted hstep,
        consistent_of_mem_step hg hleaf haccounted.committed hconsistent hstep,
        items_ne_nil_of_mem_step haccounted.committed hne hstep⟩

/-- A stream is an input as it stands: each token is the one of its place. -/
theorem inputOf_stream (lexemes : List Lexeme) (eof : Symbol) :
    inputOf (stream lexemes eof) = (stream lexemes eof).toArray := by
  apply Array.ext'
  apply List.ext_getElem?
  intro i
  simp [inputOf, stream, List.getElem?_zipIdx, Function.comp_def, Lexeme.toToken,
    Token.withOrigin, Token.withLabel, Token.label]

/-- **The invariant of a run.**  Over a stream, every branch that comes up is tidy,
whichever successors are taken and also where a branch has failed or was
accepted. -/
theorem visited_tidy {g : Grammar} {table : Table} (hg : g.table = .ok table)
    (limits : Settings) (lexemes : List Lexeme) (eof : Symbol) {b : Branch}
    (h : (withLimits table limits).Visited (inputOf (stream lexemes eof)) b) :
    b.Tidy table.productions (stream lexemes eof) := by
  have hleaf := isLeaf_inputOf (isLeaf_stream lexemes eof)
  obtain ⟨haccounted, hconsistent, hne⟩ := h.invariant hg hleaf
  have hlinked := linked_stream lexemes eof
  rw [inputOf_stream] at hconsistent hlinked
  obtain ⟨-, -, rfl⟩ := Grammar.table_eq_ok_iff.1 hg
  exact hconsistent.tidy hlinked haccounted.committed hne

/-- A word and the end of input. -/
def oneWord : Grammar where
  settings := { start := ⟨"s"⟩ }
  symbols := .ofList [⟨"s"⟩, ⟨"a"⟩, ⟨"W"⟩, ⟨"EOF"⟩]
  productions := [⟨⟨"s"⟩, [⟨"a"⟩, ⟨"EOF"⟩]⟩, ⟨⟨"a"⟩, [⟨"W"⟩]⟩]
  faultless := by decide +kernel

/-- A source that goes on after its first end of input. -/
def twoEnds : List Lexeme := [⟨⟨"W"⟩, "x", 0⟩, ⟨⟨"EOF"⟩, "", 1⟩, ⟨⟨"W"⟩, "y", 1⟩]

/-- The branch that is refused at the first end of input, with its last reduction
still on the stack. -/
def refusedEarly : Branch :=
  let label (origin : Origin) (s : String) (q n : Nat) : Label := ⟨origin, ⟨s⟩, q, some n⟩
  { stack := ⟨[.node (label (.reduction 1) "s" 0 2)
        [.node (label (.reduction 0) "a" 0 1) [.leaf (label (.input 0) "W" 0 1) "x"],
          .leaf (label (.input 1) "EOF" 1 2) ""]], []⟩
    index := 2
    reductions := 2
    status := .failed (.noAccept 1) }

/-- A branch that was refused is tidy: its one token looks ahead at the third token of
the stream. -/
theorem visited_tidy_refusedEarly :
    ∃ table, oneWord.table = .ok table ∧
      (withLimits table {}).Visited (inputOf (stream twoEnds ⟨"EOF"⟩)) refusedEarly ∧
      refusedEarly.error? = some (.noAccept 1) ∧
      refusedEarly.Tidy table.productions (stream twoEnds ⟨"EOF"⟩) := by
  have hg : oneWord.table = .ok ⟨oneWord.settings, oneWord.productions, oneWord.buckets⟩ := rfl
  have hvisited : (withLimits ⟨oneWord.settings, oneWord.productions, oneWord.buckets⟩ {}).Visited
      (inputOf (stream twoEnds ⟨"EOF"⟩)) refusedEarly :=
    .stepped (.stepped (.stepped (.seeded rfl) (List.mem_singleton_self _))
      (List.mem_singleton_self _)) (List.mem_singleton_self _)
  exact ⟨_, hg, hvisited, rfl, visited_tidy hg {} twoEnds ⟨"EOF"⟩ hvisited⟩

end Parser

end ForkParser
