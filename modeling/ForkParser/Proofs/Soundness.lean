import ForkParser.Proofs.Growth

/-!
# ForkParser.Proofs.Soundness

Whatever a parser accepts is a parse.

A search keeps its branches consistent with the productions that do not end with
the end of input: a reduction by one of the others is accepting, so it ends the
branch, and if the branch is accepted, that reduction is the root of a parse
(`Branch.Effect.sound`).  The invariant of a run is `Branch.Sound`;
`Parser.parse_sound` reads it off the accepted branches of a search.
-/

namespace ForkParser

namespace Branch

/-- Nothing but a parse of the whole input is on the stack. -/
def Parsed (g : Grammar) (input : Array Token) (b : Branch) : Prop :=
  ∃ token, b.stack.items = [token] ∧ token.shape.IsParse g (input.toList.map Token.lexeme)

/-- What a search keeps true of its branches: while active they are consistent,
and once accepted they hold a parse. -/
structure Sound (g : Grammar) (input : Array Token) (b : Branch) : Prop where
  consistent : b.isActive = true → b.Consistent g.innerProductions input
  parsed : b.isAccepted = true → b.Parsed g input

variable {g : Grammar} {input : Array Token} {b b' : Branch}

theorem Sound.of_consistent (hactive : b.isActive = true)
    (h : b.Consistent g.innerProductions input) : b.Sound g input := by
  refine ⟨fun _ => h, fun haccepted => ?_⟩
  rw [isAccepted, status_eq_active hactive] at haccepted
  contradiction

/-- A failed branch is neither active nor accepted. -/
theorem Sound.fail (b : Branch) (e : Error) : (b.fail e).Sound g input :=
  ⟨nofun, nofun⟩

/-- A reduction of the whole input to the start symbol, by a production that ends
with the end of input, is a parse. -/
theorem Consistent.parsed {rule : Production} {children : List Token}
    (hb : b.Consistent g.innerProductions input) (hitems : b.stack.items = children.reverse)
    (hsymbols : children.map Token.symbol = rule.rhs) (hrule : rule ∈ g.productions)
    (hstart : rule.lhs = g.settings.start)
    (hlast : rule.rhs.getLast? = some g.settings.eof) (hend : b.index = input.size) :
    (b.reducing (b.reduced rule children input) []).Parsed g input := by
  have hne : children ≠ [] := by
    rintro rfl
    rw [← hsymbols] at hlast
    contradiction
  obtain ⟨c, rest, rfl⟩ := List.exists_cons_of_ne_nil hne
  refine ⟨_, rfl, ?_⟩
  rw [shape_reduced b rule rfl, hstart]
  refine Tree.isParse_iff.2 ⟨_, _, rfl, ?_, ?_, ?_, ?_, ?_⟩
  · rw [Token.map_symbol_shape, hsymbols, ← hstart]
    exact hrule
  · rw [Token.map_symbol_shape, hsymbols]
    exact hlast
  · rw [List.map_cons, List.head?_cons, Option.map_some, Token.position_shape]
  · intro t ht
    obtain ⟨d, hd, rfl⟩ := List.mem_map.1 ht
    refine (hb.grown d ?_).shape
    rw [hitems]
    exact List.mem_reverse.2 hd
  · have hfrontier := hb.frontier_eq
    rw [UndoStack.toList, hitems, List.reverse_reverse, hend, ← Array.length_toList,
      List.take_length] at hfrontier
    rw [Token.leavesAll_map_shape, hfrontier]

/-- Every move of an active branch that is consistent leaves it sound, if the
productions to reduce by are the grammar's and the accepting ones are those that
end with the end of input. -/
theorem Effect.sound {move : Move} (h : b.Effect g.settings.start input move b')
    (hactive : b.isActive = true) (hb : b.Consistent g.innerProductions input)
    (hleaf : ∀ t ∈ input, t.isLeaf = true)
    (hmove : ∀ {rule accepts}, move = .reduce rule accepts →
      rule ∈ g.productions ∧ rule.rhs ≠ [] ∧
        (accepts = true ↔ rule.rhs.getLast? = some g.settings.eof)) :
    b'.Sound g input := by
  cases h with
  | taken h => exact .of_consistent hactive (hb.taking h (hleaf _ (Array.mem_of_getElem? h)))
  | exhausted => exact .fail ..
  | mismatched => exact .fail ..
  | reduced hitems hsymbols =>
      obtain ⟨hrule, hne, haccepts⟩ := hmove rfl
      have hinner := Grammar.mem_innerProductions.2 ⟨hrule, mt haccepts.2 Bool.false_ne_true⟩
      exact .of_consistent hactive (hb.reducing hitems hsymbols hne hinner)
  | accepted hitems hsymbols hstart hend =>
      obtain ⟨hrule, -, haccepts⟩ := hmove rfl
      refine ⟨nofun, fun _ => ?_⟩
      exact hb.parsed hitems hsymbols hrule hstart (haccepts.1 rfl) hend
  | refused => exact .fail ..

end Branch

namespace Parser

variable {g : Grammar} {p : Parser} {input : Array Token}

/-- A step of an active branch leaves it sound. -/
theorem sound_of_mem_step (hg : g.table = .ok p.table)
    (hstart : p.settings.start = g.settings.start) (hleaf : ∀ t ∈ input, t.isLeaf = true)
    {b b' : Branch} (hcommitted : b.stack.changes = []) (hactive : b.isActive = true)
    (hb : b.Sound g input) (h : b' ∈ p.step b input) : b'.Sound g input := by
  rcases mem_step h with ⟨e, rfl⟩ | ⟨top, c, -, hc, rfl⟩
  · exact .fail b e
  · have heffect : b.Effect p.settings.start input c.action.move (p.follow b input c) :=
      effect_follow hcommitted c
    rw [hstart] at heffect
    exact heffect.sound hactive (hb.consistent hactive) hleaf
      fun hmove => Table.reduce_of_mem_lookup hg hc hmove

/-- Every branch of a search is sound. -/
theorem Reaches.sound (hg : g.table = .ok p.table)
    (hstart : p.settings.start = g.settings.start) (hleaf : ∀ t ∈ input, t.isLeaf = true)
    {n : Nat} {b : Branch} (h : p.Reaches input n b) : b.Sound g input := by
  obtain ⟨token, htoken, hrun⟩ := h
  have hempty : Branch.start.Consistent g.innerProductions input := ⟨Nat.zero_le _, rfl, nofun⟩
  have hfirst : (Branch.start.taking token).Sound g input :=
    .of_consistent rfl (hempty.taking htoken (hleaf _ (Array.mem_of_getElem? htoken)))
  -- a step is sound on committed stacks only, so the run carries both invariants
  have hboth : b.Accounted input ∧ b.Sound g input := by
    refine hrun.invariant (P := fun b => b.Accounted input ∧ b.Sound g input) ?_ ?_
    · intro b b' hb hactive hstep
      exact ⟨accounted_of_mem_step hb.1 hstep,
        sound_of_mem_step hg hstart hleaf hb.1.committed hactive hb.2 hstep⟩
    · exact ⟨Reaches.accounted (p := p) ⟨token, htoken, .refl _⟩, hfirst⟩
  exact hboth.2

/-- The lexemes of an input are those of its tokens. -/
theorem map_lexeme_inputOf (tokens : List Token) :
    (inputOf tokens).toList.map Token.lexeme = tokens.map Token.lexeme := by
  have hsame : ∀ x ∈ tokens.zipIdx,
      (x.1.withOrigin (.input x.2)).lexeme = x.1.lexeme := by
    rintro ⟨t, i⟩ -
    cases t <;> rfl
  have hfst := congrArg (List.map Token.lexeme) (List.zipIdx_map_fst 0 tokens)
  rw [List.map_map] at hfst
  rw [inputOf, List.map_map]
  exact (List.map_congr_left hsame).trans hfst

/-- Other limits leave the start symbol as it is. -/
theorem start_withLimits {table : Table} (hg : g.table = .ok table) (limits : Settings) :
    (withLimits table limits).settings.start = g.settings.start := by
  obtain ⟨-, -, rfl⟩ := Grammar.table_eq_ok_iff.1 hg
  rfl

/-- **Soundness.**  Every tree that a parser returns for a list of leaves,
whatever the limits and whatever the lookaheads of the leaves, is a parse of
exactly these leaves by the grammar of its table. -/
theorem parse_sound {g : Grammar} {table : Table} (hg : g.table = .ok table) (limits : Settings)
    {tokens : List Token} (hleaf : ∀ t ∈ tokens, t.isLeaf = true) {forest : Forest}
    (h : (withLimits table limits).parse tokens = .ok forest) :
    ∀ t ∈ forest.trees, t.IsParse g (tokens.map Token.lexeme) := by
  have hne : tokens ≠ [] := by
    rintro rfl
    contradiction
  obtain ⟨s, hs⟩ := exists_search (p := withLimits table limits) hne
  rw [parse_eq hne hleaf hs] at h
  split at h
  · contradiction
  · obtain rfl := Except.ok.inj h
    intro t ht
    obtain ⟨b, hb, ht⟩ := List.mem_flatMap.1 ht
    obtain ⟨k, -, hreach, haccepted⟩ := (mem_accepted_search hs).1 hb
    have hsound := hreach.sound hg (start_withLimits hg limits) (isLeaf_inputOf hleaf)
    obtain ⟨token, hitems, hparse⟩ := hsound.parsed haccepted
    rw [UndoStack.toList, hitems] at ht
    obtain rfl := List.mem_singleton.1 ht
    rw [map_lexeme_inputOf] at hparse
    exact hparse

/-- Sums of numbers, grouped either way. -/
def sums : Grammar where
  settings := { start := ⟨"s"⟩ }
  symbols := .ofList [⟨"s"⟩, ⟨"e"⟩, ⟨"N"⟩, ⟨"PLUS"⟩, ⟨"EOF"⟩]
  productions :=
    [⟨⟨"s"⟩, [⟨"e"⟩, ⟨"EOF"⟩]⟩, ⟨⟨"e"⟩, [⟨"e"⟩, ⟨"PLUS"⟩, ⟨"e"⟩]⟩, ⟨⟨"e"⟩, [⟨"N"⟩]⟩]
  faultless := by decide +kernel

/-- The source `1+2+3`. -/
def sumsSource : List Lexeme :=
  [⟨⟨"N"⟩, "1", 0⟩, ⟨⟨"PLUS"⟩, "+", 1⟩, ⟨⟨"N"⟩, "2", 2⟩, ⟨⟨"PLUS"⟩, "+", 3⟩, ⟨⟨"N"⟩, "3", 4⟩]

/-- A sum of three numbers is parsed in two ways. -/
theorem parse_sound_sums :
    ∃ table forest, sums.table = .ok table ∧
      (withLimits table {}).parse (stream sumsSource ⟨"EOF"⟩) = .ok forest ∧
      forest.trees.length = 2 ∧
      ∀ t ∈ forest.trees, t.IsParse sums ((stream sumsSource ⟨"EOF"⟩).map Token.lexeme) := by
  have hg : sums.table = .ok ⟨sums.settings, sums.productions, sums.buckets⟩ := rfl
  have hleaf : ∀ t ∈ stream sumsSource ⟨"EOF"⟩, t.isLeaf = true := by decide
  obtain ⟨forest, hforest, hlength⟩ : ∃ forest,
      (withLimits ⟨sums.settings, sums.productions, sums.buckets⟩ {}).parse
        (stream sumsSource ⟨"EOF"⟩) = .ok forest ∧ forest.trees.length = 2 := ⟨_, rfl, rfl⟩
  exact ⟨_, forest, hg, hforest, hlength, parse_sound hg {} hleaf hforest⟩

end Parser

end ForkParser
