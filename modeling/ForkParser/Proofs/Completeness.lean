import ForkParser.Proofs.Soundness

/-!
# ForkParser.Proofs.Completeness

Every parse of a stream is found, unless a limit stops the search first.

A parse is built from left to right: a run takes the first leaf of a tree,
builds the first child, takes the first leaf of the next child and builds that,
and so on, and reduces when all children are there.  No step of this is pruned.
The place in the parent's production is a candidate of the table; the symbols it
matches are those of the siblings, which are on the stack; and if it looks ahead
for a terminal, the next sibling is a leaf and is the next token
(`Parser.Fits.exists_follow`).  `Parser.Builds` is what the induction over trees
proves; with one step for each node but the first leaf, a tree of `n` nodes takes
`n - 1` steps.
-/

namespace ForkParser

namespace Parser

/-! ## a parser and an input that fit a grammar -/

/-- The parser works with the table of the grammar, and the input is made of
leaves that look ahead at one another. -/
structure Fits (p : Parser) (g : Grammar) (input : Array Token) : Prop where
  table : g.table = .ok p.table
  start : p.settings.start = g.settings.start
  leaves : ∀ t ∈ input, t.isLeaf = true
  linked : Linked input

variable {p : Parser} {g : Grammar} {input : Array Token}

/-- With the left part of a production on the stack, the candidate of that place
is followed: none of its conditions fails, if what it looks ahead for is the next
token. -/
theorem Fits.exists_follow (hfits : p.Fits g input) {o : Occurrence} (ho : g.HasPlace o)
    {n : Nat} {b : Branch} (hreach : p.Reaches input n b) (hactive : b.isActive = true)
    {done below : List Token} (hitems : b.stack.items = done.reverse ++ below)
    (hdone : done.map Token.symbol = o.production.rhs.take (o.pos + 1))
    (hnext : ∀ s, o.lookahead = some s → (input[b.index]?).map Token.symbol = some s) :
    ∃ c, c.action.move = (Candidate.ofOccurrence g.settings.eof o).action.move ∧
      p.follow b input c ∈ p.step b input := by
  obtain ⟨c, hc, rfl⟩ := Table.exists_mem_lookup hfits.table ho
  obtain ⟨-, -, hmove, hlookahead, more, hmatched⟩ := Table.of_mem_lookup hfits.table hc
  have hsymbols : b.stack.items.map Token.symbol =
      c.occurrence.context ++ below.map Token.symbol := by
    rw [hitems, List.map_append, List.map_reverse, hdone, Occurrence.context]
  -- the context begins with the symbol of the place, so that is what is on top
  obtain ⟨top, rest, htop, hsymbol⟩ :
      ∃ top rest, b.stack.items = top :: rest ∧ top.symbol = c.occurrence.symbol := by
    have hhead := congrArg List.head? hsymbols
    rw [List.head?_map, List.head?_append, Occurrence.head?_context, Option.some_or,
      Option.map_eq_some_iff] at hhead
    obtain ⟨top, htop, hsymbol⟩ := hhead
    obtain ⟨rest, hrest⟩ := List.head?_eq_some_iff.1 htop
    exact ⟨top, rest, hrest, hsymbol⟩
  have hpeek : b.stack.peek? = some top := by
    rw [UndoStack.peek?, htop]
    rfl
  have hconsistent := (hreach.sound hfits.table hfits.start hfits.leaves).consistent hactive
  have hlook : ∀ s, c.action.lookahead = some s →
      (top.lookahead.bind (input[·]?)).map Token.symbol = some s := by
    intro s hs
    have hs := hnext s (hlookahead ▸ hs)
    obtain ⟨token, htoken, -⟩ := Option.map_eq_some_iff.1 hs
    have hlt : b.index < input.size := (Array.getElem?_eq_some_iff.1 htoken).1
    rw [hconsistent.lookahead_top_of_linked hfits.linked htop, if_pos hlt, Option.bind_some]
    exact hs
  rw [← hmatched, List.append_assoc] at hsymbols
  exact ⟨c, hmove, follow_mem_step hpeek (hsymbol ▸ hc) (Branch.probe_isOk hpeek hlook hsymbols)⟩

/-- A stack that ends with the right-hand side of a production has a candidate
that reduces by it. -/
theorem Fits.exists_follow_reduce (hfits : p.Fits g input) {rule : Production}
    (hrule : rule ∈ g.productions) {n : Nat} {b : Branch} (hreach : p.Reaches input n b)
    (hactive : b.isActive = true) {children below : List Token}
    (hitems : b.stack.items = children.reverse ++ below)
    (hsymbols : children.map Token.symbol = rule.rhs) (hne : children ≠ []) :
    ∃ c, c.action.move = .reduce rule (rule.rhs.getLast? = some g.settings.eof) ∧
      p.follow b input c ∈ p.step b input := by
  obtain ⟨i, hi⟩ := List.getElem?_of_mem hrule
  have hlen : 0 < rule.rhs.length := by
    rw [← hsymbols, List.length_map]
    exact List.length_pos_iff.2 hne
  let o : Occurrence := ⟨rule, rule.rhs.length - 1, i, Nat.sub_one_lt_of_lt hlen⟩
  have hpos : o.pos + 1 = rule.rhs.length := Nat.sub_add_cancel hlen
  have hlast : o.isLast = true := beq_iff_eq.2 hpos
  have hdone : children.map Token.symbol = o.production.rhs.take (o.pos + 1) := by
    rw [hsymbols, hpos, List.take_length]
  have hlook : ∀ x, o.lookahead = some x → (input[b.index]?).map Token.symbol = some x := by
    rw [Occurrence.lookahead_of_isLast hlast]
    exact nofun
  obtain ⟨c, hmove, hstep⟩ := hfits.exists_follow (o := o) hi hreach hactive hitems hdone hlook
  exact ⟨c, hmove.trans (Candidate.move_of_isLast hlast), hstep⟩

/-! ## single steps of a run -/

/-- `n` steps can lead to an active branch that has `items` on its stack, top
first, and `rest` of the input left. -/
def Arrives (p : Parser) (input : Array Token) (n : Nat) (items rest : List Token) : Prop :=
  ∃ b, p.Reaches input n b ∧ b.isActive = true ∧ b.stack.items = items ∧
    input.toList.drop b.index = rest

/-- Between two siblings the first leaf of the second is taken.  If the second is a
terminal, it has to be that leaf. -/
theorem Arrives.take (hfits : p.Fits g input) {n : Nat} {done below : List Token} {token : Token}
    {rest : List Token} (h : p.Arrives input n (done.reverse ++ below) (token :: rest))
    (hne : done ≠ []) {rule : Production} (hrule : rule ∈ g.productions) {s : Symbol}
    {more : List Symbol} (hrhs : rule.rhs = done.map Token.symbol ++ s :: more)
    (hnext : s.isTerminal = true → token.symbol = s) :
    p.Arrives input (n + 1) (token :: (done.reverse ++ below)) rest := by
  obtain ⟨b, hreach, hactive, hitems, hleft⟩ := h
  have htoken : input[b.index]? = some token := by
    rw [← Array.getElem?_toList, ← List.head?_drop, hleft]
    rfl
  have hleft' : input.toList.drop (b.index + 1) = rest := by
    rw [List.drop_add_one_eq_tail_drop, hleft]
    rfl
  obtain ⟨i, hi⟩ := List.getElem?_of_mem hrule
  have hlen : 0 < done.length := List.length_pos_iff.2 hne
  have hpos : done.length - 1 + 1 = done.length := Nat.sub_add_cancel hlen
  have hinside : done.length - 1 < rule.rhs.length := by
    rw [hrhs, List.length_append, List.length_map]
    omega
  let o : Occurrence := ⟨rule, done.length - 1, i, hinside⟩
  have hafter : o.next? = some s := by
    change rule.rhs[done.length - 1 + 1]? = some s
    rw [hrhs, hpos, List.getElem?_append_right (by simp)]
    simp
  have hnotLast : o.isLast = false := by
    rw [Bool.eq_false_iff, ne_eq, ← Occurrence.next?_eq_none_iff, hafter]
    exact nofun
  have hdone : done.map Token.symbol = o.production.rhs.take (o.pos + 1) := by
    show done.map Token.symbol = rule.rhs.take (done.length - 1 + 1)
    rw [hrhs, hpos, List.take_left' (List.length_map _)]
  have hlook : ∀ x, o.lookahead = some x → (input[b.index]?).map Token.symbol = some x := by
    intro x hx
    rw [Occurrence.lookahead, hafter, Option.filter_eq_some_iff] at hx
    obtain ⟨hx, hterminal⟩ := hx
    obtain rfl := Option.some.inj hx
    rw [htoken, Option.map_some, hnext hterminal]
  obtain ⟨c, hmove, hstep⟩ := hfits.exists_follow (o := o) hi hreach hactive hitems hdone hlook
  rw [follow_shift (hmove.trans (Candidate.move_of_not_isLast hnotLast)) htoken] at hstep
  refine ⟨b.taking token, hreach.step hactive hstep, hactive, ?_, hleft'⟩
  rw [Branch.taking, hitems]

/-- When all children are there, they are reduced. -/
theorem Arrives.reduce (hfits : p.Fits g input) {n : Nat} {children below rest : List Token}
    (h : p.Arrives input n (children.reverse ++ below) rest) {s : Symbol}
    (hrule : ⟨s, children.map Token.symbol⟩ ∈ g.innerProductions) {q : Nat}
    (hpos : children.head?.map Token.position = some q) :
    ∃ token, token.shape = .node s q (children.map Token.shape) ∧
      p.Arrives input (n + 1) (token :: below) rest := by
  obtain ⟨b, hreach, hactive, hitems, hleft⟩ := h
  obtain ⟨hrule, hlast⟩ := Grammar.mem_innerProductions.1 hrule
  have hne : children ≠ [] := by
    rintro rfl
    contradiction
  obtain ⟨d, hmove, hstep⟩ := hfits.exists_follow_reduce hrule hreach hactive hitems rfl hne
  rw [decide_eq_false hlast] at hmove
  rw [follow_reduce hmove hitems rfl] at hstep
  exact ⟨_, b.shape_reduced _ hpos input, _, hreach.step hactive hstep, hactive, rfl, hleft⟩

/-- At the end of the input, the children of the root are reduced to a parse, and
that is accepted. -/
theorem Arrives.accept (hfits : p.Fits g input) {n : Nat} {children : List Token}
    (h : p.Arrives input n children.reverse [])
    (hrule : ⟨g.settings.start, children.map Token.symbol⟩ ∈ g.productions)
    (hlast : (children.map Token.symbol).getLast? = some g.settings.eof) {q : Nat}
    (hpos : children.head?.map Token.position = some q) :
    ∃ b token, p.Reaches input (n + 1) b ∧ b.isAccepted = true ∧ b.stack.items = [token] ∧
      token.shape = .node g.settings.start q (children.map Token.shape) := by
  obtain ⟨b, hreach, hactive, hitems, hleft⟩ := h
  have hne : children ≠ [] := by
    rintro rfl
    contradiction
  have hend : b.index = input.size := by
    have hle := ((hreach.sound hfits.table hfits.start hfits.leaves).consistent hactive).index_le
    rw [List.drop_eq_nil_iff, Array.length_toList] at hleft
    omega
  have hitems' : b.stack.items = children.reverse ++ [] := by rw [hitems, List.append_nil]
  obtain ⟨d, hmove, hstep⟩ := hfits.exists_follow_reduce hrule hreach hactive hitems' rfl hne
  rw [decide_eq_true hlast] at hmove
  rw [follow_accept hmove hitems rfl hfits.start.symm hend] at hstep
  exact ⟨_, _, hreach.step hactive hstep, rfl, rfl, b.shape_reduced _ hpos input⟩

/-! ## building a tree -/

/-- Once its first leaf is taken, the tree is built on top of what was below. -/
def Builds (p : Parser) (input : Array Token) (t : Tree) : Prop :=
  ∀ ⦃n : Nat⦄ ⦃first : Token⦄ ⦃taken below tail : List Token⦄, first.isLeaf = true →
    t.leaves = (first :: taken).map Token.lexeme →
    p.Arrives input n (first :: below) (taken ++ tail) →
    ∃ token, token.shape = t ∧ p.Arrives input (n + (t.size - 1)) (token :: below) tail

/-- A grown tree with a terminal at its root is a leaf, and so its own first leaf. -/
theorem symbol_of_isTerminal {t : Tree} (ht : t.Grown g.innerProductions)
    (hterminal : t.symbol.isTerminal = true) {first : Token} {taken : List Token}
    (hleaves : t.leaves = (first :: taken).map Token.lexeme) : first.symbol = t.symbol := by
  cases ht with
  | leaf s text q => exact (congrArg Lexeme.symbol (List.cons.inj hleaves).1).symm
  | node hne hrule hpos hcs =>
      have hfalse := g.isTerminal_lhs (Grammar.mem_innerProductions.1 hrule).1
      exact absurd hterminal (Bool.eq_false_iff.1 hfalse)

/-- With some siblings done, the others are built one after the other. -/
theorem Arrives.siblings (hfits : p.Fits g input) {rule : Production}
    (hrule : rule ∈ g.productions) {todo : List Tree} (hbuilds : ∀ c ∈ todo, p.Builds input c)
    (hgrown : ∀ c ∈ todo, c.Grown g.innerProductions) {n : Nat} {done taken below tail : List Token}
    (hne : done ≠ []) (hrhs : rule.rhs = done.map Token.symbol ++ todo.map Tree.symbol)
    (hleaves : Tree.leavesAll todo = taken.map Token.lexeme)
    (h : p.Arrives input n (done.reverse ++ below) (taken ++ tail)) :
    ∃ children : List Token, children.map Token.shape = done.map Token.shape ++ todo ∧
      p.Arrives input (n + Tree.sizeAll todo) (children.reverse ++ below) tail := by
  induction todo generalizing n done taken with
  | nil =>
      obtain rfl := List.map_eq_nil_iff.1 hleaves.symm
      exact ⟨done, (List.append_nil _).symm, h⟩
  | cons c todo ih =>
      obtain ⟨hc, htodo⟩ := List.forall_mem_cons.1 hgrown
      obtain ⟨hbuild, hothers⟩ := List.forall_mem_cons.1 hbuilds
      obtain ⟨mine, theirs, rfl, hmine, htheirs⟩ := List.map_eq_append_iff.1 hleaves.symm
      obtain ⟨first, mine, rfl⟩ : ∃ first rest, mine = first :: rest := by
        cases mine with
        | nil => exact absurd hmine.symm hc.leaves_ne_nil
        | cons first rest => exact ⟨first, rest, rfl⟩
      have hleaf : first.isLeaf = true := by
        obtain ⟨b, -, -, -, hleft⟩ := h
        refine hfits.leaves first (Array.mem_toList_iff.1 (List.mem_of_mem_drop (i := b.index) ?_))
        rw [hleft]
        exact List.mem_cons_self
      rw [List.append_assoc, List.cons_append] at h
      have htaken := h.take hfits hne hrule hrhs
        fun hterminal => symbol_of_isTerminal hc hterminal hmine.symm
      obtain ⟨token, rfl, hbuilt⟩ := hbuild hleaf hmine.symm htaken
      have hstack : token :: (done.reverse ++ below) = (done ++ [token]).reverse ++ below := by
        simp
      rw [hstack] at hbuilt
      obtain ⟨children, hchildren, harrives⟩ := ih hothers htodo (by simp)
        (by rw [hrhs]; simp) htheirs.symm hbuilt
      refine ⟨children, ?_, ?_⟩
      · rw [hchildren, List.map_append, List.append_assoc]
        rfl
      · have hsteps : n + 1 + (token.shape.size - 1) + Tree.sizeAll todo =
            n + Tree.sizeAll (token.shape :: todo) := by
          have := token.shape.size_pos
          rw [Tree.sizeAll]
          omega
        rw [← hsteps]
        exact harrives

/-- Once the first leaf of the first child is taken, all children are built. -/
theorem Arrives.children (hfits : p.Fits g input) {s : Symbol} {cs : List Tree}
    (hrule : ⟨s, cs.map Tree.symbol⟩ ∈ g.productions) (hne : cs ≠ [])
    (hbuilds : ∀ c ∈ cs, p.Builds input c) (hgrown : ∀ c ∈ cs, c.Grown g.innerProductions)
    {n : Nat} {first : Token} {taken below tail : List Token} (hleaf : first.isLeaf = true)
    (hleaves : Tree.leavesAll cs = (first :: taken).map Token.lexeme)
    (h : p.Arrives input n (first :: below) (taken ++ tail)) :
    ∃ children : List Token, children.map Token.shape = cs ∧
      p.Arrives input (n + (Tree.sizeAll cs - 1)) (children.reverse ++ below) tail := by
  obtain ⟨c, todo, rfl⟩ := List.exists_cons_of_ne_nil hne
  obtain ⟨hc, htodo⟩ := List.forall_mem_cons.1 hgrown
  obtain ⟨hbuild, hothers⟩ := List.forall_mem_cons.1 hbuilds
  -- the first leaf is the first child's, and so are the next tokens, as far as it reaches
  obtain ⟨mine, theirs, htaken, hmine, htheirs⟩ := List.map_eq_append_iff.1 hleaves.symm
  obtain ⟨rest, rfl, rfl⟩ : ∃ rest, mine = first :: rest ∧ taken = rest ++ theirs := by
    cases mine with
    | nil => exact absurd hmine.symm hc.leaves_ne_nil
    | cons x rest =>
        obtain ⟨rfl, hrest⟩ := List.cons.inj htaken
        exact ⟨rest, rfl, hrest⟩
  rw [List.append_assoc] at h
  obtain ⟨token, rfl, hbuilt⟩ := hbuild hleaf hmine.symm h
  have hdone : p.Arrives input (n + (token.shape.size - 1)) ([token].reverse ++ below)
      (theirs ++ tail) := hbuilt
  obtain ⟨children, hchildren, harrives⟩ := hdone.siblings hfits hrule hothers htodo
    (List.cons_ne_nil _ _) (by simp) htheirs.symm
  refine ⟨children, hchildren, ?_⟩
  have hsteps : n + (token.shape.size - 1) + Tree.sizeAll todo =
      n + (Tree.sizeAll (token.shape :: todo) - 1) := by
    have := token.shape.size_pos
    rw [Tree.sizeAll]
    omega
  rw [← hsteps]
  exact harrives

/-- Every tree grown without the productions that end with the end of input is
built. -/
theorem builds_of_grown (hfits : p.Fits g input) {t : Tree} (ht : t.Grown g.innerProductions) :
    p.Builds input t := by
  induction ht with
  | leaf s text q =>
      intro n first taken below tail hleaf hleaves h
      obtain ⟨hfirst, hnil⟩ := List.cons.inj hleaves
      obtain rfl := List.map_eq_nil_iff.1 hnil.symm
      refine ⟨first, ?_, h⟩
      cases first with
      | leaf l text' =>
          obtain ⟨rfl, rfl, rfl⟩ := Lexeme.mk.inj hfirst
          rfl
      | node => contradiction
  | @node s q cs hne hrule hpos hcs ih =>
      intro n first taken below tail hleaf hleaves h
      obtain ⟨children, rfl, harrives⟩ := h.children hfits
        (Grammar.mem_innerProductions.1 hrule).1 hne ih hcs hleaf hleaves
      rw [Token.map_symbol_shape] at hrule
      rw [Token.head?_position_shape] at hpos
      obtain ⟨token, htoken, hreduced⟩ := harrives.reduce hfits hrule hpos
      refine ⟨token, htoken, ?_⟩
      have hsteps : n + (Tree.sizeAll (children.map Token.shape) - 1) + 1 =
          n + ((Tree.node s q (children.map Token.shape)).size - 1) := by
        have := Tree.sizeAll_pos hne
        rw [Tree.size]
        omega
      rw [← hsteps]
      exact hreduced

/-- A parse of the input is reached after as many steps as it has nodes, less
one. -/
theorem exists_reaches_parse (hfits : p.Fits g input) {t : Tree}
    (ht : t.IsParse g (input.toList.map Token.lexeme)) :
    ∃ b token, p.Reaches input (t.size - 1) b ∧ b.isAccepted = true ∧ b.stack.items = [token] ∧
      token.shape = t := by
  obtain ⟨q, cs, rfl, hrule, hlast, hpos, hcs, hleaves⟩ := Tree.isParse_iff.1 ht
  have hne : cs ≠ [] := by
    rintro rfl
    contradiction
  obtain ⟨first, taken, hinput⟩ : ∃ first taken, input.toList = first :: taken := by
    refine List.exists_cons_of_ne_nil fun hnil => Tree.leavesAll_ne_nil hne hcs ?_
    rw [hleaves, hnil, List.map_nil]
  have hfirst : input[0]? = some first := by
    rw [← Array.getElem?_toList, hinput]
    rfl
  have hseed : p.Arrives input 0 [first] (taken ++ []) := by
    refine ⟨Branch.start.taking first, ⟨first, hfirst, .refl _⟩, rfl, rfl, ?_⟩
    rw [hinput, List.append_nil]
    rfl
  rw [hinput] at hleaves
  obtain ⟨children, rfl, harrives⟩ := hseed.children hfits hrule hne
    (fun c hc => builds_of_grown hfits (hcs c hc)) hcs
    (hfits.leaves first (Array.mem_of_getElem? hfirst)) hleaves
  rw [List.append_nil] at harrives
  rw [Token.map_symbol_shape] at hrule hlast
  rw [Token.head?_position_shape] at hpos
  obtain ⟨b, token, hreach, haccepted, hitems, htoken⟩ := harrives.accept hfits hrule hlast hpos
  refine ⟨b, token, ?_, haccepted, hitems, htoken⟩
  have hsteps : 0 + (Tree.sizeAll (children.map Token.shape) - 1) + 1 =
      (Tree.node g.settings.start q (children.map Token.shape)).size - 1 := by
    have := Tree.sizeAll_pos hne
    rw [Tree.size]
    omega
  rw [← hsteps]
  exact hreach

/-- **Completeness.**  A parse of a stream is among the trees that a parser
returns, if it has no more nodes than the search has rounds (the first leaf needs
no round), and the search is not stopped by too many branches before that. -/
theorem parse_complete {g : Grammar} {table : Table} (hg : g.table = .ok table)
    (limits : Settings) (lexemes : List Lexeme) {t : Tree}
    (ht : t.IsParse g ((stream lexemes g.settings.eof).map Token.lexeme))
    (hsteps : t.size - 1 ≤ limits.maxSteps)
    (hbranches : ∀ s,
      (withLimits table limits).search (inputOf (stream lexemes g.settings.eof)) = .ok s →
      s.limit? (withLimits table limits).settings = some (.branchLimit limits.maxBranches) →
      t.size - 1 ≤ s.rounds) :
    ∃ forest, (withLimits table limits).parse (stream lexemes g.settings.eof) = .ok forest ∧
      t ∈ forest.trees := by
  have hleaf := isLeaf_stream lexemes g.settings.eof
  have hfits : (withLimits table limits).Fits g (inputOf (stream lexemes g.settings.eof)) :=
    ⟨hg, start_withLimits hg limits, isLeaf_inputOf hleaf, linked_stream lexemes _⟩
  rw [← map_lexeme_inputOf] at ht
  obtain ⟨b, token, hreach, haccepted, hitems, rfl⟩ := exists_reaches_parse hfits ht
  obtain ⟨s, hs⟩ := exists_search (p := withLimits table limits)
    (stream_ne_nil lexemes g.settings.eof)
  have hrounds := le_rounds_search hs hreach hsteps (hbranches s hs)
  -- the first branch is not accepted, so some step was made
  obtain ⟨k, hk⟩ : ∃ k, token.shape.size - 1 = k + 1 := by
    refine Nat.exists_eq_add_one.2 (Nat.pos_of_ne_zero fun hzero => ?_)
    rw [hzero] at hreach
    obtain ⟨first, -, hrun⟩ := hreach
    cases hrun
    contradiction
  have hmem : b ∈ s.accepted :=
    (mem_accepted_search hs).2 ⟨k, by omega, hk ▸ hreach, haccepted⟩
  rw [parse_eq (stream_ne_nil lexemes _) hleaf hs, if_neg (List.ne_nil_of_mem hmem)]
  refine ⟨_, rfl, List.mem_flatMap.2 ⟨b, hmem, ?_⟩⟩
  rw [UndoStack.toList, hitems]
  exact List.mem_singleton_self _

/-- The source `1+2+3`, grouped to the right. -/
def sumsTree : Tree :=
  let number (text : String) (q : Nat) := Tree.node ⟨"e"⟩ q [.leaf ⟨"N"⟩ text q]
  let plus (q : Nat) := Tree.leaf ⟨"PLUS"⟩ "+" q
  .node ⟨"s"⟩ 0
    [.node ⟨"e"⟩ 0 [number "1" 0, plus 1, .node ⟨"e"⟩ 2 [number "2" 2, plus 3, number "3" 4]],
      .leaf ⟨"EOF"⟩ "" 5]

/-- Eleven rounds are enough for a tree of twelve nodes. -/
theorem parse_complete_sums :
    ∃ table forest, sums.table = .ok table ∧ sumsTree.size = 12 ∧
      (withLimits table { maxSteps := 11 }).parse (stream sumsSource ⟨"EOF"⟩) = .ok forest ∧
      sumsTree ∈ forest.trees := by
  have hg : sums.table = .ok ⟨sums.settings, sums.productions, sums.buckets⟩ := rfl
  have hparse : sumsTree.IsParse sums ((stream sumsSource sums.settings.eof).map Token.lexeme) :=
    ⟨rfl, by decide +kernel, by decide +kernel, by decide +kernel, by decide +kernel,
      by decide +kernel⟩
  obtain ⟨s, hs, hlimit⟩ : ∃ s, (withLimits ⟨sums.settings, sums.productions, sums.buckets⟩
      { maxSteps := 11 }).search (inputOf (stream sumsSource sums.settings.eof)) = .ok s ∧
      s.limit? { start := ⟨"s"⟩, maxSteps := 11 } = none := ⟨_, rfl, rfl⟩
  obtain ⟨forest, hforest, hmem⟩ := parse_complete hg { maxSteps := 11 } sumsSource hparse
    (by decide) (fun s' hs' hbranches => by
      obtain rfl := Except.ok.inj (hs.symm.trans hs')
      exact absurd (hlimit.symm.trans hbranches) nofun)
  exact ⟨_, forest, hg, rfl, hforest, hmem⟩

end Parser

end ForkParser
