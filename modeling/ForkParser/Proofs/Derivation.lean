import ForkParser.Grammar
import ForkParser.Tree.Basic

/-!
# ForkParser.Proofs.Derivation

Derivation trees of a grammar over an input.

`Tree.IsParse g lexemes t` says of a tree, node by node, that it is a parse of
`lexemes` by the grammar `g`.  For proofs by induction there is a second form:
`Tree.Grown rules` builds a tree from its leaves up by the productions `rules`,
and a parse is the start symbol over trees grown without the productions that
end with the end of input (`Tree.isParse_iff`).
-/

namespace ForkParser

/-! ## induction on trees and tokens -/

/-- What holds of all leaves, and of a node whenever it holds of its children,
holds of all trees. -/
theorem Tree.induction {motive : Tree → Prop}
    (leaf : ∀ s text p, motive (.leaf s text p))
    (node : ∀ s p cs, (∀ c ∈ cs, motive c) → motive (.node s p cs)) (t : Tree) : motive t :=
  Tree.rec (motive_1 := motive) (motive_2 := fun cs => ∀ c ∈ cs, motive c) leaf node
    (fun _ hc => by contradiction)
    (fun t ts ht hts c hc => by
      rcases List.mem_cons.1 hc with rfl | hc
      · exact ht
      · exact hts c hc) t

/-- What holds of all leaves, and of an inner token whenever it holds of its
children, holds of all tokens. -/
theorem Token.induction {motive : Token → Prop} (leaf : ∀ l text, motive (.leaf l text))
    (node : ∀ l cs, (∀ c ∈ cs, motive c) → motive (.node l cs)) (t : Token) : motive t :=
  Token.rec (motive_1 := motive) (motive_2 := fun cs => ∀ c ∈ cs, motive c) leaf node
    (fun _ hc => by contradiction)
    (fun t ts ht hts c hc => by
      rcases List.mem_cons.1 hc with rfl | hc
      · exact ht
      · exact hts c hc) t

/-! ## leaves and nodes -/

namespace Tree

mutual

/-- The leaves of a tree from left to right. -/
def leaves : Tree → List Lexeme
  | leaf s text p => [⟨s, text, p⟩]
  | node _ _ cs => leavesAll cs

def leavesAll : List Tree → List Lexeme
  | [] => []
  | t :: ts => t.leaves ++ leavesAll ts

end

mutual

/-- The nodes of a tree, leaves included, from the root down and from left to
right; each stands as the tree below it. -/
def nodes : Tree → List Tree
  | leaf s text p => [leaf s text p]
  | node s p cs => node s p cs :: nodesAll cs

def nodesAll : List Tree → List Tree
  | [] => []
  | t :: ts => t.nodes ++ nodesAll ts

end

theorem leavesAll_eq (ts : List Tree) : leavesAll ts = ts.flatMap leaves := by
  induction ts with
  | nil => rfl
  | cons t ts ih => rw [leavesAll, ih, List.flatMap_cons]

theorem nodesAll_eq (ts : List Tree) : nodesAll ts = ts.flatMap nodes := by
  induction ts with
  | nil => rfl
  | cons t ts ih => rw [nodesAll, ih, List.flatMap_cons]

/-- A tree is the first of its own nodes. -/
theorem mem_nodes_self (t : Tree) : t ∈ t.nodes := by
  cases t <;> simp [nodes]

theorem size_pos (t : Tree) : 0 < t.size := by
  cases t <;> simp [size]

theorem sizeAll_pos {ts : List Tree} (h : ts ≠ []) : 0 < sizeAll ts := by
  obtain ⟨t, rest, rfl⟩ := List.exists_cons_of_ne_nil h
  have := t.size_pos
  rw [sizeAll]
  omega

def lastSymbol? (t : Tree) : Option Symbol := (t.children.map symbol).getLast?

/-- A parse of `lexemes`: the root is the start symbol; every node without text
has children, and spells a production together with them; the leaves are the
lexemes; an inner node starts where its first leaf starts; and the root is the
one node whose last child is the end of input. -/
structure IsParse (g : Grammar) (lexemes : List Lexeme) (t : Tree) : Prop where
  root : t.symbol = g.settings.start
  spells : ∀ n ∈ t.nodes, n.text? = none →
    n.children ≠ [] ∧ ⟨n.symbol, n.children.map symbol⟩ ∈ g.productions
  covers : t.leaves = lexemes
  starts : ∀ n ∈ t.nodes, n.text? = none → n.leaves.head?.map Lexeme.position = some n.position
  ends : t.lastSymbol? = some g.settings.eof
  endsOnce : ∀ n ∈ nodesAll t.children, n.lastSymbol? ≠ some g.settings.eof

/-! ## trees grown by productions -/

/-- A tree grown from leaves by the productions `rules`.  A node starts where its
first child does. -/
inductive Grown (rules : List Production) : Tree → Prop
  | leaf (s : Symbol) (text : String) (p : Nat) : Grown rules (.leaf s text p)
  | node {s : Symbol} {p : Nat} {cs : List Tree} (hne : cs ≠ [])
      (hrule : ⟨s, cs.map symbol⟩ ∈ rules) (hpos : cs.head?.map position = some p)
      (hcs : ∀ c ∈ cs, Grown rules c) : Grown rules (.node s p cs)

/-- Several trees start where the first of them does. -/
theorem head?_leavesAll {c : Tree} {rest : List Tree} {q : Nat}
    (h : c.leaves.head?.map Lexeme.position = some q) :
    (leavesAll (c :: rest)).head?.map Lexeme.position = some q := by
  rw [leavesAll, List.head?_append]
  cases hl : c.leaves.head? with
  | none => simp [hl] at h
  | some l => rwa [hl] at h

/-- A grown tree starts where its first leaf does. -/
theorem Grown.head?_leaves {rules : List Production} {t : Tree} (h : t.Grown rules) :
    t.leaves.head?.map Lexeme.position = some t.position := by
  induction h with
  | leaf => rfl
  | @node s p cs hne hrule hpos hcs ih =>
      obtain ⟨c, rest, rfl⟩ := List.exists_cons_of_ne_nil hne
      rw [List.head?_cons, Option.map_some, Option.some.injEq] at hpos
      rw [leaves, head?_leavesAll (ih c List.mem_cons_self), hpos]
      rfl

theorem Grown.leaves_ne_nil {rules : List Production} {t : Tree} (h : t.Grown rules) :
    t.leaves ≠ [] := by
  intro hnil
  have := h.head?_leaves
  rw [hnil] at this
  contradiction

theorem leavesAll_ne_nil {rules : List Production} {ts : List Tree} (hne : ts ≠ [])
    (h : ∀ t ∈ ts, t.Grown rules) : leavesAll ts ≠ [] := by
  obtain ⟨t, rest, rfl⟩ := List.exists_cons_of_ne_nil hne
  intro hnil
  exact (h t List.mem_cons_self).leaves_ne_nil (List.append_eq_nil_iff.1 hnil).1

/-- A tree is grown when each inner node spells a production and starts where its
first leaf does. -/
theorem grown_iff_forall_nodes {rules : List Production} {t : Tree} :
    t.Grown rules ↔ ∀ n ∈ t.nodes, n.text? = none →
      (n.children ≠ [] ∧ ⟨n.symbol, n.children.map symbol⟩ ∈ rules) ∧
        n.leaves.head?.map Lexeme.position = some n.position := by
  constructor
  · intro h
    induction h with
    | leaf s text p =>
        intro n hn htext
        obtain rfl := List.mem_singleton.1 hn
        contradiction
    | @node s p cs hne hrule hpos hcs ih =>
        intro n hn htext
        rw [nodes, nodesAll_eq, List.mem_cons, List.mem_flatMap] at hn
        rcases hn with rfl | ⟨c, hc, hn⟩
        · exact ⟨⟨hne, hrule⟩, (Grown.node hne hrule hpos hcs).head?_leaves⟩
        · exact ih c hc n hn htext
  · induction t using Tree.induction with
    | leaf s text p => exact fun _ => .leaf s text p
    | node s p cs ih =>
        intro h
        obtain ⟨⟨hne, hrule⟩, hfirst⟩ := h _ (mem_nodes_self _) rfl
        have hcs : ∀ c ∈ cs, c.Grown rules := by
          intro c hc
          refine ih c hc fun n hn => h n ?_
          rw [nodes, nodesAll_eq]
          exact List.mem_cons_of_mem _ (List.mem_flatMap.2 ⟨c, hc, hn⟩)
        refine .node hne hrule ?_ hcs
        -- the first leaf of the node is that of its first child
        obtain ⟨c, rest, rfl⟩ := List.exists_cons_of_ne_nil hne
        rw [leaves, head?_leavesAll (hcs c List.mem_cons_self).head?_leaves] at hfirst
        exact hfirst

end Tree

/-- The productions that do not end with the end of input.  All nodes of a parse
but the root are spelled by these. -/
def Grammar.innerProductions (g : Grammar) : List Production :=
  g.productions.filter (·.rhs.getLast? ≠ some g.settings.eof)

theorem Grammar.mem_innerProductions {g : Grammar} {p : Production} :
    p ∈ g.innerProductions ↔ p ∈ g.productions ∧ p.rhs.getLast? ≠ some g.settings.eof := by
  simp [innerProductions]

namespace Tree

/-- A leaf has no last child. -/
theorem lastSymbol?_eq_none_of_text? {t : Tree} (h : t.text? ≠ none) : t.lastSymbol? = none := by
  cases t with
  | leaf => rfl
  | node => simp [text?] at h

/-- Grown without the productions that end with the end of input, a tree has no
node that does. -/
theorem grown_innerProductions_iff {g : Grammar} {t : Tree} :
    t.Grown g.innerProductions ↔
      t.Grown g.productions ∧ ∀ n ∈ t.nodes, n.lastSymbol? ≠ some g.settings.eof := by
  simp only [grown_iff_forall_nodes, Grammar.mem_innerProductions]
  constructor
  · intro h
    refine ⟨fun n hn htext => ?_, fun n hn => ?_⟩
    · obtain ⟨⟨hne, hrule, -⟩, hfirst⟩ := h n hn htext
      exact ⟨⟨hne, hrule⟩, hfirst⟩
    · by_cases htext : n.text? = none
      · exact (h n hn htext).1.2.2
      · rw [lastSymbol?_eq_none_of_text? htext]
        exact nofun
  · rintro ⟨h, hlast⟩ n hn htext
    obtain ⟨⟨hne, hrule⟩, hfirst⟩ := h n hn htext
    exact ⟨⟨hne, hrule, hlast n hn⟩, hfirst⟩

/-- A parse is a node of the start symbol: it spells a production that ends with
the end of input, and its children are grown without such productions. -/
theorem isParse_iff {g : Grammar} {lexemes : List Lexeme} {t : Tree} :
    t.IsParse g lexemes ↔ ∃ p cs, t = .node g.settings.start p cs ∧
      ⟨g.settings.start, cs.map symbol⟩ ∈ g.productions ∧
      (cs.map symbol).getLast? = some g.settings.eof ∧
      cs.head?.map position = some p ∧
      (∀ c ∈ cs, c.Grown g.innerProductions) ∧ leavesAll cs = lexemes := by
  constructor
  · intro h
    have hgrown : t.Grown g.productions :=
      grown_iff_forall_nodes.2 fun n hn htext => ⟨h.spells n hn htext, h.starts n hn htext⟩
    cases hgrown with
    | leaf => exact absurd h.ends (by simp [lastSymbol?, children])
    | @node s p cs hne hrule hpos hcs =>
        obtain rfl : s = g.settings.start := h.root
        refine ⟨p, cs, rfl, hrule, h.ends, hpos, fun c hc => ?_, h.covers⟩
        refine grown_innerProductions_iff.2 ⟨hcs c hc, fun n hn => h.endsOnce n ?_⟩
        rw [nodesAll_eq]
        exact List.mem_flatMap.2 ⟨c, hc, hn⟩
  · rintro ⟨p, cs, rfl, hrule, hlast, hpos, hcs, rfl⟩
    have hne : cs ≠ [] := by
      rintro rfl
      contradiction
    have hgrown : (Tree.node g.settings.start p cs).Grown g.productions :=
      .node hne hrule hpos fun c hc => (grown_innerProductions_iff.1 (hcs c hc)).1
    have hnodes := grown_iff_forall_nodes.1 hgrown
    refine ⟨rfl, fun n hn htext => (hnodes n hn htext).1, rfl,
      fun n hn htext => (hnodes n hn htext).2, hlast, fun n hn => ?_⟩
    rw [nodesAll_eq, List.mem_flatMap] at hn
    obtain ⟨c, hc, hn⟩ := hn
    exact (grown_innerProductions_iff.1 (hcs c hc)).2 n hn

end Tree

end ForkParser
