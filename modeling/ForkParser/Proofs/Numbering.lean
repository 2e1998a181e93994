import ForkParser.Proofs.Sharing
import ForkParser.Proofs.Sizes
import Mathlib.Data.List.Forall2

/-!
# ForkParser.Proofs.Numbering

The arena of a token: its nodes are numbered in preorder.

`Lies t above index u` says that the subtree `u` of `t` has the number `index`, and which
numbers the nodes above it have.  In the arena of `t` there is then a node of that number
that belongs to `u` (`Lies.node`), and every node belongs to a subtree (`exists_lies`).  So
what is true of the nodes can be read off the subtrees.

`inPreorder_of_tree` is the main statement.
-/

namespace ForkParser

/-- Trees that agree at the root and have the same children are equal. -/
theorem Tree.eq_of_parts {t u : Tree} (hsymbol : t.symbol = u.symbol) (htext : t.text? = u.text?)
    (hposition : t.position = u.position) (hchildren : t.children = u.children) : t = u := by
  cases t <;> cases u <;> simp_all [Tree.symbol, Tree.text?, Tree.position, Tree.children]

theorem Tree.size_eq (t : Tree) : t.size = sizeAll t.children + 1 := by
  cases t <;> simp [size, sizeAll, children]

/-- What holds of a tree whenever it holds of its children holds of all trees. -/
theorem Tree.children_induction {motive : Tree → Prop}
    (step : ∀ t, (∀ c ∈ t.children, motive c) → motive t) (t : Tree) : motive t :=
  Tree.induction (fun s text p => step (.leaf s text p) nofun) (fun s p cs => step (.node s p cs)) t

namespace Arena

/-! ## reading an arena -/

/-- The tree that is read off at a node: its own data, and below it the trees that are read
off at its children, in order. -/
inductive Reads (a : Arena) : Nat → Tree → Prop where
  | intro {index : Nat} {n : Node} {t : Tree} (hnode : a.nodes[index]? = some n)
      (hsymbol : n.symbol = t.symbol) (htext : n.text? = t.text?)
      (hposition : n.position = t.position)
      (hchildren : List.Forall₂ (Reads a) n.children t.children) : Reads a index t

/-- The numbers that are met on the way from a node up to the root, by the links to parents. -/
inductive Ancestors (a : Arena) : Nat → List Nat → Prop where
  | root {index : Nat} {n : Node} (hnode : a.nodes[index]? = some n) (hparent : n.parent = none) :
      Ancestors a index []
  | child {index parent : Nat} {n : Node} {above : List Nat} (hnode : a.nodes[index]? = some n)
      (hparent : n.parent = some parent) (habove : Ancestors a parent above) :
      Ancestors a index (parent :: above)

/-- The arena holds a token in preorder. -/
structure InPreorder (a : Arena) (root : Token) : Prop where
  /-- What is read off at node 0 is the token, and nothing else is. -/
  reads_iff : ∀ t, a.Reads 0 t ↔ t = root.shape
  /-- Node 0 is the one without a parent. -/
  parent_eq_none_iff : ∀ {i n}, a.nodes[i]? = some n → (n.parent = none ↔ i = 0)
  /-- The parent of a node is the one that has it as a child. -/
  parent_eq_some_iff : ∀ {i n j}, a.nodes[i]? = some n → (n.parent = some j ↔ i ∈ a.childrenOf j)
  /-- No child is listed twice. -/
  nodup_childrenOf : ∀ j, (a.childrenOf j).Nodup
  /-- Children are nodes that come after their parent. -/
  child_bounds : ∀ {j c}, c ∈ a.childrenOf j → j < c ∧ c < a.size
  /-- A walk visits the nodes by their numbers. -/
  visited : a.depthFirst.map Prod.snd = List.range a.size
  /-- The depth that a node is visited with is the number of its ancestors. -/
  depth : ∀ {d i}, (d, i) ∈ a.depthFirst → ∃ above, a.Ancestors i above ∧ above.length = d
  /-- The walk ends because nothing is left to visit, not because it is stopped. -/
  follow_eq : ∀ {steps}, a.size ≤ steps → a.follow steps [(0, 0)] = a.depthFirst

/-- Lists related to one list are equal if each member of the first is the only one that
anything is related to. -/
theorem eq_of_forall₂ {α β : Type} {R : α → β → Prop} {as : List α} {bs cs : List β}
    (hunique : ∀ b ∈ bs, ∀ {a c}, R a b → R a c → b = c) (hbs : List.Forall₂ R as bs)
    (hcs : List.Forall₂ R as cs) : bs = cs := by
  induction hbs generalizing cs with
  | nil =>
      cases hcs
      rfl
  | cons hb hbs ih =>
      cases hcs with
      | cons hc hcs =>
          rw [hunique _ (by simp) hb hc, ih (fun b hb => hunique b (by simp [hb])) hcs]

/-- At most one tree is read off at a node. -/
theorem Reads.unique {a : Arena} {index : Nat} {t u : Tree} (ht : a.Reads index t)
    (hu : a.Reads index u) : t = u := by
  induction t using Tree.children_induction generalizing index u with
  | step t ih =>
      obtain ⟨hnode, hsymbol, htext, hposition, hchildren⟩ := ht
      obtain ⟨hnode', hsymbol', htext', hposition', hchildren'⟩ := hu
      obtain rfl := Option.some.inj (hnode.symm.trans hnode')
      refine Tree.eq_of_parts (hsymbol ▸ hsymbol') (htext ▸ htext') (hposition ▸ hposition') ?_
      exact eq_of_forall₂ ih hchildren hchildren'

/-! ## where the subtrees lie -/

mutual

theorem number_append : (t : Tree) → (parent : Option Nat) → (index : Nat) → (rest : List Node) →
    number parent index rest t = number parent index [] t ++ rest
  | .leaf .., parent, index, rest => rfl
  | .node s p cs, parent, index, rest => by
      rw [number, number, numberAll_append cs, List.cons_append]

theorem numberAll_append : (ts : List Tree) → (parent index : Nat) → (rest : List Node) →
    numberAll parent index rest ts = numberAll parent index [] ts ++ rest
  | [], parent, index, rest => rfl
  | t :: ts, parent, index, rest => by
      rw [numberAll, numberAll, numberAll_append ts, number_append t, ← List.append_assoc,
        ← number_append t]

end

/-- The node of a tree, without those below it. -/
def nodeOf (parent : Option Nat) (index : Nat) (t : Tree) : Node :=
  ⟨t.symbol, t.text?, t.position, parent, roots (index + 1) t.children⟩

theorem number_eq (parent : Option Nat) (index : Nat) (rest : List Node) (t : Tree) :
    number parent index rest t =
      nodeOf parent index t :: numberAll index (index + 1) rest t.children := by
  cases t <;> rfl

/-- Where a subtree lies: its number, and the numbers of the nodes above it, the nearest
first. -/
inductive Lies (t : Tree) : (above : List Nat) → (index : Nat) → Tree → Prop where
  | root : Lies t [] 0 t
  | child {above : List Nat} {j i : Nat} {u c : Tree} (hu : Lies t above j u)
      (hc : (i, c) ∈ (roots (j + 1) u.children).zip u.children) : Lies t (j :: above) i c

/-- The number of a tree among consecutive ones, and where its nodes start. -/
theorem exists_numberAll_eq (parent : Nat) {index i : Nat} (rest : List Node) {ts : List Tree}
    {c : Tree} (h : (i, c) ∈ (roots index ts).zip ts) :
    ∃ before after, numberAll parent index rest ts = before ++ number (some parent) i after c ∧
      index + before.length = i := by
  induction ts generalizing index with
  | nil => simp at h
  | cons t ts ih =>
      rw [roots, List.zip_cons_cons, List.mem_cons] at h
      rcases h with h | h
      · obtain ⟨rfl, rfl⟩ := Prod.mk.inj h
        exact ⟨[], _, rfl, rfl⟩
      · obtain ⟨before, after, hsplit, hlength⟩ := ih h
        refine ⟨number (some parent) index [] t ++ before, after, ?_, ?_⟩
        · rw [numberAll, number_append, hsplit, List.append_assoc]
        · simp [length_number]
          omega

/-- The nodes of a subtree stand together in the arena, from its number on. -/
theorem Lies.exists_number_eq {t u : Tree} {above : List Nat} {index : Nat}
    (h : Lies t above index u) :
    ∃ before after, number none 0 [] t = before ++ number above.head? index after u ∧
      before.length = index := by
  induction h with
  | root => exact ⟨[], [], rfl, rfl⟩
  | @child above j i u c hu hc ih =>
      obtain ⟨before, after, hsplit, hlength⟩ := ih
      obtain ⟨before', after', hsplit', hlength'⟩ :=
        exists_numberAll_eq j after hc
      rw [number_eq above.head? j after u, hsplit'] at hsplit
      exact ⟨before ++ nodeOf above.head? j u :: before', after', by simp [hsplit],
        by simp; omega⟩

theorem Lies.node {t u : Tree} {above : List Nat} {index : Nat} (h : Lies t above index u) :
    (ofTree t).nodes[index]? = some (nodeOf above.head? index u) := by
  obtain ⟨before, after, hsplit, rfl⟩ := h.exists_number_eq
  simp [ofTree, hsplit, number_eq]

theorem Lies.childrenOf {t u : Tree} {above : List Nat} {index : Nat} (h : Lies t above index u) :
    (ofTree t).childrenOf index = roots (index + 1) u.children := by
  rw [Arena.childrenOf, h.node]
  rfl

/-- A subtree has room in the arena. -/
theorem Lies.add_size_le {t u : Tree} {above : List Nat} {index : Nat}
    (h : Lies t above index u) : index + u.size ≤ t.size := by
  obtain ⟨before, after, hsplit, hlength⟩ := h.exists_number_eq
  have hsize := congrArg List.length hsplit
  simp only [length_number, List.length_append, List.length_nil] at hsize
  omega

/-- Between the first number of consecutive trees and the last there are only numbers of
these trees. -/
theorem exists_root_of_lt (index : Nat) {i : Nat} (ts : List Tree) (hle : index ≤ i)
    (hlt : i < index + Tree.sizeAll ts) :
    ∃ r c, (r, c) ∈ (roots index ts).zip ts ∧ r ≤ i ∧ i < r + c.size := by
  induction ts generalizing index with
  | nil =>
      rw [Tree.sizeAll] at hlt
      omega
  | cons t ts ih =>
      rw [Tree.sizeAll] at hlt
      by_cases hi : i < index + t.size
      · exact ⟨index, t, by simp [roots], hle, hi⟩
      · obtain ⟨r, c, hmem, hr⟩ := ih (index + t.size) (by omega) (by omega)
        exact ⟨r, c, by simp [roots, hmem], hr⟩

/-- Every number that a subtree has room for is that of a subtree. -/
theorem Lies.exists_of_lt {t u : Tree} {above : List Nat} {index : Nat} (h : Lies t above index u)
    {i : Nat} (hle : index ≤ i) (hlt : i < index + u.size) : ∃ above' v, Lies t above' i v := by
  induction u using Tree.children_induction generalizing above index with
  | step u ih =>
      rw [Tree.size_eq] at hlt
      by_cases hi : i = index
      · exact ⟨above, u, hi ▸ h⟩
      · obtain ⟨r, c, hmem, hr, hrc⟩ :=
          exists_root_of_lt (index + 1) u.children (i := i) (by omega) (by omega)
        exact ih c (List.of_mem_zip hmem).2 (h.child hmem) hr hrc

theorem exists_lies {t : Tree} {i : Nat} (h : i < (ofTree t).size) :
    ∃ above u, Lies t above i u := by
  rw [size_ofTree] at h
  exact Lies.root.exists_of_lt (Nat.zero_le i) (by omega)

/-! ## links -/

theorem length_roots (index : Nat) (ts : List Tree) : (roots index ts).length = ts.length := by
  induction ts generalizing index with
  | nil => rfl
  | cons t ts ih => simp [roots, ih]

theorem exists_mem_zip_of_mem_roots {index i : Nat} {ts : List Tree} (h : i ∈ roots index ts) :
    ∃ c, (i, c) ∈ (roots index ts).zip ts := by
  induction ts generalizing index with
  | nil => simp [roots] at h
  | cons t ts ih =>
      rw [roots, List.mem_cons] at h
      rcases h with rfl | h
      · exact ⟨t, by simp [roots]⟩
      · obtain ⟨c, hc⟩ := ih h
        exact ⟨c, by simp [roots, hc]⟩

theorem le_of_mem_roots {index i : Nat} {ts : List Tree} (h : i ∈ roots index ts) : index ≤ i := by
  induction ts generalizing index with
  | nil => simp [roots] at h
  | cons t ts ih =>
      rw [roots, List.mem_cons] at h
      rcases h with rfl | h
      · exact Nat.le_refl _
      · have hle := ih h
        omega

theorem nodup_roots (index : Nat) (ts : List Tree) : (roots index ts).Nodup := by
  induction ts generalizing index with
  | nil => exact .nil
  | cons t ts ih =>
      refine List.nodup_cons.2 ⟨fun h => ?_, ih _⟩
      have hle := le_of_mem_roots h
      have hpos := t.size_pos
      omega

/-- A subtree is read off at its number. -/
theorem Lies.reads {t u : Tree} {above : List Nat} {index : Nat} (h : Lies t above index u) :
    (ofTree t).Reads index u := by
  induction u using Tree.children_induction generalizing above index with
  | step u ih =>
      refine ⟨h.node, rfl, rfl, rfl, ?_⟩
      rw [List.forall₂_iff_zip]
      refine ⟨length_roots _ _, fun hc => ?_⟩
      exact ih _ (List.of_mem_zip hc).2 (h.child hc)

theorem Lies.ancestors {t u : Tree} {above : List Nat} {index : Nat} (h : Lies t above index u) :
    (ofTree t).Ancestors index above := by
  induction h with
  | root => exact .root Lies.root.node rfl
  | child hu hc ih => exact .child (hu.child hc).node rfl ih

theorem Lies.lt {t u : Tree} {above : List Nat} {i j : Nat} (h : Lies t (j :: above) i u) :
    j < i := by
  cases h with
  | child hu hc => exact le_of_mem_roots (List.of_mem_zip hc).1

theorem childrenOf_of_size_le {a : Arena} {j : Nat} (h : a.size ≤ j) : a.childrenOf j = [] := by
  rw [childrenOf, Array.getElem?_eq_none h]

/-- The children of a node are the numbers of the subtrees just below that of the node. -/
theorem mem_childrenOf_iff {t : Tree} {i j : Nat} :
    i ∈ (ofTree t).childrenOf j ↔ ∃ above c, Lies t (j :: above) i c := by
  constructor
  · intro h
    by_cases hj : j < (ofTree t).size
    · obtain ⟨above, u, hu⟩ := exists_lies hj
      rw [hu.childrenOf] at h
      obtain ⟨c, hc⟩ := exists_mem_zip_of_mem_roots h
      exact ⟨above, c, hu.child hc⟩
    · simp [childrenOf_of_size_le (Nat.not_lt.1 hj)] at h
  · rintro ⟨above, c, h⟩
    cases h with
    | child hu hc =>
        rw [hu.childrenOf]
        exact (List.of_mem_zip hc).1

/-- The parent of a node is the nearest of the nodes above its subtree. -/
theorem exists_lies_of_getElem? {t : Tree} {i : Nat} {n : Node}
    (h : (ofTree t).nodes[i]? = some n) : ∃ above u, Lies t above i u ∧ n.parent = above.head? := by
  obtain ⟨hi, -⟩ := Array.getElem?_eq_some_iff.1 h
  obtain ⟨above, u, hu⟩ := exists_lies hi
  obtain rfl := Option.some.inj (h.symm.trans hu.node)
  exact ⟨above, u, hu, rfl⟩

theorem parent_ofTree_eq_none_iff {t : Tree} {i : Nat} {n : Node}
    (h : (ofTree t).nodes[i]? = some n) : n.parent = none ↔ i = 0 := by
  obtain ⟨above, u, hu, hparent⟩ := exists_lies_of_getElem? h
  rw [hparent, List.head?_eq_none_iff]
  cases above with
  | nil =>
      cases hu
      simp
  | cons j above =>
      have hlt := hu.lt
      simp
      omega

theorem parent_ofTree_eq_some_iff {t : Tree} {i j : Nat} {n : Node}
    (h : (ofTree t).nodes[i]? = some n) : n.parent = some j ↔ i ∈ (ofTree t).childrenOf j := by
  rw [mem_childrenOf_iff]
  constructor
  · intro hj
    obtain ⟨above, u, hu, hparent⟩ := exists_lies_of_getElem? h
    obtain ⟨rest, rfl⟩ := List.head?_eq_some_iff.1 (hparent.symm.trans hj)
    exact ⟨rest, u, hu⟩
  · rintro ⟨above, c, hc⟩
    obtain rfl := Option.some.inj (h.symm.trans hc.node)
    rfl

theorem nodup_childrenOf_ofTree (t : Tree) (j : Nat) : ((ofTree t).childrenOf j).Nodup := by
  by_cases hj : j < (ofTree t).size
  · obtain ⟨above, u, hu⟩ := exists_lies hj
    rw [hu.childrenOf]
    exact nodup_roots _ _
  · simp [childrenOf_of_size_le (Nat.not_lt.1 hj)]

/-- Children come after their parent and within the arena. -/
theorem bounds_of_mem_childrenOf {t : Tree} {j c : Nat} (h : c ∈ (ofTree t).childrenOf j) :
    j < c ∧ c < (ofTree t).size := by
  obtain ⟨above, u, hu⟩ := mem_childrenOf_iff.1 h
  have hlt := hu.lt
  have hroom := hu.add_size_le
  have hpos := u.size_pos
  rw [size_ofTree]
  omega

/-! ## walks -/

/-- In `count` steps, a walk visits the nodes `found` from the nodes `first`, and goes on
with the others. -/
def Yields (a : Arena) (first : List (Nat × Nat)) (count : Nat) (found : List (Nat × Nat)) :
    Prop :=
  ∀ steps todo, a.follow (steps + count) (first ++ todo) = found ++ a.follow steps todo

theorem Yields.nil (a : Arena) : a.Yields [] 0 [] := fun _ _ => rfl

theorem Yields.append {a : Arena} {first first' found found' : List (Nat × Nat)}
    {count count' : Nat} (h : a.Yields first count found) (h' : a.Yields first' count' found') :
    a.Yields (first ++ first') (count + count') (found ++ found') := by
  intro steps todo
  rw [List.append_assoc, List.append_assoc, ← h' steps todo, ← h (steps + count')]
  congr 1
  omega

/-- A node is visited before those below it. -/
theorem Yields.visit {a : Arena} {depth index count : Nat} {found : List (Nat × Nat)}
    (h : a.Yields ((a.childrenOf index).map (depth + 1, ·)) count found) :
    a.Yields [(depth, index)] (count + 1) ((depth, index) :: found) := by
  intro steps todo
  rw [← Nat.add_assoc]
  simp [follow, h steps todo]

/-- What a walk visits in a subtree: its numbers in a row, each with the number of the nodes
above. -/
structure Covers (t : Tree) (found : List (Nat × Nat)) (index count : Nat) : Prop where
  numbers : found.map Prod.snd = List.range' index count
  depths : ∀ {d i}, (d, i) ∈ found → ∃ above u, Lies t above i u ∧ above.length = d

theorem Covers.append {t : Tree} {found found' : List (Nat × Nat)} {index count count' : Nat}
    (h : Covers t found index count) (h' : Covers t found' (index + count) count') :
    Covers t (found ++ found') index (count + count') := by
  refine ⟨by simp [h.numbers, h'.numbers], fun hmem => ?_⟩
  rcases List.mem_append.1 hmem with hmem | hmem
  · exact h.depths hmem
  · exact h'.depths hmem

/-- Walks that cover each of consecutive trees make a walk that covers them all. -/
theorem exists_yields_roots {t : Tree} (depth index : Nat) {ts : List Tree}
    (h : ∀ {i c}, (i, c) ∈ (roots index ts).zip ts →
      ∃ found, (ofTree t).Yields [(depth, i)] c.size found ∧ Covers t found i c.size) :
    ∃ found, (ofTree t).Yields ((roots index ts).map (depth, ·)) (Tree.sizeAll ts) found ∧
      Covers t found index (Tree.sizeAll ts) := by
  induction ts generalizing index with
  | nil => exact ⟨[], .nil _, rfl, by simp⟩
  | cons c ts ih =>
      obtain ⟨found, hyields, hcovers⟩ := h (i := index) (c := c) (by simp [roots])
      obtain ⟨found', hyields', hcovers'⟩ :=
        ih (index + c.size) fun hmem => h (by simp [roots, hmem])
      exact ⟨found ++ found', hyields.append hyields', hcovers.append hcovers'⟩

/-- A walk from a subtree visits its numbers in order, and then goes on. -/
theorem Lies.exists_yields {t u : Tree} {above : List Nat} {index : Nat}
    (h : Lies t above index u) :
    ∃ found, (ofTree t).Yields [(above.length, index)] u.size found ∧
      Covers t found index u.size := by
  induction u using Tree.children_induction generalizing above index with
  | step u ih =>
      obtain ⟨found, hyields, hcovers⟩ := exists_yields_roots (above.length + 1) (index + 1)
        fun hc => ih _ (List.of_mem_zip hc).2 (h.child hc)
      rw [← h.childrenOf] at hyields
      rw [Tree.size_eq]
      refine ⟨(above.length, index) :: found, hyields.visit, ?_, fun hmem => ?_⟩
      · simp [hcovers.numbers, List.range'_succ]
      · rcases List.mem_cons.1 hmem with hfirst | hmem
        · obtain ⟨rfl, rfl⟩ := Prod.mk.inj hfirst
          exact ⟨above, u, h, rfl⟩
        · exact hcovers.depths hmem

theorem follow_nil (a : Arena) (steps : Nat) : a.follow steps [] = [] := by
  cases steps <;> rfl

/-- A walk through the arena of a tree visits all of it, and however long it may take. -/
theorem exists_follow_eq (t : Tree) :
    ∃ found, Covers t found 0 t.size ∧
      ∀ steps, (ofTree t).size ≤ steps → (ofTree t).follow steps [(0, 0)] = found := by
  obtain ⟨found, hyields, hcovers⟩ := (Lies.root (t := t)).exists_yields
  refine ⟨found, hcovers, fun steps hsteps => ?_⟩
  have hfollow := hyields (steps - t.size) []
  rw [size_ofTree] at hsteps
  simpa [Nat.sub_add_cancel hsteps, follow_nil] using hfollow

/-- **Arenas.**  The arena of a token that has a tree holds the token in preorder: reading it
from node 0 on gives the token back, links to parents and to children agree, a child comes
after its parent, and a walk visits the nodes by their numbers, each with the number of its
ancestors. -/
theorem inPreorder_of_tree {root : Token} {tree : Tree} (h : root.tree = .ok tree) :
    (ofTree tree).InPreorder root := by
  obtain rfl : root.shape = tree :=
    Except.ok.inj ((Token.tree_eq_ok (Token.nodup_of_tree h)).symm.trans h)
  obtain ⟨found, hcovers, hfollow⟩ := exists_follow_eq root.shape
  have hfound : (ofTree root.shape).depthFirst = found := hfollow _ (Nat.le_refl _)
  constructor
  case reads_iff =>
    refine fun t => ⟨fun ht => ht.unique Lies.root.reads, ?_⟩
    rintro rfl
    exact Lies.root.reads
  case parent_eq_none_iff => exact parent_ofTree_eq_none_iff
  case parent_eq_some_iff => exact parent_ofTree_eq_some_iff
  case nodup_childrenOf => exact nodup_childrenOf_ofTree root.shape
  case child_bounds => exact bounds_of_mem_childrenOf
  case visited => rw [hfound, hcovers.numbers, size_ofTree, List.range_eq_range']
  case depth =>
    intro d i hmem
    obtain ⟨above, u, hu, hd⟩ := hcovers.depths (hfound ▸ hmem)
    exact ⟨above, hu.ancestors, hd⟩
  case follow_eq => exact fun hsteps => (hfollow _ hsteps).trans hfound.symm

/-- A sentence of two words and its end. -/
def twoWords : Token :=
  .reduction (.made 5) ⟨"s"⟩
    [.reduction (.made 3) ⟨"key"⟩
      [.reduction (.made 1) ⟨"key"⟩ [.leaf ⟨.made 0, ⟨"WORD"⟩, 3, none⟩ "hi"],
        .leaf ⟨.made 2, ⟨"WORD"⟩, 6, none⟩ "hi"],
      .leaf ⟨.made 4, ⟨"EOF"⟩, 8, none⟩ ""]

/-- The nodes of the sentence are visited from 0 to 5, at the depths of its tokens. -/
theorem inPreorder_of_tree_twoWords :
    ∃ tree, twoWords.tree = .ok tree ∧ (ofTree tree).InPreorder twoWords ∧
      (ofTree tree).depthFirst = [(0, 0), (1, 1), (2, 2), (3, 3), (2, 4), (1, 5)] := by
  have htree : twoWords.tree = .ok twoWords.shape := by decide +kernel
  exact ⟨twoWords.shape, htree, inPreorder_of_tree htree, by decide⟩

end Arena

end ForkParser
