import ForkParser.Proofs.History
import ForkParser.Proofs.Limits
import ForkParser.Proofs.Soundness
import ForkParser.Tree.Arena

/-!
# ForkParser.Proofs.Sizes

How large the trees of a forest are.

Every step of a branch that does not fail adds one node to what is on its stack, a leaf
or a reduction, so the size of what a branch has built is told by the number of steps
that lead to it (`Parser.Reaches.sizeAll`).  An accepted branch has a single tree on its
stack.  What round `n` of a search accepts are therefore trees of `n + 1` nodes
(`Parser.size_of_mem_acceptedTrees`), and a forest, which is what the rounds accept one
after the other, has its trees in the order of their sizes.
-/

namespace ForkParser

/-! ## counting nodes -/

namespace Tree

mutual

/-- A tree is built by as many moves as it has nodes. -/
theorem length_moves (eof : Symbol) : (t : Tree) → (t.moves eof).length = t.size
  | leaf .. => rfl
  | node s p cs => by
      rw [moves, List.length_append, length_movesAll eof cs, size]
      rfl

theorem length_movesAll (eof : Symbol) : (ts : List Tree) → (movesAll eof ts).length = sizeAll ts
  | [] => rfl
  | t :: ts => by
      rw [movesAll, List.length_append, length_moves eof t, length_movesAll eof ts, sizeAll]

end

end Tree

namespace Arena

mutual

theorem length_number : (t : Tree) → (parent : Option Nat) → (index : Nat) → (rest : List Node) →
    (number parent index rest t).length = t.size + rest.length
  | .leaf .., parent, index, rest => by
      rw [number, List.length_cons, Tree.size, Nat.add_comm]
  | .node s p cs, parent, index, rest => by
      rw [number, List.length_cons, length_numberAll cs, Tree.size]
      omega

theorem length_numberAll : (ts : List Tree) → (parent index : Nat) → (rest : List Node) →
    (numberAll parent index rest ts).length = Tree.sizeAll ts + rest.length
  | [], parent, index, rest => by rw [numberAll, Tree.sizeAll, Nat.zero_add]
  | t :: ts, parent, index, rest => by
      rw [numberAll, length_number t, length_numberAll ts, Tree.sizeAll, Nat.add_assoc]

end

/-- The arena of a tree has a node for each node of the tree. -/
@[simp] theorem size_ofTree (t : Tree) : (ofTree t).size = t.size := by
  simp [size, ofTree, length_number]

end Arena

/-! ## layers of growing size -/

section Layers

variable {α : Type} {layer : Nat → List α} {size : α → Nat}

/-- Layers of growing size, one after the other, are in the order of their sizes. -/
theorem pairwise_size_layers (hsize : ∀ n, ∀ a ∈ layer n, size a = n + 1) (k : Nat) :
    ((List.range k).flatMap layer).Pairwise (size · ≤ size ·) := by
  rw [List.pairwise_flatMap]
  refine ⟨fun n _ => ?_, List.pairwise_lt_range.imp fun {m n} hlt a ha b hb => ?_⟩
  · refine List.pairwise_of_forall_mem_list fun a ha b hb => ?_
    exact Nat.le_of_eq ((hsize n a ha).trans (hsize n b hb).symm)
  · rw [hsize m a ha, hsize n b hb]
    omega

/-- What has one size makes up one layer. -/
theorem filter_size_layers (hsize : ∀ n, ∀ a ∈ layer n, size a = n + 1) (k n : Nat) :
    ((List.range k).flatMap layer).filter (size · = n + 1) = if n < k then layer n else [] := by
  induction k with
  | zero => rfl
  | succ k ih =>
      rw [List.range_succ, List.flatMap_append, List.flatMap_singleton, List.filter_append, ih]
      by_cases hk : k = n
      · subst hk
        have hall : (layer k).filter (size · = k + 1) = layer k :=
          List.filter_eq_self.2 fun a ha => by simp [hsize k a ha]
        simp only [hall, Nat.lt_irrefl, if_false, Nat.lt_add_one, if_true, List.nil_append]
      · have hnone : (layer k).filter (size · = n + 1) = [] :=
          List.filter_eq_nil_iff.2 fun a ha => by simp [hsize k a ha, hk]
        have hlt : n < k + 1 ↔ n < k := by omega
        simp [hnone, hlt]

end Layers

/-! ## sizes along a run -/

namespace Parser

variable {g : Grammar} {p : Parser} {input : Array Token}

/-- What stands on the stack after `n` steps has `n + 1` nodes. -/
theorem Reaches.sizeAll (hg : g.table = .ok p.table) (hleaf : ∀ t ∈ input, t.isLeaf = true)
    {n : Nat} {b : Branch} (h : p.Reaches input n b) (hlive : b.error? = none) :
    Tree.sizeAll (b.stack.toList.map Token.shape) = n + 1 := by
  rw [← Tree.length_movesAll g.settings.eof]
  exact h.length_history hg hleaf hlive

end Parser

/-! ## what a round accepts -/

namespace Search

/-- The branches that round `n` of a search accepts.  The first round is number 1. -/
def acceptedIn (p : Parser) (input : Array Token) (s : Search) : (n : Nat) → List Branch
  | 0 => []
  | n + 1 => (successors p input (after p input n s).active).filter Branch.isAccepted

/-- What a search has accepted after `n` rounds is what the rounds have accepted, one
after the other. -/
theorem accepted_after_eq (p : Parser) (input : Array Token) (s : Search) (n : Nat) :
    (after p input n s).accepted =
      s.accepted ++ (List.range (n + 1)).flatMap (s.acceptedIn p input) := by
  induction n with
  | zero => simp [after, acceptedIn]
  | succ n ih =>
      rw [List.range_succ, List.flatMap_append, List.flatMap_singleton, ← List.append_assoc, ← ih]
      rfl

end Search

namespace Parser

/-- The trees that round `n` of the search over some tokens accepts. -/
def acceptedTrees (p : Parser) (tokens : List Token) (n : Nat) : List Tree :=
  match seed (inputOf tokens) with
  | .ok first =>
    (first.acceptedIn p (inputOf tokens) n).flatMap fun b => b.stack.toList.map Token.shape
  | .error _ => []

theorem acceptedTrees_eq (p : Parser) {tokens : List Token} {token : Token}
    (htoken : (inputOf tokens)[0]? = some token) :
    p.acceptedTrees tokens = fun n =>
      ((Search.opening token).acceptedIn p (inputOf tokens) n).flatMap
        fun b => b.stack.toList.map Token.shape := by
  funext n
  rw [acceptedTrees, seed_eq_ok htoken]

/-- A forest is what the rounds of the search accept, one after the other. -/
theorem trees_eq_flatMap {p : Parser} {tokens : List Token}
    (hleaf : ∀ t ∈ tokens, t.isLeaf = true) {forest : Forest} (h : p.parse tokens = .ok forest)
    {s : Search} (hs : p.search (inputOf tokens) = .ok s) :
    forest.trees = (List.range (s.rounds + 1)).flatMap (p.acceptedTrees tokens) := by
  have hne : tokens ≠ [] := by
    rintro rfl
    contradiction
  obtain ⟨token, htoken, -, hafter, -⟩ := search_eq_after hs
  rw [parse_eq hne hleaf hs] at h
  split at h
  · contradiction
  · obtain rfl := Except.ok.inj h
    have haccepted := Search.accepted_after_eq p (inputOf tokens) (.opening token) s.rounds
    rw [← hafter] at haccepted
    rw [haccepted, Search.opening, List.nil_append, List.flatMap_assoc, acceptedTrees_eq p htoken]
    rfl

variable {g : Grammar} {p : Parser}

/-- Round `n` accepts trees of `n + 1` nodes. -/
theorem size_of_mem_acceptedTrees (hg : g.table = .ok p.table)
    (hstart : p.settings.start = g.settings.start) {tokens : List Token}
    (hleaf : ∀ t ∈ tokens, t.isLeaf = true) {n : Nat} {t : Tree}
    (ht : t ∈ p.acceptedTrees tokens n) : t.size = n + 1 := by
  have hleaf' := isLeaf_inputOf hleaf
  cases htoken : (inputOf tokens)[0]? with
  | none =>
      rw [acceptedTrees, seed, Branch.shift_eq_error (b := Branch.start) htoken] at ht
      contradiction
  | some token =>
      rw [acceptedTrees_eq p htoken] at ht
      obtain ⟨b, hb, hroot⟩ := List.mem_flatMap.1 ht
      cases n with
      | zero => contradiction
      | succ n =>
          obtain ⟨hb, haccepted⟩ := List.mem_filter.1 hb
          obtain ⟨a, ha, hstep⟩ := List.mem_flatMap.1 hb
          obtain ⟨hreach, hactive⟩ := (Search.mem_active_opening htoken).1 ha
          have hreach := hreach.step hactive hstep
          obtain ⟨root, hitems, -⟩ := (hreach.sound hg hstart hleaf').parsed haccepted
          have hsize := hreach.sizeAll hg hleaf' (Branch.error?_of_isAccepted haccepted)
          have hstack : b.stack.toList = [root] := by simp [UndoStack.toList, hitems]
          rw [hstack] at hroot hsize
          obtain rfl := List.mem_singleton.1 hroot
          simpa [Tree.sizeAll] using hsize

/-- **Smaller trees come first.**  The trees of a forest stand in the order of their
numbers of nodes; those of `n + 1` nodes are the ones that round `n` of the search has
accepted, in the order of acceptance, if the search came to that round; and none has more
nodes than one for each round there may be, and one. -/
theorem smaller_trees_first {g : Grammar} {table : Table} (hg : g.table = .ok table)
    (limits : Settings) {tokens : List Token} (hleaf : ∀ t ∈ tokens, t.isLeaf = true)
    {forest : Forest} (h : (withLimits table limits).parse tokens = .ok forest) :
    forest.trees.Pairwise (fun t u => (Arena.ofTree t).size ≤ (Arena.ofTree u).size) ∧
    (∃ s, (withLimits table limits).search (inputOf tokens) = .ok s ∧
      ∀ n, forest.trees.filter (fun t => (Arena.ofTree t).size = n + 1) =
        if n ≤ s.rounds then (withLimits table limits).acceptedTrees tokens n else []) ∧
    ∀ t ∈ forest.trees, (Arena.ofTree t).size ≤ limits.maxSteps + 1 := by
  have hne : tokens ≠ [] := by
    rintro rfl
    contradiction
  obtain ⟨s, hs⟩ := exists_search (p := withLimits table limits) hne
  obtain ⟨-, -, hrounds, -⟩ := search_eq_after hs
  have hsize : ∀ n, ∀ t ∈ (withLimits table limits).acceptedTrees tokens n, t.size = n + 1 :=
    fun n t ht => size_of_mem_acceptedTrees hg (start_withLimits hg limits) hleaf ht
  simp only [Arena.size_ofTree, trees_eq_flatMap hleaf h hs]
  refine ⟨pairwise_size_layers hsize _, ⟨s, hs, fun n => ?_⟩, fun t ht => ?_⟩
  · rw [filter_size_layers hsize]
    simp only [Nat.lt_succ_iff]
  · obtain ⟨n, hn, ht⟩ := List.mem_flatMap.1 ht
    have hle : s.rounds ≤ limits.maxSteps := hrounds
    rw [hsize n t ht]
    rw [List.mem_range] at hn
    omega

/-- A word is read after one lap in four nodes and after two in six, which is all that
five rounds allow. -/
theorem smaller_trees_first_laps :
    ∃ table forest s, laps.table = .ok table ∧
      (withLimits table { maxSteps := 5 }).parse (stream lapsSource ⟨"EOF"⟩) = .ok forest ∧
      (withLimits table { maxSteps := 5 }).search (inputOf (stream lapsSource ⟨"EOF"⟩)) = .ok s ∧
      s.rounds = 5 ∧ forest.trees.map (fun t => (Arena.ofTree t).size) = [4, 6] ∧
      forest.trees.filter (fun t => (Arena.ofTree t).size = 6) =
        (withLimits table { maxSteps := 5 }).acceptedTrees (stream lapsSource ⟨"EOF"⟩) 5 := by
  have hg : laps.table = .ok ⟨laps.settings, laps.productions, laps.buckets⟩ := rfl
  obtain ⟨forest, hforest, hsizes⟩ : ∃ forest,
      (withLimits ⟨laps.settings, laps.productions, laps.buckets⟩ { maxSteps := 5 }).parse
        (stream lapsSource ⟨"EOF"⟩) = .ok forest ∧
      forest.trees.map (fun t => (Arena.ofTree t).size) = [4, 6] := ⟨_, rfl, rfl⟩
  obtain ⟨s, hs, hrounds⟩ : ∃ s,
      (withLimits ⟨laps.settings, laps.productions, laps.buckets⟩ { maxSteps := 5 }).search
        (inputOf (stream lapsSource ⟨"EOF"⟩)) = .ok s ∧ s.rounds = 5 := ⟨_, rfl, rfl⟩
  obtain ⟨-, ⟨s', hs', hlayers⟩, -⟩ :=
    smaller_trees_first hg _ (isLeaf_stream lapsSource ⟨"EOF"⟩) hforest
  obtain rfl := Except.ok.inj (hs'.symm.trans hs)
  have hlast := hlayers 5
  rw [hrounds, if_pos (Nat.le_refl 5)] at hlast
  exact ⟨_, forest, s', hg, hforest, hs, hrounds, hsizes, hlast⟩

end Parser

end ForkParser
