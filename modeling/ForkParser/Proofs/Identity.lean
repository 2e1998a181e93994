import ForkParser.Proofs.Run

/-!
# ForkParser.Proofs.Identity

No token is reached twice from what a search builds.

Walking a token succeeds when the identities below it are all different
(`Token.visit_eq_ok`).  On every branch of a search the identities on the stack
are accounted for: they are those of the input tokens taken, and one for each
reduction made (`Branch.Accounted`).  Over leaves these are all different, so the
accepted branches of a search turn into trees, and a parse is told by its search
alone (`Parser.parse_eq`).
-/

namespace ForkParser

namespace Token

mutual

/-- The identities in a token, its own first. -/
def origins : Token → List Origin
  | leaf l _ => [l.origin]
  | node l cs => l.origin :: originsAll cs

def originsAll : List Token → List Origin
  | [] => []
  | t :: ts => t.origins ++ originsAll ts

end

theorem originsAll_eq (ts : List Token) : originsAll ts = ts.flatMap origins := by
  induction ts with
  | nil => rfl
  | cons t ts ih => rw [originsAll, ih, List.flatMap_cons]

/-! ## walking a token -/

mutual

/-- A walk that meets no identity twice ends, and has collected them all. -/
theorem visit_eq_ok : (t : Token) → (seen : List Origin) →
    (t.origins.reverse ++ seen).Nodup → t.visit seen = .ok (t.origins.reverse ++ seen)
  | leaf l text, seen, h => by
      have hnew : l.origin ∉ seen := (List.nodup_cons.1 h).1
      rw [visit, if_neg hnew]
      rfl
  | node l cs, seen, h => by
      rw [origins, List.reverse_cons, List.append_assoc] at h ⊢
      have hnew : l.origin ∉ seen :=
        (List.nodup_cons.1 ((List.nodup_append.1 h).2.1)).1
      rw [visit, if_neg hnew]
      exact visitAll_eq_ok cs (l.origin :: seen) h

theorem visitAll_eq_ok : (ts : List Token) → (seen : List Origin) →
    ((originsAll ts).reverse ++ seen).Nodup →
      visitAll seen ts = .ok ((originsAll ts).reverse ++ seen)
  | [], seen, _ => rfl
  | t :: ts, seen, h => by
      rw [originsAll, List.reverse_append, List.append_assoc] at h ⊢
      have ht := visit_eq_ok t seen (List.nodup_append.1 h).2.1
      rw [visitAll, ht]
      exact visitAll_eq_ok ts (t.origins.reverse ++ seen) h

end

/-- A token without repeated identities has a tree. -/
theorem tree_eq_ok {t : Token} (h : t.origins.Nodup) : t.tree = .ok t.shape := by
  have hnodup : (t.origins.reverse ++ []).Nodup := by
    rw [List.append_nil]
    exact (List.reverse_perm _).nodup_iff.2 h
  rw [tree, visit_eq_ok t [] hnodup]

end Token

/-! ## identities on a branch -/

namespace Branch

/-- The identities on a stack are those of the input tokens taken, and one for
each reduction made; and there is nothing to undo. -/
structure Accounted (input : Array Token) (b : Branch) : Prop where
  committed : b.stack.changes = []
  origins_perm : (b.stack.items.flatMap Token.origins).Perm
    ((input.toList.take b.index).flatMap Token.origins ++
      (List.range b.reductions).map Origin.reduction)

theorem origins_reduced (b : Branch) (rule : Production) (children : List Token)
    (input : Array Token) :
    (b.reduced rule children input).origins =
      .reduction b.reductions :: children.flatMap Token.origins := by
  rw [reduced]
  split
  · next hnil =>
      rw [List.isEmpty_iff.1 hnil]
      rfl
  · rw [Token.reduction, Token.origins, Token.originsAll_eq]

/-- Of the input, taking a token takes one more. -/
theorem take_index_succ {input : Array Token} {b : Branch} {token : Token}
    (h : input[b.index]? = some token) :
    input.toList.take (b.index + 1) = input.toList.take b.index ++ [token] := by
  rw [List.take_add_one, Array.getElem?_toList, h]
  rfl

/-- Taking a token adds its identities. -/
theorem Accounted.taking {input : Array Token} {b : Branch} {token : Token}
    (hb : b.Accounted input) (h : input[b.index]? = some token) :
    (b.taking token).Accounted input := by
  refine ⟨rfl, ?_⟩
  simp only [Branch.taking, take_index_succ h, List.flatMap_append, List.flatMap_cons,
    List.flatMap_nil, List.append_nil, List.append_assoc]
  exact (hb.origins_perm.append_left _).trans (List.perm_append_comm_assoc _ _ _)

/-- A reduction adds one identity. -/
theorem Accounted.reducing {input : Array Token} {b : Branch} {rule : Production}
    {children rest : List Token} (hb : b.Accounted input)
    (hitems : b.stack.items = children.reverse ++ rest) :
    (b.reducing (b.reduced rule children input) rest).Accounted input := by
  refine ⟨rfl, ?_⟩
  have hold := hb.origins_perm
  rw [hitems, List.flatMap_append] at hold
  simp only [Branch.reducing, List.flatMap_cons, origins_reduced, List.range_succ,
    List.map_append, List.map_singleton, List.cons_append]
  have hchildren : (children.flatMap Token.origins).Perm
      (children.reverse.flatMap Token.origins) :=
    (List.reverse_perm children).symm.flatMap_right _
  have hsame := (hchildren.append_right (rest.flatMap Token.origins)).trans hold
  rw [← List.append_assoc]
  exact (hsame.cons _).trans (List.perm_append_singleton _ _).symm

/-- No move loses account. -/
theorem Effect.accounted {start : Symbol} {input : Array Token} {b b' : Branch} {move : Move}
    (h : b.Effect start input move b') (hb : b.Accounted input) : b'.Accounted input := by
  cases h with
  | taken h => exact hb.taking h
  | exhausted => exact ⟨hb.committed, hb.origins_perm⟩
  | mismatched => exact ⟨hb.committed, hb.origins_perm⟩
  | reduced hitems => exact hb.reducing hitems
  | @accepted rule children hitems =>
      have hreduced : (b.reducing (b.reduced rule children input) []).Accounted input :=
        hb.reducing (by rw [hitems, List.append_nil])
      exact ⟨hreduced.committed, hreduced.origins_perm⟩
  | @refused rule children rest hitems =>
      have hreduced : (b.reducing (b.reduced rule children input) rest).Accounted input :=
        hb.reducing hitems
      exact ⟨hreduced.committed, hreduced.origins_perm⟩

end Branch

namespace Parser

variable {p : Parser} {input : Array Token}

theorem accounted_of_mem_step {b b' : Branch} (hb : b.Accounted input)
    (h : b' ∈ p.step b input) : b'.Accounted input := by
  rcases mem_step h with ⟨e, rfl⟩ | ⟨top, c, -, -, rfl⟩
  · exact ⟨hb.committed, hb.origins_perm⟩
  · exact (effect_follow hb.committed c).accounted hb

/-- Every branch of a search is accounted for. -/
theorem Reaches.accounted {n : Nat} {b : Branch} (h : p.Reaches input n b) :
    b.Accounted input := by
  obtain ⟨token, htoken, hrun⟩ := h
  refine hrun.invariant (fun hb _ hstep => accounted_of_mem_step hb hstep) ?_
  have hstart : Branch.start.Accounted input := ⟨rfl, .refl _⟩
  exact hstart.taking htoken

/-! ## inputs of leaves -/

theorem isLeaf_inputOf {tokens : List Token} (hleaf : ∀ t ∈ tokens, t.isLeaf = true) :
    ∀ t ∈ inputOf tokens, t.isLeaf = true := by
  intro t ht
  rw [inputOf, List.mem_toArray, List.mem_map] at ht
  obtain ⟨⟨t, i⟩, hmem, rfl⟩ := ht
  have ht := hleaf t (List.fst_mem_of_mem_zipIdx hmem)
  cases t with
  | leaf => rfl
  | node => contradiction

/-- The identities of an input of leaves are its places. -/
theorem origins_inputOf {tokens : List Token} (hleaf : ∀ t ∈ tokens, t.isLeaf = true) :
    (inputOf tokens).toList.flatMap Token.origins =
      (List.range tokens.length).map Origin.input := by
  have hplaces : ∀ x ∈ tokens.zipIdx,
      (x.1.withOrigin (.input x.2)).origins = [Origin.input x.2] := by
    rintro ⟨t, i⟩ hx
    have ht := hleaf t (List.fst_mem_of_mem_zipIdx hx)
    cases t with
    | leaf => rfl
    | node => contradiction
  rw [inputOf, List.flatMap_map, List.range_eq_range', ← List.zipIdx_map_snd, List.map_map,
    List.flatMap_def, List.map_congr_left hplaces, ← List.flatMap_def]
  exact List.map_eq_flatMap.symm

/-- Over leaves, no identity stands on a stack twice. -/
theorem nodup_origins {tokens : List Token} (hleaf : ∀ t ∈ tokens, t.isLeaf = true) {b : Branch}
    (hb : b.Accounted (inputOf tokens)) : (b.stack.items.flatMap Token.origins).Nodup := by
  rw [hb.origins_perm.nodup_iff, List.nodup_append]
  have htaken : ((inputOf tokens).toList.take b.index).flatMap Token.origins <+:
      (List.range tokens.length).map Origin.input := by
    rw [← origins_inputOf hleaf]
    refine ⟨((inputOf tokens).toList.drop b.index).flatMap Token.origins, ?_⟩
    rw [← List.flatMap_append, List.take_append_drop]
  refine ⟨?_, ?_, ?_⟩
  · refine List.Nodup.sublist htaken.sublist ?_
    exact List.pairwise_map.2 (List.nodup_range.imp fun hne h => hne (Origin.input.inj h))
  · exact List.pairwise_map.2 (List.nodup_range.imp fun hne h => hne (Origin.reduction.inj h))
  · -- an identity of the input is never one of a reduction
    intro x hx y hy
    obtain ⟨i, -, rfl⟩ := List.mem_map.1 (htaken.subset hx)
    obtain ⟨j, -, rfl⟩ := List.mem_map.1 hy
    exact nofun

end Parser

/-! ## trees of a search -/

/-- Mapping a list by a function that succeeds on its members succeeds. -/
theorem mapM_eq_ok {α β ε : Type} {f : α → Except ε β} {g : α → β} {l : List α}
    (h : ∀ a ∈ l, f a = .ok (g a)) : l.mapM f = .ok (l.map g) := by
  induction l with
  | nil => rfl
  | cons a l ih =>
      rw [List.mapM_cons, h a List.mem_cons_self,
        ih fun x hx => h x (List.mem_cons_of_mem a hx)]
      rfl

/-- A stack without repeated identities turns into trees. -/
theorem Branch.trees_eq_ok {b : Branch} (h : (b.stack.items.flatMap Token.origins).Nodup) :
    b.trees = .ok (b.stack.toList.map Token.shape) := by
  have htokens : b.stack.items.mapM Token.tree = .ok (b.stack.items.map Token.shape) := by
    refine mapM_eq_ok fun t ht => Token.tree_eq_ok ?_
    exact (List.pairwise_flatMap.1 h).1 t ht
  rw [trees, htokens, UndoStack.toList, List.map_reverse]

/-- A parse of leaves is told by its search: what the search accepted, as trees,
or why it accepted nothing. -/
theorem Parser.parse_eq {p : Parser} {tokens : List Token} {s : Search} (hne : tokens ≠ [])
    (hleaf : ∀ t ∈ tokens, t.isLeaf = true) (hs : p.search (inputOf tokens) = .ok s) :
    p.parse tokens =
      if s.accepted = [] then .error (s.failure p.settings)
      else .ok ⟨s.accepted.flatMap fun b => b.stack.toList.map Token.shape⟩ := by
  have hempty : tokens.isEmpty = false := List.isEmpty_eq_false_iff.2 hne
  rw [parse, hempty, if_neg Bool.false_ne_true, hs]
  simp only [Search.outcome, List.isEmpty_iff]
  split
  · rfl
  · have htrees : s.accepted.mapM Branch.trees =
        .ok (s.accepted.map fun b => b.stack.toList.map Token.shape) := by
      refine mapM_eq_ok fun b hb => ?_
      obtain ⟨k, -, hreach, -⟩ := (mem_accepted_search hs).1 hb
      exact Branch.trees_eq_ok (nodup_origins hleaf hreach.accounted)
    rw [Search.forest, htrees, List.flatMap_def]

end ForkParser
