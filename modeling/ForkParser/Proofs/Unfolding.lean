import ForkParser.Proofs.Sharing
import Mathlib.Data.List.Induction

/-!
# ForkParser.Proofs.Unfolding

Which graphs of tokens are trees.

A hand-made graph is a list of parts, and a token of the graph is known by the number of its
part.  `Part.along?` follows a path from part to part, and `Walks` is the walk through the
unfolded graph, where a shared part is met once for each path to it.

The tokens of a graph carry the numbers of their parts as identities (`Assembled`), so paths
and walks in the graph are paths and walks in the tokens.  A walk of a token fails at the
first identity that comes again (`visit_eq_error`).  From these,
`tree_ok_iff_one_path` says which tokens have trees, and what is reported for the others.
-/

namespace ForkParser.Token

/-! ## graphs -/

/-- The numbers of the parts just below a part. -/
def Part.children (part : Part) : List Nat :=
  match part.shape with
  | .leaf _ => []
  | .node _ numbers => numbers

/-- The number of the part that a path leads to from part `number`. -/
def Part.along? (parts : List Part) (number : Nat) : List Nat → Option Nat
  | [] => some number
  | i :: path =>
    (parts[number]?.bind fun part => part.children[i]?).bind fun child => along? parts child path

/-- The walk through an unfolded graph, depth first and from left to right.  Of the parts
still to be met, the first is met next, and then those below it before all others. -/
inductive Walks (parts : List Part) : (todo met : List Nat) → Prop where
  | done : Walks parts [] []
  | meet {number : Nat} {part : Part} {todo met : List Nat} (hpart : parts[number]? = some part)
      (hrest : Walks parts (part.children ++ todo) met) :
      Walks parts (number :: todo) (number :: met)

/-- The tokens are those of the graph: each has the number of its part as its identity, and
below it the tokens of the parts below. -/
structure Assembled (parts : List Part) (tokens : Array Token) : Prop where
  size_eq : tokens.size = parts.length
  part_of : ∀ {number : Nat} {t : Token}, tokens[number]? = some t →
    ∃ part, parts[number]? = some part ∧ t.origin = .made number ∧
      part.children.map (tokens[·]?) = t.children.map some

theorem map_eq_of_mapM {α β : Type} {f : α → Option β} {as : List α} {bs : List β}
    (h : as.mapM f = some bs) : as.map f = bs.map some := by
  induction as generalizing bs with
  | nil => simp_all
  | cons a as ih =>
      simp only [List.mapM_cons, Option.bind_eq_bind, Option.bind_eq_some_iff] at h
      obtain ⟨b, hb, rest, hrest, h⟩ := h
      obtain rfl := Option.some.inj h
      simp [hb, ih hrest]

@[simp] theorem children_withLabel (t : Token) (l : Label) :
    (t.withLabel l).children = t.children := by
  cases t <;> rfl

@[simp] theorem origin_withLabel (t : Token) (l : Label) : (t.withLabel l).origin = l.origin := by
  cases t <;> rfl

/-- A part becomes the token of the next number, above the tokens it refers to. -/
theorem link_of_toToken? {earlier : Array Token} {part : Part} {t : Token}
    (h : part.toToken? earlier = some t) :
    t.origin = .made earlier.size ∧ part.children.map (earlier[·]?) = t.children.map some := by
  unfold Part.toToken? at h
  cases hshape : part.shape with
  | leaf l =>
      simp only [hshape] at h
      obtain rfl := Option.some.inj h
      simp only [children_withLabel, origin_withLabel, Part.children, hshape]
      exact ⟨rfl, rfl⟩
  | node s numbers =>
      simp only [hshape, Option.bind_eq_bind, Option.bind_eq_some_iff, Option.map_eq_some_iff] at h
      obtain ⟨_, ⟨below, hbelow, rfl⟩, ht⟩ := h
      obtain rfl := Option.some.inj ht
      simp only [children_withLabel, origin_withLabel, Part.children, hshape]
      exact ⟨rfl, map_eq_of_mapM hbelow⟩

/-- One more part adds one more token and leaves the others as they are. -/
theorem Assembled.push {parts : List Part} {tokens : Array Token} (h : Assembled parts tokens)
    {part : Part} {t : Token} (ht : part.toToken? tokens = some t) :
    Assembled (parts ++ [part]) (tokens.push t) := by
  have hkept : ∀ {numbers : List Nat} {ts : List Token},
      numbers.map (tokens[·]?) = ts.map some → numbers.map ((tokens.push t)[·]?) = ts.map some := by
    intro numbers ts hnumbers
    rw [← hnumbers]
    refine List.map_congr_left fun n hn => ?_
    have hn' : tokens[n]? ∈ ts.map some := hnumbers ▸ List.mem_map_of_mem hn
    obtain ⟨u, -, hu⟩ := List.mem_map.1 hn'
    obtain ⟨hlt, -⟩ := Array.getElem?_eq_some_iff.1 hu.symm
    rw [Array.getElem?_push, if_neg (by omega)]
  refine ⟨by simp [h.size_eq], fun {number u} hu => ?_⟩
  rw [Array.getElem?_push] at hu
  split at hu
  · next hlast =>
      obtain rfl := Option.some.inj hu
      obtain ⟨horigin, hbelow⟩ := link_of_toToken? ht
      exact ⟨part, by simp [hlast, h.size_eq], by rw [horigin, hlast], hkept hbelow⟩
  · obtain ⟨p, hp, horigin, hbelow⟩ := h.part_of hu
    obtain ⟨hlt, -⟩ := List.getElem?_eq_some_iff.1 hp
    exact ⟨p, by rw [List.getElem?_append_left hlt, hp], horigin, hkept hbelow⟩

theorem assembled_of_assemble {parts : List Part} {tokens : Array Token}
    (h : assemble parts = some tokens) : Assembled parts tokens := by
  induction parts using List.reverseRecOn generalizing tokens with
  | nil =>
      obtain rfl := Option.some.inj h
      exact ⟨rfl, by simp⟩
  | append_singleton parts part ih =>
      simp only [assemble, List.foldlM_append, List.foldlM_cons, List.foldlM_nil,
        Option.bind_eq_bind, Option.bind_eq_some_iff, Option.map_eq_some_iff] at h
      obtain ⟨earlier, hearlier, _, ⟨t, ht, rfl⟩, hlast⟩ := h
      obtain rfl := Option.some.inj hlast
      exact (ih hearlier).push ht

/-! ## paths and walks -/

section Assembled

variable {parts : List Part} {tokens : Array Token}

/-- A path leads to the same token in the graph and from the token. -/
theorem Assembled.map_along? (h : Assembled parts tokens) (path : List Nat) {number : Nat}
    {root : Token} (hroot : tokens[number]? = some root) :
    (root.along? path).map origin = (Part.along? parts number path).map .made := by
  obtain ⟨part, hpart, horigin, hbelow⟩ := h.part_of hroot
  induction path generalizing number root part with
  | nil => simp [along?, Part.along?, horigin]
  | cons i path ih =>
      have hchild : part.children[i]?.map (tokens[·]?) = root.children[i]?.map some := by
        rw [← List.getElem?_map, hbelow, List.getElem?_map]
      cases hc : root.children[i]? with
      | none =>
          have hnone : part.children[i]? = none := by simpa [hc] using hchild
          simp [along?, Part.along?, hpart, hc, hnone]
      | some c =>
          obtain ⟨k, hk, hck⟩ : ∃ k, part.children[i]? = some k ∧ tokens[k]? = some c := by
            simpa [hc, Option.map_eq_some_iff] using hchild
          obtain ⟨part', hpart', horigin', hbelow'⟩ := h.part_of hck
          simpa [along?, Part.along?, hpart, hc, hk] using ih hck part' hpart' horigin' hbelow'

/-- No two paths lead from a token to one token exactly when no two lead from its part to
one part. -/
theorem Assembled.onePath_iff (h : Assembled parts tokens) {number : Nat} {root : Token}
    (hroot : tokens[number]? = some root) :
    root.OnePath ↔ ∀ path path' k, Part.along? parts number path = some k →
      Part.along? parts number path' = some k → path = path' := by
  constructor
  · intro hone path path' k hpath hpath'
    have hu := h.map_along? path hroot
    have hu' := h.map_along? path' hroot
    rw [hpath, Option.map_some, Option.map_eq_some_iff] at hu
    rw [hpath', Option.map_some, Option.map_eq_some_iff] at hu'
    obtain ⟨u, hu, horigin⟩ := hu
    obtain ⟨u', hu', horigin'⟩ := hu'
    exact hone path path' u u' hu hu' (horigin.trans horigin'.symm)
  · intro hone path path' u u' hu hu' horigin
    have hk := h.map_along? path hroot
    have hk' := h.map_along? path' hroot
    rw [hu, Option.map_some, eq_comm, Option.map_eq_some_iff] at hk
    rw [hu', Option.map_some, eq_comm, Option.map_eq_some_iff] at hk'
    obtain ⟨k, hk, hku⟩ := hk
    obtain ⟨k', hk', hku'⟩ := hk'
    obtain rfl : k = k' := Origin.made.inj (by rw [hku, hku', horigin])
    exact hone path path' k hk hk'

end Assembled

/-! ## the order of a walk -/

mutual

/-- The tokens in a token, itself first and then those in its children, from left to
right.  A token that is reached along several paths is met several times. -/
def preorder : Token → List Token
  | leaf l text => [leaf l text]
  | node l cs => node l cs :: preorderAll cs

def preorderAll : List Token → List Token
  | [] => []
  | t :: ts => t.preorder ++ preorderAll ts

end

theorem preorderAll_eq (ts : List Token) : preorderAll ts = ts.flatMap preorder := by
  induction ts with
  | nil => rfl
  | cons t ts ih => simp [preorderAll, ih]

theorem preorder_eq (t : Token) : t.preorder = t :: t.children.flatMap preorder := by
  cases t with
  | leaf => rfl
  | node => simp [preorder, preorderAll_eq, children]

mutual

theorem map_origin_preorder : (t : Token) → t.preorder.map origin = t.origins
  | leaf .. => rfl
  | node l cs => by
      rw [preorder, List.map_cons, map_origin_preorderAll cs, origins]
      rfl

theorem map_origin_preorderAll : (ts : List Token) →
    (preorderAll ts).map origin = originsAll ts
  | [] => rfl
  | t :: ts => by
      rw [preorderAll, List.map_append, map_origin_preorder t, map_origin_preorderAll ts,
        originsAll]

end

/-- Of the tokens in a row, `repeated` is the first whose identity was there before. -/
structure FirstRepeat (seen : List Origin) (ts : List Token) (repeated : Token)
    (before after : List Token) : Prop where
  split : ts = before ++ repeated :: after
  fresh : ((before.map origin).reverse ++ seen).Nodup
  again : repeated.origin ∈ before.map origin ∨ repeated.origin ∈ seen

mutual

/-- A walk that fails has failed at the first identity that comes again. -/
theorem visit_eq_error : (t : Token) → {seen : List Origin} → {repeated : Token} →
    seen.Nodup → t.visit seen = .error repeated →
      ∃ before after, FirstRepeat seen t.preorder repeated before after
  | leaf l text, seen, repeated, hseen, h => by
      rw [visit] at h
      by_cases hl : l.origin ∈ seen
      · rw [if_pos hl] at h
        obtain rfl := Except.error.inj h
        exact ⟨[], [], rfl, hseen, .inr hl⟩
      · simp [hl] at h
  | node l cs, seen, repeated, hseen, h => by
      rw [visit] at h
      by_cases hl : l.origin ∈ seen
      · rw [if_pos hl] at h
        obtain rfl := Except.error.inj h
        exact ⟨[], preorderAll cs, rfl, hseen, .inr hl⟩
      · rw [if_neg hl] at h
        obtain ⟨before, after, hsplit, hfresh, hagain⟩ :=
          visitAll_eq_error cs (List.nodup_cons.2 ⟨hl, hseen⟩) h
        refine ⟨node l cs :: before, after, by simp [preorder, hsplit], ?_, ?_⟩
        · simpa [origin, label] using hfresh
        · simpa [origin, label, or_assoc, or_comm, or_left_comm] using hagain

theorem visitAll_eq_error : (ts : List Token) → {seen : List Origin} → {repeated : Token} →
    seen.Nodup → visitAll seen ts = .error repeated →
      ∃ before after, FirstRepeat seen (preorderAll ts) repeated before after
  | [], seen, repeated, hseen, h => by simp [visitAll] at h
  | t :: ts, seen, repeated, hseen, h => by
      rw [visitAll] at h
      split at h
      · next hfirst =>
          obtain rfl := Except.error.inj h
          obtain ⟨before, after, hsplit, hfresh, hagain⟩ := visit_eq_error t hseen hfirst
          exact ⟨before, after ++ preorderAll ts, by simp [preorderAll, hsplit], hfresh, hagain⟩
      · next seen₁ hfirst =>
          obtain ⟨rfl, hnodup⟩ := nodup_of_visit t hseen hfirst
          obtain ⟨before, after, hsplit, hfresh, hagain⟩ := visitAll_eq_error ts hnodup h
          refine ⟨t.preorder ++ before, after, by simp [preorderAll, hsplit], ?_, ?_⟩
          · simpa [map_origin_preorder] using hfresh
          · simpa [map_origin_preorder, or_assoc, or_comm, or_left_comm] using hagain

end

section Assembled

variable {parts : List Part} {tokens : Array Token}

/-- The tokens of some numbers have these numbers as their identities. -/
theorem Assembled.map_made (h : Assembled parts tokens) {numbers : List Nat} {ts : List Token}
    (hts : numbers.map (tokens[·]?) = ts.map some) : numbers.map .made = ts.map origin := by
  induction numbers generalizing ts with
  | nil => simp_all
  | cons n numbers ih =>
      cases ts with
      | nil => simp at hts
      | cons t ts =>
          rw [List.map_cons, List.map_cons, List.cons.injEq] at hts
          obtain ⟨-, -, horigin, -⟩ := h.part_of hts.1
          simp [horigin, ih hts.2]

/-- Walks that go on from the children of a part make a walk that goes on from all of
them, one after the other. -/
theorem walks_append_of_forall {numbers : List Nat} {ts : List Token}
    (hts : numbers.map (tokens[·]?) = ts.map some)
    (hwalk : ∀ t ∈ ts, ∀ {number : Nat} {todo met : List Nat}, tokens[number]? = some t →
      Walks parts todo met → ∃ first, first.map (tokens[·]?) = t.preorder.map some ∧
        Walks parts (number :: todo) (first ++ met))
    {todo met : List Nat} (hrest : Walks parts todo met) :
    ∃ first, first.map (tokens[·]?) = (ts.flatMap preorder).map some ∧
      Walks parts (numbers ++ todo) (first ++ met) := by
  induction ts generalizing numbers with
  | nil =>
      obtain rfl : numbers = [] := by simpa using hts
      exact ⟨[], rfl, hrest⟩
  | cons t ts ih =>
      cases numbers with
      | nil => simp at hts
      | cons n numbers =>
          rw [List.map_cons, List.map_cons, List.cons.injEq] at hts
          obtain ⟨later, hlater, hwalks⟩ := ih hts.2 fun u hu => hwalk u (by simp [hu])
          obtain ⟨first, hfirst, hwalks⟩ := hwalk t (by simp) hts.1 hwalks
          exact ⟨first ++ later, by simp [hfirst, hlater], by simpa using hwalks⟩

/-- A walk meets the tokens in a token in the order in which they are in it, and then goes
on. -/
theorem Assembled.walks (h : Assembled parts tokens) (t : Token) {number : Nat}
    {todo met : List Nat} (ht : tokens[number]? = some t) (hrest : Walks parts todo met) :
    ∃ first, first.map (tokens[·]?) = t.preorder.map some ∧
      Walks parts (number :: todo) (first ++ met) := by
  induction t using children_induction generalizing number todo met with
  | step t ih =>
      obtain ⟨part, hpart, -, hchildren⟩ := h.part_of ht
      obtain ⟨first, hfirst, hwalks⟩ :=
        walks_append_of_forall hchildren (fun c hc => ih c hc) hrest
      exact ⟨number :: first, by simp [preorder_eq t, ht, hfirst], .meet hpart hwalks⟩

end Assembled

/-! ## trees -/

/-- **Trees of graphs.**  Take a graph assembled from parts, each of which refers to earlier
ones only, and one of its tokens as the root.  The walk through the graph unfolded from the
root ends.  The root has a tree exactly when no two paths lead from it to one token.
Otherwise there is an error, and it names the token at which the walk first comes to a part
for the second time. -/
theorem tree_ok_iff_one_path {parts : List Part} {tokens : Array Token}
    (h : assemble parts = some tokens) {number : Nat} {root : Token}
    (hroot : tokens[number]? = some root) :
    ∃ met, Walks parts [number] met ∧
      ((∃ tree, root.tree = .ok tree) ↔
        ∀ path path' k, Part.along? parts number path = some k →
          Part.along? parts number path' = some k → path = path') ∧
      ((∃ path path' k, path ≠ path' ∧ Part.along? parts number path = some k ∧
          Part.along? parts number path' = some k) →
        ∃ before k after token, met = before ++ k :: after ∧ before.Nodup ∧ k ∈ before ∧
          tokens[k]? = some token ∧
          root.tree = .error (.cycle token.symbol token.position)) := by
  have hassembled := assembled_of_assemble h
  obtain ⟨met, hmet, hwalks⟩ := hassembled.walks root hroot .done
  rw [List.append_nil] at hwalks
  have hok : (∃ tree, root.tree = .ok tree) ↔ root.OnePath := by
    rw [← nodup_origins_iff]
    exact ⟨fun ⟨tree, htree⟩ => nodup_of_tree htree, fun hnodup => ⟨_, tree_eq_ok hnodup⟩⟩
  rw [hassembled.onePath_iff hroot] at hok
  refine ⟨met, hwalks, hok, ?_⟩
  rintro ⟨path, path', k, hne, hpath, hpath'⟩
  cases hvisit : root.visit [] with
  | ok seen =>
      have htree : root.tree = .ok root.shape := by rw [tree, hvisit]
      exact absurd (hok.1 ⟨_, htree⟩ path path' k hpath hpath') hne
  | error repeated =>
      obtain ⟨before, after, hsplit, hfresh, hagain⟩ := visit_eq_error root List.nodup_nil hvisit
      rw [hsplit, List.map_append, List.map_cons] at hmet
      obtain ⟨met₁, rest, rfl, hmet₁, hrest⟩ := List.map_eq_append_iff.1 hmet
      obtain ⟨k', met₂, rfl, hk', -⟩ := List.map_eq_cons_iff.1 hrest
      have hmade := hassembled.map_made hmet₁
      obtain ⟨-, -, horigin, -⟩ := hassembled.part_of hk'
      refine ⟨met₁, k', met₂, repeated, rfl, ?_, ?_, hk', by rw [tree, hvisit]⟩
      · have hnodup : (met₁.map Origin.made).Nodup := by simpa [hmade] using hfresh
        exact hnodup.of_map _
      · simpa [horigin, ← hmade] using hagain

/-- A token over two words, one over the second of them, and one over these two and the
first word. -/
def cousins : List Part :=
  [⟨.leaf ⟨⟨"W"⟩, "x", 0⟩, none, none⟩, ⟨.leaf ⟨⟨"V"⟩, "y", 1⟩, none, none⟩,
    ⟨.node ⟨"a"⟩ [0, 1], none, none⟩, ⟨.node ⟨"b"⟩ [1], none, none⟩,
    ⟨.node ⟨"c"⟩ [2, 3, 0], none, none⟩]

/-- Both words are reached twice.  The second word is met again before the first is, so it
is the one reported. -/
theorem tree_ok_iff_one_path_cousins :
    ∃ tokens root, assemble cousins = some tokens ∧ tokens[4]? = some root ∧
      (¬ ∃ tree, root.tree = .ok tree) ∧ root.tree = .error (.cycle ⟨"V"⟩ 1) ∧
      ∃ met before k after token, Walks cousins [4] met ∧ met = before ++ k :: after ∧
        before.Nodup ∧ k ∈ before ∧ tokens[k]? = some token ∧
        root.tree = .error (.cycle token.symbol token.position) := by
  obtain ⟨tokens, root, htokens, hroot, htree⟩ : ∃ tokens root, assemble cousins = some tokens ∧
      tokens[4]? = some root ∧ root.tree = .error (.cycle ⟨"V"⟩ 1) :=
    ⟨_, _, rfl, rfl, by decide +kernel⟩
  obtain ⟨met, hwalks, hok, herror⟩ := tree_ok_iff_one_path htokens hroot
  have htwice : Part.along? cousins 4 [0, 1] = some 1 ∧ Part.along? cousins 4 [1, 0] = some 1 := by
    decide
  refine ⟨tokens, root, htokens, hroot, fun htree' => ?_, htree, ?_⟩
  · have hsame := hok.1 htree' [0, 1] [1, 0] 1 htwice.1 htwice.2
    contradiction
  · obtain ⟨before, k, after, token, hfirst⟩ :=
      herror ⟨[0, 1], [1, 0], 1, by decide, htwice.1, htwice.2⟩
    exact ⟨met, before, k, after, token, hwalks, hfirst⟩

end ForkParser.Token
