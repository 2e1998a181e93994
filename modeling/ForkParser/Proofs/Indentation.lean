import ForkParser.Proofs.Numbering
import ForkParser.Proofs.Quoted
import ForkParser.Proofs.Words
import ForkParser.Tree.Printer

/-!
# ForkParser.Proofs.Indentation

What the listing of a tree tells: everything but the positions.

A line starts with blanks, goes on with the symbol, which has none, and ends with a text in
quotes or with nothing.  So a line shows where it ends and determines its entry
(`Entry.line_append_inj`), and a listing determines its entries (`eq_of_join_line_eq`).  These
are the entries of the nodes in preorder: what stands below a node are the entries after it
that are deeper.  So they determine the tree (`toldByEntries`).

`listing_eq_iff_alike` is the main statement.  The same listing comes from a walk through the
arena of the tree (`listing_eq_walk`).
-/

namespace ForkParser

open Text

/-- A symbol that is one word: it has characters, and none of them is blank. -/
structure Symbol.IsWord (s : Symbol) : Prop where
  ne_empty : s.name ≠ ""
  inWord : ∀ c ∈ s.name.toList, isBlank c = false

instance : DecidablePred Symbol.IsWord := fun s =>
  have := List.decidableBAll (fun c => isBlank c = false) s.name.toList
  decidable_of_iff (s.name ≠ "" ∧ ∀ c ∈ s.name.toList, isBlank c = false)
    ⟨fun h => ⟨h.1, h.2⟩, fun h => ⟨h.ne_empty, h.inWord⟩⟩

theorem Symbol.IsWord.ne_nil {s : Symbol} (h : s.IsWord) : s.name.toList ≠ [] := by
  simpa using h.ne_empty

/-- A word does not start with a space. -/
theorem Symbol.IsWord.head?_ne_space {s : Symbol} (h : s.IsWord) (rest : List Char) :
    ∀ c ∈ (s.name.toList ++ rest).head?, c ≠ ' ' := by
  rintro c hc rfl
  rw [List.head?_append_of_ne_nil _ h.ne_nil] at hc
  exact absurd (h.inWord ' ' (List.mem_of_mem_head? hc)) (by decide)

namespace Tree

/-- Trees that agree node by node in all but their positions: in the symbol, in the text or
in having none, and in the children, which are as many and agree in turn. -/
inductive Alike : Tree → Tree → Prop where
  | intro {t u : Tree} (hsymbol : t.symbol = u.symbol) (htext : t.text? = u.text?)
      (hchildren : List.Forall₂ Alike t.children u.children) : Alike t u

/-! ## lines -/

/-- What stands on a line after the symbol. -/
def Entry.ending (e : Entry) : List Char :=
  match e.text? with
  | some text => ' ' :: ((quote text).toList ++ ['\n'])
  | none => ['\n']

theorem Entry.toList_line (e : Entry) :
    e.line.toList =
      List.replicate (2 * e.depth) ' ' ++ (e.symbol.name.toList ++ e.ending) := by
  obtain ⟨depth, symbol, text?⟩ := e
  cases text? <;> simp [line, indentation, ending]

/-- Spaces before another character show how many they are. -/
theorem replicate_append_inj {m n : Nat} {r s : List Char} (hr : ∀ c ∈ r.head?, c ≠ ' ')
    (hs : ∀ c ∈ s.head?, c ≠ ' ') (h : List.replicate m ' ' ++ r = List.replicate n ' ' ++ s) :
    m = n ∧ r = s := by
  induction m generalizing n with
  | zero =>
      cases n with
      | zero => exact ⟨rfl, h⟩
      | succ n =>
          obtain rfl : r = ' ' :: (List.replicate n ' ' ++ s) := h
          exact absurd rfl (hr ' ' rfl)
  | succ m ih =>
      cases n with
      | zero =>
          obtain rfl : ' ' :: (List.replicate m ' ' ++ r) = s := h
          exact absurd rfl (hs ' ' rfl)
      | succ n =>
          obtain ⟨rfl, hrest⟩ := ih (List.cons.inj h).2
          exact ⟨rfl, hrest⟩

/-- The symbol of a line goes up to a blank. -/
theorem Entry.runBetween {e : Entry} (he : e.symbol.IsWord) (rest : List Char) :
    RunBetween [] e.symbol.name.toList (e.ending ++ rest) := by
  refine ⟨he.ne_nil, he.inWord, by simp, ?_⟩
  obtain ⟨depth, symbol, text?⟩ := e
  cases text? <;> simp [ending] <;> decide

/-- What stands after the symbol tells the text, or that there is none. -/
theorem Entry.ending_append_inj {e f : Entry} {r s : List Char}
    (h : e.ending ++ r = f.ending ++ s) : e.text? = f.text? ∧ r = s := by
  obtain ⟨depth, symbol, text?⟩ := e
  obtain ⟨depth', symbol', text?'⟩ := f
  cases text? with
  | none =>
      cases text?' with
      | none => exact ⟨rfl, by simpa [ending] using h⟩
      | some text' => simp [ending] at h
  | some text =>
      cases text?' with
      | none => simp [ending] at h
      | some text' =>
          obtain ⟨rfl, hrest⟩ := selfDelimiting_quote text text' ('\n' :: r) ('\n' :: s)
            (by simpa [ending] using h)
          exact ⟨rfl, (List.cons.inj hrest).2⟩

/-- A line shows where it ends and what it is for. -/
theorem Entry.line_append_inj {e f : Entry} (he : e.symbol.IsWord) (hf : f.symbol.IsWord)
    {r s : List Char} (h : e.line.toList ++ r = f.line.toList ++ s) : e = f ∧ r = s := by
  simp only [toList_line, List.append_assoc] at h
  obtain ⟨hdepth, hline⟩ :=
    replicate_append_inj (he.head?_ne_space _) (hf.head?_ne_space _) h
  -- the symbol is the first word of what comes after the indentation
  obtain ⟨hname, hending⟩ := (runBetween he r).eq_of_append_eq (runBetween hf s) hline
  obtain ⟨htext, hrest⟩ := ending_append_inj hending
  obtain ⟨depth, ⟨name⟩, text?⟩ := e
  obtain ⟨depth', ⟨name'⟩, text?'⟩ := f
  obtain rfl : depth = depth' := by simp only at hdepth; omega
  obtain rfl := String.toList_inj.1 hname
  obtain rfl : text? = text?' := htext
  exact ⟨rfl, hrest⟩

theorem Entry.line_ne_nil (e : Entry) : e.line.toList ≠ [] := by
  simp [line]

/-- Lines in a row determine their entries. -/
theorem eq_of_join_line_eq {es fs : List Entry} (hes : ∀ e ∈ es, e.symbol.IsWord)
    (hfs : ∀ f ∈ fs, f.symbol.IsWord)
    (h : String.join (es.map Entry.line) = String.join (fs.map Entry.line)) : es = fs := by
  have hjoin : es.flatMap (fun e => e.line.toList) = fs.flatMap (fun f => f.line.toList) := by
    simpa [String.toList_join, List.flatMap_map] using congrArg String.toList h
  clear h
  induction es generalizing fs with
  | nil =>
      cases fs with
      | nil => rfl
      | cons f fs => simp [f.line_ne_nil] at hjoin
  | cons e es ih =>
      cases fs with
      | nil => simp [e.line_ne_nil] at hjoin
      | cons f fs =>
          rw [List.flatMap_cons, List.flatMap_cons] at hjoin
          obtain ⟨rfl, hrest⟩ := Entry.line_append_inj (hes e (by simp)) (hfs f (by simp)) hjoin
          rw [ih (fun e he => hes e (by simp [he])) (fun f hf => hfs f (by simp [hf])) hrest]

/-! ## entries -/

def entry (depth : Nat) (t : Tree) : Entry := ⟨depth, t.symbol, t.text?⟩

theorem entries_eq (depth : Nat) (t : Tree) :
    t.entries depth = t.entry depth :: entriesAll (depth + 1) t.children := by
  cases t <;> rfl

mutual

/-- The entries have the symbols of the nodes, in order. -/
theorem map_symbol_entries : (t : Tree) → (depth : Nat) →
    (t.entries depth).map Entry.symbol = t.nodes.map symbol
  | leaf .., depth => rfl
  | node s p cs, depth => by
      rw [entries, nodes, List.map_cons, List.map_cons, map_symbol_entriesAll cs]
      rfl

theorem map_symbol_entriesAll : (ts : List Tree) → (depth : Nat) →
    (entriesAll depth ts).map Entry.symbol = (nodesAll ts).map symbol
  | [], depth => rfl
  | t :: ts, depth => by
      rw [entriesAll, nodesAll, List.map_append, List.map_append, map_symbol_entries t,
        map_symbol_entriesAll ts]

end

mutual

theorem length_entries : (t : Tree) → (depth : Nat) → (t.entries depth).length = t.size
  | leaf .., depth => rfl
  | node s p cs, depth => by rw [entries, List.length_cons, length_entriesAll cs, size]

theorem length_entriesAll : (ts : List Tree) → (depth : Nat) →
    (entriesAll depth ts).length = sizeAll ts
  | [], depth => rfl
  | t :: ts, depth => by
      rw [entriesAll, List.length_append, length_entries t, length_entriesAll ts, sizeAll]

end

theorem isWord_of_mem_entries {t : Tree} (ht : ∀ n ∈ t.nodes, n.symbol.IsWord) :
    ∀ e ∈ t.entries 0, e.symbol.IsWord := by
  rw [← List.forall_mem_map (f := Entry.symbol), map_symbol_entries]
  simpa using ht

/-- Whether entries start with none that is deeper than `depth`. -/
def Shallow (depth : Nat) (es : List Entry) : Prop := ∀ e ∈ es.head?, e.depth ≤ depth

/-- Whether the entries of a tree tell what it is and where it ends, if what comes after them
is not deeper than its root. -/
def ToldByEntries (t : Tree) : Prop :=
  ∀ {u : Tree} {depth : Nat} {r s : List Entry}, Shallow depth r → Shallow depth s →
    t.entries depth ++ r = u.entries depth ++ s → t.Alike u ∧ r = s

/-- What comes after the trees below a node is not deeper than the next of these trees. -/
theorem Shallow.entriesAll_append {depth : Nat} {r : List Entry} (hr : Shallow depth r)
    (ts : List Tree) : Shallow (depth + 1) (entriesAll (depth + 1) ts ++ r) := by
  intro e he
  cases ts with
  | nil =>
      have hle := hr e he
      omega
  | cons t ts =>
      rw [entriesAll, entries_eq] at he
      obtain rfl : t.entry (depth + 1) = e := Option.some.inj he
      exact Nat.le_refl _

/-- Entries that are not deeper than a node are not those of trees below it. -/
theorem Shallow.ne_entriesAll_cons {depth : Nat} {r : List Entry} (hr : Shallow depth r)
    (t : Tree) (ts : List Tree) (s : List Entry) : r ≠ entriesAll (depth + 1) (t :: ts) ++ s := by
  rintro rfl
  rw [entriesAll, entries_eq] at hr
  have hle : depth + 1 ≤ depth := hr (t.entry (depth + 1)) rfl
  omega

/-- The trees below a node are told by their entries if each of them is. -/
theorem entriesAll_append_inj {depth : Nat} {ts us : List Tree} {r s : List Entry}
    (hts : ∀ t ∈ ts, t.ToldByEntries) (hr : Shallow depth r) (hs : Shallow depth s)
    (h : entriesAll (depth + 1) ts ++ r = entriesAll (depth + 1) us ++ s) :
    List.Forall₂ Alike ts us ∧ r = s := by
  induction ts generalizing us with
  | nil =>
      cases us with
      | nil => exact ⟨.nil, h⟩
      | cons u us => exact absurd h (hr.ne_entriesAll_cons u us s)
  | cons t ts ih =>
      cases us with
      | nil => exact absurd h.symm (hs.ne_entriesAll_cons t ts r)
      | cons u us =>
          rw [entriesAll, entriesAll, List.append_assoc, List.append_assoc] at h
          obtain ⟨halike, hrest⟩ :=
            hts t (by simp) (hr.entriesAll_append ts) (hs.entriesAll_append us) h
          obtain ⟨hall, hend⟩ := ih (fun t ht => hts t (by simp [ht])) hrest
          exact ⟨.cons halike hall, hend⟩

/-- The entries of a tree determine it, and where it ends. -/
theorem toldByEntries (t : Tree) : t.ToldByEntries := by
  induction t using children_induction with
  | step t ih =>
      intro u depth r s hr hs h
      rw [entries_eq, entries_eq] at h
      obtain ⟨hentry, hrest⟩ := List.cons.inj h
      obtain ⟨-, hsymbol, htext⟩ := Entry.mk.inj hentry
      obtain ⟨hchildren, hend⟩ := entriesAll_append_inj ih hr hs hrest
      exact ⟨⟨hsymbol, htext, hchildren⟩, hend⟩

theorem entriesAll_congr {depth : Nat} {ts us : List Tree}
    (h : List.Forall₂ (fun t u => t.entries depth = u.entries depth) ts us) :
    entriesAll depth ts = entriesAll depth us := by
  induction h with
  | nil => rfl
  | cons hentries _ ih => rw [entriesAll, entriesAll, hentries, ih]

/-- Trees that are alike have the same entries. -/
theorem Alike.entries_eq {t u : Tree} (h : t.Alike u) (depth : Nat) :
    t.entries depth = u.entries depth := by
  induction t using children_induction generalizing u depth with
  | step t ih =>
      obtain ⟨hsymbol, htext, hchildren⟩ := h
      have hall : entriesAll (depth + 1) t.children = entriesAll (depth + 1) u.children := by
        refine entriesAll_congr ?_
        refine ((List.forall₂_and_left _ _).2 ⟨ih, hchildren⟩).imp ?_
        rintro c d ⟨hc, halike⟩
        exact hc halike (depth + 1)
      rw [Tree.entries_eq, Tree.entries_eq, entry, entry, hsymbol, htext, hall]

/-! ## listings -/

/-- **Listings.**  The listing of a tree whose symbols are words determines the tree up to
positions, which it does not show: however deep and wide the trees are and whatever the texts
of their leaves, two of them have the same listing just if they are alike. -/
theorem listing_eq_iff_alike {t u : Tree} (ht : ∀ n ∈ t.nodes, n.symbol.IsWord)
    (hu : ∀ n ∈ u.nodes, n.symbol.IsWord) : t.listing = u.listing ↔ t.Alike u := by
  constructor
  · intro h
    have hentries : t.entries 0 = u.entries 0 :=
      eq_of_join_line_eq (isWord_of_mem_entries ht) (isWord_of_mem_entries hu) h
    exact (t.toldByEntries (r := []) (s := []) nofun nofun (by rw [hentries])).1
  · intro h
    rw [listing, listing, h.entries_eq]

/-- A leaf whose text looks like the end of its line and a line after it. -/
def forgedLine : Tree := .node ⟨"s"⟩ 0 [.leaf ⟨"WORD"⟩ "hi\"\n  EOF \"" 0]

/-- A tree that has the two lines. -/
def twoLines : Tree := .node ⟨"s"⟩ 0 [.leaf ⟨"WORD"⟩ "hi" 0, .leaf ⟨"EOF"⟩ "" 2]

/-- The same tree in another place. -/
def twoLinesMoved : Tree := .node ⟨"s"⟩ 7 [.leaf ⟨"WORD"⟩ "hi" 7, .leaf ⟨"EOF"⟩ "" 9]

/-- The text of a leaf does not pass for a line, and positions do not show. -/
theorem listing_eq_iff_alike_twoLines :
    forgedLine.listing ≠ twoLines.listing ∧ twoLines.Alike twoLinesMoved := by
  have hforged : ∀ n ∈ forgedLine.nodes, n.symbol.IsWord := by decide
  have hlines : ∀ n ∈ twoLines.nodes, n.symbol.IsWord := by decide
  have hmoved : ∀ n ∈ twoLinesMoved.nodes, n.symbol.IsWord := by decide
  constructor
  · intro h
    obtain ⟨-, -, hchildren⟩ := (listing_eq_iff_alike hforged hlines).1 h
    simpa [forgedLine, twoLines, children] using hchildren.length_eq
  · exact (listing_eq_iff_alike hlines hmoved).1 (by decide)

end Tree

/-! ## the walk -/

namespace Arena

open ForkParser.Tree (Entry entries entriesAll)

/-- The entry of a node that is visited with its depth. -/
def entryAt? (a : Arena) (visit : Nat × Nat) : Option Entry :=
  a.nodes[visit.2]?.map fun n => ⟨visit.1, n.symbol, n.text?⟩

/-- Where the entries of one of consecutive trees start. -/
theorem exists_entriesAll_eq (depth : Nat) {index i : Nat} {ts : List Tree} {c : Tree}
    (h : (i, c) ∈ (roots index ts).zip ts) :
    ∃ before after, entriesAll depth ts = before ++ (c.entries depth ++ after) ∧
      index + before.length = i := by
  induction ts generalizing index with
  | nil => simp at h
  | cons t ts ih =>
      rw [roots, List.zip_cons_cons, List.mem_cons] at h
      rcases h with h | h
      · obtain ⟨rfl, rfl⟩ := Prod.mk.inj h
        exact ⟨[], entriesAll depth ts, rfl, rfl⟩
      · obtain ⟨before, after, hsplit, hlength⟩ := ih h
        refine ⟨t.entries depth ++ before, after, ?_, ?_⟩
        · rw [entriesAll, hsplit, List.append_assoc]
        · rw [List.length_append, Tree.length_entries]
          omega

/-- The entries of a subtree start at its number, as deep as there are nodes above it. -/
theorem Lies.exists_entries_eq {t u : Tree} {above : List Nat} {index : Nat}
    (h : Lies t above index u) :
    ∃ before after, t.entries 0 = before ++ (u.entries above.length ++ after) ∧
      before.length = index := by
  induction h with
  | root => exact ⟨[], [], by simp, rfl⟩
  | @child above j i u c hu hc ih =>
      obtain ⟨before, after, hsplit, hlength⟩ := ih
      obtain ⟨before', after', hsplit', hlength'⟩ := exists_entriesAll_eq (above.length + 1) hc
      rw [Tree.entries_eq above.length u, hsplit'] at hsplit
      refine ⟨before ++ u.entry above.length :: before', after' ++ after, by simp [hsplit], ?_⟩
      rw [List.length_append, List.length_cons]
      omega

theorem Lies.getElem?_entries {t u : Tree} {above : List Nat} {index : Nat}
    (h : Lies t above index u) : (t.entries 0)[index]? = some (u.entry above.length) := by
  obtain ⟨before, after, hsplit, rfl⟩ := h.exists_entries_eq
  simp [hsplit, Tree.entries_eq]

theorem Lies.entryAt? {t u : Tree} {above : List Nat} {index : Nat} (h : Lies t above index u) :
    (ofTree t).entryAt? (above.length, index) = some (u.entry above.length) := by
  rw [Arena.entryAt?, h.node]
  rfl

/-- A walk through the arena of a tree finds the entries of the tree in order. -/
theorem map_entryAt?_depthFirst (t : Tree) :
    (ofTree t).depthFirst.map (ofTree t).entryAt? = (t.entries 0).map some := by
  obtain ⟨found, hcovers, hfollow⟩ := exists_follow_eq t
  have hfound : (ofTree t).depthFirst = found := hfollow _ (Nat.le_refl _)
  calc (ofTree t).depthFirst.map (ofTree t).entryAt?
      = found.map fun visit => (t.entries 0)[visit.2]? := by
        rw [hfound]
        refine List.map_congr_left ?_
        rintro ⟨d, i⟩ hmem
        obtain ⟨above, u, hu, rfl⟩ := hcovers.depths hmem
        rw [hu.entryAt?, hu.getElem?_entries]
    _ = (List.range' 0 t.size).map fun i => (t.entries 0)[i]? := by
        rw [← hcovers.numbers, List.map_map]
        rfl
    _ = (t.entries 0).map some := by
        rw [← t.length_entries 0]
        refine List.ext_getElem (by simp) fun i hi _ => ?_
        have hlt : i < (t.entries 0).length := by simpa using hi
        simp [hlt]

/-- The listing of a tree is what a walk through its arena finds, a line for each node. -/
theorem listing_eq_walk (t : Tree) :
    t.listing =
      String.join (((ofTree t).depthFirst.filterMap (ofTree t).entryAt?).map Entry.line) := by
  have hfound : (ofTree t).depthFirst.filterMap (ofTree t).entryAt? = t.entries 0 := by
    simpa [List.filterMap_map] using congrArg (List.filterMap id) (map_entryAt?_depthFirst t)
  rw [hfound, Tree.listing]

end Arena

end ForkParser
