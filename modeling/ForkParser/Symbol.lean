import ForkParser.Text.Uppercase

/-!
# ForkParser.Symbol

Grammar symbols and finite sets of them.

A symbol is its name.  The name's first character says what kind of symbol it
is: an uppercase one makes a terminal, anything else (also no character at
all) a non-terminal.  Symbols are ordered by their names, code point by code
point, and a `SymbolSet` keeps its members in that order.
-/

namespace ForkParser

/-- A grammar symbol. -/
structure Symbol where
  name : String
deriving DecidableEq, Inhabited

namespace Symbol

/-- A terminal is a symbol whose first character is uppercase. -/
def isTerminal (s : Symbol) : Bool :=
  match s.name.toList with
  | [] => false
  | c :: _ => Text.isUppercase c

instance : LT Symbol := ⟨fun a b => a.name < b.name⟩

instance (a b : Symbol) : Decidable (a < b) :=
  inferInstanceAs (Decidable (a.name < b.name))

instance : Ord Symbol := ⟨fun a b => compare a.name b.name⟩

instance : ToString Symbol := ⟨Symbol.name⟩

theorem lt_irrefl (a : Symbol) : ¬ a < a := String.lt_irrefl a.name

theorem lt_trans {a b c : Symbol} (hab : a < b) (hbc : b < c) : a < c :=
  String.lt_trans hab hbc

/-- Two symbols neither of which precedes the other are equal. -/
theorem eq_of_not_lt {a b : Symbol} (hab : ¬ a < b) (hba : ¬ b < a) : a = b := by
  have h : a.name = b.name := String.le_antisymm (String.not_lt.1 hba) (String.not_lt.1 hab)
  cases a; cases b; simp_all

/-- The names of several symbols with a blank between neighbours. -/
def joinNames (symbols : List Symbol) : String :=
  " ".intercalate (symbols.map Symbol.name)

/-! ## ordered insertion -/

/-- Inserts a symbol into an ascending list, unless it is there already. -/
def insertInto (s : Symbol) : List Symbol → List Symbol
  | [] => [s]
  | t :: rest =>
    if s < t then s :: t :: rest
    else if t < s then t :: insertInto s rest
    else t :: rest

theorem mem_insertInto {s x : Symbol} {l : List Symbol} :
    x ∈ insertInto s l ↔ x = s ∨ x ∈ l := by
  induction l with
  | nil => simp [insertInto]
  | cons t rest ih =>
    simp only [insertInto]
    split
    · simp
    · split
      · simp only [List.mem_cons, ih]
        constructor <;> rintro (h | h | h) <;> simp [h]
      · next h1 h2 =>
        have : s = t := eq_of_not_lt h1 h2
        simp [this]

theorem pairwise_insertInto {s : Symbol} {l : List Symbol} (h : l.Pairwise (· < ·)) :
    (insertInto s l).Pairwise (· < ·) := by
  induction l with
  | nil => simp [insertInto]
  | cons t rest ih =>
    obtain ⟨ht, hrest⟩ := List.pairwise_cons.1 h
    simp only [insertInto]
    split
    · next hst =>
      refine List.pairwise_cons.2 ⟨fun x hx => ?_, h⟩
      rcases List.mem_cons.1 hx with rfl | hx
      · exact hst
      · exact lt_trans hst (ht x hx)
    · split
      · next hts =>
        refine List.pairwise_cons.2 ⟨fun x hx => ?_, ih hrest⟩
        rcases mem_insertInto.1 hx with rfl | hx
        · exact hts
        · exact ht x hx
      · exact h

end Symbol

/-! ## sets of symbols -/

/-- A finite set of symbols, kept in ascending order without repetition. -/
structure SymbolSet where
  toList : List Symbol
  ascending : toList.Pairwise (· < ·)

namespace SymbolSet

def empty : SymbolSet := ⟨[], .nil⟩

def insert (set : SymbolSet) (s : Symbol) : SymbolSet :=
  ⟨s.insertInto set.toList, Symbol.pairwise_insertInto set.ascending⟩

/-- The symbols of a list, each once. -/
def ofList (symbols : List Symbol) : SymbolSet := symbols.foldr (fun s set => set.insert s) empty

instance : Membership Symbol SymbolSet := ⟨fun set s => s ∈ set.toList⟩

instance (s : Symbol) (set : SymbolSet) : Decidable (s ∈ set) :=
  inferInstanceAs (Decidable (s ∈ set.toList))

def size (set : SymbolSet) : Nat := set.toList.length

def isEmpty (set : SymbolSet) : Bool := set.toList.isEmpty

@[simp] theorem mem_toList {s : Symbol} {set : SymbolSet} : s ∈ set.toList ↔ s ∈ set := Iff.rfl

@[simp] theorem mem_insert {s x : Symbol} {set : SymbolSet} : x ∈ set.insert s ↔ x = s ∨ x ∈ set :=
  Symbol.mem_insertInto

/-- The set made from a list has the list's members and no others. -/
@[simp] theorem mem_ofList {x : Symbol} {symbols : List Symbol} :
    x ∈ ofList symbols ↔ x ∈ symbols := by
  induction symbols with
  | nil => simp [ofList, empty, ← mem_toList]
  | cons s rest ih =>
    rw [List.mem_cons, ← ih]
    exact mem_insert

end SymbolSet

end ForkParser
