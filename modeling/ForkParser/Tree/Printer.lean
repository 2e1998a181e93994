import ForkParser.Tree.Basic

/-!
# ForkParser.Tree.Printer

Trees as text: on one line with the children between parentheses, or as an
indented listing with one node on a line.
-/

namespace ForkParser.Tree

mutual

/-- A tree on one line: `s(key(WORD'hi') EOF)`.  The text of a leaf is shown
unless it is empty or repeats the symbol. -/
def line : Tree → String
  | leaf s text _ =>
    if text = "" ∨ text = s.name then s.name else s.name ++ "'" ++ text ++ "'"
  | node s _ cs => s.name ++ "(" ++ " ".intercalate (lineAll cs) ++ ")"

def lineAll : List Tree → List String
  | [] => []
  | t :: ts => t.line :: lineAll ts

end

/-- One entry of a listing: how deep the node is, its symbol, and the text if
it is a leaf. -/
structure Entry where
  depth : Nat
  symbol : Symbol
  text? : Option String
deriving DecidableEq

/-- The blanks before an entry: two for each level. -/
def indentation (depth : Nat) : String := String.ofList (List.replicate (2 * depth) ' ')

def Entry.line (e : Entry) : String :=
  indentation e.depth ++ e.symbol.name
    ++ (match e.text? with | some text => " " ++ Text.quote text | none => "") ++ "\n"

mutual

/-- The nodes of a tree from the root down and from left to right. -/
def entries (depth : Nat) : Tree → List Entry
  | leaf s text _ => [⟨depth, s, some text⟩]
  | node s _ cs => ⟨depth, s, none⟩ :: entriesAll (depth + 1) cs

def entriesAll (depth : Nat) : List Tree → List Entry
  | [] => []
  | t :: ts => t.entries depth ++ entriesAll depth ts

end

def listing (t : Tree) : String := String.join ((t.entries 0).map Entry.line)

end ForkParser.Tree
