import ForkParser.GrammarBlock.Piece
import ForkParser.Production

/-!
# ForkParser.GrammarBlock.Basic

Grammar blocks: a grammar declared in the form

```
start: s, eof: EOF, rules: { s -> key EOF, key -> WORD, nothing -> , }
```

with the commas after the last rule and after the closing brace optional.
-/

namespace ForkParser.GrammarBlock

/-- A name of a block, and the number of characters before it. -/
structure Name where
  text : String
  offset : Nat
deriving DecidableEq

def Name.symbol (n : Name) : Symbol := ⟨n.text⟩

structure Rule where
  lhs : Name
  rhs : List Name
deriving DecidableEq

def Rule.production (r : Rule) : Production := ⟨r.lhs.symbol, r.rhs.map Name.symbol⟩

end GrammarBlock

/-- A declared grammar. -/
structure GrammarBlock where
  start : GrammarBlock.Name
  eof : GrammarBlock.Name
  rules : List GrammarBlock.Rule
deriving DecidableEq

namespace GrammarBlock

def productions (b : GrammarBlock) : List Production := b.rules.map Rule.production

/-! ## reading -/

/-- Why a text is no grammar block: what was expected and not there, and
whether the text had ended. -/
inductive ReadFault where
  /-- The text cannot be cut into pieces. -/
  | lexical
  /-- A particular word was expected. -/
  | keyword (word : String) (atEnd : Bool)
  | name (atEnd : Bool)
  | braces (atEnd : Bool)
  | mark (text : String)
  /-- The end was expected. -/
  | leftover
deriving DecidableEq

/-- The wording of a fault.  Where the text ends too early that is said first,
except about punctuation. -/
def ReadFault.message : ReadFault → String
  | lexical => "lex error"
  | keyword word atEnd => ended atEnd ++ "expected `" ++ word ++ "`"
  | name atEnd => ended atEnd ++ "expected identifier"
  | braces atEnd => ended atEnd ++ "expected curly braces"
  | mark text => "expected `" ++ text ++ "`"
  | leftover => "unexpected token"
where
  /-- What is said first at the end of the text. -/
  ended (atEnd : Bool) : String := if atEnd then "unexpected end of input, " else ""

/-- Words that are no names. -/
def reserved : List String :=
  ["_", "abstract", "as", "become", "box", "break", "const", "continue", "crate", "do", "else",
    "enum", "extern", "false", "final", "fn", "for", "if", "impl", "in", "let", "loop", "macro",
    "match", "mod", "move", "mut", "override", "priv", "pub", "ref", "return", "Self", "self",
    "static", "struct", "super", "trait", "true", "type", "typeof", "unsafe", "unsized", "use",
    "virtual", "where", "while", "yield"]

/-- The rest after a particular word. -/
def expectKeyword (word : String) : List Piece → Except ReadFault (List Piece)
  | .word text _ :: rest => if text = word then .ok rest else .error (.keyword word false)
  | [] => .error (.keyword word true)
  | _ => .error (.keyword word false)

/-- A name and the rest after it. -/
def expectName : List Piece → Except ReadFault (Name × List Piece)
  | .word text offset :: rest =>
    if text ∈ reserved then .error (.name false) else .ok (⟨text, offset⟩, rest)
  | [] => .error (.name true)
  | _ => .error (.name false)

/-- The rest after a punctuation mark. -/
def expectMark (char : Char) : List Piece → Except ReadFault (List Piece)
  | .mark c _ :: rest => if c = char then .ok rest else .error (.mark char.toString)
  | _ => .error (.mark char.toString)

/-- The name of a declaration `word: name,` and the rest after it. -/
def readNamed (word : String) (pieces : List Piece) : Except ReadFault (Name × List Piece) := do
  let rest ← expectKeyword word pieces
  let rest ← expectMark ':' rest
  let (name, rest) ← expectName rest
  let rest ← expectMark ',' rest
  return (name, rest)

mutual

/-- The rules up to the closing brace, and the rest after it. -/
def readRules : List Piece → Except ReadFault (List Rule × List Piece)
  | .closing .curly :: rest => .ok ([], rest)
  | .word text offset :: .mark '-' true :: .mark '>' _ :: rest =>
    if text ∈ reserved then .error (.name false) else readRhs ⟨text, offset⟩ [] rest
  | .word text _ :: _ =>
    if text ∈ reserved then .error (.name false) else .error (.mark "->")
  | [] => .error (.name true)
  | _ => .error (.name false)

/-- The names on the right of the arrow, after those in `rhs` (last first), and
the rules that follow. -/
def readRhs (lhs : Name) (rhs : List Name) :
    List Piece → Except ReadFault (List Rule × List Piece)
  | .word text offset :: rest =>
    if text ∈ reserved then .error (.mark ",") else readRhs lhs (⟨text, offset⟩ :: rhs) rest
  | .mark ',' _ :: rest =>
    match readRules rest with
    | .ok (rules, rest) => .ok (⟨lhs, rhs.reverse⟩ :: rules, rest)
    | .error fault => .error fault
  | .closing .curly :: rest => .ok ([⟨lhs, rhs.reverse⟩], rest)
  | _ => .error (.mark ",")

end

/-- The rules between braces, and the rest after them. -/
def readBraces : List Piece → Except ReadFault (List Rule × List Piece)
  | .opening .curly :: rest => readRules rest
  | [] => .error (.braces true)
  | _ => .error (.braces false)

/-- Nothing may follow a block but one comma. -/
def expectEnd : List Piece → Except ReadFault Unit
  | [] => .ok ()
  | [.mark ',' _] => .ok ()
  | _ => .error .leftover

def ofPieces (pieces : List Piece) : Except ReadFault GrammarBlock := do
  let (start, rest) ← readNamed "start" pieces
  let (eof, rest) ← readNamed "eof" rest
  let rest ← expectKeyword "rules" rest
  let rest ← expectMark ':' rest
  let (rules, rest) ← readBraces rest
  expectEnd rest
  return ⟨start, eof, rules⟩

def read (source : String) : Except ReadFault GrammarBlock :=
  match pieces? source.toList with
  | none => .error .lexical
  | some pieces => ofPieces pieces

end GrammarBlock

end ForkParser
