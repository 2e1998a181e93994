import ForkParser.Symbol

/-!
# ForkParser.Token

Tokens: lexemes of the input, and the reductions a parser makes of them.

Every token carries an `Origin`, which is its identity.  Two tokens with equal
contents may be different tokens, and one token may be shared by several
parents; the origin tells which.  A lookahead is the number, in the token
stream, of the token that follows.
-/

namespace ForkParser

/-- Where a token comes from.  Tokens of one origin are one token. -/
inductive Origin where
  /-- Assembled by hand, as the token of this number. -/
  | made (number : Nat)
  /-- The token at this place of an input stream. -/
  | input (index : Nat)
  /-- The reduction of this number on a branch of a search. -/
  | reduction (number : Nat)
deriving DecidableEq, Inhabited

/-- What leaves and inner tokens have in common. -/
structure Label where
  origin : Origin
  symbol : Symbol
  position : Nat
  lookahead : Option Nat := none
deriving DecidableEq, Inhabited

/-- A leaf with its text, or the reduction of its children. -/
inductive Token where
  | leaf (label : Label) (text : String)
  | node (label : Label) (children : List Token)
deriving Inhabited

namespace Token

def label : Token → Label
  | leaf l _ => l
  | node l _ => l

def origin (t : Token) : Origin := t.label.origin

def symbol (t : Token) : Symbol := t.label.symbol

/-- Where the token starts in the source. -/
def position (t : Token) : Nat := t.label.position

/-- The number of the token that follows in the stream. -/
def lookahead (t : Token) : Option Nat := t.label.lookahead

def isLeaf : Token → Bool
  | leaf .. => true
  | node .. => false

def text? : Token → Option String
  | leaf _ text => some text
  | node .. => none

def children : Token → List Token
  | leaf .. => []
  | node _ cs => cs

def withLabel (t : Token) (l : Label) : Token :=
  match t with
  | leaf _ text => leaf l text
  | node _ cs => node l cs

def withOrigin (t : Token) (origin : Origin) : Token :=
  t.withLabel { t.label with origin }

/-- The reduction of some tokens.  It starts where the first of them starts and
looks ahead at what follows the last one. -/
def reduction (origin : Origin) (symbol : Symbol) (children : List Token) : Token :=
  node
    { origin, symbol
      position := (children.head?.map Token.position).getD 0
      lookahead := children.getLast?.bind Token.lookahead }
    children

end Token

/-! ## streams -/

/-- A piece of source text with its symbol, at a byte offset. -/
structure Lexeme where
  symbol : Symbol
  text : String
  position : Nat
deriving DecidableEq, Inhabited

/-- Where a list of lexemes ends: after the text of the last one. -/
def endOf (lexemes : List Lexeme) : Nat :=
  match lexemes.getLast? with
  | some l => l.position + l.text.utf8ByteSize
  | none => 0

/-- The lexemes with an end of input after them, unless they end with one. -/
def withEnd (lexemes : List Lexeme) (eof : Symbol) : List Lexeme :=
  match lexemes.getLast? with
  | some l => if l.symbol = eof then lexemes else lexemes ++ [⟨eof, "", endOf lexemes⟩]
  | none => [⟨eof, "", 0⟩]

/-- A lexeme as the token at place `index` of a stream of `size` tokens. -/
def Lexeme.toToken (size index : Nat) (l : Lexeme) : Token :=
  .leaf
    { origin := .input index
      symbol := l.symbol
      position := l.position
      lookahead := if index + 1 < size then some (index + 1) else none }
    l.text

/-- Links lexemes into a token stream: each token looks ahead at the next one,
and the last token is the end of input. -/
def stream (lexemes : List Lexeme) (eof : Symbol) : List Token :=
  let all := withEnd lexemes eof
  all.zipIdx.map fun (l, i) => l.toToken all.length i

end ForkParser
