import ForkParser.Token

/-!
# ForkParser.Token.Assembly

Token graphs put together by hand, from the leaves up.  Each part is a leaf or
a reduction of parts before it, so a part may be used several times and is then
shared; the label a part would get by its construction may be corrected.
-/

namespace ForkParser

/-- How one token of a hand-made graph is formed. -/
inductive Token.Shape where
  | leaf (lexeme : Lexeme)
  /-- A reduction of earlier tokens, by number. -/
  | node (symbol : Symbol) (children : List Nat)

/-- One token of a hand-made graph: its shape, and the position and the
lookahead that replace the usual ones where given. -/
structure Token.Part where
  shape : Token.Shape
  position : Option Nat := none
  lookahead : Option (Option Nat) := none

namespace Token

/-- The token of a part, given the tokens before it; `none` if it refers to a
token that is not there. -/
def Part.toToken? (earlier : Array Token) (part : Part) : Option Token := do
  let origin := Origin.made earlier.size
  let plain ← match part.shape with
    | .leaf l => some (.leaf { origin, symbol := l.symbol, position := l.position } l.text)
    | .node symbol children => (children.mapM (earlier[·]?)).map (reduction origin symbol)
  return plain.withLabel
    { plain.label with
      position := part.position.getD plain.position
      lookahead := part.lookahead.getD plain.lookahead }

/-- The tokens of a hand-made graph, in order. -/
def assemble (parts : List Part) : Option (Array Token) :=
  parts.foldlM (fun earlier part => (part.toToken? earlier).map earlier.push) #[]

end Token

end ForkParser
