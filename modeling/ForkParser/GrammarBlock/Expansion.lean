import ForkParser.GrammarBlock.Basic
import ForkParser.Text.Quoted

/-!
# ForkParser.GrammarBlock.Expansion

The text a declared grammar expands to: an expression that lists its
productions, each built from the names of its symbols.
-/

namespace ForkParser.GrammarBlock

def commaSeparated (items : List String) : String := " , ".intercalate items

def listExpression (items : List String) : String := "vec ! (" ++ commaSeparated items ++ ")"

def symbolExpression (s : Symbol) : String :=
  ":: shiftred :: Symbol :: new (" ++ Text.quote s.name ++ ")"

def productionExpression (p : Production) : String :=
  ":: shiftred :: Production :: from_symbols (" ++ symbolExpression p.lhs ++ " , "
    ++ listExpression (p.rhs.map symbolExpression) ++ " ,)"

/-- The expression for the productions of a block. -/
def expansion (b : GrammarBlock) : String :=
  listExpression (b.productions.map productionExpression)

end ForkParser.GrammarBlock
