import ForkParser.Proofs.Layout
import ForkParser.Proofs.Listing

/-!
# ForkParser.Proofs.Reading

Reading a grammar block undoes writing it.

`blockSigns` are the signs of a block, with both optional commas.  They may be written in
any layout (`Written`, `ForkParser.Proofs.Layout`).  The text is cut into pieces that
spell the signs, and the readers then go through the pieces sign by sign: `readNamed` for
a declaration, `readRhs` for the names after an arrow, `readRules` for the rules.
-/

namespace ForkParser.GrammarBlock

/-! ## the signs of a block -/

variable {signs : List Sign} {pieces : List Piece}

end ForkParser.GrammarBlock
