import ForkParser.Branch
import ForkParser.Candidate
import ForkParser.Command.Arguments
import ForkParser.Command.Basic
import ForkParser.Error
import ForkParser.Event
import ForkParser.Grammar
import ForkParser.GrammarBlock.Basic
import ForkParser.GrammarBlock.Check
import ForkParser.GrammarBlock.Expansion
import ForkParser.GrammarBlock.Literal
import ForkParser.GrammarBlock.Piece
import ForkParser.GrammarFile
import ForkParser.Main
import ForkParser.Occurrence
import ForkParser.Parser.Basic
import ForkParser.Parser.Log
import ForkParser.Parser.Search
import ForkParser.Production
import ForkParser.Proofs.Ambiguity
import ForkParser.Proofs.Atomicity
import ForkParser.Proofs.Building
import ForkParser.Proofs.Choice
import ForkParser.Proofs.Completeness
import ForkParser.Proofs.Concatenation
import ForkParser.Proofs.Declaration
import ForkParser.Proofs.Derivation
import ForkParser.Proofs.Failure
import ForkParser.Proofs.FirstTie
import ForkParser.Proofs.Forced
import ForkParser.Proofs.GrammarFile
import ForkParser.Proofs.Growth
import ForkParser.Proofs.History
import ForkParser.Proofs.Identity
import ForkParser.Proofs.Indentation
import ForkParser.Proofs.Invariant
import ForkParser.Proofs.Inventory
import ForkParser.Proofs.JointMatch
import ForkParser.Proofs.Layout
import ForkParser.Proofs.Limits
import ForkParser.Proofs.Listing
import ForkParser.Proofs.Moves
import ForkParser.Proofs.Numbering
import ForkParser.Proofs.Outcome
import ForkParser.Proofs.Outline
import ForkParser.Proofs.Overlaps
import ForkParser.Proofs.Places
import ForkParser.Proofs.Positions
import ForkParser.Proofs.Quoted
import ForkParser.Proofs.Reading
import ForkParser.Proofs.Repeats
import ForkParser.Proofs.RuleOrder
import ForkParser.Proofs.Run
import ForkParser.Proofs.Separation
import ForkParser.Proofs.Sharing
import ForkParser.Proofs.Sizes
import ForkParser.Proofs.Snapshot
import ForkParser.Proofs.Soundness
import ForkParser.Proofs.Suffix
import ForkParser.Proofs.TokenFile
import ForkParser.Proofs.Unfolding
import ForkParser.Proofs.UnitChains
import ForkParser.Proofs.Words
import ForkParser.Settings
import ForkParser.Symbol
import ForkParser.Table.Basic
import ForkParser.Table.Log
import ForkParser.Table.Suffix
import ForkParser.Text.Blank
import ForkParser.Text.Identifier
import ForkParser.Text.Printable
import ForkParser.Text.Quoted
import ForkParser.Text.Ranges
import ForkParser.Text.Uppercase
import ForkParser.Text.Words
import ForkParser.Token
import ForkParser.Token.Assembly
import ForkParser.TokenFile
import ForkParser.Tree.Arena
import ForkParser.Tree.Basic
import ForkParser.Tree.Printer
import ForkParser.UndoStack
