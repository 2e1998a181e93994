import ForkParser.Text.Words
import ForkParser.Token

/-!
# ForkParser.TokenFile

Token files: words of the form `SYMBOL` or `SYMBOL:text`, with blanks between
them.  A word without a colon is both symbol and text.  The position of a token
is the byte offset of its word.
-/

namespace ForkParser.TokenFile

/-- What can be wrong with a token file: a word that begins with a colon. -/
inductive Fault where
  | noSymbol (word : Text.Word)
deriving DecidableEq

def Fault.message : Fault → String
  | noSymbol w =>
    "offset " ++ w.offset.repr ++ " : missing symbol in \"" ++ w.text ++ "\"."

/-- The parts of a word before and after its first colon; the whole word twice
if it has none. -/
def splitColon (cs : List Char) : List Char × List Char :=
  match cs.dropWhile (· != ':') with
  | [] => (cs, cs)
  | _ :: after => (cs.takeWhile (· != ':'), after)

def lexemeOf (w : Text.Word) : Except Fault Lexeme :=
  match splitColon w.chars with
  | ([], _) => .error (.noSymbol w)
  | (symbol, text) => .ok ⟨⟨String.ofList symbol⟩, String.ofList text, w.offset⟩

/-- The tokens of a token file, ended by the end-of-input symbol. -/
def load (source : String) (eof : Symbol) : Except Fault (List Token) :=
  match (Text.words source.toList).mapM lexemeOf with
  | .error fault => .error fault
  | .ok lexemes => .ok (stream lexemes eof)

end ForkParser.TokenFile
