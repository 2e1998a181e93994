import ForkParser.Error
import ForkParser.Production
import ForkParser.Settings

/-!
# ForkParser.Grammar

Checked grammars.  A `Grammar` is a list of productions over a set of symbols,
together with its settings, that has none of the faults listed by
`Grammar.Fault`; `Grammar.fault?` finds the first one.
-/

namespace ForkParser

/-- What can be wrong with a production list. -/
inductive Grammar.Fault where
  | noProductions
  | noSymbols
  /-- A terminal is on the left of a production. -/
  | terminalExpanded (production : Production)
  /-- A production uses a symbol that is not in the symbol set. -/
  | unknownSymbol (production : Production) (symbol : Symbol)
  | eofNotTerminal (eof : Symbol)
  /-- The end-of-input symbol is not in the symbol set. -/
  | eofUnknown (eof : Symbol)
  /-- No production expands the start symbol. -/
  | startUndefined (start : Symbol)
  /-- A production uses a symbol that has an empty production.  Empty
  productions are never reduced, so nothing may depend on them. -/
  | emptyUsed (production : Production) (symbol : Symbol)
deriving DecidableEq

namespace Grammar.Fault

def reason : Fault → String
  | noProductions => "the production list is empty"
  | noSymbols => "the symbol set is empty"
  | terminalExpanded p => "terminal \"" ++ p.lhs.name ++ "\" on the left of \"" ++ p.text ++ "\""
  | unknownSymbol p s => "\"" ++ p.text ++ "\" uses the unknown symbol \"" ++ s.name ++ "\""
  | eofNotTerminal eof => "end-of-input symbol \"" ++ eof.name ++ "\" is not a terminal"
  | eofUnknown eof => "end-of-input symbol \"" ++ eof.name ++ "\" is not in the grammar"
  | startUndefined start => "start symbol \"" ++ start.name ++ "\" has no production"
  | emptyUsed p s =>
    "\"" ++ p.text ++ "\" uses \"" ++ s.name ++ "\", which has an empty production"

end Grammar.Fault

namespace Grammar

/-- The fault of one production by itself: a terminal on the left, or a symbol
outside the set. -/
def productionFault? (symbols : SymbolSet) (p : Production) : Option Fault :=
  if p.lhs.isTerminal then
    some (.terminalExpanded p)
  else
    (p.symbols.find? (· ∉ symbols)).map (.unknownSymbol p)

/-- The fault of the distinguished symbols: an end of input that is not a
terminal or not in the set, or a start without production. -/
def settingsFault? (settings : Settings) (symbols : SymbolSet)
    (productions : List Production) : Option Fault :=
  if !settings.eof.isTerminal then some (.eofNotTerminal settings.eof)
  else if settings.eof ∉ symbols then some (.eofUnknown settings.eof)
  else if productions.any (·.lhs = settings.start) then none
  else some (.startUndefined settings.start)

/-- Whether some production of `symbol` is empty. -/
def hasEmpty (productions : List Production) (symbol : Symbol) : Bool :=
  productions.any fun p => p.isEmpty && p.lhs = symbol

/-- The first use of a symbol that has an empty production. -/
def emptyFault? (productions : List Production) : Option Fault :=
  productions.findSome? fun p =>
    (p.rhs.find? (hasEmpty productions)).map (.emptyUsed p)

/-- The first fault of a production list: no productions, no symbols, then the
productions one by one, then the distinguished symbols, then the use of empty
productions. -/
def fault? (settings : Settings) (symbols : SymbolSet) (productions : List Production) :
    Option Fault :=
  if productions.isEmpty then some .noProductions
  else if symbols.isEmpty then some .noSymbols
  else
    (productions.findSome? (productionFault? symbols)).or
      ((settingsFault? settings symbols productions).or (emptyFault? productions))

end Grammar

/-- A production list without faults. -/
structure Grammar where
  settings : Settings
  symbols : SymbolSet
  productions : List Production
  faultless : Grammar.fault? settings symbols productions = none

namespace Grammar

/-- Checks a production list over a given set of symbols. -/
def withSymbols (settings : Settings) (symbols : SymbolSet) (productions : List Production) :
    Except Fault Grammar :=
  match h : fault? settings symbols productions with
  | some fault => .error fault
  | none => .ok ⟨settings, symbols, productions, h⟩

/-- The symbols that productions mention, and the distinguished ones. -/
def mentioned (settings : Settings) (productions : List Production) : SymbolSet :=
  .ofList (productions.flatMap Production.symbols ++ [settings.start, settings.eof])

/-- Checks a production list over the symbols it mentions. -/
def ofProductions (settings : Settings) (productions : List Production) : Except Fault Grammar :=
  withSymbols settings (mentioned settings productions) productions

def Fault.toError (f : Fault) : Error := .invalidInput f.reason

end Grammar

end ForkParser
