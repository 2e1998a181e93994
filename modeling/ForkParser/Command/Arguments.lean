import ForkParser.Settings

/-!
# ForkParser.Command.Arguments

The arguments of the command line: a task, options and files.

Options may stand before or after the files, and take their value from the same
argument after an `=` or from the next one; after `--` everything is a file.
Arguments are read from left to right, so a request for the version counts
unless something before it makes no sense.  Whether an option is given twice or
without a value, and whether files are missing, is looked at in the end.
-/

namespace ForkParser.Command

/-- What the program can be asked to do. -/
inductive Task where
  /-- Show the decision table of a grammar. -/
  | table
  /-- Show the parse trees of a token file. -/
  | parse
deriving DecidableEq

def Task.word : Task → String
  | table => "table"
  | parse => "parse"

def Task.fileCount : Task → Nat
  | table => 1
  | parse => 2

/-- The options that take a value. -/
inductive OptionName where
  | start
  | eof
  | maxBranches
deriving DecidableEq

def OptionName.ofWord? : String → Option OptionName
  | "start" => some .start
  | "eof" => some .eof
  | "max-branches" => some .maxBranches
  | _ => none

/-- The arguments read so far: options with their values, a missing value being
`none`, and files. -/
structure Arguments where
  options : List (OptionName × Option String) := []
  files : List String := []
deriving DecidableEq

/-- Why arguments ask for no task. -/
inductive Stop where
  | misused
  | version
deriving DecidableEq

/-- What a single argument is. -/
inductive Argument where
  | file
  /-- The mark after which everything is a file. -/
  | endOfOptions
  /-- An option, with the value that follows an `=`. -/
  | option (name : OptionName) (value : Option String)
  | version
  | unknown
deriving DecidableEq

/-- The argument that a long word stands for, without its dashes: a name, and
perhaps a value after an `=`. -/
def Argument.ofLong (word : List Char) : Argument :=
  let name := String.ofList (word.takeWhile (· != '='))
  let value :=
    match word.dropWhile (· != '=') with
    | [] => none
    | rest => some (String.ofList (rest.dropWhile (· = '=')))
  match OptionName.ofWord? name with
  | some known => .option known value
  | none => if name = "version" then .version else .unknown

/-- What an argument is.  A dash by itself is a file. -/
def Argument.ofString (arg : String) : Argument :=
  match arg.toList with
  | ['-', '-'] => .endOfOptions
  | '-' :: '-' :: rest => .ofLong (rest.dropWhile (· = '-'))
  | ['-'] => .file
  | '-' :: 'V' :: _ => .version
  | '-' :: _ => .unknown
  | _ => .file

namespace Arguments

/-- Adds a file, unless the task has all its files. -/
def addFile (task : Task) (a : Arguments) (file : String) : Except Stop Arguments :=
  if a.files.length < task.fileCount then .ok { a with files := a.files ++ [file] }
  else .error .misused

def addOption (a : Arguments) (name : OptionName) (value : Option String) : Arguments :=
  { a with options := a.options ++ [(name, value)] }

/-- Adds an option that got no value, if one was waiting for it. -/
def settle (a : Arguments) : Option OptionName → Arguments
  | some name => a.addOption name none
  | none => a

/-- Reads the arguments of a task after those in `a`.  `waiting` is an option that
still lacks its value. -/
def scan (task : Task) (a : Arguments) (waiting : Option OptionName) :
    List String → Except Stop Arguments
  | [] => .ok (a.settle waiting)
  | arg :: rest =>
    match waiting, Argument.ofString arg with
    | some name, .file => scan task (a.addOption name (some arg)) none rest
    | none, .file =>
      match a.addFile task arg with
      | .ok a => scan task a none rest
      | .error stop => .error stop
    | _, .endOfOptions => rest.foldlM (addFile task) (a.settle waiting)
    | _, .option name (some value) =>
      scan task ((a.settle waiting).addOption name (some value)) none rest
    | _, .option name none => scan task (a.settle waiting) (some name) rest
    | _, .version => .error .version
    | _, .unknown => .error .misused

/-- Whether every option is given once and with a value. -/
def isSound (a : Arguments) : Bool :=
  (a.options.map Prod.fst).Nodup && a.options.all (·.2.isSome)

def value? (a : Arguments) (name : OptionName) : Option String :=
  (a.options.find? (·.1 = name)).bind Prod.snd

end Arguments

/-- What the arguments of the program ask for. -/
inductive Request where
  | nothing
  /-- The version of the program, or of one of its tasks. -/
  | version (task : Option Task)
  | table (arguments : Arguments) (grammar : String)
  | parse (arguments : Arguments) (grammar tokens : String)
  | misused
deriving DecidableEq

namespace Request

/-- What the arguments of a task ask for, once all are read. -/
def ofFiles (task : Task) (a : Arguments) : Request :=
  match task, a.files with
  | .table, [grammar] => table a grammar
  | .parse, [grammar, tokens] => parse a grammar tokens
  | _, _ => misused

def ofTask (task : Task) (args : List String) : Request :=
  match Arguments.scan task {} none args with
  | .error .version => version (some task)
  | .error .misused => misused
  | .ok a => if a.isSound then ofFiles task a else misused

/-- Reads the arguments of the program: the task comes first.  After `--` there
can be no task, and files make no sense without one. -/
def ofArguments : List String → Request
  | [] => nothing
  | arg :: rest =>
    if arg = Task.table.word then ofTask .table rest
    else if arg = Task.parse.word then ofTask .parse rest
    else
      match Argument.ofString arg with
      | .version => version none
      | .endOfOptions => if rest.isEmpty then nothing else misused
      | _ => misused

def files : Request → List String
  | table _ grammar => [grammar]
  | parse _ grammar tokens => [grammar, tokens]
  | _ => []

end Request

end ForkParser.Command
