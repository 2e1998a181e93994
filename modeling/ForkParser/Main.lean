import ForkParser.Command.Basic

/-!
# ForkParser.Main

The program: reads the files that its arguments name, and prints what
`ForkParser.Command.run` says.
-/

namespace ForkParser

/-- The text of a file on disk. -/
def readText (name : String) : IO (Except Command.FileFailure String) := do
  try
    let bytes ← IO.FS.readBinFile name
    match String.fromUTF8? bytes with
    | some text => return .ok text
    | none => return .error .notText
  catch e =>
    match e with
    | .noFileOrDirectory .. => return .error .missing
    | .inappropriateType none .. => return .error .directory
    | .inappropriateType (some _) .. => return .error .notDirectory
    | e => throw e

end ForkParser

open ForkParser in
def main (args : List String) : IO UInt32 := do
  let request := Command.Request.ofArguments args
  let texts ← request.files.mapM fun name => do return (name, ← readText name)
  let outcome := request.run fun name => (texts.lookup name).getD (.error .missing)
  IO.print outcome.output
  match outcome.errorLine? with
  | some line => IO.eprintln line
  | none => pure ()
  return outcome.code.toUInt32
