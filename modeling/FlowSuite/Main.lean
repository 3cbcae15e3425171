/-
The program: a run of the command line on real files.
-/
import FlowSuite.CommandLine.Run

namespace FlowSuite.CommandLine

/-- The number of an error, which some operations give with a minus sign. -/
def errorNumber (code : UInt32) : UInt32 := min code (0 - code)

/-- The cause of an error of the system. -/
def SystemError.ofError (e : IO.Error) : SystemError :=
  match e with
  | .noFileOrDirectory .. => .notFound
  | .alreadyExists .. => .exists
  | .inappropriateType _ code _ =>
      if errorNumber code = 20 then .notDirectory
      else if errorNumber code = 21 then .isDirectory
      else .other (toString e)
  | _ => .other (toString e)

/-- An operation of the system with its error as a value. -/
def attempt {α : Type} (act : IO α) : IO (Except SystemError α) := do
  try return .ok (← act)
  catch e => return .error (.ofError e)

/-- The files of the system. -/
def systemFiles : Files IO where
  read path := do
    match ← attempt (IO.FS.readBinFile path) with
    | .error e => return .error e
    | .ok bytes =>
        match String.fromUTF8? bytes with
        | some text => return .ok text
        | none => return .error .notText
  write path text := attempt (IO.FS.writeFile path text)
  makeFolder path := attempt (IO.FS.createDir path)
  isFolder path := do
    try (← IO.FS.realPath path).isDir
    catch _ => return false

end FlowSuite.CommandLine

open FlowSuite.CommandLine in
/-- Runs the program and says how it ended. -/
def main (args : List String) : IO UInt32 := do
  let outcome ← run systemFiles args
  IO.print outcome.stdout
  if outcome.exit = 2 then IO.eprint usageText
  if let some e := outcome.error then
    let message := e.message
    IO.eprintln s!"\nError: {message}"
  return outcome.exit.toUInt32
