/-
A run of the command line.

A run reads a flow, makes its suites, and prints them or puts them into files.  It ends
with 0 when this is done, with 1 when something fails, and with 2 when the arguments
make no sense.
-/
import FlowSuite.CommandLine.Files
import FlowSuite.CommandLine.Options
import FlowSuite.Flow.Canvas
import FlowSuite.Suite.Project

namespace FlowSuite.CommandLine

/-- Why a run fails. -/
inductive Failure where
  | read (path : String) (e : SystemError)
  | load (e : FlowError)
  | compile (e : SuiteError)
  | create (folder : String) (e : SystemError)
  | write (path : String) (e : SystemError)
  deriving DecidableEq, Repr

/-- The failure in words. -/
def Failure.message : Failure → String
  | .read path e => s!"Failed to read flow file '{path}': {e.message}"
  | .load e => s!"Failed to load flow: {e.message}"
  | .compile e => s!"Compilation failed: {e.message}"
  | .create folder e => s!"Failed to create '{folder}': {e.message}"
  | .write path e => s!"Failed to write '{path}': {e.message}"

/-- How a run ends. -/
structure Outcome where
  exit : Nat
  stdout : String := ""
  error : Option Failure := none
  deriving DecidableEq, Repr

/-- A file to print or to write. -/
structure Output where
  name : String
  content : String
  deriving DecidableEq, Repr

/-- The flow in a document of a format. -/
def Format.parse : Format → String → Except FlowError Flow
  | .editor, text => Canvas.parse text >>= Canvas.toFlow
  | .canonical, text => Flow.parse text

namespace Options

/-- The project that the options make of a flow. -/
def project (o : Options) (g : Flow) : Project :=
  let p : Project := { flow := g, target := o.target }
  (o.name.map p.named).getD p

/-- The files of a project. -/
def outputs (o : Options) (p : Project) : Except SuiteError (List Output) :=
  if o.split then
    p.files.map fun files => files.map fun f => ⟨f.name, f.suite.source⟩
  else
    p.suite.map fun s => [⟨s.fileName, s.source⟩]

/-- The files of a flow document. -/
def compile (o : Options) (text : String) : Except Failure (List Output) := do
  let g ← (o.format.parse text).mapError .load
  (o.outputs (o.project g)).mapError .compile

/-- A file as it is printed: a line with its name goes before it if there may be
several. -/
def print (o : Options) (out : Output) : String :=
  if o.split then s!"---- {out.name} ----\n{out.content}" else out.content

end Options

variable {m : Type → Type} [Monad m]

/-- Writes a file into a folder. -/
def save (files : Files m) (folder : String) (out : Output) : ExceptT Failure m Unit := do
  match ← files.createFolder folder with
  | .error e => throw (.create folder e)
  | .ok _ =>
      let path := fileIn folder out.name
      match ← files.write path out.content with
      | .error e => throw (.write path e)
      | .ok _ => return ()

/-- Does what the options say, and gives what is printed. -/
def Options.run (o : Options) (files : Files m) : ExceptT Failure m String := do
  match ← files.read o.path with
  | .error e => throw (.read o.path e)
  | .ok text =>
      let outs ← o.compile text
      match o.folder with
      | none => return String.join (outs.map o.print)
      | some folder => do
          outs.forM (save files folder)
          return ""

/-- A run with some arguments. -/
def run (files : Files m) (args : List String) : m Outcome := do
  match Options.parse args with
  | .error .usage => return { exit := 2 }
  | .error .version => return { exit := 0, stdout := versionText }
  | .error .help => return { exit := 0, stdout := helpText }
  | .ok o =>
      match ← (o.run files).run with
      | .ok text => return { exit := 0, stdout := text }
      | .error e => return { exit := 1, error := some e }

end FlowSuite.CommandLine
