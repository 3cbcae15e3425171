/-
The arguments of the command line.

Arguments are read from left to right, and the first one that is wrong, or that asks for
the version or the help, decides.  A setting has its value in the same argument or in
the next one; a next argument that looks like an option is not a value.  Short options
may be joined, and the last of them may be a setting.  Behind `--` everything is an
operand.
-/
import FlowSuite.Target.Basic

namespace FlowSuite.CommandLine

/-- The shape of a flow document. -/
inductive Format where
  /-- What the visual editor exports. -/
  | editor
  /-- Nodes and edges with their kinds and roles. -/
  | canonical
  deriving DecidableEq, Repr

/-- What a run is asked to do. -/
structure Options where
  /-- Where the flow document is. -/
  path : String
  target : Target := .selenium
  format : Format := .editor
  /-- The suite's name. -/
  name : Option String := none
  /-- Whether each entry point gets a file of its own. -/
  split : Bool := false
  /-- Where the files go; they are printed if it is not given. -/
  folder : Option String := none
  verbose : Bool := false
  deriving DecidableEq, Repr

/-- Why there is nothing to run. -/
inductive Stop where
  | usage
  | version
  | help
  deriving DecidableEq, Repr

/-! ### Arguments -/

/-- An option without a value. -/
inductive Flag where
  | split
  | verbose
  | version
  | help
  deriving DecidableEq, Repr

/-- An option with a value. -/
inductive Setting where
  | target
  | format
  | name
  | folder
  deriving DecidableEq, Repr

/-- An option. -/
inductive Switch where
  | flag (f : Flag)
  | setting (s : Setting)
  deriving DecidableEq, Repr

/-- The option with a long name. -/
def Switch.ofLong? : String → Option Switch
  | "backend" => some (.setting .target)
  | "format" => some (.setting .format)
  | "suite-name" => some (.setting .name)
  | "out-dir" => some (.setting .folder)
  | "split" => some (.flag .split)
  | "verbose" => some (.flag .verbose)
  | "version" => some (.flag .version)
  | "help" => some (.flag .help)
  | _ => none

/-- The option with a letter. -/
def Switch.ofShort? : Char → Option Switch
  | 'b' => some (.setting .target)
  | 'f' => some (.setting .format)
  | 'n' => some (.setting .name)
  | 'o' => some (.setting .folder)
  | 's' => some (.flag .split)
  | 'v' => some (.flag .verbose)
  | 'V' => some (.flag .version)
  | 'h' => some (.flag .help)
  | _ => none

/-- An argument, read. -/
inductive Argument where
  | flag (f : Flag)
  | setting (s : Setting) (value : String)
  | operand (text : String)
  /-- What is no argument here. -/
  | wrong
  deriving DecidableEq, Repr

/-- What an argument says, and the setting that waits for its value. -/
abbrev Reading := List Argument × Option Setting

/-- A long option: its name, and its value behind an equals sign. -/
def readLong (cs : List Char) : Reading :=
  match Switch.ofLong? (String.ofList (cs.takeWhile (· ≠ '='))), cs.dropWhile (· ≠ '=') with
  | some (.flag f), [] => ([.flag f], none)
  | some (.setting s), [] => ([], some s)
  | some (.setting s), _ :: value => ([.setting s (String.ofList value)], none)
  | _, _ => ([.wrong], none)

/-- Joined short options.  What follows the letter of a setting is its value. -/
def readShort : List Char → Reading
  | [] => ([], none)
  | c :: cs =>
      match Switch.ofShort? c with
      | some (.flag f) => ((.flag f) :: (readShort cs).1, (readShort cs).2)
      | some (.setting s) =>
          match cs with
          | [] => ([], some s)
          | '=' :: value => ([.setting s (String.ofList value)], none)
          | value => ([.setting s (String.ofList value)], none)
      | none => ([.wrong], none)

/-- One argument. -/
def readArgument (text : String) : Reading :=
  match text.toList with
  | '-' :: '-' :: cs => readLong cs
  | '-' :: c :: cs => readShort (c :: cs)
  | _ => ([.operand text], none)

/-- Whether an argument looks like an option. -/
def isOption (text : String) : Bool :=
  match text.toList with
  | '-' :: _ :: _ => true
  | _ => false

/-- All arguments, when a setting may wait for its value. -/
def readArguments : Option Setting → List String → List Argument
  | none, [] => []
  | some _, [] => [.wrong]
  | some s, text :: rest =>
      if isOption text then [.wrong] else .setting s text :: readArguments none rest
  | none, text :: rest =>
      if text = "--" then rest.map .operand
      else
        let (read, waiting) := readArgument text
        read ++ readArguments waiting rest

/-! ### Options -/

/-- The target of that very name. -/
def targetNamed? : String → Option Target
  | "selenium" => some .selenium
  | "cypress" => some .cypress
  | _ => none

/-- The format of that very name. -/
def formatNamed? : String → Option Format
  | "editor" => some .editor
  | "canonical" => some .canonical
  | _ => none

/-- A text that is not empty. -/
def nonempty? (text : String) : Option String :=
  if text.isEmpty then none else some text

/-- The options so far. -/
structure Draft where
  path : Option String := none
  target : Option Target := none
  format : Option Format := none
  name : Option String := none
  folder : Option String := none
  split : Bool := false
  verbose : Bool := false
  deriving DecidableEq, Repr

namespace Draft

/-- The value of an option that was not given before and has one. -/
def once {α : Type} (before now : Option α) : Except Stop (Option α) :=
  match before, now with
  | none, some a => .ok (some a)
  | _, _ => .error .usage

/-- A flag that was not given before. -/
def onceFlag (before : Bool) : Except Stop Bool :=
  if before then .error .usage else .ok true

/-- The options with one more argument. -/
def add (d : Draft) : Argument → Except Stop Draft
  | .wrong => .error .usage
  | .flag .version => .error .version
  | .flag .help => .error .help
  | .flag .split => return { d with split := ← onceFlag d.split }
  | .flag .verbose => return { d with verbose := ← onceFlag d.verbose }
  | .setting .target v => return { d with target := ← once d.target (targetNamed? v) }
  | .setting .format v => return { d with format := ← once d.format (formatNamed? v) }
  | .setting .name v => return { d with name := ← once d.name (some v) }
  | .setting .folder v => return { d with folder := ← once d.folder (nonempty? v) }
  | .operand v => return { d with path := ← once d.path (nonempty? v) }

/-- The options when all arguments are read: there must be a path. -/
def finish (d : Draft) : Except Stop Options :=
  match d.path with
  | none => .error .usage
  | some path => .ok
      { path
        target := d.target.getD .selenium
        format := d.format.getD .editor
        name := d.name
        split := d.split
        folder := d.folder
        verbose := d.verbose }

end Draft

/-- The options that the arguments give. -/
def Options.parse (args : List String) : Except Stop Options := do
  let draft ← (readArguments none args).foldlM Draft.add {}
  draft.finish

/-! ### Texts -/

/-- The program and its version. -/
def versionText : String := "testloom 0.1.0\n"

/-- How the program is used. -/
def usageText : String :=
  "Usage: testloom [OPTIONS] <GRAPH_PATH>\n"

/-- What the program does, and its options. -/
def helpText : String :=
  "Compiles a browser test flow into a Selenium or Cypress test suite\n\n" ++ usageText ++
  "\nOptions:\n" ++
  "  -b, --backend <BACKEND>        selenium (default) or cypress\n" ++
  "  -f, --format <FORMAT>          editor (default) or canonical\n" ++
  "  -n, --suite-name <SUITE_NAME>  Name of the generated suite\n" ++
  "  -s, --split                    Write one file per test case\n" ++
  "  -o, --out-dir <OUT_DIR>        Directory for the files (stdout when omitted)\n" ++
  "  -v, --verbose                  Enable debug logging\n" ++
  "  -h, --help                     Print help\n" ++
  "  -V, --version                  Print version\n"

end FlowSuite.CommandLine
