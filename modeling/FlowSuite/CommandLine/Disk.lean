/-
A disk in memory.

The disk has a folder in which a program works, and paths that do not start with a slash
start there.  A path is followed name by name, and every name but the last must be that
of a folder.
-/
import FlowSuite.CommandLine.Files

namespace FlowSuite.CommandLine

/-- The names on the way from the top of the disk. -/
abbrev Place := List String

/-- What can be at a place. -/
inductive Item where
  | folder
  /-- A file with its text, unless its bytes are not UTF-8. -/
  | file (text : Option String)
  deriving DecidableEq, Repr

/-- A file of these bytes. -/
def Item.ofBytes (bytes : List UInt8) : Item :=
  .file (String.fromUTF8? ⟨bytes.toArray⟩)

/-- A disk: what is on it, and where a program works. -/
structure Disk where
  items : List (Place × Item)
  home : Place
  deriving DecidableEq, Repr

namespace Disk

/-- A disk with an empty folder to work in. -/
def empty : Disk := ⟨[(["home"], .folder)], ["home"]⟩

/-- What is at a place; the top is a folder. -/
def item? (d : Disk) : Place → Option Item
  | [] => some .folder
  | place => d.items.lookup place

/-- The disk with something put at a place. -/
def put (d : Disk) (place : Place) (item : Item) : Disk :=
  { d with items := (place, item) :: d.items.filter (·.1 ≠ place) }

/-- Where one goes from a folder by a name. -/
def step (place : Place) (name : String) : Place :=
  if name = "" ∨ name = "." then place
  else if name = ".." then place.dropLast
  else place ++ [name]

/-- Where one gets by following names. -/
def follow (d : Disk) (place : Place) : List String → Except SystemError Place
  | [] => .ok place
  | name :: rest =>
      match d.item? place with
      | none => .error .notFound
      | some (.file _) => .error .notDirectory
      | some .folder => d.follow (step place name) rest

/-- Where a path leads. -/
def locate (d : Disk) (path : String) : Except SystemError Place :=
  d.follow (if path.startsWith "/" then [] else d.home) (path.splitOn "/")

/-- The text of a file. -/
def read (d : Disk) (path : String) : Except SystemError String := do
  match d.item? (← d.locate path) with
  | none => .error .notFound
  | some .folder => .error .isDirectory
  | some (.file none) => .error .notText
  | some (.file (some text)) => .ok text

/-- The disk with a text put into a file. -/
def write (d : Disk) (path text : String) : Except SystemError Disk := do
  let place ← d.locate path
  match d.item? place with
  | some .folder => .error .isDirectory
  | _ => .ok (d.put place (.file (some text)))

/-- A path without the slashes at its end. -/
def dropSlashes (path : String) : String :=
  String.ofList (path.toList.reverse.dropWhile (· = '/')).reverse

/-- The disk with a new folder. -/
def makeFolder (d : Disk) (path : String) : Except SystemError Disk := do
  let place ← d.locate (dropSlashes path)
  match d.item? place with
  | some _ => .error .exists
  | none => .ok (d.put place .folder)

/-- Whether a path leads to a folder. -/
def isFolder (d : Disk) (path : String) : Bool :=
  match d.locate path with
  | .ok place => d.item? place = some .folder
  | .error _ => false

/-- The disk after an operation that may fail. -/
def change (f : Disk → Except SystemError Disk) : StateM Disk (Except SystemError Unit) := do
  match f (← get) with
  | .ok d => set d; return .ok ()
  | .error e => return .error e

/-- The disk as a file system. -/
def files : Files (StateM Disk) where
  read path := return (← get).read path
  write path text := change (·.write path text)
  makeFolder path := change (·.makeFolder path)
  isFolder path := return (← get).isFolder path

/-- The texts of the files in the folder of the program, by their paths from there, in
the order of the paths. -/
def texts (d : Disk) : List (String × String) :=
  let found := d.items.filterMap fun
    | (place, .file (some text)) =>
        if d.home.isPrefixOf place then
          some ("/".intercalate (place.drop d.home.length), text)
        else none
    | _ => none
  found.mergeSort fun a b => a.1 ≤ b.1

end Disk

end FlowSuite.CommandLine
