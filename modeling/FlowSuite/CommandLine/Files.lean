/-
What the command line needs of a file system.

The operations are given as a record, so that a run can work on real files as well as
on a disk in memory.  They fail with a cause that has the system's own words.
-/

namespace FlowSuite.CommandLine

/-- Why a file or a folder cannot be used. -/
inductive SystemError where
  | notFound
  | exists
  | notDirectory
  | isDirectory
  /-- The bytes of a file are not UTF-8. -/
  | notText
  | other (reason : String)
  deriving DecidableEq, Repr

/-- The system's words. -/
def SystemError.message : SystemError → String
  | .notFound => "No such file or directory (os error 2)"
  | .exists => "File exists (os error 17)"
  | .notDirectory => "Not a directory (os error 20)"
  | .isDirectory => "Is a directory (os error 21)"
  | .notText => "stream did not contain valid UTF-8"
  | .other reason => reason

/-- A file system, by what can be done in it. -/
structure Files (m : Type → Type) where
  /-- The text of a file. -/
  read : String → m (Except SystemError String)
  /-- Puts a text into a file, whether or not it exists. -/
  write : String → String → m (Except SystemError Unit)
  /-- Makes one folder, in a folder that exists. -/
  makeFolder : String → m (Except SystemError Unit)
  isFolder : String → m Bool

namespace Files

variable {m : Type → Type} [Monad m]

/-- Makes a folder; it does not matter if it exists. -/
def ensureFolder (files : Files m) (path : String) : m (Except SystemError Unit) := do
  match ← files.makeFolder path with
  | .ok _ => return .ok ()
  | .error e => return if ← files.isFolder path then .ok () else .error e

/-- Makes the first of these folders.  If it has no place, the folders after it, in
which it lies, are made first. -/
def createFolders (files : Files m) : List String → m (Except SystemError Unit)
  | [] => return .ok ()
  | path :: around => do
      match ← files.ensureFolder path with
      | .error .notFound =>
          match ← files.createFolders around with
          | .ok _ => files.ensureFolder path
          | .error e => return .error e
      | result => return result

end Files

/-! ### Paths -/

/-- The names in a path.  Doubled slashes and the folder itself say nothing. -/
def pathNames (path : String) : List String :=
  (path.splitOn "/").filter fun name => name ≠ "" ∧ name ≠ "."

/-- The folders around a path, the innermost first. -/
def foldersAround (path : String) : List String :=
  let names := pathNames path
  let start := if path.startsWith "/" then "/" else ""
  (List.range (names.length - 1)).reverse.map fun k =>
    start ++ "/".intercalate (names.take (k + 1))

/-- A file in a folder. -/
def fileIn (folder name : String) : String :=
  if folder.endsWith "/" then folder ++ name else folder ++ "/" ++ name

/-- Makes a folder and those around it. -/
def Files.createFolder {m : Type → Type} [Monad m] (files : Files m) (path : String) :
    m (Except SystemError Unit) :=
  files.createFolders (path :: foldersAround path)

end FlowSuite.CommandLine
