import Connectors.Text.Split

/-!
# Files

A tree of files is a list of paths with texts; a directory is there when a file lies below it.
`FileTree.find` follows a path from the working directory as the operating system does: every step
but the last one has to be a directory, `..` goes up, and a path that ends in a slash is that of a
directory.
-/

set_option autoImplicit false
set_option relaxedAutoImplicit false

namespace Connectors

/-- What is found at the end of a path. -/
inductive FileTree.Entry where
  /-- Nothing. -/
  | missing
  /-- A file with its text. -/
  | file (text : String)
  /-- A directory. -/
  | directory
deriving DecidableEq, Repr

/-- Files by the names on their paths. -/
structure FileTree where
  /-- The files, the last one of a path counting. -/
  files : List (List String × String)
deriving DecidableEq, Repr

/-- The names on a path, without those that lead nowhere else. -/
def pathNames (path : String) : List String :=
  (Text.split '/' path).filter fun name ↦ name ≠ "" ∧ name ≠ "."

/-- A path below a directory. -/
def joinPath (directory name : String) : String :=
  if directory.isEmpty then name
  else if directory.toList.getLast? = some '/' then directory ++ name
  else directory ++ "/" ++ name

/-- The last name of a path, if it names anything. -/
def fileName? (path : String) : Option String :=
  (pathNames path).getLast?.filter (· ≠ "..")

/-- What follows the last point of a file's name. A point at the start of the name does not
count. -/
def fileExtension (path : String) : String :=
  let name := ((fileName? path).getD "").toList
  let ending := name.reverse.takeWhile (· ≠ '.')
  if ending.length + 1 < name.length then String.ofList ending.reverse else ""

namespace FileTree

/-- A tree of files from their paths and texts. -/
def ofList (files : List (String × String)) : FileTree :=
  ⟨files.map fun (path, text) ↦ (pathNames path, text)⟩

/-- The text of the file at the end of a path of names. -/
def text? (tree : FileTree) (names : List String) : Option String :=
  (tree.files.reverse.find? (·.1 = names)).map (·.2)

/-- Whether a path of names leads to a directory. The working directory and those above it are
there in any case. -/
def isDirectory (tree : FileTree) (names : List String) : Bool :=
  names.all (· = "..") || tree.files.any fun (file, _) ↦ names.isPrefixOf file && names ≠ file

/-- The place that names lead to from the directory `here`, which is given backwards. -/
def walk (tree : FileTree) (here : List String) : List String → Option (List String)
  | [] => some here
  | name :: rest =>
    if !tree.isDirectory here.reverse then none
    else if name = ".." then
      match here with
      | [] => walk tree [name] rest
      | below :: above => walk tree (if below = ".." then name :: here else above) rest
    else walk tree (name :: here) rest

/-- What is found at the end of a path. -/
def find (tree : FileTree) (path : String) : Entry :=
  if path.isEmpty then .missing
  else match tree.walk [] (pathNames path) with
    | none => .missing
    | some here =>
      let names := here.reverse
      let last := (Text.split '/' path).getLast?.getD ""
      match tree.text? names with
      | some text => if last = "" ∨ last = "." then .missing else .file text
      | none => if tree.isDirectory names then .directory else .missing

/-- Whether anything is found at the end of a path. -/
def has (tree : FileTree) (path : String) : Bool :=
  tree.find path ≠ .missing

end FileTree

end Connectors
