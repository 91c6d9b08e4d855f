import Conform.Entries

/-!
# Files

What a program sees of a file system: for each path the text of a file, or why there is none.
`FileTree` is a snapshot of a working directory, in which paths are looked up name by name. Of the
directories around it nothing is known but that they are there.
-/

namespace Conform

/-- Why a file has no text. -/
inductive FileFault where
  | notFound
  | isDirectory
  | notDirectory
  | nameTooLong
  | zeroInName
  | notText
  | other (reason : String)
  deriving DecidableEq

/-- The wording of a fault. -/
def FileFault.message : FileFault → String
  | .notFound => "No such file or directory (os error 2)"
  | .isDirectory => "Is a directory (os error 21)"
  | .notDirectory => "Not a directory (os error 20)"
  | .nameTooLong => "File name too long (os error 36)"
  | .zeroInName => "file name contained an unexpected NUL byte"
  | .notText => "stream did not contain valid UTF-8"
  | .other reason => reason

/-- The text of the file at each path. -/
abbrev Files := String → Except FileFault String

/-- Whether the file at a path is YAML, by the extension of its name. A name that starts with its
only point has no extension. -/
def isYamlPath (path : String) : Bool :=
  let parts := path.splitOn "/"
  let names := parts.filter fun part => part ≠ "" ∧ part ≠ "."
  match names.getLast? with
  | none => false
  | some name =>
    let pieces := name.splitOn "."
    name ≠ ".." && (2 < pieces.length || (pieces.length = 2 && pieces.head? ≠ some "")) &&
      (pieces.getLast? = some "yaml" || pieces.getLast? = some "yml")

/-- A file of bytes, or a directory. -/
inductive FileEntry where
  | file (bytes : ByteArray)
  | directory

/-- A snapshot of a working directory: entries by their paths, each a list of names. -/
structure FileTree where
  entries : List (List String × FileEntry)

namespace FileTree

/-- The names in a path, without empty ones and single points. -/
def pathNames (path : String) : List String :=
  (path.splitOn "/").filter fun part => part ≠ "" ∧ part ≠ "."

/-- A snapshot of files and directories by their paths. -/
def ofList (entries : List (String × FileEntry)) : FileTree :=
  ⟨entries.map fun entry => (pathNames entry.1, entry.2)⟩

/-- Where a path leads: into the working directory, or to one of those around it. -/
inductive Place where
  | inside (names : List String)
  | outside

/-- The place one directory up. -/
def Place.parent : Place → Place
  | .inside [] | .outside => .outside
  | .inside names => .inside names.dropLast

/-- The entry at a list of names. The directories on the way to an entry are there with it. -/
def entry? (tree : FileTree) (names : List String) : Option FileEntry :=
  match tree.entries.lookup names with
  | some entry => some entry
  | none =>
    if names.isEmpty || tree.entries.any (fun entry => names.isPrefixOf entry.1) then
      some .directory
    else none

/-- The entry at a place. -/
def entryAt? (tree : FileTree) : Place → Option FileEntry
  | .inside names => tree.entry? names
  | .outside => some .directory

/-- The bytes that a name may have. -/
def nameLimit : Nat := 255

/-- The bytes that a path may have. -/
def pathLimit : Nat := 4095

/-- Follows a name from a place, which has to be a directory. Two points lead to the directory
around it. -/
def step (tree : FileTree) (here : Place) (name : String) : Except FileFault Place :=
  match tree.entryAt? here with
  | none => .error .notFound
  | some (.file _) => .error .notDirectory
  | some .directory =>
    if name = ".." then .ok here.parent
    else if nameLimit < name.utf8ByteSize then .error .nameTooLong
    else
      match here with
      | .inside names => .ok (.inside (names ++ [name]))
      | .outside => .error .notFound

/-- The place that a path leads to. A path that starts with a slash starts at the outermost
directory. -/
def locate (tree : FileTree) (path : String) : Except FileFault Place :=
  if path.contains '\x00' then .error .zeroInName
  else if path.isEmpty then .error .notFound
  else if pathLimit < path.utf8ByteSize then .error .nameTooLong
  else
    (pathNames path).foldlM tree.step (if path.startsWith "/" then .outside else .inside [])

/-- The text of the file at a path. A path that ends in a slash is one of a directory. -/
def read (tree : FileTree) : Files := fun path => do
  match tree.entryAt? (← tree.locate path) with
  | none => throw .notFound
  | some .directory => throw .isDirectory
  | some (.file bytes) =>
    if path.endsWith "/" ∨ path.endsWith "/." then throw .notDirectory
    match String.fromUTF8? bytes with
    | some text => return text
    | none => throw .notText

end FileTree

end Conform
