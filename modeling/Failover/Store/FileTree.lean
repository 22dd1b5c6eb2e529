import Failover.SortedMap
import Failover.Store.Basic

/-! # A directory tree

The directory that a file store is rooted at, and what stands below it. A path is the list of the
names on the way from the root of the tree; the root itself may be missing or be a regular file.

Lookups go from the root downwards, and the first obstacle decides: a name that is too long, a
missing entry, or a regular file where a directory is needed. -/

namespace Failover

/-- A `FileEntry` of a directory tree. A regular file without contents here holds bytes that are no
text. -/
inductive FileEntry where
  | directory
  | file (contents : Option String)
deriving DecidableEq, Repr, Inhabited

/-- A `FileTree` has what stands at and below the root, by path. -/
structure FileTree where
  entries : SortedMap (List String) FileEntry := .empty
deriving DecidableEq, Inhabited

namespace FileTree

/-- How many bytes a name may have. -/
def maxName : Nat := 255

/-- How many bytes a whole path may have. It is the path below the root that is measured by
`pathSize`: the bytes of the base directory itself do not count toward this bound. -/
def maxPath : Nat := 4095

/-- A `Fault` is an obstacle on the way to a path, or the end of the way. -/
inductive Fault where
  | missing
  | io (cause : IoError)
deriving DecidableEq, Repr

/-- The `FileTree` whose root is an empty directory. -/
def root : FileTree := ⟨SortedMap.empty.insert [] .directory⟩

/-- The `FileTree` whose root is a regular file. -/
def regularRoot : FileTree := ⟨SortedMap.empty.insert [] (.file (some ""))⟩

/-- The `FileEntry` at a path of which all parents are known to be directories. -/
def entry? (t : FileTree) (path : List String) : Option FileEntry := t.entries.get? path

/-- How many bytes a path has below the root, with a slash before each name; those of the base
directory do not count. -/
def pathSize (path : List String) : Nat := path.foldl (fun n name => n + name.utf8ByteSize + 1) 0

/-- Whether a path may be handed to the file system at all: no name holds a NUL, and its `pathSize`
is within `maxPath`. -/
def checkPath (path : List String) : Except IoError Unit :=
  if path.any fun name => name.toList.contains '\x00' then .error .nulInName
  else if maxPath < pathSize path then .error .nameTooLong
  else .ok ()

/-- `walk` goes on from an entry at `dir` to what lies below it. -/
def walk (t : FileTree) (dir : List String) : List String → Except Fault FileEntry
  | [] =>
    match t.entry? dir with
    | some e => .ok e
    | none => .error .missing
  | name :: rest =>
    match t.entry? dir with
    | none => .error .missing
    | some (.file _) => .error (.io .notDirectory)
    | some .directory =>
      if maxName < name.utf8ByteSize then .error (.io .nameTooLong)
      else t.walk (dir ++ [name]) rest

/-- The entry at a path: `checkPath` first, then a `walk` from the root. -/
def find (t : FileTree) (path : List String) : Except Fault FileEntry :=
  match checkPath path with
  | .error e => .error (.io e)
  | .ok () => t.walk [] path

/-- Whether `find` comes to a regular file. -/
def isFile (t : FileTree) (path : List String) : Bool :=
  match t.find path with
  | .ok (.file _) => true
  | _ => false

/-- `makeBelow` creates the directories from `dir` downwards that are missing. What has been created
stays even if a later one cannot be. -/
def makeBelow (t : FileTree) (dir : List String) : List String → Except IoError Unit × FileTree
  | [] =>
    match t.entry? dir with
    | some .directory => (.ok (), t)
    | some (.file _) => (.error .exists, t)
    | none => (.ok (), ⟨t.entries.insert dir .directory⟩)
  | name :: rest =>
    match t.entry? dir with
    | some (.file _) => (.error .notDirectory, t)
    | some .directory =>
      if maxName < name.utf8ByteSize then (.error .nameTooLong, t)
      else t.makeBelow (dir ++ [name]) rest
    -- Below a missing directory nothing is there, so all the rest is created.
    | none =>
      let t : FileTree := ⟨t.entries.insert dir .directory⟩
      if maxName < name.utf8ByteSize then (.error .nameTooLong, t)
      else t.makeBelow (dir ++ [name]) rest

/-- `makeDirectories` creates a directory and those above it that are missing (`makeBelow`). -/
def makeDirectories (t : FileTree) (path : List String) : Except IoError Unit × FileTree :=
  match checkPath path with
  | .error e => (.error e, t)
  | .ok () => t.makeBelow [] path

/-- The names of the regular files directly in the directory `dir`, in order. -/
def filesIn (t : FileTree) (dir : List String) : List String :=
  t.entries.entries.filterMap fun (path, e) =>
    match e with
    | .file _ => if path.dropLast = dir ∧ path ≠ [] then path.getLast? else none
    | .directory => none

/-- Whether the directory `dir` holds anything. -/
def holdsAnything (t : FileTree) (dir : List String) : Bool :=
  t.entries.keys.any fun path => path.dropLast = dir && path ≠ []

/-- The directories directly below the `root`. -/
def topDirectories (t : FileTree) : List (List String) :=
  t.entries.entries.filterMap fun (path, e) =>
    if path.length = 1 && e = .directory then some path else none

/-- `deleteAll` deletes the root with all below it; none of it has to be there. -/
def deleteAll (t : FileTree) : Except IoError Unit × FileTree :=
  match t.entry? [] with
  | some (.file _) => (.error .notDirectory, t)
  | _ => (.ok (), {})

/-- `writeFile` opens a regular file for writing and sets its contents from what they were. -/
def writeFile (t : FileTree) (path : List String) (change : Option FileEntry → Option String) :
    Except IoError Unit × FileTree :=
  match t.find path with
  | .ok .directory => (.error .isDirectory, t)
  | .ok e => (.ok (), ⟨t.entries.insert path (.file (change (some e)))⟩)
  | .error .missing => (.ok (), ⟨t.entries.insert path (.file (change none))⟩)
  | .error (.io e) => (.error e, t)

/-- `deleteFile` deletes a regular file; it does not have to be there. -/
def deleteFile (t : FileTree) (path : List String) : Except IoError Unit × FileTree :=
  match t.find path with
  | .ok .directory => (.error .isDirectory, t)
  | .ok (.file _) => (.ok (), ⟨t.entries.erase path⟩)
  | .error .missing => (.ok (), t)
  | .error (.io e) => (.error e, t)

/-- The contents of a regular file, or none if it is not there (`find`). -/
def readFile (t : FileTree) (path : List String) : Except IoError (Option String) :=
  match t.find path with
  | .ok .directory => .error .isDirectory
  | .ok (.file (some s)) => .ok (some s)
  | .ok (.file none) => .error .notText
  | .error .missing => .ok none
  | .error (.io e) => .error e

/-- Everything below the root, in the order of its text: paths with slashes between the names, and a
slash after a `directory`. -/
def listing (t : FileTree) : List String :=
  let shown := t.entries.entries.filterMap fun (path, e) =>
    if path = [] then none
    else some ("/".intercalate path ++ if e = .directory then "/" else "")
  (SortedMap.ofList (shown.map fun s => (s, ()))).keys

end FileTree

end Failover
