import Failover.Store.FileTree

/-! # The store in files

Sub-paths are directories and objects are regular files, named by the segments of their paths. An
object is replaced by writing a temporary file beside it, which is then renamed; so readers see the
old text or the new one. Several handles may be open on one directory, each prepared on its own. -/

namespace Failover

/-- A `Files` is a directory tree with the handles that are open on it, by name, and whether each is
prepared. -/
structure Files where
  tree : FileTree := .root
  handles : SortedMap String Bool := .empty
deriving DecidableEq, Inhabited

namespace Files

open Store

/-- How messages call the store; the directory goes by one name, `<base>`. -/
def summary : String := "file-based store at <base>"

/-- Whether the handle has been prepared. -/
def isPrepared (f : Files) (handle : String) : Bool := (f.handles.get? handle).getD false

/-- `setPrepared` notes whether a handle is prepared. -/
def setPrepared (f : Files) (handle : String) (b : Bool) : Files :=
  { f with handles := f.handles.insert handle b }

/-- The outcome of a step on the tree, with the same `handles` over the new one. -/
def withTree {α : Type} (f : Files) (r : Except IoError α × FileTree) :
    Except StoreError α × Files :=
  (r.1.mapError .io, { f with tree := r.2 })

/-- How many bytes the name of a temporary file has beyond the name of the object: a dot before it,
and after it a dot, 26 characters and an ending. -/
def temporaryExtra : Nat := 32

/-- `checkTemporary` creates the temporary file for an object, whose directory is there. Its name is
longer by `temporaryExtra`. -/
def checkTemporary (path : List String) : Except IoError Unit :=
  match FileTree.checkPath path with
  | .error e => .error e
  | .ok () =>
    let name := path.getLast?.getD ""
    if FileTree.maxName < name.utf8ByteSize + temporaryExtra then .error .nameTooLong
    else if FileTree.maxPath < FileTree.pathSize path + temporaryExtra then
      .error .nameTooLong
    else .ok ()

/-- `put` replaces the contents of an object: it creates the directories above it, writes the
temporary file and renames it. -/
def put (t : FileTree) (path : List String) (contents : String) : Except IoError Unit × FileTree :=
  match t.makeDirectories path.dropLast with
  | (.error e, t) => (.error e, t)
  | (.ok (), t) =>
    -- The directories stay even if the object cannot be written.
    match checkTemporary path with
    | .error e => (.error e, t)
    | .ok () => t.writeFile path fun _ => some contents

/-- `append` adds to the contents of an object, which is created if need be with the directories
above it. -/
def append (t : FileTree) (path : List String) (contents : String) :
    Except IoError Unit × FileTree :=
  match t.makeDirectories path.dropLast with
  | (.error e, t) => (.error e, t)
  | (.ok (), t) =>
    t.writeFile path fun e =>
      match e with
      | some (.file old) => old.map (· ++ contents)
      | _ => some contents

/-- Whether there is anything to rebind: a directory below the root that `holdsAnything`. -/
def hasContents (t : FileTree) : Except IoError Bool :=
  match t.entry? [] with
  | none => .ok false
  | some (.file _) => .error .notDirectory
  | some .directory => .ok (t.topDirectories.any t.holdsAnything)

/-- `prepareTree` prepares the directory for use, as the `PersistMode` says. -/
def prepareTree (t : FileTree) : PersistMode → Except StoreError Unit × FileTree
  | .disabled => (.error (.persistenceDisabled summary), t)
  | .auto => let (r, t) := t.makeDirectories []; (r.mapError .io, t)
  | .rebind =>
    match hasContents t with
    | .error e => (.error (.io e), t)
    | .ok false => (.error (.nothingToRebind summary), t)
    | .ok true => let (r, t) := t.makeDirectories []; (r.mapError .io, t)
  | .clean =>
    match t.deleteAll with
    | (.error e, t) => (.error (.io e), t)
    | (.ok (), t) => let (r, t) := t.makeDirectories []; (r.mapError .io, t)

/-- `check` makes sure that a path is valid and the handle prepared. -/
def check (f : Files) (handle path : String) : Except StoreError Unit :=
  if !Path.isValid path then .error (.invalidPath path)
  else if !f.isPrepared handle then .error (.notPrepared summary)
  else .ok ()

/-- The names of the objects directly below a sub-path, in order (`filesIn`); temporary files are
passed over, and a directory that is not there holds nothing. -/
def names (t : FileTree) (dir : List String) : Except IoError (List String) :=
  match t.find dir with
  | .error _ => .ok []
  | .ok (.file _) => .error .notDirectory
  | .ok .directory => .ok ((t.filesIn dir).filter fun name => name.toList.head? ≠ some '.')

/-- The answer to a `Call` through a handle. -/
def step (handle : String) (c : Call) (f : Files) : Except StoreError c.Answer × Files :=
  match c with
  | .prepare mode =>
    match prepareTree f.tree mode with
    | (.error e, t) => (.error e, { f with tree := t })
    | (.ok (), t) => (.ok (), { f with tree := t }.setPrepared handle true)
  | .createSubPath p =>
    if Path.isValid p then f.withTree (f.tree.makeDirectories (Path.segments p))
    else (.error (.invalidPath p), f)
  | .list p =>
    match f.check handle p with
    | .error e => (.error e, f)
    | .ok () => ((names f.tree (Path.segments p)).mapError .io, f)
  | .deleteAll => f.withTree f.tree.deleteAll
  | .close => (.ok (), f.setPrepared handle false)
  | .openObject p => (f.check handle p, f)
  | .get p => ((f.tree.readFile (Path.segments p)).mapError .io, f)
  | .put p s => f.withTree (put f.tree (Path.segments p) s)
  | .append p s => f.withTree (append f.tree (Path.segments p) s)
  | .delete p => f.withTree (f.tree.deleteFile (Path.segments p))
  | .contains p => (.ok (f.tree.isFile (Path.segments p)), f)
  | .lastModified p =>
    match f.tree.find (Path.segments p) with
    | .ok _ => (.ok true, f)
    | .error .missing => (.ok false, f)
    | .error (.io e) => (.error (.io e), f)

/-- The directory after somebody else has put a regular file there; contents that are no text are
`none`. -/
def placeFile (f : Files) (path : String) (contents : Option String) : Files :=
  let path := Path.segments path
  let t := (f.tree.makeDirectories path.dropLast).2
  { f with tree := (t.writeFile path fun _ => contents).2 }

/-- The directory after somebody else has created a directory there (`makeDirectories`). -/
def placeDirectory (f : Files) (path : String) : Files :=
  { f with tree := (f.tree.makeDirectories (Path.segments path)).2 }

/-- The directory after somebody else has put a regular file in its place (`regularRoot`). -/
def placeRoot (f : Files) : Files := { f with tree := .regularRoot }

/-- The `ObjectStore` over a directory, through one handle. -/
def store (handle : String) : ObjectStore Files := ⟨summary, step handle⟩

end Files

end Failover
