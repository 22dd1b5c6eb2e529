import Failover.SortedMap
import Failover.Store.Basic

/-! # The store in memory

Objects are kept in a map from paths to texts. Handles on one memory share it. -/

namespace Failover

/-- A `Memory` of objects, by path, and whether it has been prepared for use. -/
structure Memory where
  files : SortedMap String String := .empty
  isPrepared : Bool := false
deriving DecidableEq, Inhabited

namespace Memory

open Store

/-- How messages call the store in a `Memory`. -/
def summary : String := "in-memory (test) persistence store"

/-- The `Memory` that has been prepared and holds nothing. -/
def prepared : Memory := { isPrepared := true }

/-- The names directly below a sub-path, in order (`Path.nameUnder?`). -/
def namesUnder (m : Memory) (subPath : String) : List String :=
  m.files.keys.filterMap (Path.nameUnder? subPath)

/-- `prepare` prepares the memory for use, as the `PersistMode` says. -/
def prepare (m : Memory) : PersistMode → Except StoreError Unit × Memory
  | .disabled => (.error (.persistenceDisabled summary), m)
  | .auto => (.ok (), { m with isPrepared := true })
  | .rebind =>
    if m.files.isEmpty then (.error (.nothingToRebind summary), m)
    else (.ok (), { m with isPrepared := true })
  | .clean => (.ok (), prepared)

/-- `check` makes sure that a path is valid and the memory prepared. -/
def check (m : Memory) (path : String) : Except StoreError Unit :=
  if !Path.isValid path then .error (.invalidPath path)
  else if !m.isPrepared then .error (.notPrepared summary)
  else .ok ()

/-- The answer of a `Memory` to a `Call`. -/
def step (c : Call) (m : Memory) : Except StoreError c.Answer × Memory :=
  match c with
  | .prepare mode => m.prepare mode
  | .createSubPath p => (if Path.isValid p then .ok () else .error (.invalidPath p), m)
  | .list p => ((m.check p).map fun _ => m.namesUnder p, m)
  | .deleteAll => (.ok (), { m with files := .empty })
  | .close => (.ok (), m)
  | .openObject p => (m.check p, m)
  | .get p => (.ok (m.files.get? p), m)
  | .put p t => (.ok (), { m with files := m.files.insert p t })
  | .append p t => (.ok (), { m with files := m.files.insert p ((m.files.get? p).getD "" ++ t) })
  | .delete p => (.ok (), { m with files := m.files.erase p })
  | .contains p => (.ok (m.files.contains p), m)
  | .lastModified p => (.ok (m.files.contains p), m)

/-- The `ObjectStore` over a memory. -/
def store : ObjectStore Memory := ⟨summary, step⟩

end Memory

end Failover
