import Failover.Persistence.Mementos
import Failover.Persistence.Records
import Failover.Proofs.Store.Action
import Failover.Store.Memory

/-!
# Stores that answer in step

Two stores are in step under a relation between their states if every call is. All that the
persisters do is made of calls, so it is in step too. A store mirrors a memory if it is in step with
it: it answers every call as the memory does that it holds, and so never fails of its own accord.

A persister only makes calls about its own sub-paths and the objects below them. So it is enough for
it if these calls are in step (`InStepBelow`).

## Key results

- `ObjectStore.InStepBelow.foldKinds`: going through all stored objects
- `ObjectStore.InStepBelow.checkpoint`, `ObjectStore.InStepBelow.delta`: writing mementos
- `ObjectStore.InStepBelow.loadPlane`, `ObjectStore.InStepBelow.planeCheckpoint`,
  `ObjectStore.InStepBelow.planeDelta`: reading and writing node records
- `Memory.mirrors`: a memory mirrors itself
-/

namespace Failover

variable {σ τ α β : Type}

/-- A call that persisters make about `subPath`, or about an object below it. -/
inductive Store.Call.IsBelow (subPath : String) : Store.Call → Prop where
  | createSubPath : IsBelow subPath (.createSubPath subPath)
  | list : IsBelow subPath (.list subPath)
  | openObject (name : String) : IsBelow subPath (.openObject (Path.object subPath name))
  | get (name : String) : IsBelow subPath (.get (Path.object subPath name))
  | put (name text : String) : IsBelow subPath (.put (Path.object subPath name) text)
  | delete (name : String) : IsBelow subPath (.delete (Path.object subPath name))

/-- The stores `S` and `T` answer every call alike and stay related by `R`. -/
def ObjectStore.InStep (S : ObjectStore σ) (T : ObjectStore τ) (R : σ → τ → Prop) : Prop :=
  ∀ c, Action.InStep R (S.call c) (T.call c)

/-- The stores `S` and `T` answer the calls about the sub-paths of `P` alike and stay related by
`R`. -/
def ObjectStore.InStepBelow (S : ObjectStore σ) (T : ObjectStore τ) (P : String → Prop)
    (R : σ → τ → Prop) : Prop :=
  ∀ subPath, P subPath → ∀ c : Store.Call, c.IsBelow subPath →
    Action.InStep R (S.call c) (T.call c)

/-- The store `S` answers every call as the memory does that it holds. -/
def ObjectStore.Mirrors (S : ObjectStore σ) (held : σ → Memory) : Prop :=
  S.InStep Memory.store fun s m => held s = m

/-- `Memory.store` holds its own state. -/
theorem Memory.mirrors : Memory.store.Mirrors id := by
  rintro c s _ rfl
  exact ⟨rfl, rfl⟩

/-- A store that `Mirrors` a memory still does where it lives in a part of a greater state. -/
theorem ObjectStore.Mirrors.focus {S : ObjectStore τ} {held : τ → Memory} (h : S.Mirrors held)
    {get : σ → τ} {set : σ → τ → σ} (hset : ∀ s t, get (set s t) = t) :
    (S.focus get set).Mirrors fun s => held (get s) := by
  rintro c s _ rfl
  obtain ⟨hresult, hheld⟩ := h c (get s) _ rfl
  have hstep : ((S.focus get set).call c).run s =
      (((S.call c).run (get s)).1, set s ((S.call c).run (get s)).2) := rfl
  rw [hstep]
  refine ⟨hresult, ?_⟩
  show held (get (set s _)) = _
  rw [hset]
  exact hheld

/-- A store is `InStep` with itself where its calls keep `P`. -/
theorem ObjectStore.inStep_of_keeps {S : ObjectStore σ} {P : σ → Prop}
    (h : ∀ c, Action.Keeps P (S.call c)) : S.InStep S fun s t => s = t ∧ P s := by
  rintro c s _ ⟨rfl, hs⟩
  exact ⟨rfl, rfl, h c s hs⟩

/-- A store is `InStepBelow` with itself where the calls about the sub-paths of `Q` keep `P`. -/
theorem ObjectStore.inStepBelow_of_keeps {S : ObjectStore σ} {Q : String → Prop} {P : σ → Prop}
    (h : ∀ t, Q t → ∀ c : Store.Call, c.IsBelow t → Action.Keeps P (S.call c)) :
    S.InStepBelow S Q fun s t => s = t ∧ P s := by
  rintro t ht c hc s _ ⟨rfl, hs⟩
  exact ⟨rfl, rfl, h t ht c hc s hs⟩

namespace ObjectStore.InStepBelow

variable {S : ObjectStore σ} {T : ObjectStore τ} {P : String → Prop} {R : σ → τ → Prop}

/-! ## Stored objects -/

section Objects

variable (h : S.InStepBelow T P R) {subPath : String} (hP : P subPath)
include h hP

/-- `Stored.list` is one call. -/
theorem list : Action.InStep R (Stored.list S subPath) (Stored.list T subPath) :=
  (h subPath hP _ .list).mapError _

/-- `Stored.create` is one call. -/
theorem create : Action.InStep R (Stored.create S subPath) (Stored.create T subPath) :=
  (h subPath hP _ .createSubPath).mapError _

/-- `Stored.read` opens the object before it gets the text, both calls below the sub-path. -/
theorem read (name : String) : Action.InStep R (Stored.read S (Path.object subPath name))
    (Stored.read T (Path.object subPath name)) :=
  .mapError (.bind (h subPath hP _ (.openObject name)) fun _ => h subPath hP _ (.get name)) _

/-- `Stored.write` opens the object before it puts the text. -/
theorem write (name text : String) :
    Action.InStep R (Stored.write S (Path.object subPath name) text)
      (Stored.write T (Path.object subPath name) text) :=
  .mapError (.bind (h subPath hP _ (.openObject name)) fun _ => h subPath hP _ (.put name text)) _

/-- `Stored.remove` opens the object before it deletes it. -/
theorem remove (name : String) : Action.InStep R (Stored.remove S (Path.object subPath name))
    (Stored.remove T (Path.object subPath name)) :=
  .mapError (.bind (h subPath hP _ (.openObject name)) fun _ => h subPath hP _ (.delete name)) _

/-- `foldNames` reads the objects one by one; what is taken of a text does not ask the store. -/
theorem foldNames (take : α → String → String → Except PersistenceError α) (acc : α)
    (names : List String) :
    Action.InStep R (Stored.foldNames S subPath take acc names)
      (Stored.foldNames T subPath take acc names) := by
  -- What has been taken so far is the same on both sides, so the rest goes on from there.
  induction names generalizing acc with
  | nil => exact .pure acc
  | cons name names ih =>
    refine .bind (h.read hP name) fun text? => ?_
    cases text? with
    | none => exact ih acc
    | some text => exact .bind (.lift _) fun acc => ih acc

/-- `foldObjects` lists a sub-path and reads its objects. -/
theorem foldObjects (take : α → String → String → Except PersistenceError α) (acc : α) :
    Action.InStep R (Stored.foldObjects S subPath take acc)
      (Stored.foldObjects T subPath take acc) :=
  .bind (h.list hP) fun names => h.foldNames hP take acc names

end Objects

/-- `Stored.each` is in step if each of its parts is. -/
theorem each {act : β → Action σ PersistenceError Unit} {act' : β → Action τ PersistenceError Unit}
    (h : ∀ b, Action.InStep R (act b) (act' b)) (bs : List β) :
    Action.InStep R (Stored.each act bs) (Stored.each act' bs) := by
  induction bs with
  | nil => exact .pure ()
  | cons b bs ih => exact .bind (h b) fun _ => ih

/-! ## Mementos -/

section Mementos

variable (h : S.InStepBelow T P R) (hP : ∀ k : Kind, P k.subPath) (p : MementoPersister)
include h hP

omit p in
/-- `foldKinds` goes through the sub-paths of the kinds. -/
theorem foldKinds (take : Kind → α → String → String → Except PersistenceError α) (ks : List Kind)
    (acc : α) :
    Action.InStep R (Stored.foldKinds S take ks acc) (Stored.foldKinds T take ks acc) := by
  induction ks generalizing acc with
  | nil => exact .pure acc
  | cons k ks ih => exact .bind (h.foldObjects (hP k) (take k) acc) fun acc => ih acc

/-- `MementoPersister.write` writes below the sub-path of the kind. -/
theorem writeMemento (m : Memento) : Action.InStep R (p.write S m) (p.write T m) :=
  .bind (.lift _) fun _ => h.write (hP m.kind) _ _

/-- `MementoPersister.checkpoint` lists, writes and removes below the sub-paths of the kinds. -/
theorem checkpoint (t : Topology) : Action.InStep R (p.checkpoint S t) (p.checkpoint T t) := by
  refine .bind (.lift _) fun _ => .bind (each (fun k => ?_) _) fun _ => .pure _
  -- Each kind: open it, list it, write what is there, remove the rest.
  exact .bind (h.create (hP k)) fun _ => .bind (h.list (hP k)) fun _ =>
    .bind (each (h.writeMemento hP p) _) fun _ => each (h.remove (hP k)) _

/-- `MementoPersister.delta` writes and removes below the sub-paths of the kinds, and does nothing
for an empty delta. -/
theorem delta (d : Delta) : Action.InStep R (p.delta S d) (p.delta T d) := by
  refine .bind (.lift _) fun _ => ?_
  by_cases hd : d.isEmpty = true
  · simp only [hd, if_true]
    exact .pure p
  · simp only [hd]
    exact .bind (each (fun k => .bind (each (h.writeMemento hP p) _) fun _ =>
      each (h.remove (hP k)) _) _) fun _ => .pure _

/-- `MementoPersister.load` reads below the sub-paths of the kinds. -/
theorem load (l : Lookup) : Action.InStep R (p.load S l) (p.load T l) :=
  .bind (.lift _) fun _ => h.foldKinds hP _ _ _

/-- `MementoPersister.loadLenient` reads what `load` reads. -/
theorem loadLenient (l : Lookup) : Action.InStep R (p.loadLenient S l) (p.loadLenient T l) :=
  .bind (.lift _) fun _ => h.foldKinds hP _ _ _

/-- `MementoPersister.loadManifest` reads what `load` reads. -/
theorem loadManifest : Action.InStep R (p.loadManifest S) (p.loadManifest T) :=
  .bind (.lift _) fun _ => h.foldKinds hP _ _ _

end Mementos

/-! ## Node records -/

section Records

variable (h : S.InStepBelow T P R) (hP : P RecordPersister.subPath) (p : RecordPersister)
include h hP

/-- `RecordPersister.load` reads below `RecordPersister.subPath`. -/
theorem loadPlane : Action.InStep R (p.load S) (p.load T) :=
  .bind (.lift _) fun _ => .bind (h.foldObjects hP _ _) fun _ => .pure _

/-- `RecordPersister.checkpoint` lists, writes and removes below `RecordPersister.subPath`. -/
theorem planeCheckpoint (plane : Plane) :
    Action.InStep R (p.checkpoint S plane) (p.checkpoint T plane) :=
  .bind (.lift _) fun _ => .bind (h.create hP) fun _ => .bind (h.list hP) fun _ =>
    .bind (each (fun (r : NodeRecord) => h.write hP r.nodeId _) _) fun _ => each (h.remove hP) _

/-- `RecordPersister.delta` writes and removes below `RecordPersister.subPath`. -/
theorem planeDelta (d : PlaneDelta) : Action.InStep R (p.delta S d) (p.delta T d) :=
  .bind (.lift _) fun _ => .bind (each (fun (r : NodeRecord) => h.write hP r.nodeId _) _) fun _ =>
    each (h.remove hP) _

end Records

end ObjectStore.InStepBelow

/-! ## All calls -/

namespace ObjectStore.InStep

variable {S : ObjectStore σ} {T : ObjectStore τ} {R : σ → τ → Prop}

/-- Stores that are `InStep` are `InStepBelow` for all sub-paths. -/
theorem below (h : S.InStep T R) : S.InStepBelow T (fun _ => True) R := fun _ _ c _ => h c

theorem list (h : S.InStep T R) (subPath : String) :
    Action.InStep R (Stored.list S subPath) (Stored.list T subPath) :=
  h.below.list trivial

theorem checkpoint (h : S.InStep T R) (p : MementoPersister) (t : Topology) :
    Action.InStep R (p.checkpoint S t) (p.checkpoint T t) :=
  h.below.checkpoint (fun _ => trivial) p t

theorem delta (h : S.InStep T R) (p : MementoPersister) (d : Delta) :
    Action.InStep R (p.delta S d) (p.delta T d) :=
  h.below.delta (fun _ => trivial) p d

theorem load (h : S.InStep T R) (p : MementoPersister) (l : Lookup) :
    Action.InStep R (p.load S l) (p.load T l) :=
  h.below.load (fun _ => trivial) p l

theorem loadLenient (h : S.InStep T R) (p : MementoPersister) (l : Lookup) :
    Action.InStep R (p.loadLenient S l) (p.loadLenient T l) :=
  h.below.loadLenient (fun _ => trivial) p l

theorem loadManifest (h : S.InStep T R) (p : MementoPersister) :
    Action.InStep R (p.loadManifest S) (p.loadManifest T) :=
  h.below.loadManifest (fun _ => trivial) p

theorem loadPlane (h : S.InStep T R) (p : RecordPersister) :
    Action.InStep R (p.load S) (p.load T) :=
  h.below.loadPlane trivial p

theorem planeDelta (h : S.InStep T R) (p : RecordPersister) (d : PlaneDelta) :
    Action.InStep R (p.delta S d) (p.delta T d) :=
  h.below.planeDelta trivial p d

end ObjectStore.InStep

/-! ## Reading -/

/-- A call that only looks at what is stored: `list`, `openObject` or `get`. -/
inductive Store.Call.Reads : Store.Call → Prop where
  | list (subPath : String) : Reads (.list subPath)
  | openObject (path : String) : Reads (.openObject path)
  | get (path : String) : Reads (.get path)

section Reading

variable {S : ObjectStore σ} {P : σ → Prop}
  (h : ∀ c : Store.Call, c.Reads → Action.Keeps P (S.call c))
include h

/-- `foldObjects` only makes calls that `Reads` allows, so it keeps what those keep. -/
theorem Stored.foldObjects_keeps (subPath : String)
    (take : α → String → String → Except PersistenceError α) (acc : α) :
    Action.Keeps P (Stored.foldObjects S subPath take acc) := by
  refine Action.Keeps.bind (h _ (.list subPath)).mapError fun names => ?_
  -- Once the names are listed, by induction on them: every object is read in turn.
  induction names generalizing acc with
  | nil => exact Action.keeps_pure acc
  | cons name names ih =>
    have hread : Action.Keeps P (Stored.read S (Path.object subPath name)) :=
      ((h _ (.openObject _)).bind fun _ => h _ (.get _)).mapError
    refine hread.bind fun text? => ?_
    cases text? with
    | none => exact ih acc
    | some text => exact Action.Keeps.bind (Action.keeps_lift _) fun acc => ih acc

/-- `RecordPersister.load` only makes calls that `Reads` allows. -/
theorem RecordPersister.load_keeps (p : RecordPersister) : Action.Keeps P (p.load S) :=
  Action.Keeps.bind (Action.keeps_lift _) fun _ =>
    (Stored.foldObjects_keeps h _ _ _).bind fun _ => Action.keeps_pure _

end Reading

end Failover
