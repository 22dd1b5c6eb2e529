import Failover.Proofs.Json.StoredForm
import Failover.Proofs.Store.Memory
import Failover.Proofs.Topology

/-!
# Mementos in a memory

What checkpoints and deltas that succeed have done to the texts in a memory, and what each way of
loading makes of the texts that are there. A text counts as the memento of an object if it parses as
one of this kind and id.

## Key results

- `MementoPersister.storedText?_of_checkpoint`: after a checkpoint the texts are those of the
  topology
- `MementoPersister.get?_files_of_delta`: what a delta writes and removes
- `MementoPersister.run_load`, `MementoPersister.run_loadLenient`,
  `MementoPersister.run_loadManifest`: what is loaded
- `MementoPersister.get?_found`: a load finds the mementos that the texts are
- `MementoPersister.isFiled_of_loadLenient`: from any store, mementos are found as what they are
-/

namespace Failover

/-- What a strict load comes to where a lenient one found `y`: the first failure is its error. -/
def Loaded.strict (y : Loaded) : Except PersistenceError Topology :=
  match y.failures with
  | [] => .ok y.topology
  | f :: _ => .error f.error

namespace MementoPersister

open Memory (store put drop)

/-! ## Paths -/

/-- The `path` of an object tells its kind and id. -/
theorem path_inj {r q : ObjectRef} : path r = path q ↔ r = q := by
  rw [path, path, Path.object_eq_object r.kind.slash_not_mem_subPath q.kind.slash_not_mem_subPath]
  constructor
  · rintro ⟨hkind, hid⟩
    cases r
    cases q
    obtain rfl := Kind.subPath_inj hkind
    obtain rfl := hid
    rfl
  · rintro rfl
    exact ⟨rfl, rfl⟩

/-- `storedText?` is the text at the `path` of the object, but none for an id with a slash. -/
theorem storedText?_eq (m : Memory) (r : ObjectRef) :
    m.storedText? r = if '/' ∈ r.id.toList then none else m.files.get? (path r) := rfl

/-- `storedText?` after a `put` at the path of an object. -/
theorem storedText?_put (m : Memory) {q : ObjectRef} (hq : '/' ∉ q.id.toList) (text : String)
    (r : ObjectRef) :
    (m.put (path q) text).storedText? r = if r = q then some text else m.storedText? r := by
  simp only [storedText?_eq, Memory.get?_files_put, path_inj]
  by_cases hr : r = q
  · rw [if_pos hr, if_pos hr, hr, if_neg hq]
  · rw [if_neg hr, if_neg hr]

/-- `storedText?` after a `drop` at the path of an object. -/
theorem storedText?_drop (m : Memory) (q r : ObjectRef) :
    (m.drop (path q)).storedText? r = if r = q then none else m.storedText? r := by
  simp only [storedText?_eq, Memory.get?_files_drop, path_inj]
  by_cases hr : r = q <;> simp [hr]

/-- The `path` of an object is valid if its id is. -/
theorem isValid_path {r : ObjectRef} (h : Path.isValid r.id = true) :
    Path.isValid (path r) = true := by
  rw [path, Path.isValid_object, r.kind.isValid_subPath, h]
  rfl

/-- `checkRunning` succeeds for a persister that has not been stopped. -/
theorem run_checkRunning_eq_ok {σ : Type} {p : MementoPersister} {s t : σ} :
    (p.checkRunning : Action σ PersistenceError Unit).run s = (.ok (), t) ↔
      p.isStopped = false ∧ t = s := by
  rw [checkRunning, Action.run_lift]
  cases p.isStopped <;> simp [eq_comm]

/-! ## Writing and removing -/

section Write

variable {p q : MementoPersister} {t : Topology} {d : Delta} {m n : Memory}

/-- The memory `m` with the texts of `ms` put in, the later ones over the earlier. -/
private def putAll (m : Memory) (ms : List Memento) : Memory :=
  ms.foldl (fun m x => m.put (path x.ref) (Memento.codec.toText x)) m

/-- The memory `m` without the objects of some ids. -/
private def dropAll (m : Memory) (k : Kind) (ids : List String) : Memory :=
  ids.foldl (fun m id => m.drop (path ⟨k, id⟩)) m

/-- After `putAll` an object has the text of its last memento, or the one that it had. -/
private theorem get?_files_putAll (m : Memory) (ms : List Memento) (r : ObjectRef) :
    (putAll m ms).files.get? (path r) =
      (((Topology.ofMementos ms).get? r).map Memento.codec.toText).or (m.files.get? (path r)) := by
  induction ms generalizing m with
  | nil => simp [putAll, Topology.ofMementos, Topology.get?]
  | cons x ms ih =>
    rw [putAll, List.foldl_cons, ← putAll, ih, Memory.get?_files_put, Topology.get?_ofMementos_cons]
    simp only [path_inj]
    cases (Topology.ofMementos ms).get? r with
    | some y => rfl
    | none => by_cases hr : r = x.ref <;> simp [hr]

/-- After `dropAll` the listed objects have no text. -/
private theorem get?_files_dropAll (m : Memory) (k : Kind) (ids : List String) (r : ObjectRef) :
    (dropAll m k ids).files.get? (path r) =
      if r.kind = k ∧ r.id ∈ ids then none else m.files.get? (path r) := by
  induction ids generalizing m with
  | nil => simp [dropAll]
  | cons id ids ih =>
    rw [dropAll, List.foldl_cons, ← dropAll, ih, Memory.get?_files_drop]
    -- Different objects have different paths, so only what is listed is dropped.
    have hr : path r = path ⟨k, id⟩ ↔ r.kind = k ∧ r.id = id := by
      rw [path_inj]
      cases r
      simp
    simp only [hr, List.mem_cons]
    by_cases hk : r.kind = k <;> by_cases hid : r.id = id <;> simp [hk, hid]

private theorem isPrepared_putAll (m : Memory) (ms : List Memento) :
    (putAll m ms).isPrepared = m.isPrepared := by
  induction ms generalizing m with
  | nil => rfl
  | cons x ms ih => exact ih (m.put (path x.ref) (Memento.codec.toText x))

private theorem isPrepared_dropAll (m : Memory) (k : Kind) (ids : List String) :
    (dropAll m k ids).isPrepared = m.isPrepared := by
  induction ids generalizing m with
  | nil => rfl
  | cons id ids ih => exact ih (m.drop (path ⟨k, id⟩))

/-- What `textOf` returns is the text of the memento, verified or not. -/
theorem textOf_eq_ok {x : Memento} {text : String} (h : p.textOf x = .ok text) :
    text = Memento.codec.toText x := by
  rw [textOf] at h
  split at h
  · split at h
    · cases h
      rfl
    · cases h
  · cases h
    rfl

/-- `textOf` does not refuse a memento that can be stored. -/
theorem textOf_of_isStorable (p : MementoPersister) {x : Memento} (h : x.IsStorable) :
    p.textOf x = .ok (Memento.codec.toText x) := by
  rw [textOf, Memento.load_toText h]
  split <;> rfl

/-- `write` succeeds if the memento passes `textOf` and its path is valid, and puts its text. -/
private theorem run_write_eq_ok (x : Memento) (m n : Memory) :
    (p.write store x).run m = (.ok (), n) ↔
    ((p.textOf x = .ok (Memento.codec.toText x) ∧ Path.isValid (path x.ref) = true) ∧
      m.isPrepared = true) ∧ n = m.put (path x.ref) (Memento.codec.toText x) := by
  rw [write, Action.run_bind_eq_ok]
  constructor
  · rintro ⟨text, a, hlift, hwrite⟩
    obtain ⟨htext, rfl⟩ := Prod.mk.inj ((Action.run_lift ..).symm.trans hlift)
    -- What is written is the text of the memento, verified or not.
    obtain rfl := textOf_eq_ok htext
    obtain ⟨⟨hvalid, hprepared⟩, rfl⟩ := Memory.run_write_eq_ok.1 hwrite
    exact ⟨⟨⟨htext, hvalid⟩, hprepared⟩, rfl⟩
  · rintro ⟨⟨⟨htext, hvalid⟩, hprepared⟩, rfl⟩
    exact ⟨_, m, Prod.ext htext rfl, Memory.run_write_eq_ok.2 ⟨⟨hvalid, hprepared⟩, rfl⟩⟩

/-- `write` for each of some mementos comes to `putAll`. -/
private theorem run_writes_eq_ok {ms : List Memento} :
    (Stored.each (p.write store) ms).run m = (.ok (), n) ↔
      (∀ x ∈ ms, (p.textOf x = .ok (Memento.codec.toText x) ∧ Path.isValid (path x.ref) = true) ∧
        m.isPrepared = true) ∧ n = putAll m ms :=
  Memory.run_each_eq_ok run_write_eq_ok fun _ _ => rfl

/-- `remove` for each of some ids comes to `dropAll`. -/
private theorem run_removes_eq_ok {k : Kind} {ids : List String} :
    (Stored.each (remove store k) ids).run m = (.ok (), n) ↔
      (∀ id ∈ ids, Path.isValid (path ⟨k, id⟩) = true ∧ m.isPrepared = true) ∧
        n = dropAll m k ids :=
  Memory.run_each_eq_ok (fun _ _ _ => Memory.run_remove_eq_ok) fun _ _ => rfl

/-! ## Checkpoints and deltas -/

/-- `checkpointKind` succeeds if its mementos can be written and what is stale can be removed. -/
theorem exists_run_checkpointKind {k : Kind} :
    (∃ n, (p.checkpointKind store t k).run m = (.ok (), n)) ↔ m.isPrepared = true ∧
      (∀ x ∈ (t.objects.get k).values, p.textOf x = .ok (Memento.codec.toText x) ∧
        Path.isValid (path x.ref) = true) ∧
      ∀ id ∈ m.namesUnder k.subPath, t.get? ⟨k, id⟩ = none →
        Path.isValid (path ⟨k, id⟩) = true := by
  have hstale {id : String} : (!(t.objects.get k).contains id) = true ↔ t.get? ⟨k, id⟩ = none := by
    rw [Bool.not_eq_true', SortedMap.contains, Option.isSome_eq_false_iff,
      Option.isNone_iff_eq_none]
    rfl
  rw [checkpointKind]
  constructor
  · rintro ⟨n, h⟩
    obtain ⟨a, hcreate, hrest⟩ := Action.run_then_eq_ok.1 h
    obtain ⟨-, rfl⟩ := Memory.run_create_eq_ok.1 hcreate
    obtain ⟨listed, b, hlist, hrest⟩ := Action.run_bind_eq_ok.1 hrest
    obtain ⟨⟨-, hprepared⟩, rfl, rfl⟩ := Memory.run_list_eq_ok.1 hlist
    obtain ⟨c, hwrites, hremoves⟩ := Action.run_then_eq_ok.1 hrest
    have hwritten := (run_writes_eq_ok.1 hwrites).1
    have hremoved := (run_removes_eq_ok.1 hremoves).1
    exact ⟨hprepared, fun x hx => (hwritten x hx).1, fun id hid hnone =>
      (hremoved id (List.mem_filter.2 ⟨hid, hstale.2 hnone⟩)).1⟩
  · -- Each call succeeds in the memory that the one before has left.
    rintro ⟨hprepared, hwritable, hremovable⟩
    have hcreate := Memory.run_create_eq_ok.2 ⟨k.isValid_subPath, Eq.refl m⟩
    have hlist := Memory.run_list_eq_ok.2 ⟨⟨k.isValid_subPath, hprepared⟩, rfl, Eq.refl m⟩
    have hwrites : (Stored.each (p.write store) (t.objects.get k).values).run m =
        (.ok (), putAll m (t.objects.get k).values) :=
      run_writes_eq_ok.2 ⟨fun x hx => ⟨hwritable x hx, hprepared⟩, rfl⟩
    refine ⟨_, Action.run_then_eq_ok.2 ⟨m, hcreate, Action.run_bind_eq_ok.2 ⟨_, m, hlist,
      Action.run_then_eq_ok.2 ⟨_, hwrites, run_removes_eq_ok.2 ⟨fun id hid => ?_, rfl⟩⟩⟩⟩⟩
    obtain ⟨hlisted, hnone⟩ := List.mem_filter.1 hid
    exact ⟨hremovable id hlisted (hstale.1 hnone), by rwa [isPrepared_putAll]⟩

/-- `checkpointKind` leaves the texts of its mementos, and those of the other kinds. -/
theorem get?_files_of_checkpointKind (ht : t.IsFiled) {k : Kind}
    (h : (p.checkpointKind store t k).run m = (.ok (), n)) :
    n.isPrepared = true ∧ ∀ r, '/' ∉ r.id.toList → n.files.get? (path r) =
      if r.kind = k then (t.get? r).map Memento.codec.toText else m.files.get? (path r) := by
  rw [checkpointKind, Action.run_then_eq_ok] at h
  obtain ⟨a, hcreate, h⟩ := h
  obtain ⟨-, rfl⟩ := Memory.run_create_eq_ok.1 hcreate
  obtain ⟨listed, b, hlist, h⟩ := Action.run_bind_eq_ok.1 h
  obtain ⟨⟨-, hprepared⟩, rfl, rfl⟩ := Memory.run_list_eq_ok.1 hlist
  obtain ⟨c, hwrites, hremoves⟩ := Action.run_then_eq_ok.1 h
  obtain ⟨-, rfl⟩ := run_writes_eq_ok.1 hwrites
  obtain ⟨-, rfl⟩ := run_removes_eq_ok.1 hremoves
  refine ⟨by rwa [isPrepared_dropAll, isPrepared_putAll], fun r hr => ?_⟩
  rw [get?_files_dropAll, get?_files_putAll, Topology.get?_ofMementos_values ht]
  by_cases hk : r.kind = k
  · subst hk
    have hwanted : (t.objects.get r.kind).contains r.id = (t.get? r).isSome := rfl
    simp only [List.mem_filter, Memory.mem_namesUnder, hwanted, true_and, if_true]
    cases ht : t.get? r with
    | some x => simp
    | none =>
      -- What was listed and is not wanted has gone; what was not listed was not there.
      have htext := Memory.text?_of_not_mem b hr r.kind.subPath
      cases hget : b.files.get? (path r) with
      | none => simp
      | some text =>
        rw [path] at hget
        simp [htext, hget]
  · simp [hk]

/-- A `checkpoint` that succeeds leaves the texts of the topology. -/
theorem storedText?_of_checkpoint (ht : t.IsFiled) (h : (p.checkpoint store t).run m = (.ok q, n)) :
    p.isStopped = false ∧ q = { p with working := t } ∧ n.isPrepared = true ∧
      ∀ r, '/' ∉ r.id.toList → n.storedText? r = (t.get? r).map Memento.codec.toText := by
  rw [checkpoint, Action.run_then_eq_ok] at h
  obtain ⟨m', hrunning, h⟩ := h
  obtain ⟨c, hkinds, heq⟩ := Action.run_then_eq_ok.1 h
  obtain ⟨a, b, ha, hb, hc⟩ := Memory.run_kinds_eq_ok.1 hkinds
  cases heq
  obtain ⟨hp, rfl⟩ := run_checkRunning_eq_ok.1 hrunning
  obtain ⟨-, ha⟩ := get?_files_of_checkpointKind ht ha
  obtain ⟨-, hb⟩ := get?_files_of_checkpointKind ht hb
  obtain ⟨hprepared, hc⟩ := get?_files_of_checkpointKind ht hc
  -- The text of an object is decided by the checkpoint of its kind; the other two leave it.
  refine ⟨hp, rfl, hprepared, fun r hr => ?_⟩
  rw [Memory.storedText?, Memory.text?_of_not_mem n hr, ← path, hc r hr, hb r hr, ha r hr]
  cases r.kind <;> rfl

/-- `deltaKind` succeeds if its mementos can be written and its ids can be removed. -/
theorem exists_run_deltaKind {k : Kind} :
    (∃ n, (p.deltaKind store d k).run m = (.ok (), n)) ↔
      (∀ x ∈ d.changed.get k, (p.textOf x = .ok (Memento.codec.toText x) ∧
        Path.isValid (path x.ref) = true) ∧ m.isPrepared = true) ∧
      ∀ id ∈ d.removed.get k, Path.isValid (path ⟨k, id⟩) = true ∧ m.isPrepared = true := by
  rw [deltaKind]
  constructor
  · rintro ⟨n, h⟩
    obtain ⟨a, hwrites, hremoves⟩ := Action.run_then_eq_ok.1 h
    obtain ⟨hwritten, rfl⟩ := run_writes_eq_ok.1 hwrites
    obtain ⟨hremoved, -⟩ := run_removes_eq_ok.1 hremoves
    -- The writes do not stand in the way of the removals.
    rw [isPrepared_putAll] at hremoved
    exact ⟨hwritten, hremoved⟩
  · rintro ⟨hwritable, hremovable⟩
    refine ⟨_, Action.run_then_eq_ok.2 ⟨_, run_writes_eq_ok.2 ⟨hwritable, rfl⟩,
      run_removes_eq_ok.2 ⟨?_, rfl⟩⟩⟩
    rwa [isPrepared_putAll]

/-- What `deltaKind` writes and removes. -/
theorem get?_files_of_deltaKind {k : Kind}
    (h : (p.deltaKind store d k).run m = (.ok (), n)) :
    n.isPrepared = m.isPrepared ∧ ∀ r, n.files.get? (path r) =
      if r.kind = k ∧ r.id ∈ d.removed.get k then none
      else (((Topology.ofMementos (d.changed.get k)).get? r).map Memento.codec.toText).or
        (m.files.get? (path r)) := by
  rw [deltaKind, Action.run_then_eq_ok] at h
  obtain ⟨a, hwrites, hremoves⟩ := h
  obtain ⟨-, rfl⟩ := run_writes_eq_ok.1 hwrites
  obtain ⟨-, rfl⟩ := run_removes_eq_ok.1 hremoves
  refine ⟨by rw [isPrepared_dropAll, isPrepared_putAll], fun r => ?_⟩
  rw [get?_files_dropAll, get?_files_putAll]

/-- A `delta` that succeeds writes its mementos and then removes what it lists, and the working copy
is folded in the same way. -/
theorem get?_files_of_delta (hd : d.IsFiled) (h : (p.delta store d).run m = (.ok q, n)) :
    q.isStopped = p.isStopped ∧ q.working.objects = (p.working.fold d).objects ∧
      n.isPrepared = m.isPrepared ∧
      ∀ r, n.files.get? (path r) =
        if r.id ∈ d.removed.get r.kind then none
        else (((Topology.ofMementos (d.changed.get r.kind)).get? r).map Memento.codec.toText).or
          (m.files.get? (path r)) := by
  rw [delta, Action.run_then_eq_ok] at h
  obtain ⟨m', hrunning, h⟩ := h
  obtain ⟨-, rfl⟩ := run_checkRunning_eq_ok.1 hrunning
  by_cases hempty : d.isEmpty = true
  · rw [if_pos hempty] at h
    cases h
    -- Nothing is written, and nothing is folded in either.
    have hnil : ∀ k, d.changed.get k = [] ∧ d.removed.get k = [] := by
      simpa [Delta.isEmpty, Kind.mem_all] using hempty
    have hget (r : ObjectRef) : (p.working.fold d).get? r = p.working.get? r := by
      rw [Topology.get?_fold hd, (hnil r.kind).1, (hnil r.kind).2]
      simp [Topology.ofMementos, Topology.get?]
    refine ⟨rfl, (ByRef.ext_get? hget).symm, rfl, fun r => ?_⟩
    rw [(hnil r.kind).1, (hnil r.kind).2]
    simp [Topology.ofMementos, Topology.get?]
  · rw [if_neg hempty] at h
    obtain ⟨c, hkinds, heq⟩ := Action.run_then_eq_ok.1 h
    obtain ⟨a, b, ha, hb, hc⟩ := Memory.run_kinds_eq_ok.1 hkinds
    cases heq
    obtain ⟨ha', ha⟩ := get?_files_of_deltaKind ha
    obtain ⟨hb', hb⟩ := get?_files_of_deltaKind hb
    obtain ⟨hc', hc⟩ := get?_files_of_deltaKind hc
    refine ⟨rfl, rfl, hc'.trans (hb'.trans ha'), fun r => ?_⟩
    -- Of the three kinds only that of the object touches its text.
    have hother {k : Kind} (hk : r.kind ≠ k) :
        (Topology.ofMementos (d.changed.get k)).get? r = none :=
      Topology.get?_ofMementos_of_kind_ne (hd k) hk
    rw [hc, hb, ha]
    cases hk : r.kind <;> simp [hk, hother]

/-- A `delta` that lists one changed memento succeeds if `write` of the memento does, and has then
stored its text. -/
theorem run_delta_changed_eq_ok {x : Memento} :
    (p.delta store (.ofChanges [.changed x])).run m = (.ok q, n) ↔
      p.isStopped = false ∧
        (p.textOf x = .ok (Memento.codec.toText x) ∧ Path.isValid (path x.ref) = true) ∧
        m.isPrepared = true ∧ q = { p with working := p.working.fold (.ofChanges [.changed x]) } ∧
        n = m.put (path x.ref) (Memento.codec.toText x) := by
  have hlists : Delta.ofChanges [.changed x] = ⟨(PerKind.const []).set x.kind [x], .const []⟩ := by
    cases x with
    | mk id kind => cases kind <;> rfl
  have hsome : (Delta.ofChanges [.changed x]).isEmpty = false := by
    rw [hlists]
    cases x.kind <;> rfl
  -- Of the three kinds only that of the memento has anything to write.
  have hkind (k : Kind) (a b : Memory) :
      (p.deltaKind store (.ofChanges [.changed x]) k).run a = (.ok (), b) ↔
        if k = x.kind then (p.write store x).run a = (.ok (), b) else b = a := by
    rw [deltaKind, Action.run_then_eq_ok, hlists]
    simp only [run_writes_eq_ok, run_removes_eq_ok, PerKind.get_set, PerKind.get_const]
    by_cases hk : k = x.kind
    · simp [hk, run_write_eq_ok, putAll, dropAll]
    · simp [hk, putAll, dropAll]
  have hkinds : (Stored.each (p.deltaKind store (.ofChanges [.changed x])) Kind.all).run m =
      (.ok (), n) ↔ (p.write store x).run m = (.ok (), n) := by
    simp only [Memory.run_kinds_eq_ok, hkind]
    cases x.kind <;> simp [eq_comm]
  rw [delta, Action.run_then_eq_ok]
  simp only [run_checkRunning_eq_ok, hsome, Bool.false_eq_true, if_false, Action.run_then_eq_ok,
    Action.run_pure, Prod.mk.injEq, Except.ok.injEq]
  constructor
  · rintro ⟨a, ⟨hp, rfl⟩, b, h, rfl, rfl⟩
    obtain ⟨⟨hx, hprepared⟩, rfl⟩ := (run_write_eq_ok x _ _).1 (hkinds.1 h)
    exact ⟨hp, hx, hprepared, rfl, rfl⟩
  · rintro ⟨hp, hx, hprepared, rfl, rfl⟩
    exact ⟨m, ⟨hp, rfl⟩, _, hkinds.2 ((run_write_eq_ok x _ _).2 ⟨⟨hx, hprepared⟩, rfl⟩), rfl, rfl⟩

/-- `checkpointKind` succeeds if its sub-path `IsOpen` and its mementos can be stored. -/
private theorem exists_checkpointKind_eq_ok {k : Kind} (hm : m.IsOpen k.subPath)
    (hx : ∀ r x, t.get? r = some x → Path.isValid x.id = true ∧ x.IsStorable) :
    ∃ n, (p.checkpointKind store t k).run m = (.ok (), n) := by
  refine exists_run_checkpointKind.2 ⟨hm.isPrepared, fun x hmem => ?_, fun id hid _ =>
    hm.isValid_object id hid⟩
  obtain ⟨id, hget⟩ := SortedMap.mem_values.1 hmem
  obtain ⟨hvalid, hstorable⟩ := hx ⟨k, id⟩ x hget
  exact ⟨p.textOf_of_isStorable hstorable, isValid_path hvalid⟩

/-- `checkpointKind` leaves the sub-paths of the other kinds open. -/
private theorem isOpen_of_checkpointKind (ht : t.IsFiled) {k l : Kind} (hkl : l ≠ k)
    (h : (p.checkpointKind store t k).run m = (.ok (), n)) (hm : m.IsOpen l.subPath) :
    n.IsOpen l.subPath := by
  obtain ⟨hprepared, hget⟩ := get?_files_of_checkpointKind ht h
  refine ⟨hprepared, hm.isValid, fun name hname => hm.isValid_object name ?_⟩
  -- Whatever is listed there now was listed before.
  obtain ⟨text, htext⟩ := Option.isSome_iff_exists.1 (Memory.mem_namesUnder.1 hname)
  obtain ⟨hslash, htext⟩ := Memory.text?_eq_some.1 htext
  have hsame := hget ⟨l, name⟩ hslash
  rw [if_neg hkl] at hsame
  rw [Memory.mem_namesUnder, Memory.text?_of_not_mem m hslash]
  rw [path] at hsame
  rw [← hsame, htext]
  rfl

/-- A `checkpoint` succeeds if every object in the memory can be opened and all mementos can be
stored. -/
theorem exists_checkpoint_eq_ok (hp : p.isStopped = false) (hm : ∀ k : Kind, m.IsOpen k.subPath)
    (ht : t.IsFiled) (hx : ∀ r x, t.get? r = some x → Path.isValid x.id = true ∧ x.IsStorable) :
    ∃ n, (p.checkpoint store t).run m = (.ok { p with working := t }, n) := by
  obtain ⟨a, ha⟩ := exists_checkpointKind_eq_ok (p := p) (hm .entity) hx
  obtain ⟨b, hb⟩ := exists_checkpointKind_eq_ok (p := p)
    (isOpen_of_checkpointKind ht (by decide) ha (hm .location)) hx
  obtain ⟨c, hc⟩ := exists_checkpointKind_eq_ok (p := p)
    (isOpen_of_checkpointKind ht (by decide) hb
      (isOpen_of_checkpointKind ht (by decide) ha (hm .policy))) hx
  have hrunning := run_checkRunning_eq_ok.2 ⟨hp, Eq.refl m⟩
  exact ⟨c, Action.run_then_eq_ok.2 ⟨m, hrunning, Action.run_then_eq_ok.2 ⟨c,
    Memory.run_kinds_eq_ok.2 ⟨a, b, ha, hb, hc⟩, rfl⟩⟩⟩

end Write

/-! ## Reading -/

section Read

variable {p : MementoPersister} {l : Lookup} {m n : Memory}

/-- `parse` takes a text as the memento of an object if it loads as one of this kind and id. -/
theorem parse_eq_ok {r : ObjectRef} {text : String} {x : Memento} :
    parse l r text = .ok x ↔ Memento.load l text = .ok x ∧ x.ref = r := by
  rw [parse]
  cases Memento.load l text with
  | error e => simp
  | ok y =>
    by_cases hr : y.ref = r
    · simp only [hr, if_true, Except.ok.injEq]
      exact ⟨fun h => ⟨h, h ▸ hr⟩, And.left⟩
    · simp only [hr, if_false, reduceCtorEq, Except.ok.injEq, false_iff, not_and]
      rintro rfl
      exact hr

/-- The type that the manifest shows for the text of the object `r`. -/
def readType (r : ObjectRef) (text : String) : Except PersistenceError String :=
  match ManifestEntry.ofText text with
  | .ok entry => .ok entry.objectType
  | .error cause => .error (.format (path r) (.unreadable (.json cause)))

/-- `readType` reads the type of a `ManifestEntry`. -/
theorem readType_eq_ok {r : ObjectRef} {text objectType : String} :
    readType r text = .ok objectType ↔
      ∃ entry, ManifestEntry.ofText text = .ok entry ∧ entry.objectType = objectType := by
  rw [readType]
  cases ManifestEntry.ofText text <;> simp

section Reader

variable {α β : Type} {read : ObjectRef → String → Except PersistenceError α}

/-- What `read` makes of a stored text. -/
def found? (read : ObjectRef → String → Except PersistenceError α)
    (e : ObjectRef × String) :
    Option (ObjectRef × α) :=
  match read e.1 e.2 with
  | .ok a => some (e.1, a)
  | .error _ => none

/-- The failure of a stored text for which `read` fails. -/
def failure? (read : ObjectRef → String → Except PersistenceError α)
    (e : ObjectRef × String) :
    Option LoadFailure :=
  match read e.1 e.2 with
  | .ok _ => none
  | .error cause => some ⟨e.1, cause⟩

/-- What `read` makes of the texts in the memory `m`. -/
def found (read : ObjectRef → String → Except PersistenceError α) (m : Memory) : ByRef α :=
  ByRef.empty.fileAll (m.stored.filterMap (found? read))

/-- The failures of the texts in the memory `m` for which `read` fails. -/
def failures (read : ObjectRef → String → Except PersistenceError α) (m : Memory) :
    List LoadFailure :=
  m.stored.filterMap (failure? read)

/-- `found?` has the result of `read`, for the object whose text it is. -/
theorem found?_eq_some {e : ObjectRef × String} {r : ObjectRef} {a : α} :
    found? read e = some (r, a) ↔ e.1 = r ∧ read e.1 e.2 = .ok a := by
  rw [found?]
  cases read e.1 e.2 <;> simp

/-- `failure?` has the error of `read`, for the object whose text it is. -/
theorem failure?_eq_some {e : ObjectRef × String} {f : LoadFailure} :
    failure? read e = some f ↔ e.1 = f.ref ∧ read e.1 e.2 = .error f.error := by
  rw [failure?]
  cases read e.1 e.2 with
  | ok a => simp
  | error cause =>
    cases f
    simp

/-- What is `found` is what `read` makes of the texts. -/
theorem get?_found {r : ObjectRef} {a : α} : (found read m).get? r = some a ↔
    ∃ text, m.storedText? r = some text ∧ read r text = .ok a := by
  -- Each text is stored under a reference of its own, so nothing found is hidden.
  have hnodup : ((m.stored.filterMap (found? read)).map (·.1)).Nodup :=
    nodup_map_filterMap (fun _ _ _ h => (found?_eq_some.1 h).1.symm) m.nodup_stored
  rw [found, ByRef.get?_fileAll_of_nodup hnodup, List.mem_filterMap]
  constructor
  · rintro ⟨⟨q, text⟩, he, hfound⟩
    obtain ⟨rfl, hread⟩ := found?_eq_some.1 hfound
    exact ⟨text, Memory.mem_stored.1 he, hread⟩
  · rintro ⟨text, htext, hread⟩
    exact ⟨(r, text), Memory.mem_stored.2 htext, found?_eq_some.2 ⟨rfl, hread⟩⟩

/-- The `failures` are those of the texts for which `read` fails. -/
theorem mem_failures {f : LoadFailure} : f ∈ failures read m ↔
    ∃ text, m.storedText? f.ref = some text ∧ read f.ref text = .error f.error := by
  rw [failures, List.mem_filterMap]
  constructor
  · rintro ⟨⟨q, text⟩, he, hfailure⟩
    obtain ⟨rfl, hread⟩ := failure?_eq_some.1 hfailure
    exact ⟨text, Memory.mem_stored.1 he, hread⟩
  · rintro ⟨text, htext, hread⟩
    exact ⟨(f.ref, text), Memory.mem_stored.2 htext, failure?_eq_some.2 ⟨rfl, hread⟩⟩

/-- No text is twice among the `failures`. -/
theorem nodup_failures (read : ObjectRef → String → Except PersistenceError α) (m : Memory) :
    ((failures read m).map (·.ref)).Nodup :=
  nodup_map_filterMap (fun _ _ _ h => (failure?_eq_some.1 h).1.symm) m.nodup_stored

/-- The `failures` are of the objects that are stored and of which nothing is `found`. -/
theorem mem_refs_failures {r : ObjectRef} : r ∈ (failures read m).map (·.ref) ↔
    (m.storedText? r).isSome ∧ (found read m).get? r = none := by
  rw [List.mem_map]
  constructor
  · rintro ⟨f, hf, rfl⟩
    obtain ⟨text, htext, hread⟩ := mem_failures.1 hf
    refine ⟨by rw [htext]; rfl, Option.eq_none_iff_forall_ne_some.2 fun a ha => ?_⟩
    obtain ⟨text', htext', hread'⟩ := get?_found.1 ha
    -- One text of an object is either read or not.
    obtain rfl := Option.some.inj (htext.symm.trans htext')
    cases hread.symm.trans hread'
  · rintro ⟨hsome, hnone⟩
    obtain ⟨text, htext⟩ := Option.isSome_iff_exists.1 hsome
    cases hread : read r text with
    | ok a =>
      rw [get?_found.2 ⟨text, htext, hread⟩] at hnone
      cases hnone
    | error cause => exact ⟨⟨r, cause⟩, mem_failures.2 ⟨text, htext, hread⟩, rfl⟩

/-- A fold that takes up texts one by one comes to all that `read` makes of them, and the failures
of the others. -/
theorem foldlM_take (read : ObjectRef → String → Except PersistenceError α)
    (mk : ByRef α → List LoadFailure → β)
    (take : Kind → β → String → String → Except PersistenceError β)
    (hok : ∀ taken fs r text a, read r text = .ok a →
      take r.kind (mk taken fs) r.id text = .ok (mk (taken.insert r a) fs))
    (herror : ∀ taken fs r text cause, read r text = .error cause →
      take r.kind (mk taken fs) r.id text = .ok (mk taken (fs ++ [⟨r, cause⟩])))
    (es : List (ObjectRef × String)) (taken : ByRef α) (fs : List LoadFailure) :
    es.foldlM (fun b e => take e.1.kind b e.1.id e.2) (mk taken fs) =
      .ok (mk (taken.fileAll (es.filterMap (found? read)))
        (fs ++ es.filterMap (failure? read))) := by
  -- What has been taken and what has failed so far are `taken` and `fs`.
  induction es generalizing taken fs with
  | nil => simp [ByRef.fileAll, pure, Except.pure]
  | cons e es ih =>
    rw [List.foldlM_cons]
    cases hread : read e.1 e.2 with
    | ok a =>
      rw [hok taken fs e.1 e.2 a hread, List.filterMap_cons_some (found?_eq_some.2 ⟨rfl, hread⟩),
        List.filterMap_cons_none (by rw [failure?, hread])]
      exact ih _ _
    | error cause =>
      rw [List.filterMap_cons_none (by rw [found?, hread]),
        List.filterMap_cons_some (b := ⟨e.1, cause⟩) (failure?_eq_some.2 ⟨rfl, hread⟩),
        List.append_cons, herror taken fs e.1 e.2 cause hread]
      exact ih _ _

end Reader

/-! ## Loading -/

/-- What a lenient load of the memory `m` finds. -/
def loaded (l : Lookup) (m : Memory) : Loaded :=
  ⟨{ objects := found (parse l) m }, failures (parse l) m⟩

/-- The `Manifest` of the memory `m`. -/
def manifest (m : Memory) : Manifest := ⟨found readType m, failures readType m⟩

/-- A fold by `takeStrict` ends at the first text that is not the memento of its object, so it comes
to `Loaded.strict`. -/
theorem foldlM_takeStrict (l : Lookup) (es : List (ObjectRef × String)) (t : Topology) :
    es.foldlM (fun t e => takeStrict l e.1.kind t e.1.id e.2) t =
      Loaded.strict ⟨{ t with objects := t.objects.fileAll (es.filterMap (found? (parse l))) },
        es.filterMap (failure? (parse l))⟩ := by
  induction es generalizing t with
  | nil => rfl
  | cons e es ih =>
    rw [List.foldlM_cons, takeStrict]
    -- The first text that does not parse ends the fold, and it is the first failure.
    cases hparse : parse l e.1 e.2 with
    | error cause =>
      rw [List.filterMap_cons_some (b := ⟨e.1, cause⟩) (failure?_eq_some.2 ⟨rfl, hparse⟩)]
      rfl
    | ok x =>
      rw [List.filterMap_cons_some (found?_eq_some.2 ⟨rfl, hparse⟩),
        List.filterMap_cons_none (by rw [failure?, hparse]), ByRef.fileAll_cons,
        ← (parse_eq_ok.1 hparse).2]
      exact ih _

/-- `load` of texts that all `parse` finds them. -/
theorem run_load (hp : p.isStopped = false) (hm : ∀ k : Kind, m.IsOpen k.subPath)
    (htexts : ∀ r text, m.storedText? r = some text → ∃ x, parse l r text = .ok x) :
    (p.load store l).run m = (.ok (loaded l m).topology, m) := by
  have hrunning := run_checkRunning_eq_ok.2 ⟨hp, Eq.refl m⟩
  -- Every text parses, so the strict load has nothing to fail on.
  have hnone : failures (parse l) m = [] := by
    refine List.eq_nil_iff_forall_not_mem.2 fun f hf => ?_
    obtain ⟨text, htext, herror⟩ := mem_failures.1 hf
    obtain ⟨x, hx⟩ := htexts f.ref text htext
    cases hx.symm.trans herror
  rw [load, Action.run_bind_of_ok hrunning, Memory.run_foldKinds hm, foldlM_takeStrict, Loaded.strict]
  rw [failures] at hnone
  rw [hnone]
  rfl

/-- `loadLenient` finds the texts that `parse` and reports the others. -/
theorem run_loadLenient (hp : p.isStopped = false) (hm : ∀ k : Kind, m.IsOpen k.subPath) :
    (p.loadLenient store l).run m = (.ok (loaded l m), m) := by
  have hrunning := run_checkRunning_eq_ok.2 ⟨hp, Eq.refl m⟩
  rw [loadLenient, Action.run_bind_of_ok hrunning, Memory.run_foldKinds hm]
  refine Prod.ext (foldlM_take (parse l) (fun objects => Loaded.mk { objects }) _ ?_ ?_
    m.stored .empty []) rfl
  · intro taken fs r text x hx
    rw [takeLenient, hx, ← (parse_eq_ok.1 hx).2]
    rfl
  · intro taken fs r text cause hx
    rw [takeLenient, hx]

/-- `loadManifest` finds the types of the texts that are entries and reports the others. -/
theorem run_loadManifest (hp : p.isStopped = false) (hm : ∀ k : Kind, m.IsOpen k.subPath) :
    (p.loadManifest store).run m = (.ok (manifest m), m) := by
  have hrunning := run_checkRunning_eq_ok.2 ⟨hp, Eq.refl m⟩
  rw [loadManifest, Action.run_bind_of_ok hrunning, Memory.run_foldKinds hm]
  -- What is taken up is the type, or the failure to read it.
  refine Prod.ext (foldlM_take readType Manifest.mk _ ?_ ?_ m.stored .empty []) rfl
  · intro taken fs r text objectType htype
    obtain ⟨entry, hentry, rfl⟩ := readType_eq_ok.1 htype
    rw [takeEntry, hentry]
  · intro taken fs r text cause htype
    cases hentry : ManifestEntry.ofText text with
    | ok entry =>
      rw [readType, hentry] at htype
      cases htype
    | error e =>
      rw [readType, hentry] at htype
      cases htype
      rw [takeEntry, hentry]

/-- `loadManifest` succeeds only if the persister is running and every object can be opened. -/
theorem isOpen_of_loadManifest_ok {x : Manifest} (h : (p.loadManifest store).run m = (.ok x, n)) :
    p.isStopped = false ∧ ∀ k : Kind, m.IsOpen k.subPath := by
  rw [loadManifest, Action.run_then_eq_ok] at h
  obtain ⟨t, hrunning, h⟩ := h
  obtain ⟨hp, rfl⟩ := run_checkRunning_eq_ok.1 hrunning
  exact ⟨hp, Memory.isOpen_of_foldKinds_ok h⟩

end Read

end MementoPersister

/-! ## Loading from any store -/

namespace Stored

variable {σ α : Type} {S : ObjectStore σ} {P : α → Prop} {s t : σ} {acc b : α}

/-- What stays true as each text is taken up is true of all that `foldNames` reads. -/
private theorem of_foldNames {take : α → String → String → Except PersistenceError α}
    {subPath : String} (htake : ∀ a name text a', take a name text = .ok a' → P a → P a')
    {names : List String} (h : (foldNames S subPath take acc names).run s = (.ok b, t))
    (hacc : P acc) : P b := by
  induction names generalizing acc s with
  | nil =>
    cases h
    exact hacc
  | cons name names ih =>
    obtain ⟨text?, u, -, h⟩ := Action.run_bind_eq_ok.1 h
    -- A name without a text is passed over.
    cases text? with
    | none => exact ih h hacc
    | some text =>
      obtain ⟨a, v, htaken, h⟩ := Action.run_bind_eq_ok.1 h
      exact ih h (htake acc name text a (Prod.mk.inj htaken).1 hacc)

/-- What stays true as each text is taken up is true of all that `foldKinds` reads, whatever the
store does meanwhile. -/
theorem of_foldKinds {take : Kind → α → String → String → Except PersistenceError α}
    (htake : ∀ k a name text a', take k a name text = .ok a' → P a → P a') {ks : List Kind}
    (h : (foldKinds S take ks acc).run s = (.ok b, t)) (hacc : P acc) : P b := by
  induction ks generalizing acc s with
  | nil =>
    cases h
    exact hacc
  | cons k ks ih =>
    obtain ⟨a, u, hobjects, h⟩ := Action.run_bind_eq_ok.1 h
    obtain ⟨names, v, -, hnames⟩ := Action.run_bind_eq_ok.1 hobjects
    exact ih h (of_foldNames (htake k) hnames hacc)

end Stored

/-- What `loadLenient` finds stands under its own kind and id. -/
theorem MementoPersister.isFiled_of_loadLenient {σ : Type} {S : ObjectStore σ}
    {p : MementoPersister} {l : Lookup} {s t : σ} {y : Loaded}
    (h : (p.loadLenient S l).run s = (.ok y, t)) : y.topology.IsFiled := by
  obtain ⟨u, -, h⟩ := Action.run_then_eq_ok.1 h
  refine Stored.of_foldKinds (P := fun y => y.topology.IsFiled) (fun k y id text y' htake hy => ?_) h
    fun r m hm => ?_
  · rw [takeLenient] at htake
    -- A memento is taken up under its own kind and id, or not at all.
    split at htake
    · cases htake
      exact hy.file _
    · cases htake
      exact hy
  · rw [Topology.get?, ByRef.get?_empty] at hm
    cases hm

end Failover
