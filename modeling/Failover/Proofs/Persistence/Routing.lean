import Failover.Proofs.Persistence.Mementos
import Failover.Proofs.Store.Sound

/-!
# Where a delta puts its mementos

A delta lists mementos to put in and ids to take out, kind by kind. In the store a memento is
written under its own kind, whichever list it stands in; in the working copy it goes to the kind of
its list. The store works off the lists of one kind before those of the next, so a memento that
stands in a later list than that of its kind even brings back what was removed. Where a delta is
made of changes every memento stands in the list of its kind, and the store and the working copy go
together; a delta that is read from a text may list anything.

## Key results

- `ObjectStore.Mirrors.follows`, `Files.follows`: stores whose listings follow what is written and
  removed
- `ObjectStore.Follows.shows_of_delta`: what is listed after a delta that succeeds
- `Topology.isSome_get?_fold`: what the working copy holds after it
- `ObjectStore.Follows.matches_of_isFiled`: after a delta with every memento in the list of its kind
  the store and the working copy go together
- `MementoPersister.delta_matches_iff`: after any delta they do if and only if it misroutes nothing
-/

namespace Failover

/-! ## Listings that follow what is done -/

namespace ObjectStore

variable {σ : Type}

/-- What the store `S` lists of each kind are the ids of the objects that are `held`. -/
def Shows (S : ObjectStore σ) (s : σ) (held : ObjectRef → Prop) : Prop :=
  ∀ k : Kind, ∃ names, (S.step (.list k.subPath) s).1 = .ok names ∧
    ∀ id, id ∈ names ↔ held ⟨k, id⟩

/-- In states of `P`, to write or remove an object changes the listings of `S` by this object and
nothing else. -/
structure Follows (S : ObjectStore σ) (P : σ → Prop) : Prop where
  write {s t : σ} {r : ObjectRef} {text : String} {held : ObjectRef → Prop} :
    P s → Path.isSingle r.id = true → S.Shows s held →
    (Stored.write S (MementoPersister.path r) text).run s = (.ok (), t) →
    P t ∧ S.Shows t fun q => q = r ∨ held q
  remove {s t : σ} {r : ObjectRef} {held : ObjectRef → Prop} :
    P s → Path.isSingle r.id = true → S.Shows s held →
    (Stored.remove S (MementoPersister.path r)).run s = (.ok (), t) →
    P t ∧ S.Shows t fun q => q ≠ r ∧ held q

variable {S : ObjectStore σ} {s : σ} {held held' : ObjectRef → Prop}

/-- `Shows` tells what is held: it holds of no two different things. -/
theorem Shows.iff (h : S.Shows s held) : S.Shows s held' ↔ ∀ r, held r ↔ held' r := by
  constructor
  · rintro h' ⟨k, id⟩
    obtain ⟨names, hnames, hmem⟩ := h k
    obtain ⟨names', hnames', hmem'⟩ := h' k
    cases hnames.symm.trans hnames'
    exact (hmem id).symm.trans (hmem' id)
  · intro heq k
    obtain ⟨names, hnames, hmem⟩ := h k
    exact ⟨names, hnames, fun id => (hmem id).trans (heq ⟨k, id⟩)⟩

end ObjectStore

/-! ### In a memory -/

/-- A memory `Shows` the objects that have a `storedText?`. -/
theorem Memory.shows_iff {m : Memory} {held : ObjectRef → Prop} : Memory.store.Shows m held ↔
    m.isPrepared = true ∧ ∀ r, (m.storedText? r).isSome ↔ held r := by
  -- In a memory a listing succeeds exactly once it is prepared, and shows the names under the
  -- sub-path.
  have hlist (k : Kind) (names : List String) :
      (Memory.store.step (.list k.subPath) m).1 = .ok names ↔
        m.isPrepared = true ∧ names = m.namesUnder k.subPath := by
    have hcall : (Stored.list Memory.store k.subPath).run m = (.ok names, m) ↔
        (Memory.store.step (.list k.subPath) m).1 = .ok names := by
      rw [Stored.list, Action.run_mapError_eq_ok]
      exact ⟨fun h => congrArg Prod.fst h, fun h => Prod.ext h rfl⟩
    rw [← hcall, Memory.run_list_eq_ok]
    simp [k.isValid_subPath]
  simp only [ObjectStore.Shows, hlist]
  constructor
  · intro h
    refine ⟨(h .entity).choose_spec.1.1, fun ⟨k, id⟩ => ?_⟩
    obtain ⟨_, ⟨-, rfl⟩, hmem⟩ := h k
    exact Memory.mem_namesUnder.symm.trans (hmem id)
  · rintro ⟨hprepared, hheld⟩ k
    exact ⟨_, ⟨hprepared, rfl⟩, fun id => Memory.mem_namesUnder.trans (hheld ⟨k, id⟩)⟩

/-- `Memory.store` `Follows` what is written and removed. -/
theorem Memory.follows : Memory.store.Follows fun _ => True where
  write {m n r text held} _ hr hshows hrun := by
    obtain ⟨-, rfl⟩ := Memory.run_write_eq_ok.1 hrun
    obtain ⟨hprepared, hheld⟩ := Memory.shows_iff.1 hshows
    refine ⟨trivial, Memory.shows_iff.2 ⟨hprepared, fun q => ?_⟩⟩
    -- The one object has a text now; all others have theirs.
    rw [MementoPersister.storedText?_put m (Path.isSingle_iff.1 hr).2, ← hheld]
    by_cases hq : q = r <;> simp [hq]
  remove {m n r held} _ _ hshows hrun := by
    obtain ⟨-, rfl⟩ := Memory.run_remove_eq_ok.1 hrun
    obtain ⟨hprepared, hheld⟩ := Memory.shows_iff.1 hshows
    refine ⟨trivial, Memory.shows_iff.2 ⟨hprepared, fun q => ?_⟩⟩
    rw [MementoPersister.storedText?_drop, ← hheld]
    by_cases hq : q = r <;> simp [hq]

/-- A store that `Mirrors` a memory `Follows` what is written and removed. -/
theorem ObjectStore.Mirrors.follows {σ : Type} {S : ObjectStore σ} {mem : σ → Memory}
    (h : S.Mirrors mem) : S.Follows fun _ => True := by
  -- What the store shows, and what the calls do to it, is told by the memory that it mirrors.
  have hshows {s : σ} {held : ObjectRef → Prop} :
      S.Shows s held ↔ Memory.store.Shows (mem s) held := by
    have hlist (k : Kind) : (S.step (.list k.subPath) s).1 =
        (Memory.store.step (.list k.subPath) (mem s)).1 := (h _ s _ rfl).1
    simp only [ObjectStore.Shows, hlist]
  have hrun {x : Action σ PersistenceError Unit} {y : Action Memory PersistenceError Unit}
      (hxy : Action.InStep (fun s m => mem s = m) x y) {s t : σ} (hx : x.run s = (.ok (), t)) :
      y.run (mem s) = (.ok (), mem t) := by
    obtain ⟨hresult, hmem⟩ := hxy s _ rfl
    rw [hx] at hresult hmem
    exact Prod.ext hresult.symm hmem.symm
  constructor
  · intro s t r text held _ hr hs hwrite
    obtain ⟨-, ht⟩ := Memory.follows.write trivial hr (hshows.1 hs)
      (hrun (h.below.write trivial r.id text) hwrite)
    exact ⟨trivial, hshows.2 ht⟩
  · intro s t r held _ hr hs hremove
    obtain ⟨-, ht⟩ := Memory.follows.remove trivial hr (hshows.1 hs)
      (hrun (h.below.remove trivial r.id) hremove)
    exact ⟨trivial, hshows.2 ht⟩

/-! ### In a directory tree -/

/-- The `subPath` of a kind can be the name of a directory. -/
theorem Kind.isPlain_subPath (k : Kind) : Path.IsPlain k.subPath := by
  cases k <;> exact ⟨by decide, by decide, by decide⟩

namespace Files

variable {handle : String} {f g : Files} {held : ObjectRef → Prop}

/-- The `path` of an object with a single id has the sub-path and the id as its segments. -/
theorem segments_path {r : ObjectRef} (hr : Path.isSingle r.id = true) :
    Path.segments (MementoPersister.path r) = [r.kind.subPath, r.id] := by
  rw [MementoPersister.path, Path.segments_object, r.kind.isPlain_subPath.segments,
    Path.segments_of_not_mem (Path.isSingle_iff.1 hr).2]
  rfl

/-- A store in files `Shows` the objects that have a file in the directory of their kind. -/
theorem shows_iff (hf : f.tree.IsSound) : (store handle).Shows f held ↔
    ∀ k : Kind, f.check handle k.subPath = .ok () ∧
      (∀ contents, f.tree.entries.get? [k.subPath] ≠ some (.file contents)) ∧
      ∀ id, (id.toList.head? ≠ some '.' ∧
        ∃ contents, f.tree.entries.get? [k.subPath, id] = some (.file contents)) ↔
        held ⟨k, id⟩ := by
  refine forall_congr' fun k => ?_
  -- A listing succeeds if the handle is prepared and no file is in the place of the directory.
  have hlist (names : List String) : ((store handle).step (.list k.subPath) f).1 = .ok names ↔
      f.check handle k.subPath = .ok () ∧ Files.names f.tree [k.subPath] = .ok names := by
    show (step handle (.list k.subPath) f).1 = _ ↔ _
    rw [step, k.isPlain_subPath.segments]
    cases f.check handle k.subPath with
    | error e => simp
    | ok =>
      cases Files.names f.tree [k.subPath] with
      | error e =>
        show (Except.error (StoreError.io e) : Except StoreError (List String)) = _ ↔ _
        simp
      | ok listed =>
        show (Except.ok listed : Except StoreError (List String)) = _ ↔ _
        simp
  simp only [hlist, ← hf.exists_names_iff k.isPlain_subPath]
  constructor
  · rintro ⟨names, ⟨hcheck, hnames⟩, hmem⟩
    exact ⟨hcheck, ⟨names, hnames⟩, fun id =>
      (hf.mem_names k.isPlain_subPath hnames).symm.trans (hmem id)⟩
  · rintro ⟨hcheck, ⟨names, hnames⟩, hheld⟩
    exact ⟨names, ⟨hcheck, hnames⟩, fun id =>
      (hf.mem_names k.isPlain_subPath hnames).trans (hheld id)⟩

/-- A call on an object that is opened for it succeeds only if its own `step` does. -/
private theorem step_of_run_opened {path : String} {c : Store.Call} {a : c.Answer}
    (h : (((store handle).call (.openObject path) >>= fun _ => (store handle).call c).mapError
      (PersistenceError.ofStore path)).run f = (.ok a, g)) : step handle c f = (.ok a, g) := by
  obtain ⟨⟨⟩, f', hopen, hcall⟩ := Action.run_bind_eq_ok.1 (Action.run_mapError_eq_ok.1 h)
  obtain ⟨-, rfl⟩ := Prod.mk.inj hopen
  exact hcall

/-- `withTree` hands on the result and takes over the tree. -/
private theorem of_withTree_eq_ok {x : Except IoError Unit × FileTree}
    (h : f.withTree x = (.ok (), g)) : ∃ t, x = (.ok (), t) ∧ g = { f with tree := t } := by
  obtain ⟨r, t⟩ := x
  obtain ⟨hr, rfl⟩ := Prod.mk.inj h
  cases r with
  | error e => cases hr
  | ok => exact ⟨t, rfl, rfl⟩

/-- Where each thing lies within the directories of the kinds. -/
private theorem object_inj {k : Kind} {id : String} {r : ObjectRef} :
    [k.subPath, id] = [r.kind.subPath, r.id] ↔ (⟨k, id⟩ : ObjectRef) = r := by
  obtain ⟨l, id'⟩ := r
  simp only [List.cons.injEq, and_true, ObjectRef.mk.injEq]
  exact and_congr_left fun _ => ⟨Kind.subPath_inj, congrArg Kind.subPath⟩

/-- `Files.store` `Follows` what is written and removed, as long as its tree `IsSound`. -/
theorem follows : (store handle).Follows fun f => f.tree.IsSound where
  write {f g r text held} hf hr hshows hrun := by
    have hwith : f.withTree (put f.tree (Path.segments (MementoPersister.path r)) text) =
        (.ok (), g) := step_of_run_opened (c := .put _ text) hrun
    rw [segments_path hr] at hwith
    obtain ⟨t, hput, rfl⟩ := of_withTree_eq_ok hwith
    have ht : t.IsSound := by
      have hsound := hf.put [r.kind.subPath, r.id] text
      rwa [hput] at hsound
    -- The directory of the kind is there now, the file is in it, and nothing else has changed.
    obtain ⟨hdir, hfile, hsame⟩ := FileTree.get?_entries_of_put hput
    refine ⟨ht, (shows_iff ht).2 fun k => ?_⟩
    obtain ⟨hcheck, hnofile, hheld⟩ := (shows_iff hf).1 hshows k
    refine ⟨hcheck, ?_, fun id => ?_⟩
    · by_cases hk : [k.subPath] = [r.kind.subPath]
      · simp [hk, hdir]
      · rw [hsame _ (by simp) hk (by simp)]
        exact hnofile
    · by_cases hq : [k.subPath, id] = [r.kind.subPath, r.id]
      · obtain rfl := object_inj.1 hq
        exact iff_of_true ⟨Path.head?_ne_of_isSingle hr, _, hfile⟩ (.inl rfl)
      · rw [hsame _ (by simp) (by simp) hq, hheld, or_iff_right (object_inj.not.1 hq)]
  remove {f g r held} hf hr hshows hrun := by
    have hwith : f.withTree (f.tree.deleteFile (Path.segments (MementoPersister.path r))) =
        (.ok (), g) := step_of_run_opened (c := .delete _) hrun
    rw [segments_path hr] at hwith
    obtain ⟨t, hdelete, rfl⟩ := of_withTree_eq_ok hwith
    have ht : t.IsSound := by
      have hsound := hf.deleteFile [r.kind.subPath, r.id]
      rwa [hdelete] at hsound
    -- No file is at the path any more, and nothing else has changed.
    obtain ⟨hgone, hsame⟩ := hf.get?_entries_of_deleteFile hdelete
    refine ⟨ht, (shows_iff ht).2 fun k => ?_⟩
    obtain ⟨hcheck, hnofile, hheld⟩ := (shows_iff hf).1 hshows k
    refine ⟨hcheck, ?_, fun id => ?_⟩
    · rw [hsame _ (by simp)]
      exact hnofile
    · by_cases hq : [k.subPath, id] = [r.kind.subPath, r.id]
      · obtain rfl := object_inj.1 hq
        exact iff_of_false (fun h => h.2.elim hgone) fun h => h.1 rfl
      · rw [hsame _ hq, hheld]
        exact (and_iff_right (object_inj.not.1 hq)).symm

end Files

/-! ## What a delta leaves -/

namespace Delta

/-- The list of the kind `k` holds a memento of the object `r`. -/
def ListsIn (d : Delta) (k : Kind) (r : ObjectRef) : Prop := ∃ m ∈ d.changed.get k, m.ref = r

/-- The objects in a store after the delta `d` has been written for some kinds, one after the other:
for each kind the mementos in its list, each where its own kind says, are there, and then the ids in
its other list are not. -/
def stored (d : Delta) : List Kind → (ObjectRef → Prop) → ObjectRef → Prop
  | [], held => held
  | k :: ks, held =>
    d.stored ks fun r => ¬(r.kind = k ∧ r.id ∈ d.removed.get k) ∧ (d.ListsIn k r ∨ held r)

/-- How the delta `d` puts the object `r` in one of two places, the store and the working copy, and
not in the other. -/
inductive Misroutes (d : Delta) (held : ObjectRef → Prop) (r : ObjectRef) : Prop
  /-- It is removed, and a later list has a memento of it, which stays in the store. -/
  | broughtBack (k : Kind) (hremoved : r.id ∈ d.removed.get r.kind)
      (hlater : r.kind.toNat < k.toNat) (hlists : d.ListsIn k r)
  /-- It is new, and its only mementos are in the lists of other kinds: it is in the store alone. -/
  | strayed (k : Kind) (hremoved : r.id ∉ d.removed.get r.kind) (hnew : ¬held r)
      (hlists : d.ListsIn k r) (hnone : ∀ m ∈ d.changed.get r.kind, m.id ≠ r.id)
  /-- It is new, and what has its id in the list of its kind is of another kind: it is in the
  working copy alone. -/
  | mistaken (m : Memento) (hremoved : r.id ∉ d.removed.get r.kind) (hnew : ¬held r)
      (hmem : m ∈ d.changed.get r.kind) (hid : m.id = r.id) (hnone : ∀ k, ¬d.ListsIn k r)

variable {d : Delta} {held : ObjectRef → Prop} {r : ObjectRef}

/-- What is `stored` after all kinds: the removal of an object undoes what was written before it. -/
theorem stored_all : d.stored Kind.all held r ↔
    (∃ k, r.kind.toNat < k.toNat ∧ d.ListsIn k r) ∨
      (r.id ∉ d.removed.get r.kind ∧ ((∃ k, d.ListsIn k r) ∨ held r)) := by
  have hexists {q : Kind → Prop} : (∃ k, q k) ↔ q .entity ∨ q .location ∨ q .policy := by
    constructor
    · rintro ⟨k, hk⟩
      cases k <;> simp [hk]
    · rintro (hk | hk | hk) <;> exact ⟨_, hk⟩
  -- There are three kinds of object; for each it is a matter of propositional logic.
  simp only [Kind.all, stored, hexists]
  cases r.kind <;> simp [Kind.toNat] <;> tauto

/-- The store and the working copy differ in exactly the objects that the delta `Misroutes`. -/
theorem stored_iff_iff : (d.stored Kind.all held r ↔
    r.id ∉ d.removed.get r.kind ∧ ((∃ m ∈ d.changed.get r.kind, m.id = r.id) ∨ held r)) ↔
    ¬d.Misroutes held r := by
  rw [stored_all]
  constructor
  · intro h hmis
    cases hmis with
    | broughtBack k hremoved hlater hlists => exact (h.1 (.inl ⟨k, hlater, hlists⟩)).1 hremoved
    | strayed k hremoved hnew hlists hnone =>
      obtain ⟨-, ⟨m, hm, hid⟩ | hheld⟩ := h.1 (.inr ⟨hremoved, .inl ⟨k, hlists⟩⟩)
      · exact hnone m hm hid
      · exact hnew hheld
    | mistaken m hremoved hnew hmem hid hnone =>
      rcases h.2 ⟨hremoved, .inl ⟨m, hmem, hid⟩⟩ with ⟨k, -, hk⟩ | ⟨-, ⟨k, hk⟩ | hheld⟩
      · exact hnone k hk
      · exact hnone k hk
      · exact hnew hheld
  · intro hmis
    by_cases hremoved : r.id ∈ d.removed.get r.kind
    · -- Only a later list could have it in the store.
      refine iff_of_false ?_ fun h => h.1 hremoved
      rintro (⟨k, hlater, hlists⟩ | h)
      · exact hmis (.broughtBack k hremoved hlater hlists)
      · exact h.1 hremoved
    · by_cases hheld : held r
      · exact iff_of_true (.inr ⟨hremoved, .inr hheld⟩) ⟨hremoved, .inr hheld⟩
      -- Neither removed nor there before: the two places agree if they list it both.
      constructor
      · intro h
        obtain ⟨k, hk⟩ : ∃ k, d.ListsIn k r := by
          rcases h with ⟨k, -, hk⟩ | ⟨-, hk | h⟩
          · exact ⟨k, hk⟩
          · exact hk
          · exact absurd h hheld
        refine ⟨hremoved, .inl ?_⟩
        by_contra hnone
        exact hmis (.strayed k hremoved hheld hk fun m hm hid => hnone ⟨m, hm, hid⟩)
      · rintro ⟨-, ⟨m, hm, hid⟩ | h⟩
        · refine .inr ⟨hremoved, .inl ?_⟩
          by_contra hnone
          exact hmis (.mistaken m hremoved hheld hm hid fun k hk => hnone ⟨k, hk⟩)
        · exact absurd h hheld

/-- A delta with every memento in the list of its own kind misroutes nothing. -/
theorem IsFiled.not_misroutes (hd : d.IsFiled) : ¬d.Misroutes held r := by
  rintro (⟨k, -, hlater, m, hm, rfl⟩ | ⟨k, -, -, ⟨m, hm, rfl⟩, hnone⟩ | ⟨m, -, -, hm, hid, hnone⟩)
  · exact absurd (congrArg Kind.toNat (hd k m hm)) (Nat.ne_of_lt hlater)
  · obtain rfl := hd k m hm
    exact hnone m hm rfl
  · refine hnone r.kind ⟨m, hm, ?_⟩
    rw [Memento.ref, hd _ m hm, hid]

end Delta

namespace ObjectStore.Follows

open MementoPersister (path)

variable {σ : Type} {S : ObjectStore σ} {P : σ → Prop} (h : S.Follows P) {p q : MementoPersister}
  {d : Delta} {held : ObjectRef → Prop} {s t : σ}
include h

/-- What a store that `Follows` shows after `write` of each of some mementos. -/
theorem shows_of_writes {ms : List Memento} (hms : ∀ m ∈ ms, Path.isSingle m.id = true) (hs : P s)
    (hshows : S.Shows s held) (hrun : (Stored.each (p.write S) ms).run s = (.ok (), t)) :
    P t ∧ S.Shows t fun r => (∃ m ∈ ms, m.ref = r) ∨ held r := by
  induction ms generalizing s held with
  | nil =>
    cases hrun
    exact ⟨hs, hshows.iff.2 (by simp)⟩
  | cons m ms ih =>
    rw [List.forall_mem_cons] at hms
    rw [Stored.each, Action.run_then_eq_ok] at hrun
    obtain ⟨u, hfirst, hrest⟩ := hrun
    obtain ⟨text, s', hlift, hwrite⟩ := Action.run_bind_eq_ok.1 hfirst
    obtain ⟨-, rfl⟩ := Prod.mk.inj ((Action.run_lift ..).symm.trans hlift)
    -- The first memento shows now besides what was held, and the others follow.
    obtain ⟨hu, hshows⟩ := h.write (r := m.ref) hs hms.1 hshows hwrite
    obtain ⟨ht, hshows⟩ := ih hms.2 hu hshows hrest
    refine ⟨ht, hshows.iff.2 fun r => ?_⟩
    rw [List.exists_mem_cons_iff, eq_comm, or_left_comm, or_assoc]

/-- What a store that `Follows` shows after `remove` of each of some ids. -/
theorem shows_of_removes {k : Kind} {ids : List String}
    (hids : ∀ id ∈ ids, Path.isSingle id = true) (hs : P s) (hshows : S.Shows s held)
    (hrun : (Stored.each (MementoPersister.remove S k) ids).run s = (.ok (), t)) :
    P t ∧ S.Shows t fun r => ¬(r.kind = k ∧ r.id ∈ ids) ∧ held r := by
  induction ids generalizing s held with
  | nil =>
    cases hrun
    exact ⟨hs, hshows.iff.2 (by simp)⟩
  | cons id ids ih =>
    rw [List.forall_mem_cons] at hids
    rw [Stored.each, Action.run_then_eq_ok] at hrun
    obtain ⟨u, hfirst, hrest⟩ := hrun
    -- The first object does not show any more, and the others follow.
    obtain ⟨hu, hshows⟩ := h.remove (r := ⟨k, id⟩) hs hids.1 hshows hfirst
    obtain ⟨ht, hshows⟩ := ih hids.2 hu hshows hrest
    refine ⟨ht, hshows.iff.2 fun r => ?_⟩
    obtain ⟨l, id'⟩ := r
    simp only [ne_eq, ObjectRef.mk.injEq, List.mem_cons]
    tauto

variable (hchanged : ∀ k, ∀ m ∈ d.changed.get k, Path.isSingle m.id = true)
  (hremoved : ∀ k, ∀ id ∈ d.removed.get k, Path.isSingle id = true)
include hchanged hremoved

/-- What a store that `Follows` shows after `deltaKind` of some kinds, each worked off after those
before it. -/
theorem shows_of_deltaKinds {ks : List Kind} (hs : P s) (hshows : S.Shows s held)
    (hrun : (Stored.each (p.deltaKind S d) ks).run s = (.ok (), t)) :
    P t ∧ S.Shows t (d.stored ks held) := by
  induction ks generalizing s held with
  | nil =>
    cases hrun
    exact ⟨hs, hshows⟩
  | cons k ks ih =>
    rw [Stored.each, Action.run_then_eq_ok] at hrun
    obtain ⟨u, hfirst, hrest⟩ := hrun
    obtain ⟨u', hwrites, hremoves⟩ := Action.run_then_eq_ok.1 hfirst
    -- Within a kind the mementos are written before the ids are removed.
    obtain ⟨hu', hshows⟩ := h.shows_of_writes (hchanged k) hs hshows hwrites
    obtain ⟨hu, hshows⟩ := h.shows_of_removes (hremoved k) hu' hshows hremoves
    exact ih hu hshows hrest

/-- What a store that `Follows` shows after a `delta` that succeeds, and which working copy the
persister has then. -/
theorem shows_of_delta (hs : P s) (hshows : S.Shows s held)
    (hrun : (p.delta S d).run s = (.ok q, t)) :
    P t ∧ S.Shows t (d.stored Kind.all held) ∧
      ∀ r, q.working.get? r = (p.working.fold d).get? r := by
  rw [MementoPersister.delta, Action.run_then_eq_ok] at hrun
  obtain ⟨s', hrunning, hrun⟩ := hrun
  obtain ⟨-, rfl⟩ := MementoPersister.run_checkRunning_eq_ok.1 hrunning
  by_cases hempty : d.isEmpty = true
  · rw [if_pos hempty] at hrun
    cases hrun
    -- Nothing is listed, so nothing would be written or folded in either.
    have hnil : ∀ k, d.changed.get k = [] ∧ d.removed.get k = [] := by
      simpa [Delta.isEmpty, Kind.mem_all] using hempty
    refine ⟨hs, hshows.iff.2 fun r => ?_, fun r => ?_⟩
    · simp [Delta.stored_all, Delta.ListsIn, hnil]
    · have hfiled : d.IsFiled := fun k => by simp [hnil]
      rw [Topology.get?_fold hfiled, (hnil r.kind).1, (hnil r.kind).2]
      simp [Topology.ofMementos, Topology.get?]
  · rw [if_neg hempty] at hrun
    obtain ⟨u, hkinds, heq⟩ := Action.run_then_eq_ok.1 hrun
    cases heq
    obtain ⟨ht, hshows⟩ := h.shows_of_deltaKinds hchanged hremoved hs hshows hkinds
    exact ⟨ht, hshows, fun _ => rfl⟩

end ObjectStore.Follows

namespace MementoPersister

variable {σ : Type}

/-- The working copy of `p` lists the ids of each kind that the store lists. -/
def Matches (p : MementoPersister) (S : ObjectStore σ) (s : σ) : Prop :=
  S.Shows s fun r => (p.working.get? r).isSome

end MementoPersister

section Matches

variable {σ : Type} {S : ObjectStore σ} {P : σ → Prop} {p q : MementoPersister} {d : Delta} {s t : σ}

/-- After a `delta` that succeeds, the store shows what has been written and the working copy holds
what has been folded in; they match unless the delta `Misroutes` something. -/
theorem ObjectStore.Follows.matches_iff (h : S.Follows P) (hs : P s)
    (hchanged : ∀ k, ∀ m ∈ d.changed.get k, Path.isSingle m.id = true)
    (hremoved : ∀ k, ∀ id ∈ d.removed.get k, Path.isSingle id = true)
    (hmatches : p.Matches S s) (hrun : (p.delta S d).run s = (.ok q, t)) :
    q.Matches S t ↔ ∀ r, ¬d.Misroutes (fun r => (p.working.get? r).isSome) r := by
  obtain ⟨-, hshows, hworking⟩ := h.shows_of_delta hchanged hremoved hs hmatches hrun
  refine hshows.iff.trans (forall_congr' fun r => ?_)
  rw [hworking, Topology.isSome_get?_fold]
  exact Delta.stored_iff_iff

/-- After a `delta` in which every memento stands in the list of its own kind, the store and the
working copy match. -/
theorem ObjectStore.Follows.matches_of_isFiled (h : S.Follows P) (hd : d.IsFiled) (hs : P s)
    (hchanged : ∀ k, ∀ m ∈ d.changed.get k, Path.isSingle m.id = true)
    (hremoved : ∀ k, ∀ id ∈ d.removed.get k, Path.isSingle id = true)
    (hmatches : p.Matches S s) (hrun : (p.delta S d).run s = (.ok q, t)) : q.Matches S t :=
  (h.matches_iff hs hchanged hremoved hmatches hrun).2 fun _ => hd.not_misroutes

/-- What is behind a store, and the states in which it may be: a memory that it `Mirrors`, or a
directory tree that `IsSound`. -/
inductive ObjectStore.IsBacked : {σ : Type} → ObjectStore σ → (σ → Prop) → Prop
  | memory {σ : Type} {S : ObjectStore σ} {mem : σ → Memory} (h : S.Mirrors mem) :
    IsBacked S fun _ => True
  | files (handle : String) : IsBacked (Files.store handle) fun f => f.tree.IsSound

/-- A store that `IsBacked` by a memory or a directory `Follows` what is written and removed. -/
theorem ObjectStore.IsBacked.follows (h : S.IsBacked P) : S.Follows P := by
  cases h with
  | memory h => exact h.follows
  | files handle => exact Files.follows

end Matches

namespace MementoPersister

/-- Where the store and the working copy match, they match after a `delta` that succeeds if and only
if it misroutes nothing. -/
theorem delta_matches_iff {σ : Type} {S : ObjectStore σ} {P : σ → Prop} (hS : S.IsBacked P)
    {p q : MementoPersister} {d : Delta} {s t : σ} (hs : P s)
    (hchanged : ∀ k, ∀ m ∈ d.changed.get k, Path.isSingle m.id = true)
    (hremoved : ∀ k, ∀ id ∈ d.removed.get k, Path.isSingle id = true)
    (hmatches : p.Matches S s) (hrun : (p.delta S d).run s = (.ok q, t)) :
    q.Matches S t ↔ ∀ r, ¬d.Misroutes (fun r => (p.working.get? r).isSome) r :=
  hS.follows.matches_iff hs hchanged hremoved hmatches hrun

/-- `delta_matches_iff` for a location in the list of entities, which is stored as a location and
taken up as an entity. -/
theorem delta_matches_iff_misplaced :
    let d : Delta := ⟨⟨[.new .location "x" "site"], [], []⟩, .const []⟩
    let f : Files := Files.setPrepared {} "handle" true
    (∃ q m, (({} : MementoPersister).delta Memory.store d).run .prepared = (.ok q, m) ∧
      ({} : MementoPersister).Matches Memory.store .prepared ∧ ¬q.Matches Memory.store m) ∧
    ∃ q g, (({} : MementoPersister).delta (Files.store "handle") d).run f = (.ok q, g) ∧
      ({} : MementoPersister).Matches (Files.store "handle") f ∧
      ¬q.Matches (Files.store "handle") g := by
  intro d f
  have hchanged : ∀ k, ∀ x ∈ d.changed.get k, Path.isSingle x.id = true := by
    intro k
    cases k
    · exact List.forall_mem_singleton.2 (by decide)
    · exact List.forall_mem_nil _
    · exact List.forall_mem_nil _
  have hremoved : ∀ k, ∀ id ∈ d.removed.get k, Path.isSingle id = true := by
    intro k
    cases k <;> exact List.forall_mem_nil _
  -- The memento is a location and is listed among the entities, so the store has it and the working
  -- copy does not.
  have hmisroutes : ¬∀ r, ¬d.Misroutes
      (fun r => (({} : MementoPersister).working.get? r).isSome) r :=
    fun h => h ⟨.location, "x"⟩ (.strayed .entity (by decide) (by decide)
      ⟨_, List.mem_singleton_self _, rfl⟩ (List.forall_mem_nil _))
  constructor
  · obtain ⟨q, m, hrun⟩ : ∃ q m, (({} : MementoPersister).delta Memory.store d).run .prepared =
      (.ok q, m) := ⟨_, _, rfl⟩
    have hmatches : ({} : MementoPersister).Matches Memory.store .prepared :=
      Memory.shows_iff.2 ⟨rfl, fun r => by simp [Memory.storedText?, Topology.get?]⟩
    have hiff := delta_matches_iff (.memory Memory.mirrors) trivial hchanged hremoved hmatches hrun
    exact ⟨q, m, hrun, hmatches, hiff.not.2 hmisroutes⟩
  · obtain ⟨q, g, hrun⟩ : ∃ q g, (({} : MementoPersister).delta (Files.store "handle") d).run f =
      (.ok q, g) := ⟨_, _, rfl⟩
    have hf : f.tree.IsSound := Files.isSound_root
    have hmatches : ({} : MementoPersister).Matches (Files.store "handle") f := by
      refine (Files.shows_iff hf).2 fun k => ⟨?_, ?_, fun id => ?_⟩
      · cases k <;> rfl
      · simp [f, Files.setPrepared, FileTree.root]
      · simp [f, Files.setPrepared, FileTree.root, Topology.get?]
    have hiff := delta_matches_iff (.files "handle") hf hchanged hremoved hmatches hrun
    exact ⟨q, g, hrun, hmatches, hiff.not.2 hmisroutes⟩

end MementoPersister

end Failover
