import Failover.Proofs.Persistence.Mementos
import Failover.Proofs.Store.Faults
import Mathlib.Data.Set.Basic

/-!
# Checkpoints and deltas call by call

A checkpoint or a delta is a sequence of calls of a store. Any of them may fail, and what goes on
elsewhere meanwhile is up to the store. `Writes` says what each of these calls does to the states in
which some objects have been written; what a whole checkpoint or delta does follows from it, whether
it succeeds or is cut short.

## Key results

- `Writes.delta`: a delta writes the objects that it lists
- `Writes.checkpoint`: a checkpoint writes all objects
- `Memory.writes`: what a memory holds while it is written
- `Writes.mirrored`, `Writes.faulty`: so does a store that mirrors one, and whatever goes wrong
-/

namespace Failover

open Failover.Action (Keeps Meets)
open MementoPersister (path)
open Store (Fault)

/-- The delta `d` lists a change of the object `r`. -/
def Delta.Lists (d : Delta) (r : ObjectRef) : Prop :=
  (∃ x ∈ d.changed.get r.kind, x.ref = r) ∨ r.id ∈ d.removed.get r.kind

/-- The delta `d` lists what is wanted: the mementos of objects, and the ids of those that are to
have none. -/
structure Delta.IsWanted (d : Delta) (want : ObjectRef → Option Memento) : Prop where
  changed : ∀ k, ∀ x ∈ d.changed.get k, want x.ref = some x
  removed : ∀ k, ∀ id ∈ d.removed.get k, want ⟨k, id⟩ = none

variable {ω : Type}

/-- The calls of the store `T` by which wanted mementos are written. In the states of `P done` the
objects of `done` have been written; a call that fails has written nothing. -/
structure Writes (T : ObjectStore ω) (want : ObjectRef → Option Memento)
    (P : Set ObjectRef → ω → Prop) : Prop where
  mono : ∀ {done done' : Set ObjectRef}, done' ⊆ done → ∀ s, P done s → P done' s
  openObject : ∀ done path, Meets (P done) (fun _ => P done) (P done) (T.call (.openObject path))
  createSubPath : ∀ done subPath,
    Meets (P done) (fun _ => P done) (P done) (T.call (.createSubPath subPath))
  /-- What is neither listed nor wanted is as it should be. -/
  list : ∀ done (k : Kind), Meets (P done)
    (fun (names : List String) => P (done ∪ {r | r.kind = k ∧ r.id ∉ names ∧ want r = none}))
    (P done) (T.call (.list k.subPath))
  put : ∀ done x, want x.ref = some x →
    Meets (P done) (fun _ => P (done ∪ {x.ref})) (P done)
      (T.call (.put (path x.ref) (Memento.codec.toText x)))
  delete : ∀ done r, want r = none →
    Meets (P done) (fun _ => P (done ∪ {r})) (P done) (T.call (.delete (path r)))

namespace Writes

variable {T : ObjectStore ω} {want : ObjectRef → Option Memento} {P : Set ObjectRef → ω → Prop}
  (hT : Writes T want P) {p : MementoPersister}
include hT

/-! ## Single objects -/

/-- `Stored.each` of actions, each of which writes some objects, writes them all. -/
private theorem each {β : Type} {act : β → Action ω PersistenceError Unit}
    {objects : β → Set ObjectRef} {bs : List β}
    (hact : ∀ b ∈ bs, ∀ done,
      Meets (P done) (fun _ => P (done ∪ objects b)) (P done) (act b)) (done : Set ObjectRef) :
    Meets (P done) (fun _ => P (done ∪ {r | ∃ b ∈ bs, r ∈ objects b})) (P done)
      (Stored.each act bs) := by
  induction bs generalizing done with
  | nil => exact .pure (hT.mono (by simp))
  | cons b bs ih =>
    rw [List.forall_mem_cons] at hact
    -- If the rest fails, the objects of the first have been written all the same.
    refine .bind (hact.1 done) fun _ => (ih hact.2 _).imp (fun _ => id) (fun _ => hT.mono ?_)
      (hT.mono Set.subset_union_left)
    rintro r (hr | ⟨c, hc, hr⟩)
    · exact .inl (.inl hr)
    · rcases List.mem_cons.1 hc with rfl | hc
      · exact .inl (.inr hr)
      · exact .inr ⟨c, hc, hr⟩

private theorem write {x : Memento} (hx : want x.ref = some x) (done : Set ObjectRef) :
    Meets (P done) (fun _ => P (done ∪ {x.ref})) (P done) (p.write T x) := by
  have htext : Meets (P done) (fun text s => text = Memento.codec.toText x ∧ P done s) (P done)
      (.lift (p.textOf x)) :=
    .lift (fun _ _ h hs => ⟨MementoPersister.textOf_eq_ok h, hs⟩) fun _ => id
  refine htext.bind fun text => ?_
  rintro s ⟨rfl, hs⟩
  exact ((hT.openObject done _).bind fun _ => hT.put done x hx).mapError _ s hs

private theorem remove {r : ObjectRef} (hr : want r = none) (done : Set ObjectRef) :
    Meets (P done) (fun _ => P (done ∪ {r})) (P done) (MementoPersister.remove T r.kind r.id) :=
  ((hT.openObject done _).bind fun _ => hT.delete done r hr).mapError _

/-- `write` of each of some wanted mementos writes their objects. -/
private theorem writes {xs : List Memento} (hxs : ∀ x ∈ xs, want x.ref = some x)
    (done : Set ObjectRef) :
    Meets (P done) (fun _ => P (done ∪ {r | ∃ x ∈ xs, r = x.ref})) (P done)
      (Stored.each (p.write T) xs) :=
  hT.each (fun x hx => hT.write (hxs x hx)) done

private theorem removes {k : Kind} {ids : List String} (hids : ∀ id ∈ ids, want ⟨k, id⟩ = none)
    (done : Set ObjectRef) :
    Meets (P done) (fun _ => P (done ∪ {r | ∃ id ∈ ids, r = ⟨k, id⟩})) (P done)
      (Stored.each (MementoPersister.remove T k) ids) :=
  hT.each (fun id hid => hT.remove (r := ⟨k, id⟩) (hids id hid)) done

/-! ## Deltas -/

/-- `deltaKind` of what is wanted writes the objects that the delta lists of the kind. -/
private theorem deltaKind {d : Delta} (hd : d.IsWanted want) (k : Kind) (done : Set ObjectRef) :
    Meets (P done) (fun _ => P (done ∪ {r | r.kind = k ∧ d.Lists r})) (P done)
      (p.deltaKind T d k) := by
  refine .bind (hT.writes (hd.changed k) done) fun _ =>
    (hT.removes (hd.removed k) _).imp (fun _ => id) (fun _ => hT.mono ?_)
      (hT.mono Set.subset_union_left)
  rintro r (hr | ⟨rfl, ⟨x, hx, hr⟩ | hr⟩)
  · exact .inl (.inl hr)
  · exact .inl (.inr ⟨x, hx, hr.symm⟩)
  · exact .inr ⟨r.id, hr, rfl⟩

/-- A `delta` of what is wanted writes the objects that it lists, and only a persister that runs
writes any. -/
theorem delta {d : Delta} (hd : d.IsWanted want) (done : Set ObjectRef) :
    Meets (P done) (fun q s => q.isStopped = false ∧ P (done ∪ {r | d.Lists r}) s) (P done)
      (p.delta T d) := by
  have hrunning : Meets (P done) (fun _ s => p.isStopped = false ∧ P done s) (P done)
      (p.checkRunning : Action ω PersistenceError Unit) :=
    .lift (fun _ _ h hs => ⟨by simpa using h, hs⟩) fun _ => id
  refine hrunning.bind fun _ => ?_
  rintro s ⟨hp, hs⟩
  by_cases hempty : d.isEmpty = true
  · -- Nothing is listed.
    have hnil : ∀ k, d.changed.get k = [] ∧ d.removed.get k = [] := by
      simpa [Delta.isEmpty, Kind.mem_all] using hempty
    rw [if_pos hempty]
    refine ⟨hp, hT.mono (Set.union_subset subset_rfl ?_) s hs⟩
    rintro r (⟨x, hx, -⟩ | hr)
    · simp [(hnil r.kind).1] at hx
    · simp [(hnil r.kind).2] at hr
  · rw [if_neg hempty]
    refine Meets.bind (hT.each (fun k _ => hT.deltaKind hd k) done)
      (fun _ => .pure fun s hs => ⟨hp, hT.mono ?_ s hs⟩) s hs
    rintro r (hr | hr)
    · exact .inl hr
    · exact .inr ⟨r.kind, r.kind.mem_all, rfl, hr⟩

/-! ## Checkpoints -/

/-- `checkpointKind` of what is wanted writes all objects of the kind. -/
private theorem checkpointKind {t : Topology} (ht : t.IsFiled) (hwant : ∀ r, want r = t.get? r)
    (k : Kind) (done : Set ObjectRef) :
    Meets (P done) (fun _ => P (done ∪ {r | r.kind = k})) (P done) (p.checkpointKind T t k) := by
  have hlist := (hT.list done k).mapError (PersistenceError.ofStore k.subPath)
  refine .bind ((hT.createSubPath done _).mapError _) fun _ => hlist.bind fun listed => ?_
  have hvalues : ∀ x ∈ (t.objects.get k).values, want x.ref = some x := by
    intro x hx
    obtain ⟨id, hget⟩ := SortedMap.mem_values.1 hx
    rw [hwant, ht ⟨k, id⟩ x hget]
    exact hget
  have hstale : ∀ id ∈ listed.filter fun id => !(t.objects.get k).contains id,
      want ⟨k, id⟩ = none := by
    intro id hid
    have hnone : (!(t.objects.get k).contains id) = true := (List.mem_filter.1 hid).2
    rw [hwant]
    show (t.objects.get k).get? id = none
    simpa [SortedMap.contains] using hnone
  refine (((hT.writes hvalues _).imp (fun _ => id) (fun _ _ => id)
    (hT.mono Set.subset_union_left)).bind fun _ => (hT.removes hstale _).imp (fun _ => id)
      (fun _ => hT.mono ?_) (hT.mono (Set.subset_union_left.trans Set.subset_union_left)))
  rintro r (hr | rfl)
  · exact .inl (.inl (.inl hr))
  -- Each object of the kind is wanted, or is listed and stale, or was not there.
  cases hget : t.get? r with
  | some x =>
    exact .inl (.inr ⟨x, SortedMap.mem_values.2 ⟨r.id, hget⟩, (ht r x hget).symm⟩)
  | none =>
    by_cases hlisted : r.id ∈ listed
    · have hnone : (t.objects.get r.kind).contains r.id = false := by
        rw [SortedMap.contains]
        exact Option.isSome_eq_false_iff.2 (Option.isNone_iff_eq_none.2 hget)
      exact .inr ⟨r.id, List.mem_filter.2 ⟨hlisted, by rw [hnone]; rfl⟩, rfl⟩
    · exact .inl (.inl (.inr ⟨rfl, hlisted, (hwant r).trans hget⟩))

/-- A `checkpoint` of what is wanted writes all objects. -/
theorem checkpoint {t : Topology} (ht : t.IsFiled) (hwant : ∀ r, want r = t.get? r)
    (done : Set ObjectRef) :
    Meets (P done) (fun q s => q.isStopped = false ∧ P Set.univ s) (P done) (p.checkpoint T t) := by
  have hrunning : Meets (P done) (fun _ s => p.isStopped = false ∧ P done s) (P done)
      (p.checkRunning : Action ω PersistenceError Unit) :=
    .lift (fun _ _ h hs => ⟨by simpa using h, hs⟩) fun _ => id
  refine hrunning.bind fun _ => ?_
  rintro s ⟨hp, hs⟩
  refine Meets.bind (hT.each (fun k _ => hT.checkpointKind ht hwant k) done)
    (fun _ => .pure fun s hs => ⟨hp, hT.mono ?_ s hs⟩) s hs
  exact fun r _ => .inr ⟨r.kind, r.kind.mem_all, rfl⟩

end Writes

/-! ## What a memory holds -/

namespace Memory

variable {want : ObjectRef → Option Memento} {m₀ m m' : Memory} {done done' : Set ObjectRef}

/-- The memory `m` is being written: the objects of `done` are as they are wanted, and all others
are as they are wanted or as they were in `m₀`. -/
structure IsWriting (want : ObjectRef → Option Memento) (m₀ : Memory) (done : Set ObjectRef)
    (m : Memory) : Prop where
  isPrepared : m.isPrepared = true
  written : ∀ r ∈ done, m.storedText? r = (want r).map Memento.codec.toText
  stored : ∀ r, m.storedText? r = (want r).map Memento.codec.toText ∨
    m.storedText? r = m₀.storedText? r

namespace IsWriting

/-- `IsWriting` before anything has been written. -/
theorem start (h : m₀.isPrepared = true) : IsWriting want m₀ ∅ m₀ :=
  ⟨h, fun _ => False.elim, fun _ => .inr rfl⟩

/-- `IsWriting` says less of fewer objects. -/
theorem mono (hsub : done' ⊆ done) (h : IsWriting want m₀ done m) : IsWriting want m₀ done' m :=
  { h with written := fun r hr => h.written r (hsub hr) }

/-- `IsWriting` after a call that writes one object. -/
theorem wrote (h : IsWriting want m₀ done m) {q : ObjectRef}
    (htext : ∀ r, m'.storedText? r =
      if r = q then (want q).map Memento.codec.toText else m.storedText? r)
    (hprepared : m'.isPrepared = m.isPrepared) : IsWriting want m₀ (done ∪ {q}) m' := by
  refine ⟨hprepared.trans h.isPrepared, ?_, fun r => ?_⟩
  · -- What is done is what had been, and the object that has just been written.
    rintro r (hr | rfl)
    · rw [htext]
      split
      · next heq => rw [heq]
      · exact h.written r hr
    · rw [htext, if_pos rfl]
  · rw [htext]
    split
    · next heq => exact .inl (by rw [heq])
    · exact h.stored r

end IsWriting

/-- What `step` does and returns is what a call of a memory meets. -/
private theorem meets_step {P E : Memory → Prop} {c : Store.Call} {Q : c.Answer → Memory → Prop}
    (h : ∀ m, P m → match (step c m).1 with
      | .ok a => Q a (step c m).2
      | .error _ => E (step c m).2) : Meets P Q E (store.call c) := by
  intro m hm
  have hend := h m hm
  have hrun : (store.call c).run m = step c m := rfl
  rw [hrun]
  cases hstep : step c m with
  | mk r m' =>
    rw [hstep] at hend
    cases r with
    | ok a => exact hend
    | error e => exact hend

/-- The calls of `Memory.store` by which a memory is written, if the objects that are wanted have a
place in it. -/
theorem writes (m₀ : Memory) (hwant : ∀ r x, want r = some x → '/' ∉ r.id.toList) :
    Writes store want (IsWriting want m₀) where
  mono hsub _ := IsWriting.mono hsub
  openObject done path := meets_step fun m h => by
    simp only [step]
    cases m.check path <;> exact h
  createSubPath done subPath := meets_step fun m h => by
    simp only [step]
    split <;> exact h
  list done k := meets_step (c := .list k.subPath) fun m (h : IsWriting want m₀ done m) => by
    have hcheck := check_eq_ok.2 ⟨k.isValid_subPath, h.isPrepared⟩
    simp only [step, hcheck, Except.map]
    refine { h with written := ?_ }
    rintro r (hr | ⟨rfl, hlisted, hnone⟩)
    · exact h.written r hr
    -- What is not listed has no text, and none is wanted.
    · rw [mem_namesUnder, Option.not_isSome_iff_eq_none] at hlisted
      rw [hnone]
      exact hlisted
  put done x hx := meets_step fun m (h : IsWriting want m₀ done m) => by
    have htext (r : ObjectRef) : (m.put (path x.ref) (Memento.codec.toText x)).storedText? r =
        if r = x.ref then (want x.ref).map Memento.codec.toText else m.storedText? r := by
      rw [hx]
      exact MementoPersister.storedText?_put m (hwant _ _ hx) _ r
    exact h.wrote htext rfl
  delete done q hq := meets_step fun m (h : IsWriting want m₀ done m) => by
    have htext (r : ObjectRef) : (m.drop (path q)).storedText? r =
        if r = q then (want q).map Memento.codec.toText else m.storedText? r := by
      rw [hq]
      exact MementoPersister.storedText?_drop m q r
    exact h.wrote htext rfl

end Memory

/-! ## Other stores -/

namespace Writes

variable {want : ObjectRef → Option Memento} {T : ObjectStore ω}

/-- A store that `Mirrors` a memory is written as the memory is; its calls keep what they keep
beside. -/
theorem mirrored {P : Set ObjectRef → Memory → Prop} (h : Writes Memory.store want P)
    {view : ω → Memory} (hT : T.Mirrors view) {F : ω → Prop} (hF : ∀ c, Keeps F (T.call c)) :
    Writes T want fun done s => F s ∧ P done (view s) where
  mono hsub s := And.imp_right (h.mono hsub (view s))
  openObject done path := ((hT _).meets (h.openObject done path)).frame (hF _)
  createSubPath done subPath := ((hT _).meets (h.createSubPath done subPath)).frame (hF _)
  list done k := ((hT (.list k.subPath)).meets (h.list done k)).frame (hF _)
  put done x hx := ((hT _).meets (h.put done x hx)).frame (hF _)
  delete done r hr := ((hT _).meets (h.delete done r hr)).frame (hF _)

/-- The calls of a `faulty` store write what the calls of the store write, if nothing that happens
meanwhile matters. -/
theorem faulty {P : Set ObjectRef → ω → Prop} (h : Writes T want P) {ι : Type}
    {plans : ω → List (Fault ι)} {setPlans : ω → List (Fault ι) → ω} {happen : ω → ι → ω}
    {may : ι → Prop} (hmay : ∀ done s, P done s → Fault.Allows may (plans s))
    (hplans : ∀ done s fs, P done s → Fault.Allows may fs → P done (setPlans s fs))
    (hhappen : ∀ done s x, P done s → may x → P done (happen s x)) :
    Writes (T.faulty plans setPlans happen) want P where
  mono := h.mono
  openObject done path := ObjectStore.meets_faulty (hmay done) (hplans done) (hhappen done)
    (by simp) (h.openObject done path)
  createSubPath done subPath := ObjectStore.meets_faulty (hmay done) (hplans done) (hhappen done)
    (by simp) (h.createSubPath done subPath)
  list done k := ObjectStore.meets_faulty (c := .list k.subPath) (hmay done) (hplans done)
    (hhappen done) (by simp) (h.list done k)
  put done x hx := ObjectStore.meets_faulty (hmay done) (hplans done) (hhappen done)
    (by simp) (h.put done x hx)
  delete done r hr := ObjectStore.meets_faulty (hmay done) (hplans done) (hhappen done)
    (by simp) (h.delete done r hr)

/-- Calls that keep something keep it while anything is written. -/
theorem of_keeps {P : ω → Prop} (h : ∀ c, Keeps P (T.call c)) : Writes T want fun _ => P where
  mono _ _ := id
  openObject _ _ := (h _).meets
  createSubPath _ _ := (h _).meets
  list _ k := (h (.list k.subPath)).meets
  put _ _ _ := (h _).meets
  delete _ _ _ := (h _).meets

/-- `Writes` may be restated for states that are described in another way. -/
theorem congr {P P' : Set ObjectRef → ω → Prop} (h : Writes T want P)
    (hP : ∀ done s, P done s ↔ P' done s) : Writes T want P' := by
  obtain rfl : P = P' := funext fun done => funext fun s => propext (hP done s)
  exact h

end Writes

end Failover
