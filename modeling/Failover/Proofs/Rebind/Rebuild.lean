import Failover.Proofs.Persistence.Mementos
import Failover.Rebind.Rebuild

/-!
# What is rebuilt of a memory

The objects and failures of a rebuild, as functions of what is stored. A rebuild that succeeds has
these in every failure mode; the modes differ only in which failures they put up with.

Both phases read the same texts, so a shell without a memento is one whose text has been reported
already, and no memento is ever missing.

## Key results

- `FailureLog.noteAll_eq_ok`, `FailureLog.noteNew_eq_ok`: what a log holds after noting failures
- `Rebuilt.ofManifest_eq_ok`, `Rebuilt.ofLoaded_eq_ok`: what each phase makes
- `Rebuilt.run_load_eq_ok`: when a rebuild succeeds, and with what
-/

namespace Failover

/-- A `bind` whose first part can only come out in one way. -/
private theorem bind_eq_ok {ε α β : Type} {x : Except ε α} {p : Prop} {a : α}
    (hx : ∀ a', x = .ok a' ↔ p ∧ a' = a) {f : α → Except ε β} {b : β} :
    x >>= f = .ok b ↔ p ∧ f a = .ok b := by
  cases x with
  | error e =>
    have hp : ¬p := fun hp => by simpa using (hx a).2 ⟨hp, rfl⟩
    simp [bind, Except.bind, hp]
  | ok a' =>
    obtain ⟨hp, rfl⟩ := (hx a').1 rfl
    simp [bind, Except.bind, hp]

/-- Whether a rebind goes on in spite of the failures `fs`. -/
def FailureMode.GoesOn (mode : FailureMode) (fs : List RebindFailure) : Prop :=
  mode = .failFast → fs = []

namespace FailureMode.GoesOn

variable {mode : FailureMode} {f : RebindFailure} {fs gs : List RebindFailure}

theorem nil : mode.GoesOn [] := fun _ => rfl

/-- A mode `GoesOn` in spite of failures from two sources if it does for both. -/
theorem append : mode.GoesOn (fs ++ gs) ↔ mode.GoesOn fs ∧ mode.GoesOn gs := by
  simp only [GoesOn, List.append_eq_nil_iff]
  exact forall_and

theorem cons : mode.GoesOn (f :: fs) ↔ mode ≠ .failFast ∧ mode.GoesOn fs := by
  by_cases h : mode = .failFast <;> simp [GoesOn, h]

theorem proceed : FailureMode.proceed.GoesOn fs := nofun

end FailureMode.GoesOn

/-! ## The log -/

namespace FailureLog

open FailureMode (GoesOn)

/-- The `FailureLog` of a list of failures. -/
def ofFailures (fs : List RebindFailure) : FailureLog :=
  ⟨fs, ByRef.empty.fileAll (fs.map fun f => (f.ref, ()))⟩

variable {mode : FailureMode} {fs gs : List RebindFailure} {f : RebindFailure} {log : FailureLog}

/-- The objects of `ofFailures` that have failed. -/
theorem contains_failed {r : ObjectRef} :
    (ofFailures fs).failed.contains r = true ↔ r ∈ fs.map (·.ref) := by
  have hkeys : (fs.map fun f => (f.ref, ())).map (·.1) = fs.map (·.ref) := by
    rw [List.map_map]
    rfl
  rw [← hkeys, ← ByRef.isSome_get?_fileAll]
  rfl

/-- `note` appends a failure, but for `failFast`. -/
theorem note_eq_ok : note mode (ofFailures fs) f = .ok log ↔
    mode ≠ .failFast ∧ log = ofFailures (fs ++ [f]) := by
  -- The objects that have failed are filed anew with the failure at the end.
  have happend : (ofFailures fs).failed.insert f.ref () = (ofFailures (fs ++ [f])).failed := by
    simp [ofFailures, ByRef.fileAll]
  rw [note, happend]
  by_cases hmode : mode = .failFast
  · simp [hmode]
  · simp only [hmode, if_false, ne_eq, not_false_eq_true, true_and, Except.ok.injEq]
    exact eq_comm

/-- `noteAll` appends all failures, if the mode `GoesOn`. -/
theorem noteAll_eq_ok : noteAll mode (ofFailures fs) gs = .ok log ↔
    mode.GoesOn gs ∧ log = ofFailures (fs ++ gs) := by
  induction gs generalizing fs with
  | nil =>
    rw [noteAll, List.append_nil, Except.ok.injEq]
    exact ⟨fun h => ⟨.nil, h.symm⟩, fun h => h.2.symm⟩
  | cons g gs ih =>
    rw [noteAll, bind_eq_ok fun _ => note_eq_ok, ih, GoesOn.cons, List.append_assoc, and_assoc]
    rfl

/-- The failures in `gs` of objects that have not failed in `fs`. -/
def fresh (fs gs : List RebindFailure) : List RebindFailure :=
  gs.filter fun g => g.ref ∉ fs.map (·.ref)

/-- What is `fresh` does not depend on failures of other objects. -/
theorem fresh_append_of_not_mem (h : f.ref ∉ gs.map (·.ref)) :
    fresh (fs ++ [f]) gs = fresh fs gs := by
  refine List.filter_congr fun g hg => ?_
  have hne : g.ref ≠ f.ref := fun heq => h (heq ▸ List.mem_map_of_mem hg)
  simp [hne]

/-- `noteNew` of failures of different objects appends those that are `fresh`. -/
theorem noteNew_eq_ok (hgs : (gs.map (·.ref)).Nodup) : noteNew mode (ofFailures fs) gs = .ok log ↔
    mode.GoesOn (fresh fs gs) ∧ log = ofFailures (fs ++ fresh fs gs) := by
  induction gs generalizing fs with
  | nil =>
    rw [noteNew, fresh, List.filter_nil, List.append_nil, Except.ok.injEq]
    exact ⟨fun h => ⟨.nil, h.symm⟩, fun h => h.2.symm⟩
  | cons g gs ih =>
    rw [List.map_cons, List.nodup_cons] at hgs
    rw [noteNew]
    -- An object that has failed before is passed over, and the log stays as it is.
    by_cases hg : g.ref ∈ fs.map (·.ref)
    · have hfresh : fresh fs (g :: gs) = fresh fs gs := List.filter_cons_of_neg (by simpa using hg)
      rw [if_pos (contains_failed.2 hg), hfresh]
      exact ih hgs.2
    · have hfresh : fresh fs (g :: gs) = g :: fresh fs gs :=
        List.filter_cons_of_pos (by simpa using hg)
      rw [if_neg (mt contains_failed.1 hg), hfresh, bind_eq_ok fun _ => note_eq_ok, ih hgs.2,
        fresh_append_of_not_mem hgs.1, GoesOn.cons, List.append_assoc, and_assoc]
      rfl

end FailureLog

namespace Rebuilt

open FailureMode (GoesOn)
open FailureLog (ofFailures fresh)

variable {mode : FailureMode} {registry : Registry} {fs : List RebindFailure}

/-! ## The shells -/

/-- The shell that `construct` makes for an object of a type, if the type has a constructor. -/
def shell? (registry : Registry) (e : ObjectRef × String) : Option (ObjectRef × ManagedObject) :=
  match registry.construct ⟨e.1.kind, e.1.id, e.2⟩ with
  | .ok o => some (e.1, o)
  | .error _ => none

/-- The failure of `construct` for an object of a type without a constructor. -/
def unknown? (registry : Registry) (e : ObjectRef × String) : Option RebindFailure :=
  match registry.construct ⟨e.1.kind, e.1.id, e.2⟩ with
  | .ok _ => none
  | .error f => some f

/-- The shells of the objects that the manifest `x` names. -/
def made (registry : Registry) (x : Manifest) : Shells :=
  ByRef.empty.fileAll (x.types.toList.filterMap (shell? registry))

/-- The failures of the first phase, over the manifest `x`. -/
def unmade (registry : Registry) (x : Manifest) : List RebindFailure :=
  x.failures.map .ofLoad ++ x.types.toList.filterMap (unknown? registry)

/-- `shell?` has the result of `construct`, for the object asked for. -/
theorem shell?_eq_some {e : ObjectRef × String} {r : ObjectRef} {o : ManagedObject} :
    shell? registry e = some (r, o) ↔
      e.1 = r ∧ registry.construct ⟨e.1.kind, e.1.id, e.2⟩ = .ok o := by
  rw [shell?]
  cases registry.construct ⟨e.1.kind, e.1.id, e.2⟩ <;> simp

/-- There is a shell in `made` for each object of a type that has a constructor. -/
theorem get?_made {x : Manifest} {r : ObjectRef} {o : ManagedObject} :
    (made registry x).get? r = some o ↔ ∃ objectType, x.types.get? r = some objectType ∧
      registry.construct ⟨r.kind, r.id, objectType⟩ = .ok o := by
  have hnodup : ((x.types.toList.filterMap (shell? registry)).map (·.1)).Nodup :=
    nodup_map_filterMap (fun _ _ _ h => (shell?_eq_some.1 h).1.symm) x.types.nodup_toList
  rw [made, ByRef.get?_fileAll_of_nodup hnodup, List.mem_filterMap]
  constructor
  · rintro ⟨⟨q, objectType⟩, he, hshell⟩
    obtain ⟨rfl, hconstruct⟩ := shell?_eq_some.1 hshell
    exact ⟨objectType, ByRef.mem_toList.1 he, hconstruct⟩
  · rintro ⟨objectType, htype, hconstruct⟩
    exact ⟨(r, objectType), ByRef.mem_toList.2 htype, shell?_eq_some.2 ⟨rfl, hconstruct⟩⟩

/-- `shells` collects what `shell?` and `unknown?` make of the types. -/
private theorem shells_eq_ok {es : List (ObjectRef × String)} {shelled : Shells}
    {x : Shells × FailureLog} : shells registry mode es shelled (ofFailures fs) = .ok x ↔
      mode.GoesOn (es.filterMap (unknown? registry)) ∧
        x = (shelled.fileAll (es.filterMap (shell? registry)),
          ofFailures (fs ++ es.filterMap (unknown? registry))) := by
  induction es generalizing shelled fs with
  | nil =>
    rw [shells, List.filterMap_nil, List.append_nil, Except.ok.injEq]
    exact ⟨fun h => ⟨.nil, h.symm⟩, fun h => h.2.symm⟩
  | cons e es ih =>
    rw [shells]
    -- Each type gives a shell, or a failure that a mode may not go on from.
    cases hconstruct : registry.construct ⟨e.1.kind, e.1.id, e.2⟩ with
    | ok o =>
      have hshell : shell? registry e = some (e.1, o) := shell?_eq_some.2 ⟨rfl, hconstruct⟩
      have hunknown : unknown? registry e = none := by simp [unknown?, hconstruct]
      rw [List.filterMap_cons_some hshell, List.filterMap_cons_none hunknown]
      exact ih
    | error f =>
      have hshell : shell? registry e = none := by simp [shell?, hconstruct]
      have hunknown : unknown? registry e = some f := by simp [unknown?, hconstruct]
      rw [List.filterMap_cons_none hshell, List.filterMap_cons_some hunknown, GoesOn.cons,
        bind_eq_ok fun _ => FailureLog.note_eq_ok, ih, List.append_assoc, and_assoc]
      rfl

/-- `ofManifest`, the first phase, makes the shells. -/
theorem ofManifest_eq_ok {x : Manifest} {y : Shells × FailureLog} :
    ofManifest registry mode x = .ok y ↔
      mode.GoesOn (unmade registry x) ∧ y = (made registry x, ofFailures (unmade registry x)) := by
  have hempty : ({} : FailureLog) = ofFailures [] := rfl
  rw [ofManifest, hempty, bind_eq_ok fun _ => FailureLog.noteAll_eq_ok, shells_eq_ok, unmade,
    GoesOn.append, and_assoc]
  rfl

/-! ## Their state -/

/-- The object of a shell with the state that was loaded, if some was, by `apply`. -/
def populated? (l : Lookup) (t : Topology) (e : ObjectRef × ManagedObject) : Option ManagedObject :=
  (t.get? e.1).map fun m => (e.2.apply m l).1

/-- What `apply` reports when a shell is given its state. -/
def troubles (l : Lookup) (t : Topology) (e : ObjectRef × ManagedObject) : List RebindFailure :=
  match t.get? e.1 with
  | some m => (e.2.apply m l).2
  | none => []

/-- The `troubles` of a shell with a memento are those of `apply`. -/
theorem troubles_of_get? {l : Lookup} {t : Topology} {r : ObjectRef} {o : ManagedObject}
    {m : Memento}
    (h : t.get? r = some m) : troubles l t (r, o) = (o.apply m l).2 := by
  rw [troubles, h]

/-- `populate` collects what `populated?` and `troubles` make of the shells, if those without a
memento have failed before. -/
private theorem populate_eq_ok {l : Lookup} {t : Topology} {es : List (ObjectRef × ManagedObject)}
    (hes : ∀ e ∈ es, t.get? e.1 = none → e.1 ∈ fs.map (·.ref)) {os : List ManagedObject}
    {b : Rebuilt} :
    populate mode l t es ⟨os, ofFailures fs⟩ = .ok b ↔ mode.GoesOn (es.flatMap (troubles l t)) ∧
      b = ⟨os ++ es.filterMap (populated? l t), ofFailures (fs ++ es.flatMap (troubles l t))⟩ := by
  induction es generalizing fs os with
  | nil =>
    rw [populate, List.filterMap_nil, List.flatMap_nil, List.append_nil, List.append_nil,
      Except.ok.injEq]
    exact ⟨fun h => ⟨.nil, h.symm⟩, fun h => h.2.symm⟩
  | cons e es ih =>
    rw [List.forall_mem_cons] at hes
    rw [populate, List.flatMap_cons, GoesOn.append]
    cases hget : t.get? e.1 with
    | none =>
      -- Without a memento the shell is passed over, as its object has failed before.
      have hnote : populateOne mode l t e.1 e.2 ⟨os, ofFailures fs⟩ = .ok ⟨os, ofFailures fs⟩ := by
        have hfailed := FailureLog.contains_failed.2 (hes.1 hget)
        simp [populateOne, hget, FailureLog.noteNew, RebindFailure.ref, hfailed, bind, Except.bind,
          pure, Except.pure]
      have htroubles : troubles l t e = [] := by simp [troubles, hget]
      have hpopulated : populated? l t e = none := by simp [populated?, hget]
      rw [htroubles, List.filterMap_cons_none hpopulated, List.nil_append, hnote,
        and_iff_right GoesOn.nil]
      exact ih hes.2
    | some m =>
      have htroubles : troubles l t e = (e.2.apply m l).2 := troubles_of_get? hget
      have hpopulated : populated? l t e = some (e.2.apply m l).1 := by simp [populated?, hget]
      have hone {c : Rebuilt} : populateOne mode l t e.1 e.2 ⟨os, ofFailures fs⟩ = .ok c ↔
          mode.GoesOn (e.2.apply m l).2 ∧
            c = ⟨os ++ [(e.2.apply m l).1], ofFailures (fs ++ (e.2.apply m l).2)⟩ := by
        rw [populateOne, hget]
        refine (bind_eq_ok fun _ => FailureLog.noteAll_eq_ok).trans (and_congr_right fun _ => ?_)
        exact (Except.ok.injEq ..).to_iff.trans eq_comm
      -- What has failed stays failed as more is noted.
      have hrest : ∀ e' ∈ es, t.get? e'.1 = none →
          e'.1 ∈ (fs ++ (e.2.apply m l).2).map (·.ref) := by
        intro e' he' hnone
        rw [List.map_append]
        exact List.mem_append_left _ (hes.2 e' he' hnone)
      rw [htroubles, List.filterMap_cons_some hpopulated, bind_eq_ok fun _ => hone, ih hrest,
        List.append_assoc, List.append_assoc, and_assoc]
      rfl

/-- What is reported of the second phase after the failures `fs` of the first. -/
def reported (fs : List RebindFailure) (shelled : Shells) (x : Loaded) : List RebindFailure :=
  fresh fs (x.failures.map .ofLoad) ++ shelled.toList.flatMap (troubles shelled.lookup x.topology)

/-- The objects of shells with the state that was loaded in `x`, told of the end of the rebind. -/
def populated (shelled : Shells) (x : Loaded) : List ManagedObject :=
  (shelled.toList.filterMap (populated? shelled.lookup x.topology)).map (·.completeRebind)

/-- `ofLoad` keeps the object that has failed. -/
theorem refs_ofLoad (fs : List LoadFailure) :
    (fs.map RebindFailure.ofLoad).map (·.ref) = fs.map (·.ref) := by
  rw [List.map_map]
  rfl

/-- `ofLoaded`, the second phase, gives the shells their state, if the text of every shell without a
memento has failed to load. -/
theorem ofLoaded_eq_ok {shelled : Shells} {x : Loaded} (hnodup : (x.failures.map (·.ref)).Nodup)
    (hx : ∀ r, (shelled.get? r).isSome → x.topology.get? r = none → r ∈ x.failures.map (·.ref))
    {b : Rebuilt} : ofLoaded mode shelled (ofFailures fs) x = .ok b ↔
      mode.GoesOn (reported fs shelled x) ∧
        b = ⟨populated shelled x, ofFailures (fs ++ reported fs shelled x)⟩ := by
  -- Once the load failures are noted, the objects without a memento have all failed.
  have hfailed : ∀ e ∈ shelled.toList, x.topology.get? e.1 = none →
      e.1 ∈ (fs ++ fresh fs (x.failures.map .ofLoad)).map (·.ref) := by
    intro e he hnone
    have hsome : (shelled.get? e.1).isSome := by
      rw [ByRef.mem_toList.1 he]
      rfl
    obtain ⟨f, hf, href⟩ := List.mem_map.1 (refs_ofLoad x.failures ▸ hx e.1 hsome hnone)
    rw [List.map_append, List.mem_append]
    by_cases hmem : e.1 ∈ fs.map (·.ref)
    · exact .inl hmem
    · exact .inr (List.mem_map.2 ⟨f, List.mem_filter.2 ⟨hf, by simpa [href] using hmem⟩, href⟩)
  rw [ofLoaded, bind_eq_ok fun _ => FailureLog.noteNew_eq_ok (refs_ofLoad x.failures ▸ hnodup),
    bind_eq_ok fun _ => populate_eq_ok hfailed, reported, GoesOn.append, and_assoc, populated,
    List.append_assoc]
  refine and_congr_right fun _ => and_congr_right fun _ => ?_
  exact (Except.ok.injEq ..).to_iff.trans eq_comm

/-! ## Both phases -/

section Load

open MementoPersister (parse readType found loaded manifest get?_found)

variable {p : MementoPersister} {m n : Memory} {b : Rebuilt}

/-- The shells of the objects in the memory `m`. -/
def shelled (registry : Registry) (m : Memory) : Shells := made registry (manifest m)

/-- What is loaded from the memory `m` once there are shells. -/
def state (registry : Registry) (m : Memory) : Loaded := loaded (shelled registry m).lookup m

/-- The failures of both phases over the memory `m`. -/
def failures (registry : Registry) (m : Memory) : List RebindFailure :=
  unmade registry (manifest m) ++
    reported (unmade registry (manifest m)) (shelled registry m) (state registry m)

/-- What the memory `m` is rebuilt to. -/
def ofMemory (registry : Registry) (m : Memory) : Rebuilt :=
  ⟨populated (shelled registry m) (state registry m), ofFailures (failures registry m)⟩

/-- There is a shell in `shelled` for each text whose type the manifest shows and a constructor is
registered for. -/
theorem get?_shelled {r : ObjectRef} {o : ManagedObject} : (shelled registry m).get? r = some o ↔
    ∃ text objectType, m.storedText? r = some text ∧ readType r text = .ok objectType ∧
      registry.construct ⟨r.kind, r.id, objectType⟩ = .ok o := by
  rw [shelled, get?_made, manifest]
  simp only [get?_found]
  constructor
  · rintro ⟨objectType, ⟨text, htext, htype⟩, ho⟩
    exact ⟨text, objectType, htext, htype, ho⟩
  · rintro ⟨text, objectType, htext, htype, ho⟩
    exact ⟨objectType, ⟨text, htext, htype⟩, ho⟩

/-- The `state` of an object is the memento that its text is. -/
theorem get?_state {r : ObjectRef} {x : Memento} : (state registry m).topology.get? r = some x ↔
    ∃ text, m.storedText? r = some text ∧ parse (shelled registry m).lookup r text = .ok x :=
  get?_found

/-- `ofLoaded` of the `state` of a memory: every shell without a memento has failed to load. -/
private theorem ofLoaded_state_eq_ok :
    ofLoaded mode (shelled registry m) (ofFailures fs) (state registry m) = .ok b ↔
      mode.GoesOn (reported fs (shelled registry m) (state registry m)) ∧
        b = ⟨populated (shelled registry m) (state registry m),
          ofFailures (fs ++ reported fs (shelled registry m) (state registry m))⟩ := by
  refine ofLoaded_eq_ok (MementoPersister.nodup_failures _ m) fun r hsome hnone => ?_
  -- There is a text for every shell, and it is found or has failed.
  obtain ⟨o, ho⟩ := Option.isSome_iff_exists.1 hsome
  obtain ⟨text, _, htext, -⟩ := get?_shelled.1 ho
  exact MementoPersister.mem_refs_failures.2 ⟨by rw [htext]; rfl, hnone⟩

/-- `load` succeeds if the store can be read and the mode puts up with the failures, and then
returns `ofMemory`. -/
theorem run_load_eq_ok : (load Memory.store p registry mode).run m = (.ok b, n) ↔
    (p.isStopped = false ∧ ∀ k : Kind, m.IsOpen k.subPath) ∧ mode.GoesOn (failures registry m) ∧
      b = ofMemory registry m ∧ n = m := by
  rw [load, Action.run_bind_eq_ok]
  simp only [Action.run_mapError_eq_ok]
  constructor
  · rintro ⟨x, t, hmanifest, h⟩
    -- Both loads read the same memory, whose sub-paths are open since the first succeeded.
    obtain ⟨hp, hopen⟩ := MementoPersister.isOpen_of_loadManifest_ok hmanifest
    rw [MementoPersister.run_loadManifest hp hopen] at hmanifest
    cases hmanifest
    obtain ⟨y, t, hshells, h⟩ := Action.run_bind_eq_ok.1 h
    rw [Action.run_lift, Prod.mk.injEq, ofManifest_eq_ok] at hshells
    obtain ⟨⟨hunmade, rfl⟩, rfl⟩ := hshells
    obtain ⟨z, t, hloaded, h⟩ := Action.run_bind_eq_ok.1 h
    rw [Action.run_mapError_eq_ok, MementoPersister.run_loadLenient hp hopen] at hloaded
    cases hloaded
    rw [Action.run_lift, Prod.mk.injEq] at h
    obtain ⟨hreported, rfl⟩ := ofLoaded_state_eq_ok.1 h.1
    exact ⟨⟨hp, hopen⟩, GoesOn.append.2 ⟨hunmade, hreported⟩, rfl, h.2.symm⟩
  · rintro ⟨⟨hp, hopen⟩, hmode, rfl, rfl⟩
    obtain ⟨hunmade, hreported⟩ := GoesOn.append.1 hmode
    have hloaded := Action.run_mapError_eq_ok (f := RebindError.persistence).2
      (MementoPersister.run_loadLenient (l := (shelled registry n).lookup) hp hopen)
    refine ⟨_, n, MementoPersister.run_loadManifest hp hopen, Action.run_bind_eq_ok.2 ⟨_, n,
      Prod.ext (ofManifest_eq_ok.2 ⟨hunmade, rfl⟩) rfl, Action.run_bind_eq_ok.2 ⟨_, n, hloaded,
        Prod.ext (ofLoaded_state_eq_ok.2 ⟨hreported, rfl⟩) rfl⟩⟩⟩

/-- If `load` puts up with all failures, only the store can make it fail. -/
theorem run_load_proceed (p : MementoPersister) (registry : Registry) (m : Memory) :
    (load Memory.store p registry .proceed).run m = (.ok (ofMemory registry m), m) ∨
      ∃ e n, (load Memory.store p registry .proceed).run m = (.error (.persistence e), n) := by
  -- With the manifest read, every object can be opened, and nothing else can fail.
  cases hmanifest : (p.loadManifest Memory.store).run m with
  | mk r n =>
    cases r with
    | ok x =>
      have hopen := MementoPersister.isOpen_of_loadManifest_ok hmanifest
      exact .inl (run_load_eq_ok.2 ⟨hopen, .proceed, rfl, rfl⟩)
    | error e =>
      have herror : ((p.loadManifest Memory.store).mapError RebindError.persistence).run m =
          (.error (.persistence e), n) := by
        rw [Action.run_mapError, hmanifest]
        rfl
      exact .inr ⟨e, n, Action.run_bind_of_error herror _⟩

end Load

end Rebuilt

/-- `ofRebuilt` counts every object that was rebuilt, under its kind. -/
theorem RebindReport.size_ofRebuilt (b : Rebuilt) (readOnly : Bool) :
    (RebindReport.ofRebuilt b readOnly).size = b.objects.length := by
  obtain ⟨os, log⟩ := b
  simp only [size, ofRebuilt, PerKind.ofFn, Rebuilt.count]
  induction os with
  | nil => rfl
  | cons o os ih =>
    rw [List.length_cons, ← ih]
    cases hkind : o.identity.kind <;> simp [hkind] <;> omega

end Failover
