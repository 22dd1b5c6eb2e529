import Failover.Proofs.Json.Readers
import Failover.Proofs.Rebind.Graph
import Failover.Proofs.Rebind.Rebuild

/-!
# A rebuild is exact

Every stored object is rebuilt or has one failure of its own: its type cannot be read, or is not
known, or its text is no memento. With plain constructors an object that is rebuilt has the memento
that is stored, and one failure for each reference to an object that has no shell.

## Key results

- `Rebuilt.mem_refs_own`: which objects have a failure of their own
- `Rebuilt.exists_ref_of_unresolved`: if only references are reported, every stored object is
  rebuilt
- `Rebuilt.ofMemory_isExact`: with plain constructors the graph and the failures are exact
-/

namespace Failover

open MementoPersister (parse readType found loaded manifest parse_eq_ok readType_eq_ok get?_found
  mem_failures nodup_failures)

/-! ## Constructors -/

namespace Registry

variable {g g' : Registry} {i : Identity}

/-- `construct` fails only with `unknownType`. -/
theorem construct_eq_error {f : RebindFailure} (h : g.construct i = .error f) :
    f = .unknownType ⟨i.kind, i.id⟩ i.objectType := by
  rw [construct] at h
  split at h
  · cases h
  · exact (Except.error.inj h).symm

/-- `construct` succeeds for the types for which `isRegistered` holds. -/
theorem exists_construct_eq_ok :
    (∃ o, g.construct i = .ok o) ↔ g.isRegistered i.kind i.objectType = true := by
  rw [construct, isRegistered, ByRef.contains]
  cases g.constructors.get? ⟨i.kind, i.objectType⟩ <;> simp

/-- Every constructor of the registry `g` makes plain shells. -/
def IsBasic (g : Registry) : Prop :=
  ∀ r make, g.constructors.get? r = some make → make = ManagedObject.shell

/-- A registry without constructors `IsBasic`. -/
theorem isBasic_empty : ({} : Registry).IsBasic := by
  intro r make h
  rw [show ({} : Registry).constructors = .empty from rfl, ByRef.get?_empty] at h
  cases h

/-- `registerBasic` adds a constructor that makes plain shells. -/
theorem IsBasic.registerBasic (hg : g.IsBasic) {k : Kind} {objectType : String}
    (h : g.registerBasic k objectType = .ok g') : g'.IsBasic := by
  intro r make hmake
  rw [Registry.registerBasic, register] at h
  split at h
  · cases h
  · split at h
    · cases h
    · cases h
      rw [ByRef.get?_insert] at hmake
      split at hmake
      · exact (Option.some.inj hmake).symm
      · exact hg r make hmake

/-- A `Registry` of one type, `web`, of entities. -/
def web : Registry := ⟨ByRef.empty.insert ⟨.entity, "web"⟩ ManagedObject.shell⟩

theorem registerBasic_web : ({} : Registry).registerBasic .entity "web" = .ok web := rfl

theorem isBasic_web : web.IsBasic := isBasic_empty.registerBasic registerBasic_web

/-- `construct` by a registry that `IsBasic` makes the plain shell. -/
theorem IsBasic.construct_eq_ok (hg : g.IsBasic) {o : ManagedObject} :
    g.construct i = .ok o ↔ g.isRegistered i.kind i.objectType = true ∧ o = .shell i := by
  rw [construct, isRegistered, ByRef.contains]
  cases hmake : g.constructors.get? ⟨i.kind, i.objectType⟩ with
  | none => simp
  | some make =>
    rw [hg _ make hmake]
    simp [eq_comm]

end Registry

/-- The manifest `x` shows a type of the object `r` that is registered. -/
def Manifest.isKnown (x : Manifest) (registry : Registry) (r : ObjectRef) : Bool :=
  (x.types.get? r).any (registry.isRegistered r.kind)

/-- The failure `f` is that of a text that could not be loaded or of an unknown type. -/
def RebindFailure.IsOwn (f : RebindFailure) : Prop :=
  (∃ text, f = .load f.ref text) ∨ ∃ objectType, f = .unknownType f.ref objectType

/-- If every failure is of the thing that it comes from, `filter` finds those of one thing. -/
private theorem filter_flatMap_of_mem {α : Type} {key : α → ObjectRef} {l : List α}
    (hl : (l.map key).Nodup) {g : α → List RebindFailure} (hg : ∀ a ∈ l, ∀ f ∈ g a, f.ref = key a)
    {a : α} (ha : a ∈ l) : (l.flatMap g).filter (·.ref = key a) = g a := by
  induction l with
  | nil => simp at ha
  | cons b l ih =>
    rw [List.map_cons, List.nodup_cons] at hl
    rw [List.forall_mem_cons] at hg
    rw [List.flatMap_cons, List.filter_append]
    -- The thing looked for is the first, and no later one has its name, or it comes later.
    rcases List.mem_cons.1 ha with rfl | ha
    · have hself : (g a).filter (·.ref = key a) = g a :=
        List.filter_eq_self.2 fun f hf => by simpa using hg.1 f hf
      have hrest : (l.flatMap g).filter (·.ref = key a) = [] := by
        refine List.filter_eq_nil_iff.2 fun f hf heq => hl.1 ?_
        obtain ⟨b, hb, hf⟩ := List.mem_flatMap.1 hf
        exact List.mem_map.2 ⟨b, hb, (hg.2 b hb f hf).symm.trans (of_decide_eq_true heq)⟩
      rw [hself, hrest, List.append_nil]
    · have hother : (g b).filter (·.ref = key a) = [] := by
        refine List.filter_eq_nil_iff.2 fun f hf heq => hl.1 ?_
        exact List.mem_map.2 ⟨a, ha, (of_decide_eq_true heq).symm.trans (hg.1 f hf)⟩
      rw [hother, List.nil_append]
      exact ih hl.2 hg.2 ha

/-- `filter` finds no failure of an object that has none. -/
private theorem filter_eq_nil {fs : List RebindFailure} {r : ObjectRef} (h : r ∉ fs.map (·.ref)) :
    fs.filter (·.ref = r) = [] :=
  List.filter_eq_nil_iff.2 fun f hf heq =>
    h (List.mem_map.2 ⟨f, hf, of_decide_eq_true heq⟩)

namespace Rebuilt

open FailureLog (ofFailures fresh)

variable {registry : Registry} {m : Memory} {r : ObjectRef} {f : RebindFailure}

/-! ## Objects that are not rebuilt -/

/-- The failures of objects that are not rebuilt: those of the manifest, and of the mementos those
that are not known yet. -/
def own (registry : Registry) (m : Memory) : List RebindFailure :=
  unmade registry (manifest m) ++
    fresh (unmade registry (manifest m)) ((state registry m).failures.map .ofLoad)

/-- The `failures` are the `own` ones, and then what is reported as the shells are given their
state. -/
theorem failures_eq_own_append (registry : Registry) (m : Memory) : failures registry m =
    own registry m ++ (shelled registry m).toList.flatMap
      (troubles (shelled registry m).lookup (state registry m).topology) :=
  (List.append_assoc ..).symm

/-- `unknown?` has the failure of `construct`. -/
private theorem unknown?_eq_some {e : ObjectRef × String} :
    unknown? registry e = some f ↔ registry.construct ⟨e.1.kind, e.1.id, e.2⟩ = .error f := by
  rw [unknown?]
  cases registry.construct ⟨e.1.kind, e.1.id, e.2⟩ <;> simp

/-- `unknown?` reports the object that it is asked for. -/
private theorem ref_of_unknown? {e : ObjectRef × String} (h : unknown? registry e = some f) :
    f.ref = e.1 := by
  rw [Registry.construct_eq_error (unknown?_eq_some.1 h)]
  rfl

/-- The objects for which `construct` fails on the type that the manifest shows. -/
private theorem mem_refs_unknown {x : Manifest} :
    r ∈ (x.types.toList.filterMap (unknown? registry)).map (·.ref) ↔
      ∃ objectType f, x.types.get? r = some objectType ∧
        registry.construct ⟨r.kind, r.id, objectType⟩ = .error f := by
  simp only [List.mem_map, List.mem_filterMap]
  constructor
  · rintro ⟨f, ⟨⟨q, objectType⟩, he, hf⟩, rfl⟩
    obtain rfl := ref_of_unknown? hf
    exact ⟨objectType, f, ByRef.mem_toList.1 he, unknown?_eq_some.1 hf⟩
  · rintro ⟨objectType, f, htype, hf⟩
    have hunknown : unknown? registry (r, objectType) = some f := unknown?_eq_some.2 hf
    exact ⟨f, ⟨(r, objectType), ByRef.mem_toList.2 htype, hunknown⟩, ref_of_unknown? hunknown⟩

/-- An object is `unmade` in the first phase if it is stored and has no shell. -/
private theorem mem_refs_unmade : r ∈ (unmade registry (manifest m)).map (·.ref) ↔
    (m.storedText? r).isSome ∧ (shelled registry m).get? r = none := by
  rw [unmade, List.map_append, List.mem_append, refs_ofLoad, mem_refs_unknown, manifest,
    MementoPersister.mem_refs_failures]
  constructor
  · -- An object has no shell if its type could not be read, or if there is no constructor for that.
    rintro (⟨hsome, hnone⟩ | ⟨objectType, f, htype, hf⟩)
    · refine ⟨hsome, Option.eq_none_iff_forall_ne_some.2 fun o ho => ?_⟩
      obtain ⟨objectType, htype, -⟩ := get?_made.1 ho
      cases hnone.symm.trans htype
    · obtain ⟨text, htext, -⟩ := get?_found.1 htype
      refine ⟨by rw [htext]; rfl, Option.eq_none_iff_forall_ne_some.2 fun o ho => ?_⟩
      obtain ⟨objectType', htype', ho⟩ := get?_made.1 ho
      obtain rfl := Option.some.inj (htype.symm.trans htype')
      cases hf.symm.trans ho
  · rintro ⟨hsome, hnone⟩
    cases htype : (found readType m).get? r with
    | none => exact .inl ⟨hsome, rfl⟩
    | some objectType =>
      cases hconstruct : registry.construct ⟨r.kind, r.id, objectType⟩ with
      | error f => exact .inr ⟨objectType, f, rfl, hconstruct⟩
      | ok o => cases hnone.symm.trans (get?_made.2 ⟨objectType, htype, hconstruct⟩)

/-- `fresh` failures are of objects that have not failed before. -/
private theorem mem_refs_fresh {fs gs : List RebindFailure} :
    r ∈ (fresh fs gs).map (·.ref) ↔ r ∈ gs.map (·.ref) ∧ r ∉ fs.map (·.ref) := by
  simp only [fresh, List.mem_map, List.mem_filter, decide_eq_true_eq]
  constructor
  · rintro ⟨g, ⟨hg, hfs⟩, rfl⟩
    exact ⟨⟨g, hg, rfl⟩, hfs⟩
  · rintro ⟨⟨g, hg, rfl⟩, hfs⟩
    exact ⟨g, ⟨hg, hfs⟩, rfl⟩

/-- An object has a failure among the `own` ones if it is stored and has no shell or no memento. -/
theorem mem_refs_own : r ∈ (own registry m).map (·.ref) ↔ (m.storedText? r).isSome ∧
    ((shelled registry m).get? r = none ∨ (state registry m).topology.get? r = none) := by
  -- What failed before is not noted again, but that object has failed all the same.
  have hstate : r ∈ ((state registry m).failures.map RebindFailure.ofLoad).map (·.ref) ↔
      (m.storedText? r).isSome ∧ (state registry m).topology.get? r = none := by
    rw [refs_ofLoad]
    exact MementoPersister.mem_refs_failures
  rw [own, List.map_append, List.mem_append, mem_refs_fresh, or_and_left,
    and_iff_left (Classical.em _), mem_refs_unmade, hstate, ← and_or_left]

/-- No object has two failures among the `own` ones. -/
theorem nodup_refs_own (registry : Registry) (m : Memory) :
    ((own registry m).map (·.ref)).Nodup := by
  have hunknown :
      (((manifest m).types.toList.filterMap (unknown? registry)).map (·.ref)).Nodup :=
    nodup_map_filterMap (fun _ _ _ => ref_of_unknown?) (manifest m).types.nodup_toList
  have hunmade : ((unmade registry (manifest m)).map (·.ref)).Nodup := by
    rw [unmade, List.map_append, refs_ofLoad]
    refine List.nodup_append.2 ⟨nodup_failures readType m, hunknown, ?_⟩
    -- An object that the manifest cannot read has no type in it.
    rintro r hr q hq rfl
    obtain ⟨-, hnone⟩ := MementoPersister.mem_refs_failures.1 hr
    obtain ⟨objectType, _, htype, -⟩ := mem_refs_unknown.1 hq
    cases hnone.symm.trans htype
  have hstate : (((state registry m).failures.map RebindFailure.ofLoad).map (·.ref)).Nodup := by
    rw [refs_ofLoad]
    exact nodup_failures _ m
  rw [own, List.map_append]
  refine List.nodup_append.2 ⟨hunmade, hstate.sublist (List.filter_sublist.map _), ?_⟩
  rintro r hr q hq rfl
  exact (mem_refs_fresh.1 hq).2 hr

/-- The `unmade` failures are of the two sorts that `IsOwn` allows. -/
theorem isOwn_of_mem_unmade {x : Manifest} (h : f ∈ unmade registry x) : f.IsOwn := by
  rw [unmade, List.mem_append] at h
  obtain h | h := h
  · obtain ⟨g, -, rfl⟩ := List.mem_map.1 h
    exact .inl ⟨g.error.message, rfl⟩
  · obtain ⟨e, -, hf⟩ := List.mem_filterMap.1 h
    rw [Registry.construct_eq_error (unknown?_eq_some.1 hf)]
    exact .inr ⟨e.2, rfl⟩

/-- The `own` failures are of the two sorts that `IsOwn` allows. -/
theorem isOwn_of_mem_own (h : f ∈ own registry m) : f.IsOwn := by
  rw [own, List.mem_append] at h
  obtain h | h := h
  · exact isOwn_of_mem_unmade h
  · obtain ⟨g, -, rfl⟩ := List.mem_map.1 (List.mem_filter.1 h).1
    exact .inl ⟨g.error.message, rfl⟩

/-! ## Objects that are rebuilt -/

/-- What is `populated` is made of a shell and the memento that is loaded for it. -/
theorem mem_populated {shells : Shells} {y : Loaded} {o : ManagedObject} :
    o ∈ populated shells y ↔ ∃ r shell x, shells.get? r = some shell ∧
      y.topology.get? r = some x ∧ (shell.apply x shells.lookup).1.completeRebind = o := by
  simp only [populated, List.mem_map, List.mem_filterMap, populated?, Option.map_eq_some_iff]
  constructor
  · rintro ⟨_, ⟨⟨r, shell⟩, he, x, hx, rfl⟩, rfl⟩
    exact ⟨r, shell, x, ByRef.mem_toList.1 he, hx, rfl⟩
  · rintro ⟨r, shell, x, hshell, hx, rfl⟩
    exact ⟨_, ⟨(r, shell), ByRef.mem_toList.2 hshell, x, hx, rfl⟩, rfl⟩

/-- What is `populated` from shells of different objects is different. -/
theorem nodup_refs_populated {shells : Shells} {y : Loaded}
    (h : ∀ r shell, shells.get? r = some shell → (y.topology.get? r).isSome → shell.ref = r) :
    ((populated shells y).map (·.ref)).Nodup := by
  rw [populated, List.map_map]
  refine nodup_map_filterMap (fun e he o ho => ?_) shells.nodup_toList
  obtain ⟨x, hx, rfl⟩ := Option.map_eq_some_iff.1 ho
  have hsome : (y.topology.get? e.1).isSome := by
    rw [hx]
    rfl
  exact ManagedObject.ref_apply.trans (h e.1 e.2 (ByRef.mem_toList.1 he) hsome)

/-- The mementos of `state` stand under their own kind and id. -/
theorem ref_of_get?_state {x : Memento} (h : (state registry m).topology.get? r = some x) :
    x.ref = r := by
  obtain ⟨_, -, hparse⟩ := get?_state.1 h
  exact (parse_eq_ok.1 hparse).2

/-- If the `failures` are of references only, every stored object is rebuilt. -/
theorem exists_ref_of_unresolved (h : ∀ f ∈ failures registry m, ∃ q t, f = .unresolved q t)
    (hr : (m.storedText? r).isSome) : ∃ o ∈ (ofMemory registry m).objects, o.ref = r := by
  rw [failures_eq_own_append] at h
  -- A failure of its own would be no reference, so it has a shell and a memento.
  have hown : r ∉ (own registry m).map (·.ref) := by
    intro hmem
    obtain ⟨f, hf, -⟩ := List.mem_map.1 hmem
    obtain ⟨q, t, rfl⟩ := h f (List.mem_append_left _ hf)
    rcases isOwn_of_mem_own hf with ⟨_, heq⟩ | ⟨_, heq⟩ <;> cases heq
  rw [mem_refs_own, not_and, not_or] at hown
  obtain ⟨shell, hshell⟩ := Option.ne_none_iff_exists'.1 (hown hr).1
  obtain ⟨x, hx⟩ := Option.ne_none_iff_exists'.1 (hown hr).2
  refine ⟨_, mem_populated.2 ⟨r, shell, x, hshell, hx, rfl⟩, ?_⟩
  rw [ManagedObject.ref_completeRebind, ManagedObject.ref_apply, ← ref_of_get?_state hx]
  -- A shell of another object would have been reported.
  by_contra hne
  have hmem : RebindFailure.populate shell.ref ("memento is for " ++ x.ref.text) ∈
      troubles (shelled registry m).lookup (state registry m).topology (r, shell) := by
    rw [troubles_of_get? hx, ManagedObject.apply_of_ref_ne (Ne.symm hne)]
    exact List.mem_singleton_self _
  obtain ⟨q, t, heq⟩ := h _ (List.mem_append_right _
    (List.mem_flatMap.2 ⟨_, ByRef.mem_toList.2 hshell, hmem⟩))
  cases heq

end Rebuilt

/-! ## Plain constructors -/

namespace Shells

variable {shells : Shells} {r : ObjectRef}

/-- A handle made by `handleFor` is live if there is a shell of its reference. -/
theorem isLive_handleFor :
    (ManagedObject.handleFor shells.lookup r).isLive = (shells.get? r).isSome := by
  rw [ManagedObject.handleFor, lookup]
  cases shells.get? r <;> rfl

/-- `Shells.lookup` answers with the object asked for if the shells stand under their own kind and
id. -/
theorem lookup_isFaithful (h : ∀ r o, shells.get? r = some o → o.ref = r) :
    shells.lookup.IsFaithful := by
  intro r
  rw [lookup]
  cases ho : shells.get? r with
  | none => exact ⟨_, rfl, rfl, rfl⟩
  | some o =>
    obtain rfl := h r o ho
    exact ⟨_, rfl, rfl, rfl⟩

end Shells

/-- With lookups for which `IsFaithful` holds it does not matter which of them is used to `parse` a
text. -/
theorem MementoPersister.parse_of_isFaithful {l : Lookup} (hl : l.IsFaithful) :
    parse l = parse .placeholders := by
  funext r text
  rw [parse, parse, Memento.load_of_isFaithful hl,
    Memento.load_of_isFaithful Lookup.placeholders_isFaithful]

namespace Rebuilt

variable {registry : Registry} {m : Memory} {r : ObjectRef} {f : RebindFailure}

/-- There is a shell in `shelled` of each object of a known type. -/
theorem isSome_get?_shelled (registry : Registry) (m : Memory) (r : ObjectRef) :
    ((shelled registry m).get? r).isSome = (manifest m).isKnown registry r := by
  rw [Bool.eq_iff_iff, Option.isSome_iff_exists, Manifest.isKnown, Option.any_eq_true]
  simp only [shelled, get?_made]
  constructor
  · rintro ⟨o, objectType, htype, ho⟩
    exact ⟨objectType, htype, Registry.exists_construct_eq_ok.1 ⟨o, ho⟩⟩
  · rintro ⟨objectType, htype, hregistered⟩
    obtain ⟨o, ho⟩ := Registry.exists_construct_eq_ok.2
      (show registry.isRegistered (Identity.mk r.kind r.id objectType).kind objectType = true
        from hregistered)
    exact ⟨o, objectType, htype, ho⟩

section Basic

variable (hreg : registry.IsBasic)
include hreg

/-- With plain constructors, a shell has the kind and id that it stands under, and the type that
`readType` shows. -/
theorem identity_of_get?_shelled {o : ManagedObject} (h : (shelled registry m).get? r = some o) :
    ∃ text objectType, m.storedText? r = some text ∧ readType r text = .ok objectType ∧
      o.identity = ⟨r.kind, r.id, objectType⟩ := by
  obtain ⟨text, objectType, htext, htype, ho⟩ := get?_shelled.1 h
  obtain ⟨-, rfl⟩ := hreg.construct_eq_ok.1 ho
  exact ⟨text, objectType, htext, htype, rfl⟩

/-- With plain constructors, a shell has the kind and id that it stands under. -/
theorem ref_of_get?_shelled {o : ManagedObject} (h : (shelled registry m).get? r = some o) :
    o.ref = r := by
  obtain ⟨_, objectType, -, -, ho⟩ := identity_of_get?_shelled hreg h
  rw [ManagedObject.ref, ho]

/-- With plain constructors, the `lookup` of the shells `IsFaithful`. -/
theorem lookup_shelled_isFaithful : (shelled registry m).lookup.IsFaithful :=
  Shells.lookup_isFaithful fun _ _ => ref_of_get?_shelled hreg

/-- With plain constructors, the shells are as good as `placeholders` for loading mementos. -/
theorem state_eq_loaded : state registry m = loaded .placeholders m := by
  rw [state, loaded, loaded,
    MementoPersister.parse_of_isFaithful (lookup_shelled_isFaithful hreg)]

/-- With plain constructors, `toMemento` of an object exports the memento that was loaded for it. -/
theorem toMemento_populated {shell : ManagedObject} {x : Memento}
    (hshell : (shelled registry m).get? r = some shell)
    (hx : (state registry m).topology.get? r = some x) :
    (shell.apply x (shelled registry m).lookup).1.completeRebind.toMemento = x := by
  have hfaithful := lookup_shelled_isFaithful (m := m) hreg
  obtain ⟨text, objectType, htext, htype, hidentity⟩ := identity_of_get?_shelled hreg hshell
  obtain ⟨text', htext', hparse⟩ := get?_state.1 hx
  obtain rfl := Option.some.inj (htext.symm.trans htext')
  -- The shell has its type from the manifest, and the memento shows the same.
  obtain ⟨entry, hentry, rfl⟩ := readType_eq_ok.1 htype
  obtain ⟨hload, rfl⟩ := parse_eq_ok.1 hparse
  have hmemento : Memento.codec.ofText text = .ok x := (Memento.load_eq_ok_iff hfaithful).1 hload
  obtain rfl := ManifestEntry.eq_of_ofText hentry hmemento
  rw [ManagedObject.toMemento_completeRebind]
  have href : x.ref = shell.ref := by rw [ManagedObject.ref, hidentity]
  rw [ManagedObject.toMemento_apply hfaithful.keepsIds href, hidentity]

/-- The objects of the graph that is rebuilt: those of a shell and a memento each. -/
theorem get?_ofObjects_ofMemory {readOnly : Bool} {o : ManagedObject} :
    (ManagedGraph.ofObjects (ofMemory registry m).objects readOnly).get? r = some o ↔
      ∃ shell x, (shelled registry m).get? r = some shell ∧
        (state registry m).topology.get? r = some x ∧
        (shell.apply x (shelled registry m).lookup).1.completeRebind = o := by
  -- Plain constructors make shells of the id that they are given, so no two objects collide.
  have href {q : ObjectRef} {shell : ManagedObject} {x : Memento}
      (h : (shelled registry m).get? q = some shell) :
      (shell.apply x (shelled registry m).lookup).1.completeRebind.ref = q :=
    ManagedObject.ref_apply.trans (ref_of_get?_shelled hreg h)
  rw [ofMemory, ManagedGraph.get?_ofObjects
    (nodup_refs_populated fun _ _ hshell _ => ref_of_get?_shelled hreg hshell), mem_populated]
  constructor
  · rintro ⟨⟨q, shell, x, hshell, hx, rfl⟩, hq⟩
    obtain rfl := (href hshell).symm.trans hq
    exact ⟨shell, x, hshell, hx, rfl⟩
  · rintro ⟨shell, x, hshell, hx, rfl⟩
    exact ⟨⟨r, shell, x, hshell, hx, rfl⟩, href hshell⟩

/-- What is reported of an object that is rebuilt: its references to objects of no known type. -/
theorem troubles_eq {shell : ManagedObject} {x : Memento}
    (hshell : (shelled registry m).get? r = some shell)
    (hx : (state registry m).topology.get? r = some x) :
    troubles (shelled registry m).lookup (state registry m).topology (r, shell) =
      (x.references.filter fun q => !(manifest m).isKnown registry q).map (.unresolved r) := by
  have href := ref_of_get?_shelled hreg hshell
  rw [troubles_of_get? hx,
    ManagedObject.failures_apply ((ref_of_get?_state hx).trans href.symm), href]
  simp only [Shells.isLive_handleFor, isSome_get?_shelled]

/-- The `failures` of an object: its `own`, and what is reported when its shell is given its state.
-/
theorem filter_failures (r : ObjectRef) : (failures registry m).filter (·.ref = r) =
    (own registry m).filter (·.ref = r) ++ match (shelled registry m).get? r with
      | some shell => troubles (shelled registry m).lookup (state registry m).topology (r, shell)
      | none => [] := by
  -- What is reported of a shell is reported under the kind and id of the shell.
  have htroubles : ∀ e ∈ (shelled registry m).toList,
      ∀ f ∈ troubles (shelled registry m).lookup (state registry m).topology e, f.ref = e.1 := by
    rintro ⟨q, shell⟩ he f hf
    cases hx : (state registry m).topology.get? q with
    | none =>
      rw [troubles, hx] at hf
      cases hf
    | some x =>
      rw [troubles_eq hreg (ByRef.mem_toList.1 he) hx] at hf
      obtain ⟨t, -, rfl⟩ := List.mem_map.1 hf
      rfl
  rw [failures_eq_own_append, List.filter_append, List.append_cancel_left_eq]
  cases hshell : (shelled registry m).get? r with
  | some shell =>
    have hmem : (r, shell) ∈ (shelled registry m).toList := ByRef.mem_toList.2 hshell
    exact (filter_flatMap_of_mem (shelled registry m).nodup_toList htroubles hmem :)
  | none =>
    refine filter_eq_nil fun hr => ?_
    obtain ⟨f, hf, rfl⟩ := List.mem_map.1 hr
    obtain ⟨e, he, hf⟩ := List.mem_flatMap.1 hf
    rw [htroubles e he f hf, ByRef.mem_toList.1 he] at hshell
    cases hshell

/-- An object is in the graph that is rebuilt if it has a shell and a memento. -/
theorem isSome_get?_ofObjects_ofMemory {readOnly : Bool} :
    ((ManagedGraph.ofObjects (ofMemory registry m).objects readOnly).get? r).isSome ↔
      ((shelled registry m).get? r).isSome ∧ ((state registry m).topology.get? r).isSome := by
  simp only [Option.isSome_iff_exists, get?_ofObjects_ofMemory hreg]
  constructor
  · rintro ⟨_, shell, x, hshell, hx, -⟩
    exact ⟨⟨shell, hshell⟩, x, hx⟩
  · rintro ⟨⟨shell, hshell⟩, x, hx⟩
    exact ⟨_, shell, x, hshell, hx, rfl⟩

/-- The `snapshot` of the graph that is rebuilt has the mementos that were loaded. -/
theorem get?_snapshot_ofMemory (r : ObjectRef) (readOnly : Bool) :
    let g := ManagedGraph.ofObjects (ofMemory registry m).objects readOnly
    g.snapshot.get? r = if (g.get? r).isSome then (state registry m).topology.get? r else none := by
  intro g
  rw [ManagedGraph.get?_snapshot (ManagedGraph.ofObjects_isFiled _ _)]
  cases ho : g.get? r with
  | none => rfl
  | some o =>
    obtain ⟨shell, x, hshell, hx, rfl⟩ := (get?_ofObjects_ofMemory hreg).1 ho
    rw [hx, Option.map_some, toMemento_populated hreg hshell hx]
    rfl

/-- An object without a shell or a memento has its failure among the `own` ones only. -/
theorem filter_failures_of_missing
    (h : (shelled registry m).get? r = none ∨ (state registry m).topology.get? r = none) :
    (failures registry m).filter (·.ref = r) = (own registry m).filter (·.ref = r) := by
  rw [filter_failures hreg]
  cases hshell : (shelled registry m).get? r with
  | none => exact List.append_nil _
  | some shell =>
    have hx := h.resolve_left (by rw [hshell]; exact Option.some_ne_none _)
    simp only [troubles, hx, List.append_nil]

/-- An object with a shell and a memento has the failures of its references only. -/
theorem filter_failures_of_rebuilt {x : Memento} (hshell : ((shelled registry m).get? r).isSome)
    (hx : (state registry m).topology.get? r = some x) : (failures registry m).filter (·.ref = r) =
      (x.references.filter fun q => !(manifest m).isKnown registry q).map (.unresolved r) := by
  obtain ⟨shell, hshell⟩ := Option.isSome_iff_exists.1 hshell
  have hown : r ∉ (own registry m).map (·.ref) := by
    rw [mem_refs_own, hshell, hx]
    simp
  rw [filter_failures hreg, filter_eq_nil hown, List.nil_append, hshell]
  exact troubles_eq hreg hshell hx

end Basic

/-- A failure among the `own` ones is the only one of its object. -/
theorem filter_own (h : f ∈ own registry m) : (own registry m).filter (·.ref = f.ref) = [f] := by
  have hself := filter_flatMap_of_mem (nodup_refs_own registry m) (g := fun f => [f])
    (fun f _ f' hf' => congrArg RebindFailure.ref (List.mem_singleton.1 hf')) h
  simpa using hself

end Rebuilt

/-! ## Exactness -/

/-- The graph `g` and the failures `fs` beside it are what there is to rebuild of the objects that
are `listed`, given the types that the manifest `x` shows and the mementos that a lenient load finds
in `y`. -/
structure IsExact (registry : Registry) (listed : Kind → List String) (x : Manifest) (y : Loaded)
    (g : ManagedGraph) (fs : List RebindFailure) : Prop where
  /-- The graph has the objects of known types (`Manifest.isKnown`) that have a memento. -/
  isSome_get? : ∀ r, (g.get? r).isSome ↔ x.isKnown registry r = true ∧ (y.topology.get? r).isSome
  /-- Each of them exports this memento again, by `ManagedGraph.snapshot`. -/
  get?_snapshot : ∀ r, g.snapshot.get? r = if (g.get? r).isSome then y.topology.get? r else none
  /-- An object of the graph has a failure for each of its references that names no shell. -/
  rebuilt : ∀ r m, g.snapshot.get? r = some m → fs.filter (·.ref = r) =
    (m.references.filter fun q => !x.isKnown registry q).map (.unresolved r)
  /-- Every other object that is listed has one failure, for which `IsOwn` holds. -/
  lost : ∀ r, r.id ∈ listed r.kind → g.get? r = none →
    ∃ f, fs.filter (·.ref = r) = [f] ∧ f.IsOwn
  unlisted : ∀ r, r.id ∉ listed r.kind → g.get? r = none ∧ fs.filter (·.ref = r) = []

/-- With plain constructors, what `ofMemory` rebuilds of a memory `IsExact`. -/
theorem Rebuilt.ofMemory_isExact {registry : Registry} (hreg : registry.IsBasic) (m : Memory)
    (readOnly : Bool) :
    IsExact registry (fun k => m.namesUnder k.subPath) (manifest m) (loaded .placeholders m)
      (.ofObjects (ofMemory registry m).objects readOnly) (failures registry m) := by
  have hlisted (r : ObjectRef) : r.id ∈ m.namesUnder r.kind.subPath ↔ (m.storedText? r).isSome :=
    Memory.mem_namesUnder
  have hsome (r : ObjectRef) :
      ((ManagedGraph.ofObjects (ofMemory registry m).objects readOnly).get? r).isSome ↔
        ((shelled registry m).get? r).isSome ∧ ((state registry m).topology.get? r).isSome :=
    isSome_get?_ofObjects_ofMemory hreg
  rw [← state_eq_loaded hreg]
  refine ⟨fun r => ?_, fun r => get?_snapshot_ofMemory hreg r readOnly, fun r x h => ?_,
    fun r hr hnone => ?_, fun r hr => ?_⟩
  · rw [hsome, isSome_get?_shelled]
  · rw [get?_snapshot_ofMemory hreg] at h
    split at h
    · next hmem => exact filter_failures_of_rebuilt hreg ((hsome r).1 hmem).1 h
    · cases h
  -- It is listed and not in the graph, so it lacks a shell or a memento.
  · have hmissing : (shelled registry m).get? r = none ∨
        (state registry m).topology.get? r = none := by
      rwa [← Option.not_isSome_iff_eq_none, hsome, not_and_or, Option.not_isSome_iff_eq_none,
        Option.not_isSome_iff_eq_none] at hnone
    obtain ⟨f, hf, rfl⟩ := List.mem_map.1 (mem_refs_own.2 ⟨(hlisted r).1 hr, hmissing⟩)
    exact ⟨f, (filter_failures_of_missing hreg hmissing).trans (filter_own hf), isOwn_of_mem_own hf⟩
  · rw [hlisted] at hr
    -- What is not listed has no text, and so no shell and no failure.
    have hshell : (shelled registry m).get? r = none := by
      refine Option.eq_none_iff_forall_ne_some.2 fun o ho => hr ?_
      obtain ⟨text, _, htext, -⟩ := get?_shelled.1 ho
      rw [htext]
      rfl
    refine ⟨?_, ?_⟩
    · rw [← Option.not_isSome_iff_eq_none, hsome, hshell]
      simp
    · rw [filter_failures_of_missing hreg (.inl hshell)]
      exact filter_eq_nil fun h => hr (mem_refs_own.1 h).1

end Failover
