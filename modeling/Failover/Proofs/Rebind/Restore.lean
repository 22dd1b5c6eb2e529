import Failover.Proofs.Persistence.Mutations
import Failover.Proofs.Rebind.Flush

/-!
# What is stored when nothing is pending

Once nothing is pending any more, the store of a node that persists holds the texts of its graph. If
these are texts that can be read back, the stored objects load as the snapshot, and another node
that knows their types rebuilds the same graph.

## Key results

- `IsCovered.holds_snapshot`: what is stored are the texts of the snapshot
- `IsCovered.exists_load`: what is stored loads as the snapshot
- `IsCovered.exists_rebind`: another node rebuilds the same graph
-/

namespace Failover

namespace ManagedGraph

/-- The mementos of all objects of the graph `g` can be stored. -/
def IsStorable (g : ManagedGraph) : Prop := ∀ r o, g.get? r = some o → o.toMemento.IsStorable

/-- The `snapshot` of a graph whose mementos can be stored can be stored. -/
theorem isStorable_snapshot {g : ManagedGraph} (hg : g.IsPlaced) (hstorable : g.IsStorable) :
    g.snapshot.IsStorable := by
  refine Topology.isStorable_ofMementos _ fun x hx => ?_
  obtain ⟨o, ho, rfl⟩ := List.mem_map.1 hx
  obtain ⟨⟨r, o⟩, he, rfl⟩ := List.mem_map.1 ho
  have ho : g.get? r = some o := ByRef.mem_toList.1 he
  have hid : o.toMemento.id = r.id := congrArg ObjectRef.id (hg.isFiled r o ho)
  exact ⟨hid ▸ hg.isSingle r o ho, hstorable r o ho⟩

/-- Values of `snapshot` with the same mementos are equal. -/
theorem snapshot_ext {g g' : ManagedGraph} (h : ∀ r, g.snapshot.get? r = g'.snapshot.get? r) :
    g.snapshot = g'.snapshot :=
  congrArg (Topology.mk platformVersion) (ByRef.ext_get? h)

end ManagedGraph

/-- The registry has a constructor for every type in the graph `g`. -/
def Registry.Knows (registry : Registry) (g : ManagedGraph) : Prop :=
  ∀ r o, g.get? r = some o → registry.isRegistered r.kind o.identity.objectType = true

namespace Workspace.IsCovered

variable {σ : Type} {S : ObjectStore σ} {held : σ → Memory} {w x : Workspace σ}
  {registry : Registry} (hw : w.IsCovered held)
  (hpending : w.persisting.pending.isEmpty = true) (hstorable : w.graph.IsStorable)

include hw hpending

/-- What is stored are the texts of the `snapshot`. -/
theorem holds_snapshot : MementoPersister.Holds { working := w.graph.snapshot } (held w.store)
    w.graph.snapshot where
  isStopped := rfl
  working := rfl
  isPrepared := hw.isPrepared
  storedText? r := by
    rw [ManagedGraph.get?_snapshot hw.isPlaced.isFiled]
    by_contra hne
    refine Pending.not_mentions_of_isEmpty hpending r (hw.covered r ?_)
    rwa [ManagedGraph.text?_eq]

include hstorable

/-- What is stored loads as the `snapshot`. -/
theorem exists_load (hS : S.Mirrors held) (hx : held x.store = held w.store)
    (hfaults : x.faults = []) (hstopped : x.mementos.isStopped = false) :
    ∃ t : Topology, ((load (faulty S) .placeholders).run x).1 = .ok t ∧
      t.objects = w.graph.snapshot.objects := by
  obtain ⟨t, ht, hobjects⟩ := MementoPersister.run_load_of_holds (hw.holds_snapshot hpending)
    (ManagedGraph.isStorable_snapshot hw.isPlaced hstorable) hstopped
  rw [← hx] at ht
  exact ⟨t, (run_fst_of_mirrors ((faulty_inStep hfaults).load _ _) (hS.load _ _)).trans
    (congrArg Prod.fst ht), hobjects⟩

/-- With plain constructors for all types, what is stored is rebuilt to the `snapshot`. -/
theorem get?_snapshot_ofMemory (hreg : registry.IsBasic) (hknows : registry.Knows w.graph)
    (readOnly : Bool) (r : ObjectRef) :
    let g := ManagedGraph.ofObjects (Rebuilt.ofMemory registry (held w.store)).objects readOnly
    g.snapshot.get? r = w.graph.snapshot.get? r := by
  intro g
  have hsnapshot := ManagedGraph.isStorable_snapshot hw.isPlaced hstorable
  have hholds := hw.holds_snapshot hpending
  have hexact := Rebuilt.ofMemory_isExact hreg (held w.store) readOnly
  have hloaded : (MementoPersister.loaded .placeholders (held w.store)).topology.get? r =
      w.graph.snapshot.get? r := hholds.get?_found hsnapshot r
  rw [hexact.get?_snapshot, hloaded]
  split
  · rfl
  · next hmissing =>
    rw [hexact.isSome_get?, hloaded] at hmissing
    by_contra hne
    obtain ⟨m, hm⟩ := Option.ne_none_iff_exists'.1 (Ne.symm hne)
    refine hmissing ⟨?_, by rw [hm]; rfl⟩
    -- The manifest shows the type of the object, and there is a constructor for it.
    have hentry : (MementoPersister.manifest (held w.store)).types.get? r = some m.objectType := by
      refine MementoPersister.get?_found.2 ⟨Memento.codec.toText m, ?_, ?_⟩
      · rw [hholds.storedText?, hm]
        rfl
      · exact MementoPersister.readType_eq_ok.2
          ⟨_, ManifestEntry.ofText_toText (hsnapshot.isStorable r m hm), rfl⟩
    rw [ManagedGraph.get?_snapshot hw.isPlaced.isFiled] at hm
    obtain ⟨o, ho, rfl⟩ := Option.map_eq_some_iff.1 hm
    rw [Manifest.isKnown, hentry]
    exact hknows r o ho

/-- A `rebind` by another node that knows all types rebuilds the same graph. -/
theorem exists_rebind (hS : S.Mirrors held) (hx : held x.store = held w.store)
    (hfaults : x.faults = []) (hstopped : x.mementos.isStopped = false)
    (hp : x.isPersisting = false) (hreg : registry.IsBasic) (hknows : registry.Knows w.graph)
    (readOnly : Bool) :
    ∃ report x', (rebind (faulty S) registry .proceed readOnly).run x = (.ok report, x') ∧
      x'.graph.snapshot = w.graph.snapshot := by
  have hopen := (hw.holds_snapshot hpending).isOpen
    (ManagedGraph.isStorable_snapshot hw.isPlaced hstorable)
  have hmemory : (Rebuilt.load Memory.store x.mementos registry .proceed).run (held x.store) =
      (.ok (.ofMemory registry (held w.store)), held w.store) :=
    Rebuilt.run_load_eq_ok.2 ⟨⟨hstopped, hx ▸ hopen⟩, .proceed, by rw [hx], hx.symm⟩
  -- The store reads as the memory does that it mirrors.
  obtain ⟨hsame, -⟩ := hS.rebuild x.mementos registry .proceed x.store (held x.store) rfl
  rw [hmemory] at hsame
  refine ⟨_, _, (rebind_eq_ok hfaults).2 ⟨hp, _, _, Prod.ext hsame rfl, nofun, rfl, rfl⟩, ?_⟩
  exact ManagedGraph.snapshot_ext
    (hw.get?_snapshot_ofMemory hpending hstorable hreg hknows readOnly)

end Workspace.IsCovered

end Failover
