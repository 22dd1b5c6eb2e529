import Failover.Proofs.Persistence.Mementos

/-!
# Checkpoints and deltas in any order

A persister over a memory makes a run of checkpoints and deltas. As long as they succeed, the texts
in the memory, the working copy and the topology in which the deltas are folded say the same:
`Holds` is what one mutation preserves, and so a whole run does.

## Key results

- `MementoPersister.Holds.perform`: what one mutation preserves
- `MementoPersister.run_load_of_holds`: what is loaded from texts that are those of a topology
- `MementoPersister.load_of_performAll`: what is loaded after a run is what the deltas were folded
  to
-/

namespace Failover

/-- The mementos of the topology `t` are filed under their own kind and id, under which they can be
stored. -/
structure Topology.IsStorable (t : Topology) : Prop where
  isFiled : t.IsFiled
  isSingle : ∀ r x, t.get? r = some x → Path.isSingle x.id = true
  isStorable : ∀ r x, t.get? r = some x → x.IsStorable

/-- The mementos of the delta `d` stand in the lists of their own kinds and can be stored under
their ids. -/
structure Delta.IsStorable (d : Delta) : Prop where
  isFiled : d.IsFiled
  isSingle : ∀ k, ∀ x ∈ d.changed.get k, Path.isSingle x.id = true
  isStorable : ∀ k, ∀ x ∈ d.changed.get k, x.IsStorable

/-- `ofMementos` of mementos that can be stored can be stored. -/
theorem Topology.isStorable_ofMementos {ms : List Memento} (version : String)
    (hms : ∀ x ∈ ms, Path.isSingle x.id = true ∧ x.IsStorable) :
    (ofMementos ms version).IsStorable where
  isFiled := ofMementos_isFiled ms version
  isSingle _ x h := (hms x (mem_of_get?_ofMementos h).1).1
  isStorable _ x h := (hms x (mem_of_get?_ofMementos h).1).2

/-- `fold` of a delta that can be stored leaves a topology that can. -/
theorem Topology.IsStorable.fold {t : Topology} (ht : t.IsStorable) {d : Delta}
    (hd : d.IsStorable) :
    (t.fold d).IsStorable := by
  -- Whatever is there afterwards comes from the delta or was there before.
  have hget {r : ObjectRef} {x : Memento} (h : (t.fold d).get? r = some x) :
      x ∈ d.changed.get r.kind ∨ t.get? r = some x := by
    rw [get?_fold hd.isFiled] at h
    split at h
    · cases h
    · rcases Option.or_eq_some_iff.1 h with h | ⟨-, h⟩
      · exact .inl (mem_of_get?_ofMementos h).1
      · exact .inr h
  refine ⟨ht.isFiled.fold hd.isFiled, fun r x h => ?_, fun r x h => ?_⟩
  · exact (hget h).elim (hd.isSingle _ x) (ht.isSingle r x)
  · exact (hget h).elim (hd.isStorable _ x) (ht.isStorable r x)

namespace MementoPersister

open Memory (store)

/-- What a `MementoPersister` writes: a whole topology, or a delta. -/
inductive Mutation where
  | checkpoint (t : Topology)
  | delta (d : Delta)
deriving DecidableEq

namespace Mutation

/-- The topology after a `Mutation`. -/
def apply (t : Topology) : Mutation → Topology
  | .checkpoint u => u
  | .delta d => t.fold d

/-- What a `Mutation` writes can be stored. -/
def IsStorable : Mutation → Prop
  | .checkpoint t => t.IsStorable
  | .delta d => d.IsStorable

end Mutation

section Perform

variable {σ : Type} (S : ObjectStore σ)

/-- Writes a `Mutation`, by `checkpoint` or `delta`. -/
def perform (p : MementoPersister) : Mutation → Action σ PersistenceError MementoPersister
  | .checkpoint t => p.checkpoint S t
  | .delta d => p.delta S d

/-- Writes mutations one after the other, each with the persister that the one before returned. -/
def performAll (p : MementoPersister) : List Mutation → Action σ PersistenceError MementoPersister
  | [] => pure p
  | x :: xs => do
    let p ← p.perform S x
    performAll p xs

end Perform

/-- `perform` keeps two stores in step. -/
theorem perform_inStep {σ τ : Type} {S : ObjectStore σ} {T : ObjectStore τ} {R : σ → τ → Prop}
    (h : S.InStep T R) (p : MementoPersister) (x : Mutation) :
    Action.InStep R (p.perform S x) (p.perform T x) := by
  cases x with
  | checkpoint t => exact h.checkpoint p t
  | delta d => exact h.delta p d

/-! ## Texts of a topology -/

/-- The texts in the memory `m`, and the working copy of the running persister `p`, are those of the
topology `t`. -/
structure Holds (p : MementoPersister) (m : Memory) (t : Topology) : Prop where
  isStopped : p.isStopped = false
  working : p.working.objects = t.objects
  isPrepared : m.isPrepared = true
  storedText? : ∀ r, m.storedText? r = (t.get? r).map Memento.codec.toText

variable {p q : MementoPersister} {t : Topology} {m n : Memory}

/-- The ids in a topology that can be stored have no slash. -/
private theorem not_slash_of_get? (ht : t.IsStorable) {r : ObjectRef} {x : Memento}
    (h : t.get? r = some x) : '/' ∉ r.id.toList := by
  have hid : x.id = r.id := congrArg ObjectRef.id (ht.isFiled r x h)
  exact hid ▸ (Path.isSingle_iff.1 (ht.isSingle r x h)).2

/-- `storedText?` is told by the ids without a slash, as the others are in no listing. -/
private theorem storedText?_of_not_slash (ht : t.IsStorable)
    (h : ∀ r, '/' ∉ r.id.toList → m.storedText? r = (t.get? r).map Memento.codec.toText)
    (r : ObjectRef) :
    m.storedText? r = (t.get? r).map Memento.codec.toText := by
  by_cases hr : '/' ∈ r.id.toList
  · have hnone : t.get? r = none :=
      Option.eq_none_iff_forall_ne_some.2 fun x hx => not_slash_of_get? ht hx hr
    rw [hnone, Memory.storedText?, Memory.text?, if_pos hr]
    rfl
  · exact h r hr

/-- `Holds` of the topology after a checkpoint that succeeds. -/
theorem holds_of_checkpoint (ht : t.IsStorable) (h : (p.checkpoint store t).run m = (.ok q, n)) :
    q.Holds n t := by
  obtain ⟨hp, rfl, hprepared, htext⟩ := storedText?_of_checkpoint ht.isFiled h
  exact ⟨hp, rfl, hprepared, storedText?_of_not_slash ht htext⟩

/-- `Holds` is preserved by a `Mutation` that succeeds, for the topology after it. -/
theorem Holds.perform (h : p.Holds m t) (ht : t.IsStorable) {x : Mutation} (hx : x.IsStorable)
    (hrun : (p.perform store x).run m = (.ok q, n)) :
    q.Holds n (x.apply t) ∧ (x.apply t).IsStorable := by
  cases x with
  | checkpoint u => exact ⟨holds_of_checkpoint hx hrun, hx⟩
  | delta d =>
    obtain ⟨hstopped, hworking, hprepared, hget⟩ := get?_files_of_delta hx.isFiled hrun
    -- The working copy is folded as the topology is, as both hold the same objects.
    have hfold : (p.working.fold d).objects = (t.fold d).objects := by
      rw [Topology.fold, Topology.fold, h.working]
    refine ⟨⟨hstopped.trans h.isStopped, hworking.trans hfold, hprepared.trans h.isPrepared,
      storedText?_of_not_slash (ht.fold hx) fun r hr => ?_⟩, ht.fold hx⟩
    have htext := h.storedText? r
    rw [Memory.storedText?, Memory.text?_of_not_mem _ hr, ← path] at htext ⊢
    rw [hget, htext, Mutation.apply, Topology.get?_fold hx.isFiled]
    split
    · rfl
    · cases (Topology.ofMementos (d.changed.get r.kind)).get? r <;> rfl

/-- `Holds` is preserved by a whole run of mutations that succeeds. -/
theorem Holds.performAll (h : p.Holds m t) (ht : t.IsStorable) {xs : List Mutation}
    (hxs : ∀ x ∈ xs, x.IsStorable) (hrun : (p.performAll store xs).run m = (.ok q, n)) :
    q.Holds n (xs.foldl Mutation.apply t) ∧ (xs.foldl Mutation.apply t).IsStorable := by
  -- Each mutation leaves a persister, a memory and a topology for the rest.
  induction xs generalizing p m t with
  | nil =>
    cases hrun
    exact ⟨h, ht⟩
  | cons x xs ih =>
    rw [List.forall_mem_cons] at hxs
    obtain ⟨p', m', hx, hrest⟩ := Action.run_bind_eq_ok.1 hrun
    obtain ⟨h', ht'⟩ := h.perform ht hxs.1 hx
    exact ih h' ht' hxs.2 hrest

/-! ## Loading -/

section Loading

variable (h : p.Holds m t) (ht : t.IsStorable)
include h ht

/-- Where the texts are those of a topology, every sub-path `IsOpen`. -/
theorem Holds.isOpen (k : Kind) : m.IsOpen k.subPath := by
  refine ⟨h.isPrepared, k.isValid_subPath, fun name hname => ?_⟩
  obtain ⟨text, htext⟩ := Option.isSome_iff_exists.1 (Memory.mem_namesUnder.1 hname)
  obtain ⟨x, hx, -⟩ := Option.map_eq_some_iff.1 ((h.storedText? ⟨k, name⟩).symm.trans htext)
  have hid : x.id = name := congrArg ObjectRef.id (ht.isFiled _ x hx)
  exact isValid_path (r := ⟨k, name⟩) (hid ▸ (Path.isSingle_iff.1 (ht.isSingle _ x hx)).1)

omit h in
/-- The text of a memento of the topology parses as that memento. -/
private theorem parse_toText {r : ObjectRef} {x : Memento} (hx : t.get? r = some x) :
    parse .placeholders r (Memento.codec.toText x) = .ok x :=
  parse_eq_ok.2 ⟨Memento.load_toText (ht.isStorable r x hx), ht.isFiled r x hx⟩

/-- What is `found` in the texts of a topology are its mementos. -/
theorem Holds.get?_found (r : ObjectRef) : (found (parse .placeholders) m).get? r = t.get? r := by
  refine Option.ext fun x => ?_
  rw [MementoPersister.get?_found, h.storedText?]
  constructor
  · rintro ⟨text, htext, hx⟩
    obtain ⟨y, hy, rfl⟩ := Option.map_eq_some_iff.1 htext
    rw [parse_toText ht hy] at hx
    cases hx
    exact hy
  · intro hx
    exact ⟨_, by rw [hx]; rfl, parse_toText ht hx⟩

/-- `load` of the texts of a topology finds its mementos. -/
theorem run_load_of_holds (hq : q.isStopped = false) :
    ∃ u : Topology, (q.load store .placeholders).run m = (.ok u, m) ∧ u.objects = t.objects := by
  have htexts (r : ObjectRef) (text : String) (htext : m.storedText? r = some text) :
      ∃ x, parse .placeholders r text = .ok x := by
    rw [h.storedText?, Option.map_eq_some_iff] at htext
    obtain ⟨x, hx, rfl⟩ := htext
    exact ⟨x, parse_toText ht hx⟩
  exact ⟨_, run_load hq (h.isOpen ht) htexts, ByRef.ext_get? (h.get?_found ht)⟩

end Loading

/-- After a run by `performAll` that begins with a checkpoint and succeeds, `load` finds the
topology of the last checkpoint with the later deltas folded in, which is also the working copy. The
same is found by the `load` of another persister, and after a single checkpoint of the folded
topology in a new memory. -/
theorem load_of_performAll {xs : List Mutation} (ht : t.IsStorable) (hxs : ∀ x ∈ xs, x.IsStorable)
    (hrun : (p.performAll store (.checkpoint t :: xs)).run m = (.ok q, n)) :
    let final := xs.foldl Mutation.apply t
    q.working.objects = final.objects ∧
      (∃ u : Topology, (q.load store .placeholders).run n = (.ok u, n) ∧ u.objects = final.objects) ∧
      ∀ other : MementoPersister, other.isStopped = false →
        (∃ u : Topology, (other.load store .placeholders).run n = (.ok u, n) ∧
          u.objects = final.objects) ∧
        ∃ other' n', (other.checkpoint store final).run .prepared = (.ok other', n') ∧
          ∃ u : Topology, (other'.load store .placeholders).run n' = (.ok u, n') ∧
            u.objects = final.objects := by
  intro final
  obtain ⟨p', m', hfirst, hrest⟩ := Action.run_bind_eq_ok.1 hrun
  obtain ⟨hq, hfinal⟩ := (holds_of_checkpoint ht hfirst).performAll ht hxs hrest
  refine ⟨hq.working, run_load_of_holds hq hfinal hq.isStopped, fun other hother =>
    ⟨run_load_of_holds hq hfinal hother, ?_⟩⟩
  -- In a new memory nothing is in the way of a checkpoint.
  have hopen (k : Kind) : Memory.prepared.IsOpen k.subPath :=
    ⟨rfl, k.isValid_subPath, by simp [Memory.mem_namesUnder]⟩
  obtain ⟨n', hcheckpoint⟩ := exists_checkpoint_eq_ok hother hopen hfinal.isFiled fun r x hx =>
    ⟨(Path.isSingle_iff.1 (hfinal.isSingle r x hx)).1, hfinal.isStorable r x hx⟩
  exact ⟨_, n', hcheckpoint,
    run_load_of_holds (holds_of_checkpoint hfinal hcheckpoint) hfinal hother⟩

/-- `load_of_performAll` from a store with something left in it, by a checkpoint of one entity and a
delta that puts another in its place. -/
theorem load_of_performAll_leftover :
    ∃ q n, (performAll store {} [.checkpoint (.ofMementos [.new .entity "a" "web"]),
        .delta ⟨⟨[.new .entity "b" "web"], [], []⟩, ⟨["a"], [], []⟩⟩]).run
        (Memory.prepared.put "entities/old" "not json") = (.ok q, n) ∧
      ∃ u : Topology, (q.load store .placeholders).run n = (.ok u, n) ∧
        u.objects = (Topology.ofMementos [.new .entity "b" "web"]).objects := by
  have hnew (id : String) (hid : Path.isSingle id = true)
      (h : (Memento.codec.write (.new .entity id "web")).depth ≤ Scan.maxDepth)
      (h' : (Memento.codec.write (.new .entity id "web")).integral = true) :
      ∀ x ∈ [Memento.new .entity id "web"], Path.isSingle x.id = true ∧ x.IsStorable :=
    List.forall_mem_singleton.2 ⟨hid, h, h'⟩
  have ha := hnew "a" (by decide) (by decide +kernel) (by decide +kernel)
  have hb := hnew "b" (by decide) (by decide +kernel) (by decide +kernel)
  obtain ⟨q, n, hrun⟩ : ∃ q n, (performAll store {}
      [.checkpoint (.ofMementos [.new .entity "a" "web"]),
      .delta ⟨⟨[.new .entity "b" "web"], [], []⟩, ⟨["a"], [], []⟩⟩]).run
      (Memory.prepared.put "entities/old" "not json") = (.ok q, n) := ⟨_, _, rfl⟩
  have hdelta : Mutation.IsStorable
      (.delta ⟨⟨[.new .entity "b" "web"], [], []⟩, ⟨["a"], [], []⟩⟩) := by
    refine ⟨fun k => ?_, fun k => ?_, fun k => ?_⟩
    · cases k <;> simp [PerKind.get, Memento.new]
    · cases k
      · exact fun x hx => (hb x hx).1
      · exact List.forall_mem_nil _
      · exact List.forall_mem_nil _
    · cases k
      · exact fun x hx => (hb x hx).2
      · exact List.forall_mem_nil _
      · exact List.forall_mem_nil _
  obtain ⟨-, ⟨u, hload, hu⟩, -⟩ := load_of_performAll (Topology.isStorable_ofMementos _ ha)
    (List.forall_mem_singleton.2 hdelta) hrun
  -- The folded topology holds the second entity alone.
  exact ⟨q, n, hrun, u, hload, hu.trans (by decide +kernel)⟩

end MementoPersister

end Failover
