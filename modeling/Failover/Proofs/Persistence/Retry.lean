import Failover.Proofs.Persistence.Mutations
import Failover.Proofs.Store.Attempts

/-!
# Checkpoints and deltas that are cut short

A checkpoint or a delta is a sequence of calls of a store, and it stops at the first one that fails.
What it had done by then is a part of what it was to do: `PartDone` says what may be in the memory
that is left. From there the same checkpoint or delta comes to the same end as from the memory that
it was begun on, so to repeat it makes good for what has failed.

## Key results

- `MementoPersister.perform_tries`: a mutation does a part of what it was to do, or all of it
- `MementoPersister.Mutation.PartDone.run_perform`: a mutation that is repeated comes to the same
  end
-/

namespace Failover

namespace MementoPersister

open Memory (store)

variable {σ : Type} {x : Mutation} {m₀ m n : Memory} {p q : MementoPersister}

/-! ## Parts of a mutation -/

namespace Mutation

/-- The mutation writes the memento `y`. -/
def Puts : Mutation → Memento → Prop
  | .checkpoint t, y => ∃ r, t.get? r = some y
  | .delta d, y => ∃ k, y ∈ d.changed.get k

/-- A mutation of the memory `m₀` removes the object `r`: a checkpoint one that is stored and not
wanted, a delta one that it lists. -/
def Drops (m₀ : Memory) : Mutation → ObjectRef → Prop
  | .checkpoint t, r => r.id ∈ m₀.namesUnder r.kind.subPath ∧ t.get? r = none
  | .delta d, r => r.id ∈ d.removed.get r.kind

/-- A part of the mutation `x` of `m₀` has been done: every text is as it was, or is that of a
memento which the mutation `Puts`, or has gone with an object which the mutation `Drops`. -/
structure PartDone (x : Mutation) (m₀ m : Memory) : Prop where
  isPrepared : m.isPrepared = m₀.isPrepared
  files : ∀ file, m.files.get? file = m₀.files.get? file ∨
    (∃ y, x.Puts y ∧ file = path y.ref ∧ m.files.get? file = some (Memento.codec.toText y)) ∨
    ∃ r, x.Drops m₀ r ∧ file = path r ∧ Path.isValid file = true ∧ m.files.get? file = none

namespace PartDone

theorem refl (x : Mutation) (m : Memory) : x.PartDone m m := ⟨rfl, fun _ => .inl rfl⟩

/-- `PartDone` is kept when a memento that the mutation `Puts` is written. -/
theorem put (h : x.PartDone m₀ m) {y : Memento} (hy : x.Puts y) :
    x.PartDone m₀ (m.put (path y.ref) (Memento.codec.toText y)) := by
  refine ⟨h.isPrepared, fun file => ?_⟩
  rw [Memory.get?_files_put]
  by_cases hfile : file = path y.ref
  · rw [if_pos hfile]
    exact .inr (.inl ⟨y, hy, hfile, rfl⟩)
  · rw [if_neg hfile]
    exact h.files file

/-- `PartDone` is kept when an object that the mutation `Drops`, or one that was not there, is
removed. -/
theorem drop (h : x.PartDone m₀ m) {r : ObjectRef}
    (hr : x.Drops m₀ r ∨ m₀.files.get? (path r) = none) (hvalid : Path.isValid (path r) = true) :
    x.PartDone m₀ (m.drop (path r)) := by
  refine ⟨h.isPrepared, fun file => ?_⟩
  rw [Memory.get?_files_drop]
  by_cases hfile : file = path r
  · subst hfile
    rw [if_pos rfl]
    -- The removal is one that the mutation makes, or there was nothing to remove.
    obtain hr | hnone := hr
    · exact .inr (.inr ⟨r, hr, rfl, hvalid, rfl⟩)
    · exact .inl hnone.symm
  · rw [if_neg hfile]
    exact h.files file

/-- `PartDone` leaves alone what is no path of an object. -/
theorem files_of_ne (h : x.PartDone m₀ m) {file : String} (hfile : ∀ r, file ≠ path r) :
    m.files.get? file = m₀.files.get? file := by
  rcases h.files file with hsame | ⟨y, -, heq, -⟩ | ⟨r, -, heq, -⟩
  · exact hsame
  · exact absurd heq (hfile y.ref)
  · exact absurd heq (hfile r)

end PartDone

end Mutation

open Mutation (PartDone)

/-! ## Attempts at a mutation -/

section Tries

variable {T : ObjectStore σ} {view : σ → Memory} (hT : T.Tries view)
include hT

private theorem write_tries {y : Memento} (hy : x.Puts y) :
    Action.Tries view (x.PartDone m₀) (p.write T y) (p.write store y) := by
  refine (Action.Tries.lift _).bind fun text t u hlift => ?_
  have htext : p.textOf y = .ok text := congrArg Prod.fst hlift
  obtain rfl := textOf_eq_ok htext
  exact hT.write fun m hm => hm.put hy

private theorem remove_tries {k : Kind} {id : String}
    (hr : x.Drops m₀ ⟨k, id⟩ ∨ m₀.files.get? (path ⟨k, id⟩) = none) :
    Action.Tries view (x.PartDone m₀) (remove T k id) (remove store k id) :=
  hT.remove fun hvalid _ hm => hm.drop hr hvalid

/-- `checkpointKind` does all that it was to do, or it fails and has done a part of it. -/
private theorem checkpointKind_tries (t : Topology) (k : Kind) :
    Action.Tries view ((Mutation.checkpoint t).PartDone m₀) (p.checkpointKind T t k)
      (p.checkpointKind store t k) := by
  refine (hT.create _).bind fun _ _ _ _ => (hT.list _).bind fun listed m n hlist => ?_
  obtain ⟨-, rfl, -⟩ := Memory.run_list_eq_ok.1 hlist
  refine (Action.Tries.each fun y hy => write_tries hT ?_).bind fun _ _ _ _ =>
    .each fun id hid => remove_tries hT ?_
  · obtain ⟨id, hget⟩ := SortedMap.mem_values.1 hy
    exact ⟨⟨k, id⟩, hget⟩
  · obtain ⟨hlisted, hstale⟩ := List.mem_filter.1 hid
    have hnone : t.get? ⟨k, id⟩ = none := by
      rwa [Bool.not_eq_true', SortedMap.contains, Option.isSome_eq_false_iff,
        Option.isNone_iff_eq_none] at hstale
    -- What is listed now was listed at the beginning, if it was there.
    obtain ⟨text, htext⟩ := Option.isSome_iff_exists.1 (Memory.mem_namesUnder.1 hlisted)
    have hslash := (Memory.text?_eq_some.1 htext).1
    cases hget : m₀.files.get? (path ⟨k, id⟩) with
    | none => exact .inr rfl
    | some old =>
      refine .inl ⟨Memory.mem_namesUnder.2 ?_, hnone⟩
      rw [Memory.text?_eq_some.2 ⟨hslash, hget⟩]
      rfl

private theorem deltaKind_tries (d : Delta) (k : Kind) :
    Action.Tries view ((Mutation.delta d).PartDone m₀) (p.deltaKind T d k)
      (p.deltaKind store d k) :=
  (Action.Tries.each fun _ hy => write_tries (x := .delta d) hT ⟨k, hy⟩).bind fun _ _ _ _ =>
    .each fun _ hid => remove_tries hT (.inl hid)

/-- `perform` does all that it was to do, or it fails and has done a part of it. -/
theorem perform_tries (x : Mutation) (m₀ : Memory) :
    Action.Tries view (x.PartDone m₀) (p.perform T x) (p.perform store x) := by
  cases x with
  | checkpoint t =>
    exact (Action.Tries.lift _).bind fun _ _ _ _ =>
      (Action.Tries.each fun k _ => checkpointKind_tries hT t k).bind fun _ _ _ _ => .pure _
  -- A delta that lists nothing is not taken to the store at all.
  | delta d =>
    refine (Action.Tries.lift _).bind fun _ _ _ _ => ?_
    by_cases hempty : d.isEmpty = true
    · rw [if_pos hempty, if_pos hempty]
      exact .pure p
    · rw [if_neg hempty, if_neg hempty]
      exact (Action.Tries.each fun k _ => deltaKind_tries hT d k).bind fun _ _ _ _ => .pure _

end Tries

/-! ## The same mutation again -/

/-- Mementos stand in the lists of their own kinds; those of a checkpoint are filed under their own
ids, which can be listed. -/
def Mutation.IsFiled : Mutation → Prop
  | .checkpoint t => t.IsFiled ∧ ∀ r y, t.get? r = some y → '/' ∉ r.id.toList
  | .delta d => d.IsFiled

section Checkpoint

variable {t : Topology} (ht : (Mutation.checkpoint t).IsFiled)
include ht

/-- `PartDone` of a checkpoint touches only objects that can be listed. -/
private theorem files_of_partDone (hm : (Mutation.checkpoint t).PartDone m₀ m) (file : String) :
    m.files.get? file = m₀.files.get? file ∨ ∃ r, file = path r ∧ '/' ∉ r.id.toList := by
  rcases hm.files file with hsame | ⟨y, ⟨r, hr⟩, rfl, -⟩ | ⟨r, ⟨hlisted, -⟩, rfl, -⟩
  · exact .inl hsame
  · have href : y.ref = r := ht.1 r y hr
    exact .inr ⟨r, congrArg path href, ht.2 r y hr⟩
  · obtain ⟨text, htext⟩ := Option.isSome_iff_exists.1 (Memory.mem_namesUnder.1 hlisted)
    exact .inr ⟨r, rfl, (Memory.text?_eq_some.1 htext).1⟩

omit ht in
/-- If `checkpointKind` succeeds where a part has been done, it succeeds on the memory that the
checkpoint began on. What has gone could be opened when it went. -/
private theorem exists_checkpointKind_of_partDone (hm : (Mutation.checkpoint t).PartDone m₀ m)
    {k : Kind} (h : (p.checkpointKind store t k).run m = (.ok (), n)) :
    ∃ n₀, (p.checkpointKind store t k).run m₀ = (.ok (), n₀) := by
  obtain ⟨hprepared, hwritable, hremovable⟩ := exists_run_checkpointKind.1 ⟨n, h⟩
  refine exists_run_checkpointKind.2 ⟨hm.isPrepared ▸ hprepared, hwritable, fun id hid hnone => ?_⟩
  obtain ⟨old, htext⟩ := Option.isSome_iff_exists.1 (Memory.mem_namesUnder.1 hid)
  obtain ⟨hslash, hget⟩ := Memory.text?_eq_some.1 htext
  -- What is still listed now is either to be removed or to be written, as it was at the beginning.
  have hlisted {text : String} (htext : m.files.get? (path ⟨k, id⟩) = some text) :
      id ∈ m.namesUnder k.subPath := by
    rw [Memory.mem_namesUnder, Memory.text?_eq_some.2 ⟨hslash, htext⟩]
    rfl
  rcases hm.files (path ⟨k, id⟩) with hsame | ⟨y, -, -, hput⟩ | ⟨r, -, -, hvalid, -⟩
  · exact hremovable id (hlisted (hsame.trans hget)) hnone
  · exact hremovable id (hlisted hput) hnone
  · exact hvalid

/-- Once `checkpointKind` has succeeded on both sides, they differ in no more than the other kinds.
-/
private theorem partDone_of_checkpointKind {n₀ : Memory}
    (hm : (Mutation.checkpoint t).PartDone m₀ m) {k : Kind}
    (h : (p.checkpointKind store t k).run m = (.ok (), n))
    (h₀ : (p.checkpointKind store t k).run m₀ = (.ok (), n₀)) :
    (Mutation.checkpoint t).PartDone n₀ n := by
  have htries (u : Memory) : Action.Tries id ((Mutation.checkpoint t).PartDone u)
      (p.checkpointKind store t k) (p.checkpointKind store t k) :=
    checkpointKind_tries Memory.mirrors.tries t k
  -- What is no object at all is left alone on both sides.
  have hn : (Mutation.checkpoint t).PartDone m n := ((htries m).run_eq_ok (.refl _ m) h).2
  have hn₀ : (Mutation.checkpoint t).PartDone m₀ n₀ := ((htries m₀).run_eq_ok (.refl _ m₀) h₀).2
  obtain ⟨hprepared, hget⟩ := get?_files_of_checkpointKind ht.1 h
  obtain ⟨hprepared₀, hget₀⟩ := get?_files_of_checkpointKind ht.1 h₀
  refine ⟨hprepared.trans hprepared₀.symm, fun file => ?_⟩
  by_cases hfile : ∃ r, file = path r ∧ '/' ∉ r.id.toList
  · obtain ⟨r, rfl, hslash⟩ := hfile
    rw [hget r hslash, hget₀ r hslash]
    by_cases hk : r.kind = k
    · rw [if_pos hk, if_pos hk]
      exact .inl rfl
    · rw [if_neg hk, if_neg hk]
      refine (hm.files (path r)).imp_right (Or.imp_right ?_)
      rintro ⟨q, ⟨hlisted, hnone⟩, hpath, hgone⟩
      obtain rfl := path_inj.1 hpath
      -- Of another kind the same objects are stored as before.
      refine ⟨r, ⟨?_, hnone⟩, hpath, hgone⟩
      rw [Memory.mem_namesUnder, Memory.text?_of_not_mem _ hslash] at hlisted ⊢
      rw [← path, hget₀ r hslash, if_neg hk]
      exact hlisted
  · have hsame {u v : Memory} (huv : (Mutation.checkpoint t).PartDone u v) :
        v.files.get? file = u.files.get? file := (files_of_partDone ht huv file).resolve_right hfile
    exact .inl (by rw [hsame hn, hsame hm, hsame hn₀])

end Checkpoint

/-- A `checkpoint` from where it was cut short comes to the same end as from where it was begun. -/
private theorem run_checkpoint_of_partDone {t : Topology} (ht : (Mutation.checkpoint t).IsFiled)
    (hm : (Mutation.checkpoint t).PartDone m₀ m) (h : (p.checkpoint store t).run m = (.ok q, n)) :
    (p.checkpoint store t).run m₀ = (.ok q, n) := by
  obtain ⟨m', hrunning, hrest⟩ := Action.run_then_eq_ok.1 h
  obtain ⟨hp, rfl⟩ := run_checkRunning_eq_ok.1 hrunning
  obtain ⟨c, hkinds, hend⟩ := Action.run_then_eq_ok.1 hrest
  obtain ⟨rfl, rfl⟩ : ({ p with working := t } : MementoPersister) = q ∧ c = n := by
    cases hend
    exact ⟨rfl, rfl⟩
  obtain ⟨a, b, ha, hb, hc⟩ := Memory.run_kinds_eq_ok.1 hkinds
  -- The kinds are written one after the other on both sides.
  obtain ⟨a₀, ha₀⟩ := exists_checkpointKind_of_partDone hm ha
  have hma := partDone_of_checkpointKind ht hm ha ha₀
  obtain ⟨b₀, hb₀⟩ := exists_checkpointKind_of_partDone hma hb
  have hmb := partDone_of_checkpointKind ht hma hb hb₀
  obtain ⟨c₀, hc₀⟩ := exists_checkpointKind_of_partDone hmb hc
  have hmc := partDone_of_checkpointKind ht hmb hc hc₀
  have h₀ : (p.checkpoint store t).run m₀ = (.ok { p with working := t }, c₀) :=
    Action.run_then_eq_ok.2 ⟨m₀, run_checkRunning_eq_ok.2 ⟨hp, rfl⟩,
      Action.run_then_eq_ok.2 ⟨c₀, Memory.run_kinds_eq_ok.2 ⟨a₀, b₀, ha₀, hb₀, hc₀⟩, rfl⟩⟩
  obtain ⟨-, -, -, htext⟩ := storedText?_of_checkpoint ht.1 h
  obtain ⟨-, -, -, htext₀⟩ := storedText?_of_checkpoint ht.1 h₀
  have hsame : c = c₀ := by
    refine Memory.ext_get? hmc.isPrepared fun file => ?_
    obtain hfile | ⟨r, rfl, hslash⟩ := files_of_partDone ht hmc file
    · exact hfile
    · have hr := (htext r hslash).trans (htext₀ r hslash).symm
      rwa [storedText?_eq, storedText?_eq, if_neg hslash, if_neg hslash] at hr
  rw [hsame]
  exact h₀

/-- `PartDone` of a delta leaves alone what the delta does not list. -/
private theorem files_of_not_lists {d : Delta} (hd : d.IsFiled)
    (hm : (Mutation.delta d).PartDone m₀ m) {r : ObjectRef}
    (hchanged : (Topology.ofMementos (d.changed.get r.kind)).get? r = none)
    (hremoved : r.id ∉ d.removed.get r.kind) :
    m.files.get? (path r) = m₀.files.get? (path r) := by
  rcases hm.files (path r) with hsame | ⟨y, ⟨k, hy⟩, hpath, -⟩ | ⟨q, hq, hpath, -⟩
  · exact hsame
  · -- Whatever the delta has written or removed, it lists.
    obtain rfl := path_inj.1 hpath
    have hkind : y.ref.kind = k := hd k y hy
    rw [hkind, ← Option.not_isSome_iff_eq_none, Topology.isSome_get?_ofMementos] at hchanged
    exact absurd ⟨y, hy, rfl⟩ hchanged
  · obtain rfl := path_inj.1 hpath
    exact absurd hq hremoved

/-- All that a `delta` asks of a memory is to be prepared. -/
private theorem exists_run_delta {d : Delta} (hm : m.isPrepared = m₀.isPrepared)
    (h : (p.delta store d).run m = (.ok q, n)) : ∃ n₀, (p.delta store d).run m₀ = (.ok q, n₀) := by
  -- One kind after the other, and what they leave is prepared alike again.
  have hkind {k : Kind} {u u₀ v : Memory} (hu : u.isPrepared = u₀.isPrepared)
      (hk : (p.deltaKind store d k).run u = (.ok (), v)) :
      ∃ v₀, (p.deltaKind store d k).run u₀ = (.ok (), v₀) ∧ v.isPrepared = v₀.isPrepared := by
    have hcan := exists_run_deltaKind.1 ⟨v, hk⟩
    rw [hu] at hcan
    obtain ⟨v₀, hk₀⟩ := exists_run_deltaKind.2 hcan
    refine ⟨v₀, hk₀, ?_⟩
    rw [(get?_files_of_deltaKind hk).1, (get?_files_of_deltaKind hk₀).1, hu]
  obtain ⟨m', hrunning, hrest⟩ := Action.run_then_eq_ok.1 h
  obtain ⟨hp, rfl⟩ := run_checkRunning_eq_ok.1 hrunning
  have hrunning₀ := run_checkRunning_eq_ok.2 ⟨hp, Eq.refl m₀⟩
  by_cases hempty : d.isEmpty = true
  · rw [if_pos hempty] at hrest
    refine ⟨m₀, Action.run_then_eq_ok.2 ⟨m₀, hrunning₀, ?_⟩⟩
    rw [if_pos hempty]
    cases hrest
    rfl
  · rw [if_neg hempty] at hrest
    obtain ⟨c, hkinds, hend⟩ := Action.run_then_eq_ok.1 hrest
    obtain ⟨a, b, ha, hb, hc⟩ := Memory.run_kinds_eq_ok.1 hkinds
    obtain ⟨a₀, ha₀, hprepared⟩ := hkind hm ha
    obtain ⟨b₀, hb₀, hprepared⟩ := hkind hprepared hb
    obtain ⟨c₀, hc₀, -⟩ := hkind hprepared hc
    refine ⟨c₀, Action.run_then_eq_ok.2 ⟨m₀, hrunning₀, ?_⟩⟩
    rw [if_neg hempty]
    refine Action.run_then_eq_ok.2 ⟨c₀, Memory.run_kinds_eq_ok.2 ⟨a₀, b₀, ha₀, hb₀, hc₀⟩, ?_⟩
    cases hend
    rfl

/-- A `delta` from where it was cut short comes to the same end as from where it was begun. -/
private theorem run_delta_of_partDone {d : Delta} (hd : d.IsFiled)
    (hm : (Mutation.delta d).PartDone m₀ m) (h : (p.delta store d).run m = (.ok q, n)) :
    (p.delta store d).run m₀ = (.ok q, n) := by
  have htries (u : Memory) := perform_tries (p := p) Memory.mirrors.tries (.delta d) u
  obtain ⟨n₀, h₀⟩ := exists_run_delta hm.isPrepared h
  obtain ⟨-, -, hprepared, hget⟩ := get?_files_of_delta hd h
  obtain ⟨-, -, hprepared₀, hget₀⟩ := get?_files_of_delta hd h₀
  have hn : (Mutation.delta d).PartDone m n := ((htries m).run_eq_ok (.refl _ m) h).2
  have hn₀ : (Mutation.delta d).PartDone m₀ n₀ := ((htries m₀).run_eq_ok (.refl _ m₀) h₀).2
  have hsame : n = n₀ := by
    refine Memory.ext_get? (hprepared.trans (hm.isPrepared.trans hprepared₀.symm)) fun file => ?_
    -- What the delta lists is as it says in both; what it does not list has not been touched.
    by_cases hfile : ∃ r, file = path r
    · obtain ⟨r, rfl⟩ := hfile
      rw [hget, hget₀]
      by_cases hremoved : r.id ∈ d.removed.get r.kind
      · rw [if_pos hremoved, if_pos hremoved]
      · rw [if_neg hremoved, if_neg hremoved]
        cases hchanged : (Topology.ofMementos (d.changed.get r.kind)).get? r with
        | some y => rfl
        | none => exact files_of_not_lists hd hm hchanged hremoved
    · have hsame {u v : Memory} (huv : (Mutation.delta d).PartDone u v) :
          v.files.get? file = u.files.get? file := huv.files_of_ne fun r hr => hfile ⟨r, hr⟩
      rw [hsame hn, hsame hm, hsame hn₀]
  rw [hsame]
  exact h₀

/-- `perform` of a mutation that was cut short and is repeated comes to the same end as if it had
not been cut short. -/
theorem Mutation.PartDone.run_perform (hx : x.IsFiled) (hm : x.PartDone m₀ m)
    (h : (p.perform store x).run m = (.ok q, n)) : (p.perform store x).run m₀ = (.ok q, n) := by
  cases x with
  | checkpoint t => exact run_checkpoint_of_partDone hx hm h
  | delta d => exact run_delta_of_partDone hx hm h

end MementoPersister

end Failover
