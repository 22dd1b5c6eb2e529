import Failover.Proofs.Rebind.Graph

/-!
# What applying a memento comes to

An object takes over the whole state of a memento that is meant for it: nothing of what it held
before counts, nothing of the memento is lost, and what is reported are the references without a
live object, in the order in which the memento lists them. Hence applying the memento, or what was
exported, once more changes nothing.

## Key results

- `ManagedObject.apply_of_apply`: what was applied before leaves no trace
- `ManagedObject.apply_exported`: what was exported stands for the memento that was applied
- `ManagedObject.apply_keeps_all`: what applying a memento comes to, for every object and lookup
-/

namespace Failover

namespace Lookup

/-- Whether the reference `r` resolves to a live object by the lookup `l`. -/
def finds (l : Lookup) (r : ObjectRef) : Bool := (l r.kind none r.id).any (·.isLive)

end Lookup

namespace ManagedObject

variable {o : ManagedObject} {m : Memento} {l : Lookup}

/-- A handle made by `handleFor` is live if the lookup `finds` its reference. -/
theorem isLive_handleFor (l : Lookup) (r : ObjectRef) : (handleFor l r).isLive = l.finds r := by
  rw [handleFor, Lookup.finds]
  cases l r.kind none r.id with
  | none => rfl
  | some h => cases h <;> rfl

/-- `withState` gives an object of the same identity, told as often of a rebind, the same state. -/
theorem withState_congr {o' : ManagedObject} (hid : o'.identity = o.identity)
    (hcompletions : o'.completions = o.completions) : o'.withState m l = o.withState m l := by
  rw [withState, withState, hid, hcompletions]

/-- What was applied before leaves no trace in what `apply` comes to. -/
theorem apply_of_apply (m' : Memento) (l' : Lookup) (href : m.ref = o.ref) :
    (o.apply m' l').1.apply m l = o.apply m l := by
  have hcompletions : (o.apply m' l').1.completions = o.completions := by
    rw [apply]
    split <;> rfl
  have href' : m.ref = (o.apply m' l').1.ref := by rw [ref_apply, href]
  -- The object by its identity alone, and what is reported by the memento alone.
  refine Prod.ext ?_ ?_
  · rw [fst_apply_of_ref_eq href', fst_apply_of_ref_eq href,
      withState_congr identity_apply hcompletions]
  · rw [failures_apply href', failures_apply href, ref_apply]

/-- `apply` takes the same from mementos that differ in the type alone. -/
theorem apply_withType (o : ManagedObject) (m : Memento) (l : Lookup) (objectType : String) :
    o.apply { m with objectType } l = o.apply m l := rfl

/-- What `toMemento` exports after a memento was applied stands for that memento. -/
theorem apply_exported (hl : l.KeepsIds) (href : m.ref = o.ref) :
    (o.apply m l).1.apply (o.apply m l).1.toMemento l = o.apply m l := by
  rw [toMemento_apply hl href, apply_withType, apply_of_apply m l href]

/-- To `apply` a memento of another object is one failure and changes nothing. To `apply` one of its
own loses nothing but the type, reports exactly what dangles, and comes to the same again, also with
what was exported by `toMemento`. -/
theorem apply_keeps_all (hl : l.KeepsIds) (o : ManagedObject) (m : Memento) :
    (m.ref ≠ o.ref →
      o.apply m l = (o, [.populate o.ref ("memento is for " ++ m.ref.text)])) ∧
    (m.ref = o.ref → ∃ o' failures, o.apply m l = (o', failures) ∧
      failures = (m.references.filter fun r => !l.finds r).map (.unresolved o.ref) ∧
      o'.toMemento = { m with objectType := o.identity.objectType } ∧
      o'.apply m l = (o', failures) ∧
      o'.apply o'.toMemento l = (o', failures)) := by
  refine ⟨apply_of_ref_ne, fun href => ?_⟩
  refine ⟨(o.apply m l).1, (o.apply m l).2, rfl, ?_, toMemento_apply hl href,
    apply_of_apply m l href, apply_exported hl href⟩
  simp only [failures_apply href, isLive_handleFor]

/-- A `ManagedObject` that already has a parent and a tag. -/
def renamed : ManagedObject :=
  { ManagedObject.shell ⟨.entity, "app", "web"⟩ with
    parent := some (.live ⟨.entity, "old", "web"⟩)
    tags := ["blue"] }

/-- What is to be applied to `renamed`: of its two children one is not there, nor is the location
that a list within a list points at. -/
def scattered : Memento :=
  { Memento.new .entity "app" "service" with
    config := .ofList [("hosts", .list [.entityRef "db", .list [.locationRef "oslo"]])]
    relations := { children := ["db", "cache"] } }

/-- A `Lookup` by which only the database is live. -/
def onlyDb : Lookup := fun k _ id =>
  if id = "db" then some (.live ⟨k, id, "store"⟩) else Lookup.known [⟨.location, "oslo"⟩] k none id

/-- `apply_keeps_all` for `renamed` and `scattered`: two references dangle, and the type stays. -/
theorem apply_keeps_all_scattered : onlyDb.KeepsIds ∧
    ∃ o', renamed.apply scattered onlyDb =
        (o', [.unresolved ⟨.entity, "app"⟩ ⟨.entity, "cache"⟩,
          .unresolved ⟨.entity, "app"⟩ ⟨.location, "oslo"⟩]) ∧
      o'.toMemento = { scattered with objectType := "web" } := by
  have hl : onlyDb.KeepsIds := by
    intro k id o h
    simp only [onlyDb, Lookup.known] at h
    split at h
    · cases h
      rfl
    · split at h <;> cases h
  have href : scattered.ref = renamed.ref := rfl
  obtain ⟨o', failures, happly, hfailures, hexport, -, -⟩ :=
    (apply_keeps_all hl renamed scattered).2 href
  -- Of the references only that to the database is found.
  have hreported : (scattered.references.filter fun r => !onlyDb.finds r) =
      [⟨.entity, "cache"⟩, ⟨.location, "oslo"⟩] := by decide +kernel
  rw [hreported] at hfailures
  exact ⟨hl, o', by rw [happly, hfailures]; rfl, hexport⟩

end ManagedObject

end Failover
