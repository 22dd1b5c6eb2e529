import Failover.Node.Cluster
import Failover.Proofs.Node.Effects
import Failover.Proofs.Node.InStep
import Failover.Proofs.Persistence.Records
import Failover.Proofs.Rebind.Workspace
import Failover.Proofs.Store.Faults

/-!
# What a promotion is announced on

A journal is kept of the records that a node hands over and of the promotions that it announces,
each with the record that the store has of the node then. A node announces a promotion right after
it has handed over its record as the new master, whether or not the store has taken that record.

## Key results

- `Surroundings.journaled_inStep`: the journal changes nothing
- `Site.surroundings_stores`: the members of a cluster store what they hand over, or nothing
- `Node.holdsClaim_iff`: the claim is stored at an announcement if the store has taken it or had it
  before
-/

namespace Failover

open Failover.Action (Meets)

variable {ω : Type}

/-! ## The journal -/

/-- What is put down in the journal of a node. -/
inductive Entry where
  /-- A record was handed over, with the record that was stored before, and the store has taken it
  or not. -/
  | handed (r : NodeRecord) (before : Option NodeRecord) (taken : Bool)
  /-- A promotion was announced, with the record that was stored then. -/
  | announced (held : Option NodeRecord)
deriving DecidableEq, Repr

/-- Surroundings with a journal: the `world` that the node acts on, and the `entries` put down so
far. -/
structure Journaled (ω : Type) where
  world : ω
  entries : List Entry := []

namespace Surroundings

/-- The same surroundings, where `publish` and `announce` put an `Entry` down. What is `held` of the
node is looked up in the world, before a hand-over and at an announcement. -/
def journaled (env : Surroundings ω) (held : ω → Option NodeRecord) :
    Surroundings (Journaled ω) where
  now w := env.now w.world
  publish r := .of fun w =>
    let (taken, world) := (env.publish r).run w.world
    (taken, ⟨world, w.entries ++ [.handed r (held w.world) taken.isOk]⟩)
  loadPlane := env.loadPlane.focus (·.world) fun w world => { w with world }
  rebinder := env.rebinder.map fun rebinder =>
    { rebind := fun readOnly =>
        (rebinder.rebind readOnly).focus (·.world) fun w world => { w with world }
      startPersisting := rebinder.startPersisting.focus (·.world) fun w world => { w with world }
      stopPersisting := fun w => { w with world := rebinder.stopPersisting w.world } }
  announce w := ⟨env.announce w.world, w.entries ++ [.announced (held w.world)]⟩

variable {env : Surroundings ω} {held : ω → Option NodeRecord}

/-- The rebinder of `journaled` surroundings works on the world alone. -/
private theorem rebinder_journaled : (env.journaled held).rebinder =
    env.rebinder.map fun r => r.focus Journaled.world fun w world => { w with world } := rfl

/-- `takeOver` puts nothing down in the journal. -/
private theorem takeOver_journaled (w : Journaled ω) :
    (env.journaled held).takeOver w =
      ((env.takeOver w.world).1, { w with world := (env.takeOver w.world).2 }) :=
  takeOver_of_focus rebinder_journaled (fun _ _ => rfl) (fun _ _ _ => rfl) (fun _ => rfl) w

private theorem stopPersisting_journaled (w : Journaled ω) :
    (env.journaled held).stopPersisting w = { w with world := env.stopPersisting w.world } :=
  stopPersisting_of_focus rebinder_journaled (fun _ => rfl) w

private theorem refresh_journaled (w : Journaled ω) :
    (env.journaled held).refresh w = { w with world := env.refresh w.world } :=
  refresh_of_focus rebinder_journaled (fun _ => rfl) w

/-- A node acts over `journaled` surroundings as it does without: the two are `InStep`. -/
theorem journaled_inStep : (env.journaled held).InStep env fun w v => w.world = v where
  now_eq := by
    rintro w _ rfl
    rfl
  -- What is put down is not looked at, so each part comes out as in the world.
  publish r := by
    rintro w _ rfl
    exact ⟨rfl, rfl⟩
  loadPlane := by
    rintro w _ rfl
    exact ⟨rfl, rfl⟩
  takeOver := by
    rintro w _ rfl
    rw [takeOver_journaled]
    exact ⟨rfl, rfl⟩
  stopPersisting := by
    rintro w _ rfl
    rw [stopPersisting_journaled]
  refresh := by
    rintro w _ rfl
    rw [refresh_journaled]
  announce := by
    rintro w _ rfl
    rfl

/-- A record that a node of this id hands over by `publish` is `held` if the store takes it, and
else what was held of the node stays. -/
def Stores (env : Surroundings ω) (held : ω → Option NodeRecord) (id : String) : Prop :=
  ∀ r, r.nodeId = id → ∀ before,
    Meets (held · = before) (fun _ w => held w = some r) (held · = before) (env.publish r)

end Surroundings

/-! ## Order in the journal -/

/-- A record claims mastership for the node `id` `since` a time. -/
def NodeRecord.ClaimsSince (r : NodeRecord) (id : String) (since : Timestamp) : Prop :=
  r.nodeId = id ∧ r.state = .master ∧ r.masterSince = some since

/-- Every `announced` entry follows on a `handed` one, of a record that claims mastership since its
own time; what is `held` then is that record if it was `taken`, and else what was there before. -/
def Entry.InOrder (id : String) (es : List Entry) : Prop :=
  ∀ first held rest, es = first ++ .announced held :: rest → ∃ before r old taken,
    first = before ++ [.handed r old taken] ∧ r.ClaimsSince id r.timestamp ∧
      held = if taken then some r else old

namespace Entry.InOrder

variable {id : String} {es : List Entry}

theorem nil : InOrder id [] := fun first held rest h => by simp at h

/-- A journal stays `InOrder` with one more `handed` entry, whatever the record says. -/
theorem handed (h : InOrder id es) (r : NodeRecord) (old : Option NodeRecord) (taken : Bool) :
    InOrder id (es ++ [.handed r old taken]) := by
  intro first held rest heq
  -- The last entry is no announcement.
  rcases List.eq_nil_or_concat rest with rfl | ⟨rest, e, rfl⟩
  · cases (List.append_inj' heq rfl).2
  · rw [List.concat_eq_append, ← List.cons_append, ← List.append_assoc] at heq
    exact h first held rest (List.append_inj' heq rfl).1

/-- A journal stays `InOrder` when a claim is `handed` and announced at once, with what the store
holds then. -/
theorem announced (h : InOrder id es) {r : NodeRecord} (hr : r.ClaimsSince id r.timestamp)
    (old : Option NodeRecord) (taken : Bool) :
    InOrder id (es ++ [.handed r old taken] ++ [.announced (if taken then some r else old)]) := by
  intro first held rest heq
  -- The new announcement is the last entry; any other stands in the part that is in order.
  rcases List.eq_nil_or_concat rest with rfl | ⟨rest, e, rfl⟩
  · obtain ⟨rfl, hlast⟩ := List.append_inj' heq rfl
    cases hlast
    exact ⟨es, r, old, taken, rfl, hr, rfl⟩
  · rw [List.concat_eq_append, ← List.cons_append, ← List.append_assoc] at heq
    exact h.handed r old taken first held rest (List.append_inj' heq rfl).1

end Entry.InOrder

namespace Node

variable {env : Surroundings ω} {held : ω → Option NodeRecord} {id : String}

/-- Nothing that a node does spoils the order of its journal: `Entry.InOrder` is among what
`Surroundings.Keeps` keeps. -/
theorem journaled_keeps (henv : env.Stores held id) :
    (env.journaled held).Keeps id fun w => Entry.InOrder id w.entries where
  publish r _ w h := h.handed r _ _
  loadPlane _ h := h
  takeOver w h := by rwa [Surroundings.takeOver_journaled]
  stopPersisting w h := by rwa [Surroundings.stopPersisting_journaled]
  refresh w h := by rwa [Surroundings.refresh_journaled]
  announce r hid hmaster hsince w h := by
    -- What is stored at the announcement is settled by the record handed over right before.
    have hheld : held ((env.publish r).run w.world).2 =
        if ((env.publish r).run w.world).1.isOk then some r else held w.world := by
      obtain ⟨a, w', hrun, hw'⟩ | ⟨e, w', hrun, hw'⟩ := (henv r hid _).run_cases (s := w.world) rfl
      · rw [hrun]
        exact hw'
      · rw [hrun]
        exact hw'
    show Entry.InOrder id (_ ++ [.announced (held ((env.publish r).run w.world).2)])
    rw [hheld]
    exact h.announced ⟨hid, hmaster, hsince⟩ _ _

/-- The same call over `journaled` surroundings. -/
def Call.journaled : Call ω → Call (Journaled ω)
  | .start mode => .start mode
  | .poll => .poll
  | .stop => .stop
  | .meanwhile f => .meanwhile fun w => { w with world := f w.world }

/-- Whatever goes wrong and whatever happens elsewhere: a node that joins by election announces a
promotion right after it has handed over its record as master since that moment. At the announcement
the store has a record that `ClaimsSince` then exactly if it has taken that one, or had such a claim
before. -/
theorem holdsClaim_iff {n : Node} (henv : env.Stores held n.id) (w : ω) {cs : List (Call ω)}
    (hcs : .start .disabled ∉ cs) {first rest : List Entry} {found : Option NodeRecord}
    (h : (Call.run (env.journaled held) n ⟨w, []⟩ (cs.map .journaled)).2.entries =
      first ++ .announced found :: rest) :
    ∃ before r old taken, first = before ++ [.handed r old taken] ∧
      r.ClaimsSince n.id r.timestamp ∧
      ((∃ q, found = some q ∧ q.ClaimsSince n.id r.timestamp) ↔
        taken = true ∨ ∃ q, old = some q ∧ q.ClaimsSince n.id r.timestamp) := by
  -- No call of the run starts without an election, which is the one that hands over nothing.
  have hspares : ∀ c ∈ cs.map Call.journaled,
      c.Spares fun w : Journaled ω => Entry.InOrder n.id w.entries := by
    rw [List.forall_mem_map]
    intro c hc
    cases c with
    | start mode =>
      rintro rfl
      exact hcs hc
    | poll | stop => trivial
    | meanwhile f => exact fun _ hw => hw
  have horder := ((journaled_keeps henv).run (w := ⟨w, []⟩) Entry.InOrder.nil hspares).2
  obtain ⟨before, r, old, taken, hfirst, hr, hfound⟩ := horder first found rest h
  refine ⟨before, r, old, taken, hfirst, hr, ?_⟩
  rw [hfound]
  -- If the record was taken it is the claim; else what had been there before decides.
  cases taken with
  | false => simp
  | true => simpa using hr

end Node

/-! ## The members of a cluster -/

namespace Memory

/-- The record that is in the memory under a node's id, whether or not a listing shows it. -/
def posted? (m : Memory) (id : String) : Option NodeRecord :=
  (m.files.get? (RecordPersister.path id)).bind fun text =>
    (NodeRecord.codec.ofText text).toOption

/-- After `post` the record that is `posted?` of its node is this one. -/
theorem posted?_post (m : Memory) (r : NodeRecord) : (m.post r).posted? r.nodeId = some r := by
  rw [posted?, post, get?_files_put, if_pos rfl]
  simp [Except.toOption]

end Memory

namespace Site

open Store (Fault)

/-- A record that is handed over by `delta` is there afterwards if the store takes it. `Q` is what a
`put` that succeeds brings about; a call that fails leaves `P`. -/
private theorem meets_delta {τ : Type} {T : ObjectStore τ} {P Q : τ → Prop} (p : RecordPersister)
    {r : NodeRecord}
    (hopen : Meets P (fun _ => P) P (T.call (.openObject (RecordPersister.path r.nodeId))))
    (hput : Meets P (fun _ => Q) P
      (T.call (.put (RecordPersister.path r.nodeId) (NodeRecord.codec.toText r)))) :
    Meets P (fun _ => Q) P (p.delta T (.node r)) := by
  have hrunning : Meets P (fun _ => P) P (p.checkRunning : Action τ PersistenceError Unit) :=
    .lift (fun _ _ _ h => h) fun _ h => h
  have hwrite : Meets P (fun _ => Q) P (RecordPersister.write T r) :=
    (hopen.bind fun _ => hput).mapError _
  -- The change lists one record and removes none.
  exact hrunning.bind fun _ => (hwrite.bind fun _ => .pure fun _ h => h).bind fun _ =>
    .pure fun _ h => h

/-- A member of a cluster `Stores` what it hands over or leaves what was stored, whatever goes wrong
with the calls of its store. -/
theorem surroundings_stores (mementos : ObjectStore (Workspace Memory)) (rebinding : Rebinding)
    (id : String) :
    (surroundings mementos (Workspace.faulty Memory.store) rebinding).Stores
      (fun s => s.workspace.store.posted? id) id := by
  rintro r rfl before
  -- Until the record is put in, every call leaves what was stored.
  let stays (m : Memory) : Prop := m.posted? r.nodeId = before
  have hcall {c : Store.Call} (hc : ∀ path, c ≠ .get path) {Q : Memory → Prop}
      (h : Meets stays (fun _ => Q) stays (Memory.store.call c)) :
      Meets (fun w => stays w.store) (fun _ w => Q w.store) (fun w => stays w.store)
        ((Workspace.faulty Memory.store).call c) := by
    have hseen : Meets (fun w => stays w.store) (fun _ w => Q w.store) (fun w => stays w.store)
        ((Workspace.seen Memory.store).call c) :=
      h.focus Workspace.store (fun w store => { w with store }) fun _ _ => rfl
    have hmay (w : Workspace Memory) (_ : stays w.store) : Fault.Allows (fun _ => True) w.faults :=
      fun _ _ _ _ => trivial
    refine ObjectStore.meets_faulty hmay ?_ ?_ hc hseen
    · exact fun _ _ hs _ => hs
    · intro w x hs _
      rwa [(Workspace.persisters_happen ..).1]
  have hopen : Meets stays (fun _ => stays) stays
      (Memory.store.call (.openObject (RecordPersister.path r.nodeId))) := by
    intro m hm
    have hrun : (Memory.store.call (.openObject (RecordPersister.path r.nodeId))).run m =
        (m.check (RecordPersister.path r.nodeId), m) := rfl
    rw [hrun]
    cases m.check (RecordPersister.path r.nodeId) <;> exact hm
  -- Only the `put` can change what is stored, and where it succeeds it leaves the record.
  have hput : Meets stays (fun _ m => m.posted? r.nodeId = some r) stays
      (Memory.store.call
        (.put (RecordPersister.path r.nodeId) (NodeRecord.codec.toText r))) :=
    fun m _ => m.posted?_post r
  have hdelta : Meets (fun w => stays w.store) (fun _ w => w.store.posted? r.nodeId = some r)
      (fun w => stays w.store) (Workspace.planeDelta (Workspace.faulty Memory.store) (.node r)) :=
    fun w hw => meets_delta w.records (hcall (by simp) hopen) (hcall (by simp) hput) w hw
  exact hdelta.focus Site.workspace (fun s workspace => { s with workspace }) fun _ _ => rfl

end Site

namespace Node

/-- A member whose store refuses the second record that it is handed. -/
def refused : Site Memory where
  workspace :=
    { store := .prepared
      faults := [{ call := .put, skip := 1, times := some 1 }] }
  clock := ⟨0⟩

/-- The member that is `refused` takes over at its first poll and announces that, while the record
that is stored of it still says that it is starting up. -/
theorem holdsClaim_iff_refused :
    let env := Site.surroundings (Workspace.faulty Memory.store) (Workspace.faulty Memory.store)
      .absent
    let held (s : Site Memory) := s.workspace.store.posted? "a"
    let n : Node := { id := "a" }
    ∃ first found, (Call.run (env.journaled held) n ⟨refused, []⟩
        ([.start .auto].map Call.journaled)).2.entries = first ++ .announced found :: [] ∧
      ¬ ∃ q, found = some q ∧ q.ClaimsSince "a" 0 := by
  intro env held n
  have henv : env.Stores held "a" :=
    Site.surroundings_stores (Workspace.faulty Memory.store) .absent "a"
  let own : NodeRecord := { nodeId := "a", state := .initializing, timestamp := 0 }
  let claim : NodeRecord :=
    { nodeId := "a", state := .master, timestamp := 0, masterSince := some 0 }
  have hrun : (Call.run (env.journaled held) n ⟨refused, []⟩
      ([.start .auto].map Call.journaled)).2.entries =
        [.handed own none true, .handed claim (some own) false] ++ .announced (some own) :: [] := by
    decide +kernel
  refine ⟨_, _, hrun, fun hholds => ?_⟩
  obtain ⟨before, r, old, taken, hfirst, -, hiff⟩ :=
    holdsClaim_iff (n := n) henv refused (by simp) hrun
  rw [← List.singleton_append] at hfirst
  cases (List.append_inj' hfirst rfl).2
  -- The claim was not taken, and what had been stored before claims nothing.
  obtain htaken | ⟨q, hq, hclaims⟩ := hiff.1 hholds
  · cases htaken
  · cases hq
    exact absurd hclaims.2.1 (by decide)

end Node

end Failover
