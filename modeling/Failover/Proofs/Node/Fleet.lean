import Failover.Proofs.Node.Effects
import Failover.Proofs.Node.Mastership
import Failover.Proofs.Persistence.Records

/-!
# A fleet of nodes over one store

A `Fleet` is any number of nodes over one store and one clock. They start, poll and stop in any
order, and time passes between what they do. What else a node has around it, its `Companion`, is its
own.

A node that has stalled for longer than the heartbeat timeout may find, when it polls again, that
another node has become master meanwhile. If its own claim outranks the other's it does not step
down: it `Clashes` with the other. This is the one way in which a fleet comes to have two masters.

## Key results

- `Companion.surroundings_shows`: over a store that mirrors a memory, nodes share a board
- `Fleet.Sound.step`: what holds of every fleet after any events
- `Fleet.hasOneMaster_iff_not_clashes`: the master is unique throughout a run if and only if no node
  clashes
-/

namespace Failover

variable {σ ρ : Type}

/-- What the nodes of a fleet have around them: a store and a clock, and the rest. -/
structure Commons (σ ρ : Type) where
  store : σ
  now : Timestamp
  rest : ρ

/-- What a node has around it besides the store and the clock of the `Commons`, and does not share
them with it. -/
structure Companion (ρ : Type) where
  rebinder : Option (Rebinder ρ) := none
  announce : ρ → ρ := id

/-- A rebinder that works on the `rest` of the `Commons` alone. -/
def Rebinder.beside (r : Rebinder ρ) : Rebinder (Commons σ ρ) where
  rebind readOnly := (r.rebind readOnly).focus (·.rest) fun w rest => { w with rest }
  startPersisting := r.startPersisting.focus (·.rest) fun w rest => { w with rest }
  stopPersisting w := { w with rest := r.stopPersisting w.rest }

/-- What a node has around it that keeps its heartbeats in the store of the `Commons`. -/
def Companion.surroundings (S : ObjectStore σ) (c : Companion ρ) : Surroundings (Commons σ ρ) where
  now w := w.now
  publish r :=
    (RecordPersister.delta S {} (.node r)).focus (·.store) fun w store => { w with store }
  loadPlane := (RecordPersister.load S {}).focus (·.store) fun w store => { w with store }
  rebinder := c.rebinder.map Rebinder.beside
  announce w := { w with rest := c.announce w.rest }

/-- What does not depend on the `rest` is kept by a rebinder that works on the rest alone. -/
theorem Companion.rebinder_keeps (S : ObjectStore σ) (c : Companion ρ) {P : Commons σ ρ → Prop}
    (hP : ∀ w rest, P w → P { w with rest }) (rebinder : Rebinder (Commons σ ρ))
    (h : (c.surroundings S).rebinder = some rebinder) : rebinder.Keeps P := by
  obtain ⟨r, -, rfl⟩ := Option.map_eq_some_iff.1 h
  exact ⟨fun _ w hw => hP w _ hw, fun w hw => hP w _ hw, fun w hw => hP w _ hw⟩

/-- Any number of nodes, by their ids, and the `Commons` that they have around them. -/
structure Fleet (σ ρ : Type) where
  node : String → Node
  commons : Commons σ ρ

namespace Fleet

/-- What can happen to a fleet: one of its nodes is called, or time passes. -/
inductive Event where
  | start (id : String) (mode : StartMode)
  | poll (id : String)
  | stop (id : String)
  | tick (now : Timestamp)
deriving DecidableEq, Repr

/-- Nodes that have not started, all with one heartbeat timeout. -/
def fresh (timeout : Duration) (uri : String → Option String) (w : Commons σ ρ) : Fleet σ ρ :=
  ⟨fun id => { id, uri := uri id, timeout }, w⟩

/-- Lets the node `id` act on the `Commons`. -/
def act (f : Fleet σ ρ) (id : String) (x : Node → Commons σ ρ → Node × Commons σ ρ) : Fleet σ ρ :=
  let (n, w) := x (f.node id) f.commons
  ⟨fun i => if i = id then n else f.node i, w⟩

variable (S : ObjectStore σ) (companion : String → Companion ρ)

/-- What one `Event` does to the fleet. -/
def step (f : Fleet σ ρ) : Event → Fleet σ ρ
  | .start id mode => f.act id fun n w => (n.start ((companion id).surroundings S) mode w).2
  | .poll id => f.act id fun n w => (n.poll ((companion id).surroundings S) w).2
  | .stop id => f.act id fun n w => n.stop ((companion id).surroundings S) w
  | .tick now => { f with commons := { f.commons with now } }

/-- What a run of events does, one `step` after the other. -/
def run (f : Fleet σ ρ) (es : List Event) : Fleet σ ρ := es.foldl (step S companion) f

/-- The time after an event; only `tick` moves the clock. -/
def Event.after (now : Timestamp) : Event → Timestamp
  | .tick later => later
  | _ => now

/-- An event of a node whose id is a single segment, or the passing of time: no node is started
outside the election, and the clock never moves backwards. -/
def Event.IsProper (now : Timestamp) : Event → Prop
  | .start id mode => Path.isSingle id = true ∧ mode ≠ .disabled
  | .poll id | .stop id => Path.isSingle id = true
  | .tick later => now ≤ later

/-- Every event of a run `IsProper` at its time. -/
def Proper : Timestamp → List Event → Prop
  | _, [] => True
  | now, e :: es => e.IsProper now ∧ Proper (e.after now) es

variable (held : σ → Memory)

/-- The time, and the records in the store, as the `Board` that the nodes share. -/
def board (f : Fleet σ ρ) : Board := ⟨f.commons.now, (held f.commons.store).record?⟩

/-- A node clashes that polls while it believes to be master although its own claim has expired, and
while another node `HasLiveClaim` that its own record `outranks`. -/
def Clashes (f : Fleet σ ρ) : Event → Prop
  | .poll id =>
    (f.node id).state = .master ∧ ¬ (f.board held).HasLiveClaim (f.node id).timeout id ∧
      ∃ other r, other ≠ id ∧ (f.board held).record? other = some r ∧
        r.isExpired f.commons.now (f.node id).timeout = false ∧ r.claims = true ∧
        ((f.node id).record f.commons.now).outranks r = true
  | _ => False

end Fleet

/-! ## The board of a fleet -/

/-- The board that is seen in the store, which holds records of nodes and nothing else below their
sub-path. -/
def Commons.Shows (held : σ → Memory) (w : Commons σ ρ) (b : Board) : Prop :=
  (held w.store).HoldsRecords ∧ b = ⟨w.now, (held w.store).record?⟩

/-- A memory after `post` shows the board after `Board.post`. -/
theorem Memory.record?_post_eq {m : Memory} {r : NodeRecord} (h : Path.isSingle r.nodeId = true)
    (now : Timestamp) : (⟨now, (m.post r).record?⟩ : Board) = Board.post ⟨now, m.record?⟩ r := by
  simp only [Board.post, Board.mk.injEq, true_and]
  exact funext fun id => m.record?_post (Path.isSingle_iff.1 h).2 id

section Shows

variable {S : ObjectStore σ} {held : σ → Memory}

/-- A rebinder that works on the `rest` leaves the board as it is. -/
private theorem Companion.shows_keeps (c : Companion ρ) (b : Board)
    (rebinder : Rebinder (Commons σ ρ)) (h : (c.surroundings S).rebinder = some rebinder) :
    rebinder.Keeps (Commons.Shows held · b) :=
  c.rebinder_keeps S (fun _ _ hw => hw) rebinder h

/-- Over a store that `Mirrors` a memory, the nodes of a fleet share a board. -/
theorem Companion.surroundings_shows (hS : S.Mirrors held) (c : Companion ρ) :
    (c.surroundings S).Shows (Commons.Shows held) where
  now_eq := by
    rintro w _ ⟨-, rfl⟩
    rfl
  isFiled := by
    rintro w _ ⟨hw, rfl⟩
    exact hw.nodeId_eq
  publish := by
    rintro w _ r ⟨hw, rfl⟩ hr
    -- What the record persister does in the memory is what the store is seen to do.
    have hrun := RecordPersister.run_delta_node (p := {}) rfl hw hr
    obtain ⟨hres, hheld⟩ := ObjectStore.InStep.planeDelta hS {} (.node r) w.store _ rfl
    rw [hrun] at hres hheld
    refine ⟨{ w with store := ((RecordPersister.delta S {} (.node r)).run w.store).2 },
      Prod.ext hres rfl, ?_, ?_⟩
    · rw [hheld]
      exact hw.post hr
    · rw [hheld]
      exact (Memory.record?_post_eq hr w.now).symm
  loadPlane := by
    rintro w _ ⟨hw, rfl⟩
    obtain ⟨plane, hrun, hfiled, hplane⟩ := RecordPersister.run_load (p := {}) rfl hw
    obtain ⟨hres, hheld⟩ := ObjectStore.InStep.loadPlane hS {} w.store _ rfl
    rw [hrun] at hres hheld
    refine ⟨plane, { w with store := ((RecordPersister.load S {}).run w.store).2 },
      Prod.ext hres rfl, ?_, hfiled, hplane⟩
    rw [← show held ((RecordPersister.load S {}).run w.store).2 = held w.store from hheld] at hw ⊢
    exact ⟨hw, rfl⟩
  takeOver := Surroundings.takeOver_keeps (c.shows_keeps _)
  stopPersisting := Surroundings.stopPersisting_keeps (c.shows_keeps _)
  refresh := Surroundings.refresh_keeps (c.shows_keeps _)
  announce := fun hw => hw

end Shows

namespace Fleet

/-! ## What holds throughout -/

/-- What holds of a fleet after any events: its nodes are who they are called by, none of them is
outside the election, and a master has its claim on the board. -/
structure Sound (held : σ → Memory) (timeout : Duration) (f : Fleet σ ρ) : Prop where
  holdsRecords : (held f.commons.store).HoldsRecords
  id_eq : ∀ id, (f.node id).id = id
  timeout_eq : ∀ id, (f.node id).timeout = timeout
  mode_ne : ∀ id, (f.node id).mode ≠ some .disabled
  mode_ne_none : ∀ id, (f.node id).state = .master → (f.node id).mode ≠ none
  claim : ∀ id, (f.node id).state = .master →
    ∃ r, (f.board held).record? id = some r ∧ r.claims = true

/-- A fleet that is `fresh` is `Sound` over a store that holds records. -/
theorem fresh_sound {held : σ → Memory} (timeout : Duration) (uri : String → Option String)
    {w : Commons σ ρ} (hw : (held w.store).HoldsRecords) :
    (fresh timeout uri w).Sound held timeout where
  holdsRecords := hw
  id_eq _ := rfl
  timeout_eq _ := rfl
  mode_ne _ := nofun
  mode_ne_none _ := nofun
  claim _ := nofun

section Act

variable {held : σ → Memory} {timeout : Duration} {f : Fleet σ ρ} {id : String}
  {x : Node → Commons σ ρ → Node × Commons σ ρ} {n : Node}

theorem node_act (f : Fleet σ ρ) (id i : String) (x : Node → Commons σ ρ → Node × Commons σ ρ) :
    (f.act id x).node i = if i = id then (x (f.node id) f.commons).1 else f.node i := rfl

theorem commons_act (f : Fleet σ ρ) (id : String) (x : Node → Commons σ ρ → Node × Commons σ ρ) :
    (f.act id x).commons = (x (f.node id) f.commons).2 := rfl

/-- What a node `Leaves` is on the board of the fleet: its record as it is afterwards, or what was
there. -/
theorem board_act (h : Node.Leaves (Commons.Shows held) n (f.board held)
      (x (f.node id) f.commons)) :
    (f.act id x).board held =
        (f.board held).post ((x (f.node id) f.commons).1.record f.commons.now) ∨
      (x (f.node id) f.commons).1.record f.commons.now = n.record f.commons.now ∧
        (f.act id x).board held = f.board held :=
  h.board.imp (fun hw => hw.2.symm) fun hw => ⟨hw.1, hw.2.2.symm⟩

/-- A fleet stays `Sound` if a node acts that is one of its own but for its mode. -/
private theorem Sound.act (hf : f.Sound held timeout) (hid : n.id = id)
    (htimeout : n.timeout = timeout)
    (hmode : n.mode ≠ some .disabled) (hstate : n.state = (f.node id).state)
    (h : n.Leaves (Commons.Shows held) (f.board held) (x (f.node id) f.commons))
    (hnone : (x (f.node id) f.commons).1.state = .master →
      (x (f.node id) f.commons).1.mode ≠ none) :
    (f.act id x).Sound held timeout := by
  refine ⟨?_, fun i => ?_, fun i => ?_, fun i => ?_, fun i => ?_, fun i => ?_⟩
  · rcases h.board with hw | hw
    · exact hw.1
    · exact hw.2.1
  · rw [node_act]
    split
    · next hi => rw [h.id_eq, hid, hi]
    · exact hf.id_eq i
  · rw [node_act]
    split
    · rw [h.timeout_eq, htimeout]
    · exact hf.timeout_eq i
  · rw [node_act]
    split
    · rwa [h.mode_eq]
    · exact hf.mode_ne i
  · rw [node_act]
    split
    · exact hnone
    · exact hf.mode_ne_none i
  · rw [node_act]
    -- Either the record on the board is the new one, or the node is recorded as before.
    rcases board_act h with hboard | ⟨hrecord, hboard⟩ <;> rw [hboard] <;> split
    · next hi =>
      refine fun hs => ⟨_, if_pos ?_, (Node.claims_record _ _).2 hs⟩
      exact hi.trans (hid.symm.trans h.id_eq.symm)
    · next hi =>
      rw [Board.record?_post, if_neg fun heq => hi (heq.trans (h.id_eq.trans hid))]
      exact hf.claim i
    · next hi =>
      intro hs
      have hclaims := (Node.claims_record _ f.commons.now).2 hs
      rw [hrecord, Node.claims_record, hstate] at hclaims
      exact hi ▸ hf.claim id hclaims
    · exact hf.claim i

/-- No node turns the clock of the `Commons`. -/
private theorem now_act
    (h : n.Leaves (Commons.Shows held) (f.board held) (x (f.node id) f.commons)) :
    (f.act id x).commons.now = f.commons.now := by
  rcases h.board with hw | hw
  · exact (congrArg Board.now hw.2).symm
  · exact (congrArg Board.now hw.2.2).symm

/-- The master stays unique if a node acts that is not master then, or finds no other live claim. -/
private theorem hasOneMaster_act (hb : (f.board held).HasOneMaster timeout) (hid : n.id = id)
    (h : n.Leaves (Commons.Shows held) (f.board held) (x (f.node id) f.commons))
    (hstate : (x (f.node id) f.commons).1.state = .master →
      ∀ i, i ≠ id → ¬ (f.board held).HasLiveClaim timeout i) :
    ((f.act id x).board held).HasOneMaster timeout := by
  rcases board_act h with hboard | ⟨-, hboard⟩
  · rw [hboard]
    refine hb.post fun hclaims i hi =>
      hstate ((Node.claims_record _ _).1 hclaims) i fun heq => hi ?_
    exact heq.trans (hid.symm.trans h.id_eq.symm)
  · rwa [hboard]

end Act

/-! ## Steps -/

/-- What a node sees of its fleet, if that is `Sound`, is the `board`. -/
theorem shows_commons {held : σ → Memory} {timeout : Duration} {f : Fleet σ ρ}
    (hf : f.Sound held timeout) : Commons.Shows held f.commons (f.board held) :=
  ⟨hf.holdsRecords, rfl⟩

section Steps

variable {S : ObjectStore σ} {held : σ → Memory} {timeout : Duration} {f : Fleet σ ρ}
  {companion : String → Companion ρ} (hS : S.Mirrors held) (hf : f.Sound held timeout)
include hS hf

/-- A fleet stays `Sound` in a `step`, and its clock shows the time after the event. -/
theorem Sound.step {e : Event} (he : e.IsProper f.commons.now) :
    (f.step S companion e).Sound held timeout ∧
      (f.step S companion e).commons.now = e.after f.commons.now := by
  have hw := shows_commons hf
  cases e with
  | tick later =>
    exact ⟨⟨hf.holdsRecords, hf.id_eq, hf.timeout_eq, hf.mode_ne, hf.mode_ne_none, hf.claim⟩, rfl⟩
  | start id mode =>
    let x (n : Node) (w : Commons σ ρ) := (n.start ((companion id).surroundings S) mode w).2
    have henv := (companion id).surroundings_shows hS
    have hid : Path.isSingle (f.node id).id = true := (hf.id_eq id).symm ▸ he.1
    -- A start that is refused changes nothing.
    rcases Node.start_leaves henv hw hid he.2 with ⟨hn, hw'⟩ | ⟨-, hleaves⟩
    · have hleaves :
          (f.node id).Leaves (Commons.Shows held) (f.board held) (x (f.node id) f.commons) :=
        ⟨by rw [hn], by rw [hn], by rw [hn], .inr ⟨by rw [hn], hw'⟩⟩
      refine ⟨hf.act (hf.id_eq id) (hf.timeout_eq id) (hf.mode_ne id) rfl hleaves ?_,
        now_act hleaves⟩
      rw [hn]
      exact hf.mode_ne_none id
    · refine ⟨hf.act (n := { f.node id with mode := some mode }) (x := x) (hf.id_eq id)
        (hf.timeout_eq id) ?_ rfl hleaves fun _ => ?_, now_act (x := x) hleaves⟩
      · exact fun h => he.2 (Option.some.inj h)
      · rw [hleaves.mode_eq]
        nofun
  | poll id =>
    have hid : Path.isSingle (f.node id).id = true := (hf.id_eq id).symm ▸ he
    have hleaves := Node.poll_leaves ((companion id).surroundings_shows hS) hw hid
    refine ⟨hf.act (x := fun n w => (n.poll ((companion id).surroundings S) w).2) (hf.id_eq id)
      (hf.timeout_eq id) (hf.mode_ne id) rfl hleaves fun hs => ?_, now_act hleaves⟩
    rw [hleaves.mode_eq]
    rcases Node.poll_eq (f.node id) f.commons with heq | ⟨hmode, -⟩
    · rw [heq] at hs
      exact hf.mode_ne_none id hs
    · exact hmode
  | stop id =>
    have hid : Path.isSingle (f.node id).id = true := (hf.id_eq id).symm ▸ he
    have hleaves := Node.stop_leaves ((companion id).surroundings_shows hS) hw hid (hf.mode_ne id)
    refine ⟨hf.act (x := fun n w => n.stop ((companion id).surroundings S) w) (hf.id_eq id)
      (hf.timeout_eq id) (hf.mode_ne id) rfl hleaves fun hs => ?_, now_act hleaves⟩
    obtain ⟨hmode, hs⟩ := Node.mode_eq_none_of_stop hs
    exact absurd hmode (hf.mode_ne_none id hs)

/-- A node that `Clashes` makes a second master. -/
private theorem not_hasOneMaster_of_clashes (hb : (f.board held).HasOneMaster timeout) {e : Event}
    (he : e.IsProper f.commons.now) (hclash : f.Clashes held e) :
    ¬ ((f.step S companion e).board held).HasOneMaster timeout := by
  cases e with
  | start | stop | tick => exact hclash.elim
  | poll id =>
    have hw := shows_commons hf
    have hid : Path.isSingle (f.node id).id = true := (hf.id_eq id).symm ▸ he
    have henv := (companion id).surroundings_shows hS
    obtain ⟨hs, -, other, r, hne, hr, hlive, hclaims, hrank⟩ := hclash
    have hother : (f.board held).HasLiveClaim timeout other :=
      ⟨r, hr, hf.timeout_eq id ▸ hlive, hclaims⟩
    -- The claim of the other is the only live one, and the clash says that it is outranked.
    have hprevails : (f.node id).Prevails (f.board held) := by
      intro i q _ hq hlive' hclaims'
      obtain rfl : i = other := hb i other ⟨q, hq, hf.timeout_eq id ▸ hlive', hclaims'⟩ hother
      obtain rfl : q = r := Option.some.inj (hq.symm.trans hr)
      exact ⟨hs, hrank⟩
    have hround := Node.round_of_prevails henv hw hid hs hprevails
    have hshows := Node.shows_round henv hw hid
    have hboard : (f.step S companion (.poll id)).board held = (f.board held).post
        (((f.node id).round ((companion id).surroundings S) f.commons).1.record f.commons.now) := by
      rw [step, board, commons_act, Node.poll_of_master hs (hf.mode_ne_none id hs) (hf.mode_ne id)]
      exact hshows.2.symm
    have hself : (((f.node id).round ((companion id).surroundings S) f.commons).1.record
        f.commons.now).nodeId = id :=
      (Node.round_leaves henv hw hid).id_eq.trans (hf.id_eq id)
    have hne' : other ≠ (((f.node id).round ((companion id).surroundings S) f.commons).1.record
        f.commons.now).nodeId := by
      rwa [hself]
    -- After the round both claims are live.
    intro hone
    rw [hboard] at hone
    refine hne (hone other id ((Board.hasLiveClaim_post_of_ne hne').2 hother) ?_)
    have hown := (Board.hasLiveClaim_post_self (b := f.board held) (r := ((f.node id).round
      ((companion id).surroundings S) f.commons).1.record f.commons.now) rfl timeout).2
      ((Node.claims_record _ _).2 hround)
    rwa [hself] at hown

/-- If no node `Clashes` in a step, the master stays unique. -/
private theorem hasOneMaster_of_not_clashes (hb : (f.board held).HasOneMaster timeout) {e : Event}
    (he : e.IsProper f.commons.now) (hclash : ¬ f.Clashes held e) :
    ((f.step S companion e).board held).HasOneMaster timeout := by
  have hw := shows_commons hf
  cases e with
  | tick later => exact hb.later he
  | start id mode =>
    have henv := (companion id).surroundings_shows hS
    have hid : Path.isSingle (f.node id).id = true := (hf.id_eq id).symm ▸ he.1
    rcases Node.start_leaves henv hw hid he.2 with ⟨-, hw'⟩ | ⟨hnone, hleaves⟩
    · have hboard : (f.step S companion (.start id mode)).board held = f.board held := hw'.2.symm
      rwa [hboard]
    · refine hasOneMaster_act (n := { f.node id with mode := some mode }) hb (hf.id_eq id) hleaves
        fun hs i hi => ?_
      rw [← hf.timeout_eq id] at hb ⊢
      refine Node.not_hasLiveClaim_of_start henv hw hid he.2 ?_ hb hs ((hf.id_eq id).symm ▸ hi)
      exact fun hs => hf.mode_ne_none id hs hnone
  | stop id =>
    have hid : Path.isSingle (f.node id).id = true := (hf.id_eq id).symm ▸ he
    have hleaves := Node.stop_leaves ((companion id).surroundings_shows hS) hw hid (hf.mode_ne id)
    refine hasOneMaster_act hb (hf.id_eq id) hleaves fun hs => ?_
    -- Nothing but a node that had not started could still be master.
    obtain ⟨hmode, hs⟩ := Node.mode_eq_none_of_stop hs
    exact absurd hmode (hf.mode_ne_none id hs)
  | poll id =>
    have henv := (companion id).surroundings_shows hS
    have hid : Path.isSingle (f.node id).id = true := (hf.id_eq id).symm ▸ he
    rcases Node.poll_eq (f.node id) f.commons with heq | ⟨-, heq⟩
    · have hboard : (f.step S companion (.poll id)).board held = f.board held := by
        rw [step, board, commons_act, heq]
        rfl
      rwa [hboard]
    · refine hasOneMaster_act hb (hf.id_eq id) (Node.poll_leaves henv hw hid) ?_
      rw [heq]
      rintro hs i hi ⟨r, hr, hlive, hclaims⟩
      -- A live claim that is left would be outranked, and the own one expired: a clash.
      have hprevails := Node.prevails_of_round henv hw hid hs
      obtain ⟨hs, hrank⟩ := hprevails i r ((hf.id_eq id).symm ▸ hi) hr
        ((hf.timeout_eq id).symm ▸ hlive) hclaims
      refine hclash ⟨hs, fun hown => hi ?_, i, r, hi, hr, (hf.timeout_eq id).symm ▸ hlive, hclaims,
        hrank⟩
      exact hb i id ⟨r, hr, hlive, hclaims⟩ (hf.timeout_eq id ▸ hown)

/-- A `step` keeps the master unique if and only if it is no clash. -/
theorem hasOneMaster_step_iff (hb : (f.board held).HasOneMaster timeout) {e : Event}
    (he : e.IsProper f.commons.now) :
    ((f.step S companion e).board held).HasOneMaster timeout ↔ ¬ f.Clashes held e :=
  ⟨fun hone hclash => not_hasOneMaster_of_clashes hS hf hb he hclash hone,
    hasOneMaster_of_not_clashes hS hf hb he⟩

end Steps

/-! ## Runs -/

/-- What holds of all initial parts of a run holds at its start, and of all those of what follows.
-/
theorem forall_prefix_cons {P : List Event → Prop} {e : Event} {es : List Event} :
    (∀ pre, pre <+: e :: es → P pre) ↔ P [] ∧ ∀ pre, pre <+: es → P (e :: pre) := by
  constructor
  · exact fun h => ⟨h [] List.nil_prefix, fun pre hpre => h _ ((List.prefix_cons_inj e).2 hpre)⟩
  · rintro ⟨hnil, hcons⟩ pre hpre
    rcases List.prefix_cons_iff.1 hpre with rfl | ⟨t, rfl, ht⟩
    · exact hnil
    · exact hcons t ht

section Runs

variable {S : ObjectStore σ} {held : σ → Memory} {timeout : Duration} {f : Fleet σ ρ}
  {companion : String → Companion ρ}

/-- A fleet stays `Sound` over a run of events, each of them proper at its time. -/
theorem Sound.run (hS : S.Mirrors held) (hf : f.Sound held timeout) {es : List Event}
    (hes : Proper f.commons.now es) : (f.run S companion es).Sound held timeout := by
  induction es generalizing f with
  | nil => exact hf
  | cons e es ih =>
    obtain ⟨hstep, hnow⟩ := hf.step hS hes.1
    exact ih hstep (hnow ▸ hes.2)

/-- In a `Sound` fleet with one master, the master stays unique throughout a run if and only if no
node `Clashes`. -/
private theorem Sound.hasOneMaster_iff (hS : S.Mirrors held) (hf : f.Sound held timeout)
    (hb : (f.board held).HasOneMaster timeout) {es : List Event} (hes : Proper f.commons.now es) :
    (∀ pre, pre <+: es → ((f.run S companion pre).board held).HasOneMaster timeout) ↔
      ∀ pre e, pre ++ [e] <+: es → ¬ (f.run S companion pre).Clashes held e := by
  -- By induction over the run, from the front: each step begins with one master.
  induction es generalizing f with
  | nil =>
    constructor
    · intro _ pre e hpre
      simp at hpre
    · intro _ pre hpre
      rwa [List.prefix_nil.1 hpre]
  | cons e es ih =>
    have hstep : ((f.step S companion e).board held).HasOneMaster timeout ↔ ¬ f.Clashes held e :=
      hasOneMaster_step_iff hS hf hb hes.1
    obtain ⟨hf', hnow⟩ : (f.step S companion e).Sound held timeout ∧ _ := hf.step hS hes.1
    rw [forall_prefix_cons]
    constructor
    · rintro ⟨-, hall⟩ pre e' hpre
      have hb' := hall [] List.nil_prefix
      -- The first event is a clash of this step, a later one is one of the run that follows.
      cases pre with
      | nil =>
        obtain ⟨rfl, -⟩ := List.cons_prefix_cons.1 hpre
        exact hstep.1 hb'
      | cons a pre =>
        obtain ⟨rfl, hrest⟩ := List.cons_prefix_cons.1 hpre
        exact (ih hf' hb' (hnow ▸ hes.2)).1 hall pre e' hrest
    · intro hclash
      have hb' := hstep.2 (hclash [] e ((List.prefix_cons_inj e).2 List.nil_prefix))
      refine ⟨hb, (ih hf' hb' (hnow ▸ hes.2)).2 fun pre e' hpre => ?_⟩
      exact hclash (e :: pre) e' ((List.prefix_cons_inj e).2 hpre)

/-- In a fleet over a store that starts empty and never fails, the board `HasOneMaster` at every
point of a run, exactly if no node `Clashes` at any. -/
theorem hasOneMaster_iff_not_clashes (hS : S.Mirrors held) (uri : String → Option String)
    {w : Commons σ ρ} (hw : held w.store = .prepared) {es : List Event} (hes : Proper w.now es) :
    (∀ pre, pre <+: es →
      (((fresh timeout uri w).run S companion pre).board held).HasOneMaster timeout) ↔
      ∀ pre e, pre ++ [e] <+: es →
        ¬ ((fresh timeout uri w).run S companion pre).Clashes held e := by
  refine (fresh_sound timeout uri (hw ▸ Memory.prepared_holdsRecords)).hasOneMaster_iff hS ?_ hes
  rintro i j ⟨r, hr, -⟩ -
  simp [board, fresh, hw] at hr

/-- Two nodes that stall in turn: `a` comes back to find the claim of `b` expired, and then `b`
finds that of `a` live and outranks it. -/
def stalls : List Event :=
  [.start "a" .auto, .start "b" .auto, .tick 30001, .poll "b", .tick 60002, .poll "a", .poll "b"]

/-- A master `Clashes` whose own record has expired, while another's claim is live and outranked. -/
private theorem clashes_poll {held : σ → Memory} {id other : String} {own r : NodeRecord}
    (hstate : (f.node id).state = .master) (hown : (f.board held).record? id = some own)
    (hexpired : own.isExpired f.commons.now (f.node id).timeout = true) (hne : other ≠ id)
    (hr : (f.board held).record? other = some r)
    (hlive : r.isExpired f.commons.now (f.node id).timeout = false) (hclaims : r.claims = true)
    (hrank : ((f.node id).record f.commons.now).outranks r = true) :
    f.Clashes held (.poll id) := by
  refine ⟨hstate, ?_, other, r, hne, hr, hlive, hclaims, hrank⟩
  rintro ⟨q, hq, hlive', -⟩
  obtain rfl := Option.some.inj (hown.symm.trans hq)
  exact Bool.false_ne_true (hlive'.symm.trans hexpired)

/-- A fleet over an empty memory, with a timeout of half a minute, after some events. -/
def after (es : List Event) : Fleet Memory Unit :=
  (fresh (.ofMillis 30000) (fun _ => none) ⟨.prepared, 0, ()⟩).run Memory.store (fun _ => {}) es

/-- The last event of `stalls` is a clash, and so the master does not stay unique. -/
theorem hasOneMaster_stalls_iff :
    (after (stalls.take 6)).Clashes id (.poll "b") ∧
      ¬ ∀ pre, pre <+: stalls → ((after pre).board id).HasOneMaster (.ofMillis 30000) := by
  have hproper : Proper 0 stalls := by
    simp only [stalls, Proper, Event.IsProper, Event.after]
    decide
  have hiff : (∀ pre, pre <+: stalls → ((after pre).board id).HasOneMaster (.ofMillis 30000)) ↔
      ∀ pre e, pre ++ [e] <+: stalls → ¬ (after pre).Clashes id e :=
    hasOneMaster_iff_not_clashes Memory.mirrors (fun _ => none) rfl hproper
  -- What `b` knows of itself before the last poll, and what is on the board.
  have hseen : (((after (stalls.take 6)).node "b").state, ((after (stalls.take 6)).node "b").timeout,
      ((after (stalls.take 6)).node "b").record 60002, (after (stalls.take 6)).commons.now,
      ((after (stalls.take 6)).board id).record? "a",
      ((after (stalls.take 6)).board id).record? "b") =
      (.master, .ofMillis 30000,
      { nodeId := "b", state := .master, timestamp := 60002, masterSince := some 30001 }, 60002,
      some { nodeId := "a", state := .master, timestamp := 60002, masterSince := some 0 },
      some { nodeId := "b", state := .master, timestamp := 30001, masterSince := some 30001 }) := by
    decide +kernel
  simp only [Prod.mk.injEq] at hseen
  obtain ⟨hstate, htimeout, hrecord, hnow, ha, hb⟩ := hseen
  have hclash : (after (stalls.take 6)).Clashes id (.poll "b") := by
    refine clashes_poll hstate hb ?_ (by decide : "a" ≠ "b") ha ?_ rfl ?_
    · rw [hnow, htimeout]
      decide
    · rw [hnow, htimeout]
      decide
    · rw [hnow, hrecord]
      decide
  exact ⟨hclash, fun hone => hiff.1 hone (stalls.take 6) (.poll "b") ⟨[], rfl⟩ hclash⟩

end Runs

end Fleet

end Failover
