import Failover.Proofs.Node.Board
import Failover.Proofs.Node.Consistent
import Failover.Proofs.Node.Rounds

/-!
# A master that cannot confirm its claim steps down

A node confirms its claim by a round that syncs: it stores its heartbeat and loads the records. The
others judge it by its last heartbeat. So a master may stay master without a sync only as long as a
record of the time of its last sync, or of its promotion, has not expired by the test that the
others use; in the round in which it has, the master steps down by itself.

## Key results

- `Node.Fenced.round`: what is known of a master is still known after a round
- `Node.fences`: in every round of a run a master is confirmed recently enough or steps down
-/

namespace Failover

variable {ω : Type}

/-! ## Syncs -/

/-- The time of the last of some `syncs`, or of a promotion if that was later. -/
def Timestamp.lastOf (syncs : List Timestamp) (promoted : Timestamp) : Timestamp :=
  syncs.getLast?.elim promoted (max promoted)

/-- A promotion after all syncs is the `lastOf` them. -/
theorem Timestamp.lastOf_of_le {syncs : List Timestamp} {promoted : Timestamp}
    (h : ∀ t ∈ syncs, t ≤ promoted) : lastOf syncs promoted = promoted := by
  rw [lastOf]
  cases hlast : syncs.getLast? with
  | none => rfl
  | some t =>
    show (if promoted ≤ t then t else promoted) = promoted
    split
    · next hle => exact Int64.le_antisymm (h t (List.mem_of_getLast? hlast)) hle
    · rfl

/-- A sync after a promotion is the `lastOf` them. -/
theorem Timestamp.lastOf_concat {syncs : List Timestamp} {now promoted : Timestamp}
    (h : promoted ≤ now) : lastOf (syncs ++ [now]) promoted = now := by
  rw [lastOf, List.getLast?_concat]
  exact if_pos h

namespace Node

section Syncs

variable (env : Surroundings ω) (n : Node) (w : ω)

/-- Whether a node that begins a `round` stores its heartbeat and loads the records in it. -/
def syncs : Bool :=
  let (published, w) := (env.publish (n.record (env.now w))).run w
  published.isOk && (env.loadPlane.run w).1.isOk

/-- The times of the rounds that synced, by `syncs`. -/
def syncTimes (rounds : List (Node × ω)) : List Timestamp :=
  (rounds.filter fun r => r.1.syncs env r.2).map fun r => env.now r.2

end Syncs

variable {env : Surroundings ω} {timeout : Duration} {n m : Node} {w v : ω}

/-! ## What is known of a master -/

/-- What is known of a node after some rounds: none of their `syncTimes` is yet to come, and a
master remembers the `lastOf` them and its promotion. -/
structure Fenced (env : Surroundings ω) (timeout : Duration) (rounds : List (Node × ω)) (n : Node)
    (w : ω) : Prop where
  timeout_eq : n.timeout = timeout
  le_now : ∀ t ∈ syncTimes env rounds, t ≤ env.now w
  master : n.state = .master → ∃ since, n.masterSince = some since ∧ since ≤ env.now w ∧
    n.lastSync = some (.lastOf (syncTimes env rounds) since)

variable {before : List (Node × ω)}

/-- What is known of a master is still known of what the node `Reaches` without a round. -/
theorem Fenced.reaches (h : Fenced env timeout before n w) (hr : Reaches env n w m v) :
    Fenced env timeout before m v := by
  have hle : ∀ t ∈ syncTimes env before, t ≤ env.now v :=
    fun t ht => Int64.le_trans (h.le_now t ht) hr.now_le
  refine ⟨hr.timeout_eq.trans h.timeout_eq, hle, fun hm => ?_⟩
  rcases hr.master hm with ⟨hn, hsince, hsync⟩ | ⟨t, hge, ht, hsince, hsync⟩
  · obtain ⟨since, hsince', hle', hsync'⟩ := h.master hn
    exact ⟨since, hsince.trans hsince', Int64.le_trans hle' hr.now_le, hsync.trans hsync'⟩
  · -- A node that has just been promoted has synced at no later time.
    refine ⟨t, hsince, ht, ?_⟩
    rw [Timestamp.lastOf_of_le fun u hu => Int64.le_trans (h.le_now u hu) hge]
    exact hsync

/-- What an election leaves of a node that has just synced: a master of that moment, a master that
stays, or none. -/
private structure Settled (n : Node) (now : Timestamp) (m : Node) : Prop where
  timeout_eq : m.timeout = n.timeout
  lastSync_eq : m.lastSync = some now
  master : m.state = .master →
    m.masterSince = some now ∨ n.state = .master ∧ m.masterSince = n.masterSince

/-- A node that is no master is `Settled` if it has its time of sync. -/
private theorem Settled.of_ne {now : Timestamp} (htimeout : m.timeout = n.timeout)
    (hsync : m.lastSync = some now) (hm : m.state ≠ .master) : Settled n now m :=
  ⟨htimeout, hsync, fun hmaster => absurd hmaster hm⟩

private theorem stayStandby_settled {now : Timestamp} (hsync : n.lastSync = some now) :
    Settled n now (n.stayStandby env now w).1 := by
  rw [stayStandby]
  split
  · exact .of_ne rfl hsync (by simp)
  · exact ⟨rfl, hsync, fun h => .inr ⟨h, rfl⟩⟩

private theorem promote_settled {now : Timestamp} (hsync : n.lastSync = some now) :
    Settled n now (n.promote env now w).2.1 := by
  rw [promote]
  cases env.takeOver w with
  | mk r w₁ =>
    cases r with
    | ok => exact ⟨rfl, rfl, fun _ => .inl rfl⟩
    | error e =>
      dsimp only
      split
      · exact .of_ne rfl hsync (by simp [asFailed])
      · exact stayStandby_settled hsync

/-- `settle` leaves a node `Settled` that has just synced. -/
private theorem settle_settled {now : Timestamp} (isElected : Bool)
    (hsync : n.lastSync = some now) : Settled n now (n.settle env now isElected w).1 := by
  have hstay : Settled n now n := ⟨rfl, hsync, fun h => .inr ⟨h, rfl⟩⟩
  rw [settle]
  -- Only a promotion sets a new time of mastership, and that is the time of the round.
  cases n.state <;> dsimp only
  case master =>
    cases isElected
    · exact .of_ne rfl hsync (by simp [demote, asStandby])
    · exact hstay
  case failed | terminated => exact hstay
  case initializing | standby =>
    cases isElected
    · exact stayStandby_settled hsync
    · exact promote_settled hsync

/-- A `round` either syncs and acts on an election, or is left with what the node remembers. -/
private theorem round_cases (env : Surroundings ω) (n : Node) (w : ω) :
    (n.syncs env w = true ∧ ∃ m plane, Settled n (env.now w) m ∧
      (n.round env w).1 = m.observe (env.now w) (some plane)) ∨
    (n.syncs env w = false ∧ ∃ w₂, n.round env w =
      let r := n.checkSync env (env.now w) w₂
      (r.1.observe (env.now w) none, r.2)) := by
  rw [syncs, round]
  dsimp only
  -- A round syncs if neither of its two calls fails.
  cases (env.publish (n.record (env.now w))).run w with
  | mk published w₁ =>
    cases published with
    | error e => exact .inr ⟨rfl, _, rfl⟩
    | ok =>
      dsimp only
      cases env.loadPlane.run w₁ with
      | mk loaded w₂ =>
        cases loaded with
        | error e => exact .inr ⟨rfl, w₂, rfl⟩
        | ok plane =>
          have hsettled (isElected : Bool) : Settled { n with lastSync := some (env.now w) }
              (env.now w)
              ({ n with lastSync := some (env.now w) }.settle env (env.now w) isElected w₂).1 :=
            settle_settled isElected rfl
          refine .inl ⟨rfl, _, _, ?_, rfl⟩
          exact ⟨(hsettled _).timeout_eq, (hsettled _).lastSync_eq, (hsettled _).master⟩

/-- What is known of a master is still known after a `round`, with that round among the others. -/
theorem Fenced.round (henv : env.ClockRuns) (h : Fenced env timeout before n w) :
    Fenced env timeout (before ++ [(n, w)]) (n.round env w).1 (n.round env w).2 := by
  have hclock := ((henv n.id (env.now w)).round (Int64.le_refl (env.now w))).2
  have hle : ∀ t ∈ syncTimes env before, t ≤ env.now (n.round env w).2 :=
    fun t ht => Int64.le_trans (h.le_now t ht) hclock
  rcases round_cases env n w with ⟨hsyncs, m, plane, hsettled, heq⟩ | ⟨hsyncs, w₂, heq⟩
  · have htimes : syncTimes env (before ++ [(n, w)]) = syncTimes env before ++ [env.now w] := by
      simp [syncTimes, hsyncs]
    rw [heq]
    refine ⟨hsettled.timeout_eq.trans h.timeout_eq, fun t ht => ?_, fun hm => ?_⟩
    · rw [htimes, List.mem_append, List.mem_singleton] at ht
      rcases ht with ht | rfl
      · exact hle t ht
      · exact hclock
    · -- Whether it was master before or is so only now, this sync is the last of its times.
      obtain ⟨since, hsince, hpast⟩ : ∃ since, m.masterSince = some since ∧ since ≤ env.now w := by
        rcases hsettled.master hm with hsince | ⟨hn, hsince⟩
        · exact ⟨_, hsince, Int64.le_refl _⟩
        · obtain ⟨since, hsince', hpast, -⟩ := h.master hn
          exact ⟨since, hsince.trans hsince', hpast⟩
      refine ⟨since, hsince, Int64.le_trans hpast hclock, ?_⟩
      rw [htimes, Timestamp.lastOf_concat hpast]
      exact hsettled.lastSync_eq
  · have htimes : syncTimes env (before ++ [(n, w)]) = syncTimes env before := by
      simp [syncTimes, hsyncs]
    rw [← htimes] at hle
    rw [heq] at hclock hle ⊢
    rw [checkSync] at hclock hle ⊢
    dsimp only at hclock hle ⊢
    -- Without a sync the node steps down, or is the master that it was.
    split at hclock
    · next hlost =>
      rw [if_pos hlost] at hle ⊢
      exact ⟨h.timeout_eq, hle, by simp [asStandby, observe]⟩
    · next hkept =>
      rw [if_neg hkept] at hle ⊢
      refine ⟨h.timeout_eq, hle, fun hm => ?_⟩
      obtain ⟨since, hsince, hpast, hsync⟩ := h.master hm
      exact ⟨since, hsince, Int64.le_trans hpast hclock, htimes ▸ hsync⟩

/-! ## Fencing -/

/-- What a call with a round comes to: `m` and `v` are the node that begins the round and what is
around it then, `before` the rounds before it, and `out` what the call leaves. -/
structure Fences (env : Surroundings ω) (timeout : Duration) (before : List (Node × ω)) (m : Node)
    (v : ω) (out : Node × ω) : Prop where
  /-- The call ends as its round does; a node that starts polls from then on. -/
  ends : out.2 = (m.round env v).2 ∧
    ∃ isPolling, out.1 = { (m.round env v).1 with isPolling }
  /-- A node that ends the call as master has been confirmed recently enough. -/
  live : out.1.state = .master → ∃ since, out.1.masterSince = some since ∧
    ∀ q : NodeRecord, q.timestamp = .lastOf (syncTimes env (before ++ [(m, v)])) since →
      q.isExpired (env.now v) timeout = false
  /-- A master that has not been, and does not sync now, steps down and stops persisting. -/
  stepsDown : m.state = .master → m.syncs env v = false → ∃ since, m.masterSince = some since ∧
    ∀ q : NodeRecord, q.timestamp = .lastOf (syncTimes env before) since →
      q.isExpired (env.now v) timeout = true →
      out.1.state = .standby ∧ out.1.masterSince = none ∧
        ∀ rebinder persists, env.Tracks rebinder persists → persists out.2 = false

/-- A node `hasLostSync` exactly if a record of the time of its last sync has expired. -/
private theorem hasLostSync_eq {t : Timestamp} (hsync : n.lastSync = some t) {q : NodeRecord}
    (hq : q.timestamp = t) (now : Timestamp) : n.hasLostSync now = q.isExpired now n.timeout := by
  rw [hasLostSync, NodeRecord.isExpired, NodeRecord.age, hsync, hq]
  rfl

/-- A node that ends a `round` as master has not lost sync. -/
theorem hasLostSync_round (hm : (n.round env w).1.state = .master) :
    (n.round env w).1.hasLostSync (env.now w) = false := by
  -- After a sync its time is now; without one, a master that had lost sync has stepped down.
  rcases round_cases env n w with ⟨-, m, plane, hsettled, heq⟩ | ⟨-, w₂, heq⟩
  · have hfresh := NodeRecord.isExpired_of_timestamp_eq (r := m.record (env.now w)) rfl m.timeout
    rw [heq]
    exact (hasLostSync_eq hsettled.lastSync_eq rfl (env.now w)).trans hfresh
  · rw [heq, checkSync] at hm ⊢
    dsimp only at hm ⊢
    split at hm
    · cases hm
    · next hkept =>
      have hn : n.state = .master := hm
      have hkeeps : n.hasLostSync (env.now w) = false := by simpa [hn] using hkept
      rw [if_neg hkept]
      exact hkeeps

/-- A node of which is known what `Fenced` says ends a round as master only if a record of the time
of its last sync, or of its promotion, has not expired. -/
private theorem live_of_fenced (henv : env.ClockRuns) (h : Fenced env timeout before n w)
    (hm : (n.round env w).1.state = .master) :
    ∃ since, (n.round env w).1.masterSince = some since ∧
      ∀ q : NodeRecord, q.timestamp = .lastOf (syncTimes env (before ++ [(n, w)])) since →
        q.isExpired (env.now w) timeout = false := by
  have hround := h.round henv
  obtain ⟨since, hsince, -, hsync⟩ := hround.master hm
  refine ⟨since, hsince, fun q hq => ?_⟩
  have hlost := hasLostSync_eq hsync hq (env.now w)
  rw [hasLostSync_round hm, hround.timeout_eq] at hlost
  exact hlost.symm

/-- A master of which is known what `Fenced` says steps down in a round without a sync, if a record
of the time of its last one has expired. -/
private theorem stepsDown_of_fenced (h : Fenced env timeout before n w) (hn : n.state = .master)
    (hsyncs : n.syncs env w = false) : ∃ since, n.masterSince = some since ∧
      ∀ q : NodeRecord, q.timestamp = .lastOf (syncTimes env before) since →
        q.isExpired (env.now w) timeout = true →
        (n.round env w).1.state = .standby ∧ (n.round env w).1.masterSince = none ∧
          ∀ rebinder persists, env.Tracks rebinder persists →
            persists (n.round env w).2 = false := by
  obtain ⟨since, hsince, -, hsync⟩ := h.master hn
  refine ⟨since, hsince, fun q hq hexpired => ?_⟩
  have hlost := hasLostSync_eq hsync hq (env.now w)
  rw [h.timeout_eq, hexpired] at hlost
  rcases round_cases env n w with ⟨hsynced, -⟩ | ⟨-, w₂, heq⟩
  · rw [hsyncs] at hsynced
    cases hsynced
  · -- Without a sync the node looks at what it remembers, and gives up.
    have hgives : (n.state = .master && n.hasLostSync (env.now w)) = true := by simp [hn, hlost]
    rw [heq, checkSync, if_pos hgives]
    refine ⟨rfl, rfl, fun rebinder persists htracks => ?_⟩
    show persists (env.stopPersisting w₂) = false
    rw [Surroundings.stopPersisting, htracks.rebinder_eq]
    exact htracks.stopPersisting w₂

/-- A call with a round `Fences`, if what is known of the node is known when its round begins. -/
theorem Fences.of_fenced (henv : env.ClockRuns) (h : Fenced env timeout before m v) {c : Call ω}
    (hround : c.round? env n w = some (m, v)) :
    Fences env timeout before m v (c.act env n w) := by
  obtain ⟨hworld, isPolling, hnode⟩ := Call.act_of_round? hround
  refine ⟨⟨hworld, isPolling, hnode⟩, fun hm => ?_, fun hm hsyncs => ?_⟩
  · rw [hnode] at hm ⊢
    exact live_of_fenced henv h hm
  · rw [hnode, hworld]
    exact stepsDown_of_fenced h hm hsyncs

/-- A call of the run leaves the clock alone, but for what happens elsewhere, and starts no node
without an election. -/
private theorem spares_of_mem {cs : List (Call ω)} (hcs : .start .disabled ∉ cs)
    (hclock : ∀ f, .meanwhile f ∈ cs → ∀ w, env.now w ≤ env.now (f w)) {c : Call ω} (hc : c ∈ cs)
    (t : Timestamp) : c.Spares fun w => t ≤ env.now w := by
  cases c with
  | start mode =>
    rintro rfl
    exact hcs hc
  | poll | stop => trivial
  | meanwhile f => exact fun w hw => Int64.le_trans hw (hclock f hc w)

/-- What is known of a master is still known after a run of calls, with the `rounds` of the run
among the others. -/
private theorem Fenced.run (henv : env.ClockRuns) (h : Fenced env timeout before n w)
    {cs : List (Call ω)} (hcs : .start .disabled ∉ cs)
    (hclock : ∀ f, .meanwhile f ∈ cs → ∀ w, env.now w ≤ env.now (f w)) :
    Fenced env timeout (before ++ rounds env n w cs) (Call.run env n w cs).1
      (Call.run env n w cs).2 := by
  -- By induction over the calls, each of which adds its round, if it has one, to those before.
  induction cs generalizing n w before with
  | nil => rwa [rounds, List.append_nil]
  | cons c cs ih =>
    have hcs' : .start .disabled ∉ cs := fun hmem => hcs (List.mem_cons_of_mem c hmem)
    have hclock' : ∀ f, .meanwhile f ∈ cs → ∀ w, env.now w ≤ env.now (f w) :=
      fun f hf => hclock f (List.mem_cons_of_mem c hf)
    have hact : Fenced env timeout (before ++ (c.round? env n w).toList) (c.act env n w).1
        (c.act env n w).2 := by
      cases hround : c.round? env n w with
      | none =>
        rw [Option.toList_none, List.append_nil]
        exact h.reaches
          (Call.reaches_act henv (spares_of_mem hcs hclock List.mem_cons_self) hround)
      | some r =>
        obtain ⟨m, v⟩ := r
        obtain ⟨hworld, isPolling, hnode⟩ := Call.act_of_round? hround
        have hfenced := (h.reaches (Call.reaches_round henv hround)).round henv
        rw [hnode, hworld]
        exact ⟨hfenced.timeout_eq, hfenced.le_now, hfenced.master⟩
    have hrest := ih hact hcs' hclock'
    rwa [List.append_assoc] at hrest

/-- However the calls of a new node come out, whatever goes wrong with the store, and however fast
the clock goes: every poll that is answered is a `round`, and after every call that comes to a
round, a node that is master was confirmed by a sync or promoted so recently that a record of that
time has not expired. A master that begins a round after such a record has expired, and does not
sync in it, is a standby after the call, without a time of promotion and no longer persisting. -/
theorem fences (henv : env.ClockRuns) (id : String) (uri : Option String) (timeout : Duration)
    (w : ω) {cs : List (Call ω)} (hcs : .start .disabled ∉ cs)
    (hclock : ∀ f, .meanwhile f ∈ cs → ∀ w, env.now w ≤ env.now (f w)) :
    let s := Call.run env { id, uri, timeout } w cs
    (∀ state, (s.1.poll env s.2).1 = .ok state → Call.round? env s.1 s.2 .poll = some s) ∧
      ∀ (c : Call ω) (m : Node) (v : ω), c.round? env s.1 s.2 = some (m, v) →
        Fences env timeout (rounds env { id, uri, timeout } w cs) m v (c.act env s.1 s.2) := by
  intro s
  have hstart : Fenced env timeout [] { id, uri, timeout } w :=
    ⟨rfl, by simp [syncTimes], nofun⟩
  -- What is known of a node that is new, which is nothing, is known from then on.
  have hrun : Fenced env timeout ([] ++ rounds env { id, uri, timeout } w cs) s.1 s.2 :=
    hstart.run henv hcs hclock
  rw [List.nil_append] at hrun
  have hmode : s.1.mode ≠ some .disabled := mode_run_ne_disabled (by simp) hcs
  refine ⟨fun state hstate => ?_, fun c m v hround => ?_⟩
  · rw [Call.round?, hstate]
    exact if_pos ⟨rfl, hmode⟩
  · exact .of_fenced henv (hrun.reaches (Call.reaches_round henv hround)) hround

/-- A member of a cluster that takes over, and is then cut off from the records for longer than its
timeout. -/
def cutOff : List (Call (Site Memory)) :=
  [.start .auto,
    .meanwhile fun s =>
      { s with
        clock := ⟨max s.clock.now 30001⟩
        workspace := { s.workspace with records := ⟨true⟩ } }]

/-- The clock is not turned back in `cutOff`. -/
private theorem now_le_of_mem_cutOff {f : Site Memory → Site Memory}
    (hf : .meanwhile f ∈ cutOff) (s : Site Memory) : s.clock.now ≤ (f s).clock.now := by
  simp only [cutOff, List.mem_cons, reduceCtorEq, false_or, Call.meanwhile.injEq,
    List.not_mem_nil, or_false] at hf
  rw [hf]
  show s.clock.now ≤ if s.clock.now ≤ 30001 then 30001 else s.clock.now
  split
  · next hle => exact hle
  · exact Int64.le_refl _

/-- When the member that is `cutOff` polls, it begins the round as master and ends it as standby, no
longer persisting. -/
theorem fences_cutOff :
    let env := Site.surroundings (Workspace.seen Memory.store) (Workspace.seen Memory.store)
      (.real {} .failFast)
    let n : Node := { id := "a", uri := none, timeout := .ofMillis 30000 }
    let w : Site Memory := { workspace := { store := .prepared }, clock := ⟨0⟩ }
    let s := Call.run env n w cutOff
    (s.1.poll env s.2).1 = .ok .standby ∧ s.1.state = .master ∧
      (s.1.poll env s.2).2.1.state = .standby ∧
      (s.1.poll env s.2).2.2.workspace.isPersisting = false := by
  intro env n w s
  have henv : env.ClockRuns := Site.surroundings_clockRuns _ _ _
  obtain ⟨rebinder, htracks⟩ := Site.surroundings_tracks Memory.store Memory.store {} .failFast
  have hpoll : (s.1.poll env s.2).1 = .ok .standby := by decide +kernel
  have hsyncs : syncTimes env (rounds env n w cutOff) = [0] := by decide +kernel
  have hbegins : (s.1.state, s.1.masterSince, s.1.syncs env s.2, env.now s.2) =
      (.master, some 0, false, 30001) := by decide +kernel
  simp only [Prod.mk.injEq] at hbegins
  obtain ⟨hmaster, hsince, hcut, hnow⟩ := hbegins
  have hcs : .start .disabled ∉ cutOff := by simp [cutOff]
  have hclock (f : Site Memory → Site Memory) (hf : .meanwhile f ∈ cutOff) (s : Site Memory) :
      env.now s ≤ env.now (f s) := now_le_of_mem_cutOff hf s
  have hrun : (∀ state, (s.1.poll env s.2).1 = .ok state →
        Call.round? env s.1 s.2 .poll = some s) ∧
      ∀ (c : Call (Site Memory)) m v, c.round? env s.1 s.2 = some (m, v) →
        Fences env (.ofMillis 30000) (rounds env n w cutOff) m v (c.act env s.1 s.2) :=
    fences henv "a" none (.ofMillis 30000) w hcs hclock
  -- From here on only these facts about the run count, not the run itself.
  clear_value s
  obtain ⟨hround, hfences⟩ := hrun
  obtain ⟨-, -, hsteps⟩ := hfences .poll s.1 s.2 (hround .standby hpoll)
  obtain ⟨since, hsince', hexpired⟩ := hsteps hmaster hcut
  obtain rfl := Option.some.inj (hsince'.symm.trans hsince)
  -- The only sync was at the beginning, as the promotion was.
  have hstale : (s.1.record 0).isExpired (env.now s.2) (.ofMillis 30000) = true := by
    rw [hnow]
    show decide ((Duration.ofMillis 30000).asTimestamp < Timestamp.since 30001 0) = true
    decide
  obtain ⟨hstandby, -, hstopped⟩ := hexpired (s.1.record 0) (by rw [hsyncs]; rfl) hstale
  exact ⟨hpoll, hmaster, hstandby, hstopped rebinder _ htracks⟩

end Node

end Failover
