import Failover.Proofs.Persistence.Mementos
import Failover.Proofs.Store.Sound

/-!
# The strict and the lenient load compared

Both ways to load go through the same texts in the same order and parse each of them by itself. So
the strict load comes to what the lenient one finds, if that meets no failure, and else to the first
of its failures; and what becomes of an object is told by its own text and the lookup.

This is so over every store that can be read: one that answers out of texts that stay, whatever else
it does meanwhile. A memory in which every listed object can be opened is such a store, and so is a
directory in which no call that reads fails.

## Key results

- `ObjectStore.Serves.run_foldKinds`: going through the objects of a store is a fold over its texts
- `ObjectStore.Mirrors.exists_serves`, `Files.exists_serves`: stores that can be read
- `MementoPersister.outcome_loadedFrom`: what becomes of one text among others
- `MementoPersister.load_eq_strict`: the two loads of a store compared
-/

namespace Failover

open MementoPersister (path parse takeStrict takeLenient)

variable {σ : Type}

/-! ## Stores that can be read -/

/-- In states of `P` the store `S` answers out of `texts` that stay: it lists the ids of each kind
in order, opens what is listed and reads its text, and is then in such a state again. -/
structure ObjectStore.Serves (S : ObjectStore σ) (P : σ → Prop) (texts : ByRef String) : Prop where
  list {s : σ} (hs : P s) (k : Kind) :
    ∃ t, P t ∧ S.step (.list k.subPath) s = (.ok (texts.get k).keys, t)
  openObject {s : σ} (hs : P s) {r : ObjectRef} (hr : (texts.get? r).isSome) :
    ∃ t, P t ∧ S.step (.openObject (path r)) s = (.ok (), t)
  get {s : σ} (hs : P s) {r : ObjectRef} {text : String} (hr : texts.get? r = some text) :
    ∃ t, P t ∧ S.step (.get (path r)) s = (.ok (some text), t)

namespace ObjectStore.Serves

variable {S : ObjectStore σ} {P : σ → Prop} {texts : ByRef String} (h : S.Serves P texts) {s : σ}
include h

/-- `Stored.read` of an object in a store that `Serves` it reads its text. -/
theorem run_read (hs : P s) {r : ObjectRef} {text : String} (hr : texts.get? r = some text) :
    ∃ t, P t ∧ (Stored.read S (path r)).run s = (.ok (some text), t) := by
  obtain ⟨u, hu, hopen⟩ := h.openObject hs (Option.isSome_of_eq_some hr)
  obtain ⟨t, ht, hget⟩ := h.get hu hr
  exact ⟨t, ht, Action.run_mapError_eq_ok.2 (Action.run_bind_eq_ok.2 ⟨(), u, hopen, hget⟩)⟩

section Fold

variable {α : Type}

/-- `foldNames` over the names of `es` is a fold over their texts. -/
private theorem run_foldNames {k : Kind} (take : α → String → String → Except PersistenceError α)
    {es : List (String × String)} (hes : ∀ e ∈ es, texts.get? ⟨k, e.1⟩ = some e.2) (hs : P s)
    (acc : α) : ∃ t, P t ∧ (Stored.foldNames S k.subPath take acc (es.map (·.1))).run s =
      (es.foldlM (fun a e => take a e.1 e.2) acc, t) := by
  -- Each read leaves a state of `P` again, from which the rest is read.
  induction es generalizing acc s with
  | nil => exact ⟨s, hs, rfl⟩
  | cons e es ih =>
    rw [List.forall_mem_cons] at hes
    obtain ⟨u, hu, hread⟩ := h.run_read hs hes.1
    dsimp only [path] at hread
    rw [List.map_cons, Stored.foldNames, Action.run_bind_of_ok hread, List.foldlM_cons]
    show ∃ t, P t ∧ (Action.lift (take acc e.1 e.2) >>= fun acc =>
      Stored.foldNames S k.subPath take acc (es.map (·.1))).run u = _
    cases take acc e.1 e.2 with
    | error cause => exact ⟨u, hu, rfl⟩
    | ok acc' =>
      obtain ⟨t, ht, hrest⟩ := ih hes.2 hu acc'
      exact ⟨t, ht, (Action.run_bind_of_ok (Action.run_lift ..) _).trans hrest⟩

/-- `foldObjects` over the objects of a kind is a fold over their texts. -/
theorem run_foldObjects (k : Kind) (take : α → String → String → Except PersistenceError α)
    (hs : P s) (acc : α) : ∃ t, P t ∧ (Stored.foldObjects S k.subPath take acc).run s =
      ((texts.get k).entries.foldlM (fun a e => take a e.1 e.2) acc, t) := by
  obtain ⟨u, hu, hlist⟩ := h.list hs k
  have hentries : ∀ e ∈ (texts.get k).entries, texts.get? ⟨k, e.1⟩ = some e.2 := fun _ he =>
    SortedMap.mem_entries.1 he
  obtain ⟨t, ht, hfold⟩ := h.run_foldNames take hentries hu acc
  have hnames : (Stored.list S k.subPath).run s = (.ok (texts.get k).keys, u) :=
    Action.run_mapError_eq_ok.2 hlist
  exact ⟨t, ht, (Action.run_bind_of_ok hnames _).trans hfold⟩

/-- `foldKinds` over all kinds is a fold over all `texts`. -/
theorem run_foldKinds (take : Kind → α → String → String → Except PersistenceError α) (hs : P s)
    (acc : α) : ∃ t, P t ∧ (Stored.foldKinds S take Kind.all acc).run s =
      (texts.toList.foldlM (fun a e => take e.1.kind a e.1.id e.2) acc, t) := by
  have hkinds (ks : List Kind) {s : σ} (hs : P s) (acc : α) :
      ∃ t, P t ∧ (Stored.foldKinds S take ks acc).run s =
        ((ks.flatMap fun k => (texts.get k).entries.map fun e =>
          ((⟨k, e.1⟩, e.2) : ObjectRef × String)).foldlM
          (fun a e => take e.1.kind a e.1.id e.2) acc, t) := by
    -- On the kinds that are left. An error ends the fold on both sides at the same text.
    induction ks generalizing s acc with
    | nil => exact ⟨s, hs, rfl⟩
    | cons k ks ih =>
      obtain ⟨u, hu, hrun⟩ := h.run_foldObjects k (take k) hs acc
      rw [List.flatMap_cons, List.foldlM_append, List.foldlM_map, Stored.foldKinds]
      cases hk : (texts.get k).entries.foldlM (fun a e => take k a e.1 e.2) acc with
      | error cause =>
        rw [hk] at hrun
        exact ⟨u, hu, Action.run_bind_of_error hrun _⟩
      | ok acc' =>
        rw [hk] at hrun
        obtain ⟨t, ht, hrest⟩ := ih hu acc'
        exact ⟨t, ht, (Action.run_bind_of_ok hrun _).trans hrest⟩
  exact hkinds Kind.all hs acc

end Fold

/-- A store that is `InStep` with one that `Serves` texts serves them as well. -/
theorem of_inStep {τ : Type} {T : ObjectStore τ} {R : τ → σ → Prop} (hT : T.InStep S R) :
    T.Serves (fun t => ∃ s, R t s ∧ P s) texts := by
  -- Each of the three calls is answered alike and leaves related states.
  have hanswer {c : Store.Call} {answer : Except StoreError c.Answer} {t : τ} {s : σ}
      (hst : R t s) (hc : ∃ u, P u ∧ S.step c s = (answer, u)) :
      ∃ v, (∃ u, R v u ∧ P u) ∧ T.step c t = (answer, v) := by
    obtain ⟨u, hu, hstep⟩ := hc
    obtain ⟨hsame, hnext⟩ := hT c t s hst
    have hrun : (S.call c).run s = (answer, u) := hstep
    rw [hrun] at hsame hnext
    exact ⟨_, ⟨u, hnext, hu⟩, Prod.ext hsame rfl⟩
  refine ⟨?_, ?_, ?_⟩
  · rintro t ⟨s, hst, hs⟩ k
    exact hanswer hst (h.list hs k)
  · rintro t ⟨s, hst, hs⟩ r hr
    exact hanswer hst (h.openObject hs hr)
  · rintro t ⟨s, hst, hs⟩ r text hr
    exact hanswer hst (h.get hs hr)

end ObjectStore.Serves

/-- The text that a store answers with to a `get` of the object `r`. -/
private def ObjectStore.textOf (S : ObjectStore σ) (s : σ) (r : ObjectRef) : String :=
  match (S.step (.get (path r)) s).1 with
  | .ok (some text) => text
  | _ => ""

/-- A store that reading leaves as it is `Serves` texts if no call that reads fails: the names of
each kind are listed in order, and what is listed can be opened and has a text. -/
theorem ObjectStore.exists_serves {S : ObjectStore σ} {s : σ} (names : Kind → List String)
    (hkeeps : ∀ c : Store.Call, c.Reads → (S.step c s).2 = s)
    (hlist : ∀ k : Kind, (S.step (.list k.subPath) s).1 = .ok (names k))
    (hsorted : ∀ k, (names k).Pairwise fun a b => compare a b = .lt)
    (hopen : ∀ k, ∀ id ∈ names k, (S.step (.openObject (path ⟨k, id⟩)) s).1 = .ok ())
    (hget : ∀ k, ∀ id ∈ names k, ∃ text, (S.step (.get (path ⟨k, id⟩)) s).1 = .ok (some text)) :
    ∃ texts, S.Serves (· = s) texts := by
  -- The texts are those of the listed names, in the order in which they are listed.
  let texts : ByRef String := .ofFn fun k =>
    ⟨(names k).map fun id => (id, S.textOf s ⟨k, id⟩), List.pairwise_map.2 (hsorted k)⟩
  have hkeys (k : Kind) : (texts.get k).keys = names k := by
    rw [PerKind.get_ofFn, SortedMap.keys, List.map_map]
    exact List.map_id _
  have hlisted {r : ObjectRef} (hr : (texts.get? r).isSome) : r.id ∈ names r.kind := by
    rw [← hkeys]
    exact SortedMap.mem_keys.2 hr
  refine ⟨texts, ?_, ?_, ?_⟩
  · rintro s rfl k
    exact ⟨_, hkeeps _ (.list _), Prod.ext (by rw [hlist, hkeys]) rfl⟩
  · rintro s rfl r hr
    exact ⟨_, hkeeps _ (.openObject _), Prod.ext (hopen r.kind r.id (hlisted hr)) rfl⟩
  · rintro s rfl r text hr
    obtain ⟨text', htext'⟩ := hget r.kind r.id (hlisted (by rw [hr]; rfl))
    have htext : text = S.textOf s r := by
      have hentry : (r.id, text) ∈ (texts.get r.kind).entries := SortedMap.mem_entries.2 hr
      rw [PerKind.get_ofFn] at hentry
      obtain ⟨id, -, heq⟩ := List.mem_map.1 hentry
      obtain ⟨rfl, rfl⟩ := Prod.mk.inj heq
      rfl
    have htext'' : S.textOf s r = text' := by rw [ObjectStore.textOf, htext']
    exact ⟨_, hkeeps _ (.get _), Prod.ext (by rw [htext, htext'', htext']) rfl⟩

/-- A memory of which every sub-path `IsOpen` answers out of the texts that are stored. -/
theorem Memory.exists_serves {m : Memory} (h : ∀ k : Kind, m.IsOpen k.subPath) :
    ∃ texts, Memory.store.Serves (· = m) texts ∧ ∀ r, texts.get? r = m.storedText? r := by
  obtain ⟨texts, hserves⟩ : ∃ texts, Memory.store.Serves (· = m) texts := by
    refine ObjectStore.exists_serves (fun k => m.namesUnder k.subPath) ?_ (fun k => ?_)
      (fun k => FileTree.Mirrors.pairwise_namesUnder m k.subPath) (fun k id hid => ?_)
      fun k id hid => ?_
    · rintro c (_ | _ | _) <;> rfl
    · show (m.check k.subPath).map _ = _
      rw [Memory.check_eq_ok.2 ⟨(h k).isValid, (h k).isPrepared⟩]
      rfl
    · exact Memory.check_eq_ok.2 ⟨(h k).isValid_object id hid, (h k).isPrepared⟩
    · obtain ⟨text, htext⟩ := Option.isSome_iff_exists.1 (Memory.mem_namesUnder.1 hid)
      exact ⟨text, congrArg Except.ok (Memory.text?_eq_some.1 htext).2⟩
  refine ⟨texts, hserves, fun r => ?_⟩
  -- What is listed has a text, and it is the one that a read finds.
  have hlisted : (texts.get? r).isSome ↔ (m.storedText? r).isSome := by
    obtain ⟨_, -, hlist⟩ := hserves.list rfl r.kind
    have hnames : (m.check r.kind.subPath).map (fun _ => m.namesUnder r.kind.subPath) =
      .ok (texts.get r.kind).keys := congrArg Prod.fst hlist
    rw [Memory.check_eq_ok.2 ⟨(h r.kind).isValid, (h r.kind).isPrepared⟩] at hnames
    have hkeys : m.namesUnder r.kind.subPath = (texts.get r.kind).keys := Except.ok.inj hnames
    rw [Memory.storedText?, ← Memory.mem_namesUnder, hkeys]
    exact SortedMap.mem_keys.symm
  cases htexts : texts.get? r with
  | none =>
    rw [htexts] at hlisted
    exact (Option.not_isSome_iff_eq_none.1 (hlisted.not.1 (by simp))).symm
  | some text =>
    rw [htexts] at hlisted
    obtain ⟨text', htext'⟩ := Option.isSome_iff_exists.1 (hlisted.1 rfl)
    obtain ⟨_, -, hget⟩ := hserves.get rfl htexts
    have hfile : m.files.get? (path r) = some text := Except.ok.inj (congrArg Prod.fst hget)
    rw [htext', ← hfile]
    exact (Memory.text?_eq_some.1 htext').2

/-- A store that `Mirrors` a memory of which every sub-path `IsOpen` answers out of the texts that
are stored there. -/
theorem ObjectStore.Mirrors.exists_serves {S : ObjectStore σ} {held : σ → Memory}
    (hS : S.Mirrors held) {m : Memory} (h : ∀ k : Kind, m.IsOpen k.subPath) :
    ∃ texts, S.Serves (fun s => held s = m) texts ∧ ∀ r, texts.get? r = m.storedText? r := by
  obtain ⟨texts, hserves, htexts⟩ := Memory.exists_serves h
  have hheld : (fun s => ∃ n, held s = n ∧ n = m) = fun s => held s = m := by
    funext s
    simp
  exact ⟨texts, hheld ▸ hserves.of_inStep hS, htexts⟩

/-- A call that `Reads` leaves a directory as it is. -/
private theorem Files.step_of_reads (handle : String) (f : Files) {c : Store.Call} (hc : c.Reads) :
    (Files.step handle c f).2 = f := by
  cases hc with
  | list subPath =>
    rw [Files.step]
    split <;> rfl
  | openObject path => rfl
  | get path => rfl

/-- A directory `Serves` texts if every listing, and every object that is listed, can be read. -/
theorem Files.exists_serves {f : Files} {handle : String} {names : Kind → List String}
    (hlist : ∀ k : Kind, (Files.step handle (.list k.subPath) f).1 = .ok (names k))
    (hopen : ∀ k, ∀ id ∈ names k, (Files.step handle (.openObject (path ⟨k, id⟩)) f).1 = .ok ())
    (hget : ∀ k, ∀ id ∈ names k,
      ∃ text, (Files.step handle (.get (path ⟨k, id⟩)) f).1 = .ok (some text)) :
    ∃ texts, (Files.store handle).Serves (· = f) texts := by
  refine ObjectStore.exists_serves names (fun c => Files.step_of_reads handle f) hlist
    (fun k => ?_) hopen hget
  -- The files of a directory are listed in the order of the tree.
  have hk := hlist k
  rw [Files.step] at hk
  split at hk
  · cases hk
  · rw [Path.segments_of_not_mem k.slash_not_mem_subPath, Files.names] at hk
    split at hk
    · rw [← Except.ok.inj hk]
      exact .nil
    · cases hk
    · rw [← Except.ok.inj hk]
      exact (FileTree.Mirrors.pairwise_filesIn f.tree k.subPath).filter _

/-! ## What becomes of a text -/

/-- What a load found of the object `r`, and its failures. -/
def Loaded.outcome (y : Loaded) (r : ObjectRef) : Option Memento × List LoadFailure :=
  (y.topology.get? r, y.failures.filter (·.ref = r))

namespace MementoPersister

/-- What a lenient load makes of `texts`. -/
def loadedFrom (l : Lookup) (texts : ByRef String) : Loaded :=
  ⟨{ objects := ByRef.empty.fileAll (texts.toList.filterMap (found? (parse l))) },
    texts.toList.filterMap (failure? (parse l))⟩

/-- What becomes of the object `r` by its own text: it is found, or it fails once. -/
def outcome (l : Lookup) (r : ObjectRef) : Option String → Option Memento × List LoadFailure
  | none => (none, [])
  | some text =>
    match parse l r text with
    | .ok m => (some m, [])
    | .error e => (none, [⟨r, e⟩])

variable {l : Lookup} {texts : ByRef String} {r : ObjectRef}

/-- By `outcome` an object of which there is a text is found as what it is and does not fail, or is
not found and fails once. -/
theorem outcome_cases (l : Lookup) (r : ObjectRef) (text : String) :
    (∃ m, m.ref = r ∧ outcome l r (some text) = (some m, [])) ∨
      ∃ e, outcome l r (some text) = (none, [⟨r, e⟩]) := by
  rw [outcome]
  cases hparse : parse l r text with
  | ok m => exact .inl ⟨m, (parse_eq_ok.1 hparse).2, rfl⟩
  | error e => exact .inr ⟨e, rfl⟩

/-- `loadedFrom` finds the objects whose texts `parse`. -/
theorem get?_loadedFrom {m : Memento} : (loadedFrom l texts).topology.get? r = some m ↔
    ∃ text, texts.get? r = some text ∧ parse l r text = .ok m := by
  have hnodup : ((texts.toList.filterMap (found? (parse l))).map (·.1)).Nodup :=
    nodup_map_filterMap (fun _ _ _ h => (found?_eq_some.1 h).1.symm) texts.nodup_toList
  rw [Topology.get?, loadedFrom, ByRef.get?_fileAll_of_nodup hnodup, List.mem_filterMap]
  constructor
  · rintro ⟨⟨q, text⟩, he, hfound⟩
    obtain ⟨rfl, hparse⟩ := found?_eq_some.1 hfound
    exact ⟨text, ByRef.mem_toList.1 he, hparse⟩
  · rintro ⟨text, htext, hparse⟩
    exact ⟨(r, text), ByRef.mem_toList.2 htext, found?_eq_some.2 ⟨rfl, hparse⟩⟩

/-- `loadedFrom` reports an object if its text does not `parse`. -/
theorem filter_failures_loadedFrom (l : Lookup) (texts : ByRef String) (r : ObjectRef) :
    (loadedFrom l texts).failures.filter (·.ref = r) =
      ((texts.get? r).bind fun text => failure? (parse l) (r, text)).toList := by
  -- A failure is of the object whose text it is made of, so only this text matters.
  have hone : (loadedFrom l texts).failures.filter (·.ref = r) =
      (texts.toList.filter (fun e => e.1 = r)).filterMap (failure? (parse l)) := by
    rw [loadedFrom, List.filter_filterMap, List.filterMap_filter]
    refine List.filterMap_congr fun e _ => ?_
    cases hfailure : failure? (parse l) e with
    | none => simp
    | some f =>
      rw [(failure?_eq_some.1 hfailure).1]
      by_cases hr : f.ref = r <;> simp [hr]
  rw [hone, ByRef.filter_toList]
  cases texts.get? r with
  | none => rfl
  | some text =>
    show [(r, text)].filterMap (failure? (parse l)) = (failure? (parse l) (r, text)).toList
    cases hfailure : failure? (parse l) (r, text) <;> simp [hfailure]

/-- What becomes of an object in `loadedFrom` is told by `outcome`, so by its own text. -/
theorem outcome_loadedFrom (l : Lookup) (texts : ByRef String) (r : ObjectRef) :
    (loadedFrom l texts).outcome r = outcome l r (texts.get? r) := by
  -- What is found is the memento that the text parses as, if it does.
  have hget : (loadedFrom l texts).topology.get? r =
      (texts.get? r).bind fun text => (parse l r text).toOption := by
    refine Option.ext fun m => ?_
    rw [get?_loadedFrom]
    cases texts.get? r with
    | none => simp
    | some text => cases hparse : parse l r text <;> simp [hparse, Except.toOption]
  rw [Loaded.outcome, hget, filter_failures_loadedFrom]
  cases texts.get? r with
  | none => rfl
  | some text =>
    rw [Option.bind_some, Option.bind_some, outcome, failure?]
    cases parse l r text <;> rfl

/-! ## Loading -/

variable {S : ObjectStore σ} {P : σ → Prop} {s : σ}

/-- `loadLenient` finds what `loadedFrom` makes of the texts that the store `Serves`. -/
theorem run_loadLenient_of_serves (hS : S.Serves P texts) (hs : P s) {p : MementoPersister}
    (hp : p.isStopped = false) (l : Lookup) :
    ∃ t, P t ∧ (p.loadLenient S l).run s = (.ok (loadedFrom l texts), t) := by
  have hrunning := run_checkRunning_eq_ok.2 ⟨hp, Eq.refl s⟩
  obtain ⟨t, ht, hrun⟩ := hS.run_foldKinds (takeLenient l) hs {}
  refine ⟨t, ht, (Action.run_bind_of_ok hrunning _).trans (hrun.trans (Prod.ext ?_ rfl))⟩
  refine foldlM_take (parse l) (fun objects => Loaded.mk { objects }) _ ?_ ?_ texts.toList .empty []
  · intro taken fs r text x hx
    rw [takeLenient, hx, ← (parse_eq_ok.1 hx).2]
    rfl
  · intro taken fs r text cause hx
    rw [takeLenient, hx]

/-- `load` comes to what `strict` makes of the same. -/
theorem run_load_of_serves (hS : S.Serves P texts) (hs : P s) {p : MementoPersister}
    (hp : p.isStopped = false) (l : Lookup) :
    ∃ t, P t ∧ (p.load S l).run s = ((loadedFrom l texts).strict, t) := by
  have hrunning := run_checkRunning_eq_ok.2 ⟨hp, Eq.refl s⟩
  obtain ⟨t, ht, hrun⟩ := hS.run_foldKinds (takeStrict l) hs {}
  refine ⟨t, ht, (Action.run_bind_of_ok hrunning _).trans (hrun.trans (Prod.ext ?_ rfl))⟩
  exact foldlM_takeStrict l texts.toList {}

end MementoPersister

/-- A load of `texts` tells of every object what comes of its own text. -/
structure Loaded.IsOf (l : Lookup) (texts : ByRef String) (y : Loaded) : Prop where
  outcome_eq : ∀ r, y.outcome r = MementoPersister.outcome l r (texts.get? r)
  /-- An object of which there is a text is found as what it is, or fails once; see
  `MementoPersister.outcome_cases`. -/
  outcome_cases : ∀ r, (texts.get? r).isSome →
    (∃ m, m.ref = r ∧ y.outcome r = (some m, [])) ∨ ∃ e, y.outcome r = (none, [⟨r, e⟩])

namespace MementoPersister

variable {l : Lookup} {texts : ByRef String} {S : ObjectStore σ} {P : σ → Prop} {s : σ}

/-- `loadedFrom` tells of every object what comes of its own text. -/
theorem isOf_loadedFrom (l : Lookup) (texts : ByRef String) :
    (loadedFrom l texts).IsOf l texts := by
  refine ⟨outcome_loadedFrom l texts, fun r hr => ?_⟩
  obtain ⟨text, htext⟩ := Option.isSome_iff_exists.1 hr
  rw [outcome_loadedFrom, htext]
  exact outcome_cases l r text

/-- Over a store that `Serves` texts, `load` comes to what `strict` makes of `loadLenient`: what
that finds if it meets no failure, and else its first failure. A running persister's `loadLenient`
succeeds and tells of every object what comes of its own text. -/
theorem load_eq_strict (hS : S.Serves P texts) (hs : P s) (p : MementoPersister) (l : Lookup) :
    ((p.load S l).run s).1 = ((p.loadLenient S l).run s).1.bind Loaded.strict ∧
      (p.isStopped = false → ∃ y, ((p.loadLenient S l).run s).1 = .ok y ∧ y.IsOf l texts) := by
  -- A persister that has stopped refuses both alike; a running one goes through the same texts.
  cases hp : p.isStopped with
  | true =>
    have hstopped : (p.checkRunning : Action σ PersistenceError Unit).run s =
        (.error .stopped, s) := by
      rw [checkRunning, hp]
      rfl
    rw [load, loadLenient, Action.run_bind_of_error hstopped, Action.run_bind_of_error hstopped]
    refine ⟨rfl, fun h => ?_⟩
    cases h
  | false =>
    obtain ⟨_, -, hload⟩ := run_load_of_serves hS hs hp l
    obtain ⟨_, -, hlenient⟩ := run_loadLenient_of_serves hS hs hp l
    rw [hload, hlenient]
    exact ⟨rfl, fun _ => ⟨_, rfl, isOf_loadedFrom l texts⟩⟩

/-- A `Memory` with a memento, a second copy of it under another id, and a text cut short. -/
def misfiled : Memory where
  files := .ofList [("entities/a", Memento.codec.toText (.new .entity "a" "service")),
    ("entities/b", Memento.codec.toText (.new .entity "a" "service")), ("locations/c", "\x7b")]
  isPrepared := true

/-- `load_eq_strict` over `misfiled`: the memento is found, the copy is reported, and the strict
load fails. -/
theorem load_misfiled : ∃ y,
    ((inMemory.loadLenient Memory.store .placeholders).run misfiled).1 = .ok y ∧
    ((inMemory.load Memory.store .placeholders).run misfiled).1 = y.strict ∧
    y.outcome ⟨.entity, "a"⟩ = (some (.new .entity "a" "service"), []) ∧
    y.outcome ⟨.entity, "b"⟩ =
      (none, [⟨⟨.entity, "b"⟩, .format "entities/b" (.holds ⟨.entity, "a"⟩)⟩]) := by
  have hopen (k : Kind) : misfiled.IsOpen k.subPath := by
    cases k <;> exact ⟨rfl, by decide +kernel, by decide +kernel⟩
  -- Both objects are told by what their own text parses to, which is the memento `a`.
  obtain ⟨texts, hserves, htexts⟩ := Memory.exists_serves hopen
  obtain ⟨hstrict, hlenient⟩ := load_eq_strict hserves rfl inMemory .placeholders
  obtain ⟨y, hy, hof⟩ := hlenient rfl
  have hload : Memento.load .placeholders (Memento.codec.toText (.new .entity "a" "service")) =
      .ok (.new .entity "a" "service") :=
    Memento.load_toText ⟨by decide +kernel, by decide +kernel⟩
  refine ⟨y, hy, by rw [hstrict, hy]; rfl, ?_, ?_⟩
  · have htext : misfiled.storedText? ⟨.entity, "a"⟩ =
      some (Memento.codec.toText (.new .entity "a" "service")) := rfl
    rw [hof.outcome_eq, htexts, htext, outcome, parse, hload]
    rfl
  · have htext : misfiled.storedText? ⟨.entity, "b"⟩ =
      some (Memento.codec.toText (.new .entity "a" "service")) := rfl
    rw [hof.outcome_eq, htexts, htext, outcome, parse, hload]
    rfl

end MementoPersister

end Failover
