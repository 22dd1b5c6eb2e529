import Failover.Store.Files
import Failover.Store.Listening
import Failover.Store.Memory

/-!
# Listening changes nothing and counts exactly

A storage that listens replies to every request as the storage inside it does. It hands out the same
accessors, which listen too, and leaves the same state. What it notes are the transfers in its
replies: texts that were sent, paths that were asked about and texts that came back. So the counters
show the totals of these over a whole session, as long as the totals fit 64 bits.

## Key results

- `Storage.request_listening`, `Storage.run_listening`: one request, and a sequence of them
- `ObjectStore.storage_listening`: the accessors of a store that listens are accessors that listen
- `Traffic.note_eq`, `Traffic.noteAll_eq`: what one reply adds to the counters, and what many do
- `Storage.listens`: the replies, the state and the counters
-/

namespace Failover

open Store (Access Call Reply Request)

variable {σ : Type}

/-! ## Transfers -/

namespace Store.Reply

/-- The text that the call of a `Reply` sends to be stored. -/
def sent? (r : Reply) : Option String :=
  match r.1 with
  | .put _ contents | .append _ contents => some contents
  | _ => none

/-- The path that the call of a `Reply` asks about. -/
def asked? (r : Reply) : Option String :=
  match r.1 with
  | .createSubPath path | .list path | .get path | .delete path | .contains path
  | .lastModified path => some path
  | _ => none

/-- The texts that a `Reply` brings back if the call does not fail: names, or the contents of an
object. -/
def received? : Reply → Option (List String)
  | ⟨.list _, .ok names⟩ => some names
  | ⟨.get _, .ok contents?⟩ => some contents?.toList
  | _ => none

/-- Whether a `Reply` is to a call that deletes everything. -/
def deletesAll (r : Reply) : Bool := r.1 = .deleteAll

end Store.Reply

/-- The totals of `Traffic`, as numbers without bound. -/
@[ext] structure Tally where
  bytesIn : Nat
  bytesOut : Nat
  queriesOut : Nat
  dataOut : Nat
  dataIn : Nat
deriving DecidableEq, Repr

namespace Tally

/-- How many bytes `texts` have together. -/
def size : List String → Nat
  | [] => 0
  | text :: texts => text.utf8ByteSize + size texts

/-- The totals of what was `sent?`, `asked?` about and `received?`. To delete everything is to send
a text of no bytes. -/
def ofReplies (rs : List Reply) : Tally where
  bytesIn := size (rs.filterMap Reply.received?).flatten
  bytesOut := size (rs.filterMap Reply.sent?) + size (rs.filterMap Reply.asked?)
  queriesOut := (rs.filterMap Reply.asked?).length
  dataOut := (rs.filterMap Reply.sent?).length + rs.countP Reply.deletesAll
  dataIn := (rs.filterMap Reply.received?).length

/-- No total of a `Tally` is too great for 64 bits. -/
structure Fits (n : Tally) : Prop where
  bytesIn : n.bytesIn < UInt64.size
  bytesOut : n.bytesOut < UInt64.size
  queriesOut : n.queriesOut < UInt64.size
  dataOut : n.dataOut < UInt64.size
  dataIn : n.dataIn < UInt64.size

instance : Add Tally where
  add m n := ⟨m.bytesIn + n.bytesIn, m.bytesOut + n.bytesOut, m.queriesOut + n.queriesOut,
    m.dataOut + n.dataOut, m.dataIn + n.dataIn⟩

/-- The `size` of texts that are put together. -/
theorem size_append (texts more : List String) : size (texts ++ more) = size texts + size more := by
  induction texts with
  | nil => simp [size]
  | cons text texts ih => rw [List.cons_append, size, size, ih, Nat.add_assoc]

/-- Bytes that are counted one text after the other come to `size`. -/
theorem foldl_eq_size (n : Nat) (texts : List String) :
    texts.foldl (fun n text => n + text.utf8ByteSize) n = n + size texts := by
  induction texts generalizing n with
  | nil => rfl
  | cons text texts ih => rw [List.foldl_cons, ih, size, Nat.add_assoc]

/-- The bytes of a text that may be missing, as a `size`. -/
theorem getD_eq_size (text? : Option String) :
    (text?.map (·.utf8ByteSize)).getD 0 = size text?.toList := by
  cases text? <;> simp [size]

/-- `ofReplies` adds up over replies that are put together. -/
theorem ofReplies_append (rs more : List Reply) :
    ofReplies (rs ++ more) = ofReplies rs + ofReplies more := by
  refine Tally.ext ?_ ?_ ?_ ?_ ?_
  all_goals
    simp only [ofReplies, List.filterMap_append, List.flatten_append, List.length_append,
      List.countP_append, size_append]
  · rfl
  · exact Nat.add_add_add_comm ..
  · rfl
  · exact Nat.add_add_add_comm ..
  · rfl

end Tally

/-! ## Counters -/

namespace Traffic

/-- What the counters of `Traffic` show. -/
def tally (t : Traffic) : Tally :=
  ⟨t.bytesIn.toNat, t.bytesOut.toNat, t.queriesOut.toNat, t.dataOut.toNat, t.dataIn.toNat⟩

/-- The counters `t` with the totals `n` added, in 64 bits. -/
def plus (t : Traffic) (n : Tally) : Traffic :=
  ⟨t.bytesIn + .ofNat n.bytesIn, t.bytesOut + .ofNat n.bytesOut,
    t.queriesOut + .ofNat n.queriesOut, t.dataOut + .ofNat n.dataOut, t.dataIn + .ofNat n.dataIn⟩

/-- The counters after the replies `rs`, each taken down by `note`. -/
def noteAll (t : Traffic) (rs : List Reply) : Traffic := rs.foldl (fun t r => t.note r.1 r.2) t

/-- Totals may be added to the counters by `plus` together or one after the other. -/
theorem plus_add (t : Traffic) (m n : Tally) : t.plus (m + n) = (t.plus m).plus n := by
  have hadd : ∀ (w : UInt64) (a b : Nat), w + .ofNat (a + b) = w + .ofNat a + .ofNat b :=
    fun w a b => by rw [UInt64.ofNat_add, UInt64.add_assoc]
  show Traffic.mk _ _ _ _ _ = Traffic.mk _ _ _ _ _
  congr 1 <;> exact hadd ..

/-- `note` counts nothing for opening an object. -/
theorem note_openObject (t : Traffic) (path : String) (r : Except StoreError Unit) :
    t.note (.openObject path) r = t := by
  cases r <;> rfl

/-- `note` adds the transfers of one call, as `ofReplies` has them. -/
theorem note_eq (t : Traffic) (r : Reply) : t.note r.1 r.2 = t.plus (.ofReplies [r]) := by
  obtain ⟨c, r⟩ := r
  -- Whether the call fails matters only for a list and a get, which bring something back.
  cases c <;> cases r <;>
    simp [note, before, after, queryOut, sent, received, plus, Tally.ofReplies, Reply.sent?,
      Reply.asked?, Reply.received?, Reply.deletesAll, List.filterMap_cons, Tally.foldl_eq_size,
      Tally.getD_eq_size, Tally.size]

/-- `noteAll` of replies that are put together. -/
theorem noteAll_append (t : Traffic) (rs more : List Reply) :
    t.noteAll (rs ++ more) = (t.noteAll rs).noteAll more := List.foldl_append

/-- `noteAll` adds the totals of all transfers, as `ofReplies` has them. -/
theorem noteAll_eq (t : Traffic) (rs : List Reply) : t.noteAll rs = t.plus (.ofReplies rs) := by
  induction rs generalizing t with
  | nil => simp [noteAll, plus, Tally.ofReplies, Tally.size]
  | cons r rs ih =>
    calc t.noteAll (r :: rs)
        = (t.note r.1 r.2).noteAll rs := rfl
      _ = (t.plus (.ofReplies [r])).plus (.ofReplies rs) := by rw [ih, note_eq]
      _ = t.plus (.ofReplies (r :: rs)) := by rw [← plus_add, ← Tally.ofReplies_append]; rfl

/-- Counters that start at zero show the totals by `tally` where these are within `Fits`. -/
theorem tally_plus {n : Tally} (h : n.Fits) : (plus {} n).tally = n := by
  have hzero : ∀ k : Nat, k < UInt64.size → ((0 : UInt64) + .ofNat k).toNat = k := by
    intro k hk
    rw [UInt64.zero_add, UInt64.toNat_ofNat_of_lt' hk]
  exact Tally.ext (hzero _ h.bytesIn) (hzero _ h.bytesOut) (hzero _ h.queriesOut)
    (hzero _ h.dataOut) (hzero _ h.dataIn)

end Traffic

/-! ## Sessions -/

/-- The session `u` with the same accessors, all of which listen. -/
def Session.listening (u : Session σ) (t : Traffic) : Session (σ × Traffic) :=
  ⟨u.held.map Accessor.listening, (u.state, t)⟩

/-- The accessors that a store hands out when it is `listening` are the same ones `listening`. -/
theorem ObjectStore.storage_listening (S : ObjectStore σ) :
    S.listening.storage = S.storage.listening := by
  -- The two differ in no more than where the listening begins: at the store, or at what it opens.
  have hopen : ∀ path u, S.listening.storage.openObject path u =
      S.storage.listening.openObject path u := by
    rintro path ⟨s, t⟩
    have hmap : ∀ r : Except StoreError Unit, r.map (fun _ => S.listening.accessor path) =
        (r.map fun _ => S.accessor path).map Accessor.listening := by
      intro r
      cases r <;> rfl
    calc S.listening.storage.openObject path (s, t)
        = ((S.step (.openObject path) s).1.map fun _ => S.listening.accessor path,
            (S.step (.openObject path) s).2,
            t.note (.openObject path) (S.step (.openObject path) s).1) := rfl
      _ = (((S.step (.openObject path) s).1.map fun _ => S.accessor path).map
            Accessor.listening, (S.step (.openObject path) s).2, t) := by
          rw [hmap, Traffic.note_openObject]
      _ = S.storage.listening.openObject path (s, t) := rfl
  rw [Storage.mk.injEq]
  exact ⟨rfl, funext fun path => funext (hopen path)⟩

namespace Storage

variable (S : Storage σ)

/-- A `request` is replied to alike, and its reply is noted by `noteAll`. -/
theorem request_listening (q : Request) (u : Session σ) (t : Traffic) :
    S.listening.request q (u.listening t) = ((S.request q u).1,
      (S.request q u).2.listening (t.noteAll (S.request q u).1.toList)) := by
  cases q with
  | call c => rfl
  -- To hold an accessor counts nothing, but from now on it listens.
  | hold path =>
    have hopen : S.listening.openObject path (u.listening t).state =
        ((S.openObject path u.state).1.map Accessor.listening,
          (S.openObject path u.state).2, t) := rfl
    simp only [request, hopen]
    cases S.openObject path u.state with
    | mk r s =>
      cases r with
      | error e => rfl
      | ok A => simp [Session.listening, Traffic.noteAll, Traffic.note_openObject, Except.map]
  | ask i a =>
    simp only [request, Session.listening, List.getElem?_map]
    cases u.held[i]? <;> rfl

/-- A `run` of requests is replied to alike, and all replies are noted by `noteAll`. -/
theorem run_listening (qs : List Request) (u : Session σ) (t : Traffic) :
    S.listening.run qs (u.listening t) =
      ((S.run qs u).1, (S.run qs u).2.listening (t.noteAll (S.run qs u).1)) := by
  induction qs generalizing u t with
  | nil => rfl
  | cons q qs ih =>
    simp only [run]
    rw [request_listening]
    simp only [ih, Traffic.noteAll_append]

/-- A storage that is `listening` gives the replies, hands out the accessors and leaves the state of
the storage inside it. Counters that started at zero show the totals of the transfers, where these
are within `Fits`. -/
theorem listens (s : σ) (qs : List Request)
    (hfits : (Tally.ofReplies (S.run qs ⟨[], s⟩).1).Fits) :
    (S.listening.run qs ⟨[], (s, {})⟩).1 = (S.run qs ⟨[], s⟩).1 ∧
      (S.listening.run qs ⟨[], (s, {})⟩).2.held =
        (S.run qs ⟨[], s⟩).2.held.map Accessor.listening ∧
      (S.listening.run qs ⟨[], (s, {})⟩).2.state.1 = (S.run qs ⟨[], s⟩).2.state ∧
      (S.listening.run qs ⟨[], (s, {})⟩).2.state.2.tally =
        Tally.ofReplies (S.run qs ⟨[], s⟩).1 := by
  have hrun : S.listening.run qs ⟨[], (s, {})⟩ = ((S.run qs ⟨[], s⟩).1,
      (S.run qs ⟨[], s⟩).2.listening (Traffic.noteAll {} (S.run qs ⟨[], s⟩).1)) :=
    S.run_listening qs ⟨[], s⟩ {}
  rw [hrun]
  refine ⟨rfl, rfl, rfl, ?_⟩
  -- The counters do not wrap around, as the sums of all replies fit them.
  show (Traffic.noteAll {} _).tally = _
  rw [Traffic.noteAll_eq, Traffic.tally_plus hfits]

/-- A session of `Request`s in which an accessor outlives its store, and calls fail. -/
def outliving : List Request :=
  [.hold "e/é", .call (.prepare .auto), .hold "e/é", .call (.createSubPath ".."),
    .ask 0 (.put "a∀"), .ask 0 (.append "b"), .call (.list "e"), .call .close, .call (.list "e"),
    .ask 0 .get, .call .deleteAll, .ask 0 .get, .ask 1 .delete]

/-- The counters after `outliving`: seven bytes come back, the name of an object and its contents.
-/
theorem listens_outliving :
    (Tally.ofReplies ((Files.store "a").storage.run outliving ⟨[], {}⟩).1).Fits ∧
      ((Files.store "a").listening.storage.run outliving ⟨[], ({}, {})⟩).2.state.2.tally =
        ⟨7, 17, 5, 3, 3⟩ := by
  have htally : Tally.ofReplies ((Files.store "a").storage.run outliving ⟨[], {}⟩).1 =
      ⟨7, 17, 5, 3, 3⟩ := rfl
  have hfits : (Tally.ofReplies ((Files.store "a").storage.run outliving ⟨[], {}⟩).1).Fits := by
    rw [htally]
    exact ⟨by decide, by decide, by decide, by decide, by decide⟩
  obtain ⟨-, -, -, hcounters⟩ := (Files.store "a").storage.listens {} outliving hfits
  rw [ObjectStore.storage_listening]
  exact ⟨hfits, hcounters.trans htally⟩

/-- Not only what is put or appended counts as data that is sent: `deleteAll` does too. -/
theorem not_all_dataOut_of_deleteAll :
    ¬ ∀ (σ : Type) (S : Storage σ) (s : σ) (qs : List Request),
      (Tally.ofReplies (S.run qs ⟨[], s⟩).1).Fits →
        (S.listening.run qs ⟨[], (s, {})⟩).1 = (S.run qs ⟨[], s⟩).1 ∧
          (S.listening.run qs ⟨[], (s, {})⟩).2.state.1 = (S.run qs ⟨[], s⟩).2.state ∧
          (S.listening.run qs ⟨[], (s, {})⟩).2.state.2.tally =
            { Tally.ofReplies (S.run qs ⟨[], s⟩).1 with
              dataOut := ((S.run qs ⟨[], s⟩).1.filterMap Reply.sent?).length } := by
  intro h
  obtain ⟨-, -, hcounters⟩ := h Memory Memory.store.storage .prepared [.call .deleteAll]
    ⟨by decide, by decide, by decide, by decide, by decide⟩
  exact absurd (congrArg Tally.dataOut hcounters) (by decide)

end Storage

end Failover
