import Failover.SortedMap
import Failover.Json.Number

/-! # JSON values

`Json` is a JSON value whose objects list their members in the order in which they are written.
`Json.normal` puts every object into key order, keeping the last of several members with one key;
a `Plain` is a value in that form, the only one in which values are held and compared.

`depth` counts nested arrays and objects, and `Integral` says that no number is a double. Both are
what the round trip through text depends on. -/

namespace Failover

/-- A `Json` is a JSON value, with the members of an object in the order of writing. -/
inductive Json where
  | null
  | bool (b : Bool)
  | number (n : Number)
  | string (s : String)
  | array (items : List Json)
  | object (members : List (String × Json))
deriving Inhabited, Repr

namespace Json

/-! ## Equality -/

mutual

private def decideEq : (a b : Json) → Decidable (a = b)
  | .null, .null => isTrue rfl
  | .bool a, .bool b => if h : a = b then isTrue (by rw [h]) else isFalse (by simpa using h)
  | .number a, .number b => if h : a = b then isTrue (by rw [h]) else isFalse (by simpa using h)
  | .string a, .string b => if h : a = b then isTrue (by rw [h]) else isFalse (by simpa using h)
  | .array a, .array b =>
    match decideItems a b with
    | isTrue h => isTrue (by rw [h])
    | isFalse h => isFalse (by simpa using h)
  | .object a, .object b =>
    match decideMembers a b with
    | isTrue h => isTrue (by rw [h])
    | isFalse h => isFalse (by simpa using h)
  | .null, .bool _ | .null, .number _ | .null, .string _ | .null, .array _ | .null, .object _
  | .bool _, .null | .bool _, .number _ | .bool _, .string _ | .bool _, .array _
  | .bool _, .object _ | .number _, .null | .number _, .bool _ | .number _, .string _
  | .number _, .array _ | .number _, .object _ | .string _, .null | .string _, .bool _
  | .string _, .number _ | .string _, .array _ | .string _, .object _ | .array _, .null
  | .array _, .bool _ | .array _, .number _ | .array _, .string _ | .array _, .object _
  | .object _, .null | .object _, .bool _ | .object _, .number _ | .object _, .string _
  | .object _, .array _ => isFalse nofun

private def decideItems : (a b : List Json) → Decidable (a = b)
  | [], [] => isTrue rfl
  | [], _ :: _ => isFalse nofun
  | _ :: _, [] => isFalse nofun
  | a :: as, b :: bs =>
    match decideEq a b, decideItems as bs with
    | isTrue h, isTrue hs => isTrue (by rw [h, hs])
    | isFalse h, _ => isFalse (by simp [h])
    | _, isFalse hs => isFalse (by simp [hs])

private def decideMembers : (a b : List (String × Json)) → Decidable (a = b)
  | [], [] => isTrue rfl
  | [], _ :: _ => isFalse nofun
  | _ :: _, [] => isFalse nofun
  | (k, a) :: as, (l, b) :: bs =>
    if hk : k = l then
      match decideEq a b, decideMembers as bs with
      | isTrue h, isTrue hs => isTrue (by rw [hk, h, hs])
      | isFalse h, _ => isFalse (by simp [h])
      | _, isFalse hs => isFalse (by simp [hs])
    else isFalse (by simp [hk])

end

instance : DecidableEq Json := decideEq

/-! ## Nesting and numbers -/

mutual

/-- `j.depth` is how many arrays and objects are nested in `j` at most. -/
def depth : Json → Nat
  | .array items => depthItems items + 1
  | .object members => depthMembers members + 1
  | _ => 0

/-- The greatest `depth` in a list of values. -/
def depthItems : List Json → Nat
  | [] => 0
  | j :: js => max j.depth (depthItems js)

/-- The greatest `depth` among the values of members. -/
def depthMembers : List (String × Json) → Nat
  | [] => 0
  | (_, j) :: ms => max j.depth (depthMembers ms)

end

mutual

/-- Whether all numbers of a value are integers of 64 bits (`Number.inRange`). -/
def integral : Json → Bool
  | .number (.int n) => Number.inRange n
  | .number (.double _) => false
  | .array items => integralItems items
  | .object members => integralMembers members
  | _ => true

/-- Whether all values of a list are `integral`. -/
def integralItems : List Json → Bool
  | [] => true
  | j :: js => j.integral && integralItems js

/-- Whether the values of all members are `integral`. -/
def integralMembers : List (String × Json) → Bool
  | [] => true
  | (_, j) :: ms => j.integral && integralMembers ms

end

/-! ## Normal form -/

mutual

/-- `j.normal` has the members of every object in key order; of members with one key the last stays.
-/
def normal : Json → Json
  | .array items => .array (normalItems items)
  | .object members => .object (normalMembers .empty members).entries
  | .null => .null
  | .bool b => .bool b
  | .number n => .number n
  | .string s => .string s

/-- The `normal` forms of a list of values. -/
def normalItems : List Json → List Json
  | [] => []
  | j :: js => j.normal :: normalItems js

/-- `normalMembers m` adds members in `normal` form to the map `m`, from left to right. -/
def normalMembers (m : SortedMap String Json) : List (String × Json) → SortedMap String Json
  | [] => m
  | (k, j) :: ms => normalMembers (m.insert k j.normal) ms

end

/-- `normalMembers` is `insertAll` of the members in `normal` form. -/
private theorem normalMembers_eq (m : SortedMap String Json) (ms : List (String × Json)) :
    normalMembers m ms = m.insertAll (ms.map fun e => (e.1, e.2.normal)) := by
  induction ms generalizing m with
  | nil => rfl
  | cons e ms ih => obtain ⟨k, j⟩ := e; simp [normalMembers, ih]

/-- `normalMembers` rebuilds a map whose values are in `normal` form. -/
private theorem normal_object_of_fixed {m : SortedMap String Json}
    (h : ∀ e ∈ m.entries, e.2.normal = e.2) : normalMembers .empty m.entries = m := by
  have hid : m.entries.map (fun e => (e.1, e.2.normal)) = m.entries := by
    conv => rhs; rw [← List.map_id m.entries]
    exact List.map_congr_left fun e he => by rw [h e he]; rfl
  rw [normalMembers_eq, hid]
  exact SortedMap.ofList_entries m

mutual

/-- `normal` changes nothing that is in normal form. -/
theorem normal_normal : (j : Json) → j.normal.normal = j.normal
  | .null | .bool _ | .number _ | .string _ => by simp [normal]
  | .array items => by simp [normal, normalItems_normalItems items]
  | .object members => by
    simp only [normal]
    rw [normal_object_of_fixed]
    intro e he
    exact normalMembers_fixed members .empty nofun e he

private theorem normalItems_normalItems : (js : List Json) →
    normalItems (normalItems js) = normalItems js
  | [] => rfl
  | j :: js => by simp [normalItems, normal_normal j, normalItems_normalItems js]

private theorem normalMembers_fixed : (ms : List (String × Json)) → (m : SortedMap String Json) →
    (∀ e ∈ m.entries, e.2.normal = e.2) →
    ∀ e ∈ (normalMembers m ms).entries, e.2.normal = e.2
  | [], _, h => h
  | (k, j) :: ms, m, h => by
    rw [normalMembers]
    refine normalMembers_fixed ms _ fun e he => ?_
    rcases SortedMap.mem_insert he with rfl | he
    · exact normal_normal j
    · exact h e he

end

end Json

/-- A `Plain` is a JSON value in `normal` form: the members of every object stand in key order, one
for a key. -/
structure Plain where
  /-- The value itself. -/
  json : Json
  /-- The value is its own `normal` form. -/
  isNormal : json.normal = json
deriving DecidableEq

namespace Plain

/-- `Plain.of j` is the value `j` brought into `normal` form. -/
def of (j : Json) : Plain := ⟨j.normal, j.normal_normal⟩

instance : Inhabited Plain := ⟨of .null⟩

@[simp] theorem of_json (p : Plain) : of p.json = p := by
  obtain ⟨j, h⟩ := p
  simp [of, h]

end Plain

end Failover
