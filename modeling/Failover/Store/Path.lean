/-! # Object paths

An object is addressed by a path: segments that a slash separates. A path is valid if no segment is
empty or starts with a dot, and if it holds no backslash; so it stays below the root of the store
and never names a write in progress.

* `segments_object` the segments of a joined path are those of the sub-path and of the name
-/

namespace Failover

namespace Path

/-- The segments of a text, which single slashes separate; `split` never gives none. -/
def split : List Char → List (List Char)
  | [] => [[]]
  | c :: cs =>
    if c = '/' then [] :: split cs
    else match split cs with
      | [] => [[c]]
      | seg :: segs => (c :: seg) :: segs

/-- The segments of a path, as `split` gives them. -/
def segments (path : String) : List String := (split path.toList).map String.ofList

/-- Whether a segment may stand in a path that `isValid`. -/
def isSegment (seg : List Char) : Bool := !seg.isEmpty && seg.head? ≠ some '.'

/-- Whether a path is valid: it holds no backslash, and each of its segments `isSegment`. -/
def isValid (path : String) : Bool :=
  !path.toList.contains '\\' && (split path.toList).all isSegment

/-- The path of an object below a sub-path. -/
def object (subPath name : String) : String := subPath ++ "/" ++ name

/-- The name of an object that lies directly below a sub-path, given its path; `object` is its
inverse. -/
def nameUnder? (subPath path : String) : Option String :=
  let start := subPath.toList ++ ['/']
  if start.isPrefixOf path.toList then
    let name := path.toList.drop start.length
    if name.contains '/' then none else some (String.ofList name)
  else none

/-- Whether a text is one valid segment: a path that `isValid`, without a slash. -/
def isSingle (seg : String) : Bool := isValid seg && !seg.toList.contains '/'

theorem split_append (a b : List Char) : split (a ++ '/' :: b) = split a ++ split b := by
  induction a with
  | nil => simp [split]
  | cons c a ih =>
    simp only [List.cons_append, split, ih]
    split
    · simp
    · -- The first segment grows, and `split` gives at least one.
      cases h : split a with
      | nil =>
        cases a with
        | nil => simp [split] at h
        | cons d a =>
          simp only [split] at h
          split at h
          · simp at h
          · split at h <;> simp at h
      | cons seg segs => simp

@[simp] theorem segments_object (subPath name : String) :
    segments (object subPath name) = segments subPath ++ segments name := by
  simp [segments, object, split_append]

end Path

end Failover
