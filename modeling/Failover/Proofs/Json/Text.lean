import Failover.Json.Printer
import Failover.Json.Scan

/-!
# Scanning printed text

What `Json.pretty` prints, `Scan.value` takes apart again: the outline of the stored text of a value
is the outline of the value itself. Numbers that are doubles are left out, as their digits are found
by search.

## Key results

- `pieces?_quoted`: the pieces of an escaped text are its characters
- `number?_toDigits`: decimal digits scan as the literal that they are
- `readsValues`: a printed value scans to its outline, whatever follows it on the page
- `ofText_toText`: the same for a whole text
-/

namespace Failover.Scan

open Json

/-! ## Quoted texts -/

/-- `hexValue?` reads the digits that `hexDigit` writes. -/
theorem hexValue?_hexDigit : ∀ n < 16, hexValue? (hexDigit n) = some n := by decide

/-- No control character is half of a surrogate pair. -/
theorem pieceOfUnit_of_lt {n : Nat} (h : n < 32) : pieceOfUnit n = .char (Char.ofNat n) := by
  simp only [pieceOfUnit]
  rw [if_neg (by omega)]

/-- `pieces?` takes the escaped form of a character for one piece: the character. -/
theorem pieces?_escape_append (c : Char) (cs : List Char) :
    pieces? (escape c ++ cs) = (pieces? cs).map fun (ps, rest) => (.char c :: ps, rest) := by
  simp only [escape]
  split
  · simp [pieces?, escaped?]
  · simp [pieces?, escaped?]
  · simp [pieces?, escaped?]
  · simp [pieces?, escaped?]
  · simp [pieces?, escaped?]
  · simp [pieces?, escaped?]
  · simp [pieces?, escaped?]
  -- Any other character: four hex digits if it is a control character, else itself.
  · rename_i hq hb _ _ _ _ _
    split
    · rename_i h
      have hh := hexValue?_hexDigit (c.toNat / 16) (by omega)
      have hl := hexValue?_hexDigit (c.toNat % 16) (by omega)
      have hn : c.toNat / 16 * 16 + c.toNat % 16 = c.toNat := by omega
      have h0 : hexValue? '0' = some 0 := by decide
      simp [pieces?, hh, hl, h0, hn, pieceOfUnit_of_lt h]
    · rename_i h
      have : ¬ (c.toNat < 32 ∨ c = '\\') := by
        rintro (h' | rfl)
        · exact h h'
        · exact hb rfl
      rw [List.singleton_append, pieces?]
      · rw [if_neg this]
      · exact hq
      · rintro _ _ _ _ _ rfl; exact absurd rfl hb
      · rintro _ _ rfl; exact absurd rfl hb

/-- `pieces?` takes an escaped text for its characters, up to the closing quote. -/
theorem pieces?_quoted (cs rest : List Char) :
    pieces? (cs.flatMap escape ++ '"' :: rest) = some (cs.map .char, rest) := by
  induction cs with
  | nil => rfl
  | cons c cs ih => rw [List.flatMap_cons, List.append_assoc, pieces?_escape_append, ih]; rfl

/-- `textOf?` makes a text of its characters. -/
theorem textOf?_chars (s : String) : textOf? (s.toList.map .char) = some s := by
  have h : ∀ cs : List Char, joined? (cs.map .char) = some cs := by
    intro cs
    induction cs with
    | nil => rfl
    | cons c cs ih => simp [joined?, ih]
  simp [textOf?, h]

/-! ## Number literals -/

/-- What may follow a printed value: nothing, a comma or a line end. -/
def Follows : List Char → Prop
  | [] => True
  | c :: _ => c = ',' ∨ c = '\n'

/-- No digit `Follows` a printed value. -/
theorem Follows.isDigit_eq_false {c : Char} {cs : List Char} (h : Follows (c :: cs)) :
    c.isDigit = false := by
  rcases h with rfl | rfl <;> decide

/-- The digits of a number end where something `Follows`. -/
theorem takeWhile_digits {ds rest : List Char} (hd : ∀ c ∈ ds, c.isDigit = true)
    (hr : Follows rest) : (ds ++ rest).takeWhile Char.isDigit = ds := by
  rw [List.takeWhile_append_of_pos hd]
  cases rest with
  | nil => simp
  | cons c rest => simp [hr.isDigit_eq_false]

/-- After the digits of a number comes what `Follows`. -/
theorem dropWhile_digits {ds rest : List Char} (hd : ∀ c ∈ ds, c.isDigit = true)
    (hr : Follows rest) : (ds ++ rest).dropWhile Char.isDigit = rest := by
  rw [List.dropWhile_append_of_pos hd]
  cases rest with
  | nil => simp
  | cons c rest => simp [hr.isDigit_eq_false]

/-- `Nat.toDigits` writes digits. -/
theorem isDigit_toDigits (n : Nat) : ∀ c ∈ Nat.toDigits 10 n, c.isDigit = true :=
  fun _ hc => Nat.isDigit_of_mem_toDigits (by decide) (by decide) hc

/-- `Number.ofDigits` reads what `Nat.toDigits` writes. -/
theorem ofDigits_toDigits (n : Nat) : Number.ofDigits (Nat.toDigits 10 n) = n := by
  have h : Number.ofDigits (Nat.toDigits 10 n) = Nat.ofDigitChars 10 (Nat.toDigits 10 n) 0 := by
    rw [Nat.ofDigitChars_eq_foldl, Number.ofDigits]
    simp only [Nat.mul_comm 10, Char.reduceToNat]
  rw [h, Nat.ofDigitChars_ten_toDigits]

/-- `Nat.toDigits` writes only zero with a zero in front. -/
theorem head?_toDigits (n : Nat) (h : (Nat.toDigits 10 n).head? = some '0') :
    (Nat.toDigits 10 n).length = 1 := by
  induction n using Nat.strongRecOn with
  | ind n ih =>
    rcases Nat.lt_or_ge n 10 with hn | hn
    · rw [Nat.toDigits_of_lt_base hn]
      rfl
    · have hne : (Nat.toDigits 10 (n / 10)).head? ≠ none := by simp [Nat.toDigits_ne_nil]
      rw [Nat.toDigits_of_base_le (by decide) hn, List.head?_append,
        Option.or_of_isSome (Option.isSome_iff_ne_none.2 hne)] at h
      have h1 := ih (n / 10) (by omega) h
      have h2 := (Nat.length_toDigits_le_iff (b := 10) (k := 1) (n := n / 10) (by decide)
        (by decide)).1 (by omega)
      -- The quotient is one digit and that digit is zero.
      have hlt : n / 10 < 10 := by simpa using h2
      rw [Nat.toDigits_of_lt_base hlt] at h
      have h0 : (n / 10).digitChar = '0' := by simpa using h
      have := Nat.toNat_digitChar_of_lt_ten hlt
      rw [h0] at this
      have : (48 : Nat) = 48 + n / 10 := this
      omega

/-- No exponent `Follows` a printed value. -/
theorem exponent?_of_follows {rest : List Char} (hr : Follows rest) :
    exponent? rest = some (none, rest) := by
  cases rest with
  | nil => rfl
  | cons c rest => rcases hr with rfl | rfl <;> rfl

/-- `number?` scans the digits of a natural number as the literal that they are. -/
theorem number?_toDigits (negative : Bool) (n : Nat) {rest : List Char} (hr : Follows rest) :
    number? negative (Nat.toDigits 10 n ++ rest) =
      some (Number.ofLiteral? ⟨negative, Nat.toDigits 10 n, [], none⟩, rest) := by
  have hwhole : ¬ ((Nat.toDigits 10 n).isEmpty = true ∨
      ((Nat.toDigits 10 n).head? = some '0' ∧ (Nat.toDigits 10 n).length ≠ 1)) := by
    rintro (h | ⟨h, h'⟩)
    · exact Nat.toDigits_ne_nil (List.isEmpty_iff.1 h)
    · exact h' (head?_toDigits n h)
  simp only [number?, takeWhile_digits (isDigit_toDigits n) hr,
    dropWhile_digits (isDigit_toDigits n) hr]
  rw [if_neg hwhole]
  -- No fraction follows, and no exponent.
  have hpoint : ∀ cs, rest ≠ '.' :: cs := by
    rintro cs rfl
    rcases hr with h | h <;> exact absurd h (by decide)
  split
  · exact absurd rfl (hpoint _)
  · simp [exponent?_of_follows hr]

/-- A literal of digits is the natural number that they write, if it fits 64 bits. -/
theorem ofLiteral?_nat {n : Nat} (h : n < UInt64.size) :
    Number.ofLiteral? ⟨false, Nat.toDigits 10 n, [], none⟩ = some (.int n) := by
  simp [Number.ofLiteral?, ofDigits_toDigits, h]

/-- A literal of digits with a sign is the negative number, if a signed word holds it; zero is none.
-/
theorem ofLiteral?_neg {n : Nat} (h0 : n ≠ 0) (h : Int64.minValue.toInt ≤ -(n : Int)) :
    Number.ofLiteral? ⟨true, Nat.toDigits 10 n, [], none⟩ = some (.int (-n)) := by
  have hmin : Int64.minValue.toInt = -2 ^ 63 := rfl
  have hlt : n < UInt64.size := by
    show n < 2 ^ 64
    omega
  have hword : n ≤ 2 ^ 63 := by omega
  simp [Number.ofLiteral?, ofDigits_toDigits, hlt, h0]
  omega

/-! ## Values -/

/-- `skipBlanks` stops at once at a character that is not blank. -/
theorem skipBlanks_cons {c : Char} (h : isBlank c = false) (cs : List Char) :
    skipBlanks (c :: cs) = c :: cs := by
  simp [skipBlanks, h]

/-- `skipBlanks` passes a line end with its indentation. -/
theorem skipBlanks_newline (level : Nat) (cs : List Char) :
    skipBlanks (newline level ++ cs) = skipBlanks cs := by
  have h : ∀ n, skipBlanks (List.replicate n ' ' ++ cs) = skipBlanks cs := by
    intro n
    induction n with
    | zero => rfl
    | succ n ih => simpa [List.replicate_succ, skipBlanks, isBlank] using ih
  simpa [newline, skipBlanks, isBlank] using h (2 * level)

/-- No digit is blank. -/
theorem isBlank_of_isDigit {c : Char} (h : c.isDigit = true) : isBlank c = false := by
  have hr : ∀ b : Char, isBlank b = true → b.isDigit = false := by
    intro b hb
    simp only [isBlank, Bool.or_eq_true, decide_eq_true_eq] at hb
    rcases hb with ((rfl | rfl) | rfl) | rfl <;> decide
  cases hb : isBlank c with
  | false => rfl
  | true => simp [hr c hb] at h

/-- A text that starts with a digit is scanned by `number?`. -/
theorem value_number {c : Char} (h : c.isDigit = true) (fuel : Nat) (cs : List Char) :
    value (fuel + 1) (c :: cs) =
      leafOf ((number? false (c :: cs)).map fun (n, rest) => (.number n, rest)) := by
  have hne : ∀ b : Char, b.isDigit = false → c ≠ b := by
    rintro b hb rfl
    simp [h] at hb
  rw [value, skipBlanks_cons (isBlank_of_isDigit h)]
  -- None of the other forms starts with a digit.
  split
  all_goals first
    | rfl
    | (rename_i heq; injection heq with h1 h2; exact absurd h1 (hne _ (by decide)))

/-- `value` scans the text of an integer as that integer. -/
theorem value_int {n : Int} (hn : Number.inRange n = true) (fuel : Nat) {rest : List Char}
    (hr : Follows rest) :
    value (fuel + 1) (Number.intText n ++ rest) = (.number (some (.int n)), some rest) := by
  simp only [Number.inRange, Bool.and_eq_true, decide_eq_true_eq] at hn
  -- A negative number has its sign in front, and is looked up apart.
  rcases Int.lt_or_le n 0 with hneg | hpos
  · have hlit : Number.ofLiteral? ⟨true, Nat.toDigits 10 n.natAbs, [], none⟩ = some (.int n) := by
      rw [ofLiteral?_neg (by omega) (by omega)]
      congr 2
      omega
    have hblank : isBlank '-' = false := by decide
    rw [Number.intText, if_pos hneg, List.cons_append, value, skipBlanks_cons hblank]
    simp [number?_toDigits true n.natAbs hr, hlit, leafOf]
  · have hlit : Number.ofLiteral? ⟨false, Nat.toDigits 10 n.natAbs, [], none⟩ = some (.int n) := by
      rw [ofLiteral?_nat (by omega)]
      congr 2
      omega
    rw [Number.intText, if_neg (by omega)]
    have hscan := number?_toDigits false n.natAbs hr
    cases hd : Nat.toDigits 10 n.natAbs with
    | nil => exact absurd hd Nat.toDigits_ne_nil
    | cons d ds =>
      have hdigit : d.isDigit = true := isDigit_toDigits n.natAbs d (by simp [hd])
      rw [hd] at hscan hlit
      rw [List.cons_append] at hscan ⊢
      rw [value_number hdigit, hscan, hlit]
      rfl

/-- `value` scans a quoted text as that text. -/
theorem value_quote (s : String) (fuel : Nat) (rest : List Char) :
    value (fuel + 1) (quote s ++ rest) = (.string (some s), some rest) := by
  have hblank : isBlank '"' = false := by decide
  rw [quote, List.cons_append, List.cons_append, List.append_assoc, value, skipBlanks_cons hblank]
  simp [pieces?_quoted, textOf?_chars, leafOf]

/-- `value` passes a line end in front. -/
theorem value_newline (fuel level : Nat) (cs : List Char) :
    value fuel (newline level ++ cs) = value fuel cs := by
  cases fuel with
  | zero => rfl
  | succ fuel => rw [value, value, skipBlanks_newline]

/-- `value` passes a blank in front. -/
theorem value_blank (fuel : Nat) (cs : List Char) : value fuel (' ' :: cs) = value fuel cs := by
  cases fuel with
  | zero => rfl
  | succ fuel => rw [value, value]; rfl

/-- `values` passes a line end in front. -/
theorem values_newline (fuel level : Nat) (cs : List Char) :
    values fuel (newline level ++ cs) = values fuel cs := by
  cases fuel with
  | zero => rfl
  | succ fuel => rw [values, values, value_newline]

/-- `members` passes a line end in front. -/
theorem members_newline (fuel level : Nat) (cs : List Char) :
    members fuel (newline level ++ cs) = members fuel cs := by
  cases fuel with
  | zero => rfl
  | succ fuel => rw [members, members, skipBlanks_newline]

/-- `pretty` starts with a character that neither is blank nor closes an array. -/
theorem pretty_eq_cons (level : Nat) {j : Json} (hj : j.integral = true) :
    ∃ c cs, pretty level j = c :: cs ∧ isBlank c = false ∧ c ≠ ']' := by
  cases j with
  | null => exact ⟨_, _, rfl, by decide, by decide⟩
  | bool b => cases b <;> exact ⟨_, _, rfl, by decide, by decide⟩
  | number n =>
    cases n with
    | int n =>
      simp only [pretty, Number.text, Number.intText]
      split
      · exact ⟨_, _, rfl, by decide, by decide⟩
      · cases hd : Nat.toDigits 10 n.natAbs with
        | nil => exact absurd hd Nat.toDigits_ne_nil
        | cons d ds =>
          have hdigit : d.isDigit = true := isDigit_toDigits n.natAbs d (by simp [hd])
          -- A digit is no bracket.
          refine ⟨d, ds, rfl, isBlank_of_isDigit hdigit, ?_⟩
          rintro rfl
          exact absurd hdigit (by decide)
    | double x => simp [integral] at hj
  | string s => exact ⟨_, _, rfl, by decide, by decide⟩
  | array items => cases items <;> exact ⟨_, _, rfl, by decide, by decide⟩
  | object ms => cases ms <;> exact ⟨_, _, rfl, by decide, by decide⟩

/-- What `prettyItems` prints may follow a value. -/
theorem follows_prettyItems (level l : Nat) (js : List Json) (cs : List Char) :
    Follows (prettyItems level js ++ (newline l ++ cs)) := by
  cases js with
  | nil => exact .inr rfl
  | cons j js => exact .inl rfl

/-- What `prettyMembers` prints may follow a value. -/
theorem follows_prettyMembers (level l : Nat) (ms : List (String × Json)) (cs : List Char) :
    Follows (prettyMembers level ms ++ (newline l ++ cs)) := by
  cases ms with
  | nil => exact .inr rfl
  | cons m ms => exact .inl rfl

/-! ## Whole values

The scan of a value, of items and of members each spend one unit of fuel before they call each
other, so all three are shown together by induction on the fuel. Two units for each printed
character are enough. -/

/-- With so much `fuel`, a printed value that is short enough scans to its outline. -/
def ReadsValues (fuel : Nat) : Prop :=
  ∀ (j : Json) (level : Nat) (rest : List Char), j.integral = true → Follows rest →
    2 * (pretty level j).length ≤ fuel →
    value fuel (pretty level j ++ rest) = (ofJson j, some rest)

/-- With so much `fuel`, the items of an array scan to their outlines, up to the closing bracket. -/
def ReadsItems (fuel : Nat) : Prop :=
  ∀ (j : Json) (js : List Json) (level l : Nat) (rest : List Char), j.integral = true →
    integralItems js = true → 2 * (pretty level j ++ prettyItems level js).length + 1 ≤ fuel →
    values fuel (pretty level j ++ prettyItems level js ++ (newline l ++ ']' :: rest)) =
      (ofJson j :: ofItems js, some rest)

/-- With so much `fuel`, the members of an object scan to their outlines, up to the closing brace.
-/
def ReadsMembers (fuel : Nat) : Prop :=
  ∀ (k : String) (j : Json) (ms : List (String × Json)) (level l : Nat) (rest : List Char),
    j.integral = true → integralMembers ms = true →
    2 * (quote k ++ ':' :: ' ' :: pretty level j ++ prettyMembers level ms).length + 1 ≤ fuel →
    members fuel (quote k ++ ':' :: ' ' :: pretty level j ++ prettyMembers level ms
        ++ (newline l ++ '\x7d' :: rest)) =
      ((some k, ofJson j) :: ofMembers ms, some rest)

/-- One more unit of fuel lets values be read whose parts could be read. -/
private theorem readsValues_succ {fuel : Nat} (hi : ReadsItems fuel) (hm : ReadsMembers fuel) :
    ReadsValues (fuel + 1) := by
  intro j level rest hj hr hf
  -- A value without parts needs no other; an array or object hands on what fuel is left.
  match j with
  | .null => simp [pretty, value, skipBlanks, isBlank, leaf, ofJson]
  | .bool b => cases b <;> simp [pretty, value, skipBlanks, isBlank, leaf, ofJson]
  | .number (.int n) => exact value_int (by simpa [integral] using hj) fuel hr
  | .number (.double x) => simp [integral] at hj
  | .string s => exact value_quote s fuel rest
  | .array [] => simp [pretty, value, skipBlanks, isBlank, leaf, ofJson, ofItems]
  | .object [] => simp [pretty, value, skipBlanks, isBlank, leaf, ofJson, ofMembers]
  | .array (j :: js) =>
    simp only [pretty, List.cons_append, List.append_assoc, List.length_cons, List.length_append,
      List.length_nil] at hf ⊢
    simp only [integral, integralItems, Bool.and_eq_true] at hj
    have hitems := hi j js (level + 1) level rest hj.1 hj.2
      (by simp only [List.length_append]; omega)
    -- The first item does not look like the end of the array.
    obtain ⟨c, cs, hc, hb, hne⟩ := pretty_eq_cons (level + 1) hj.1
    rw [value, skipBlanks_cons (by decide)]
    simp only [skipBlanks_newline]
    rw [hc, List.append_assoc, List.cons_append] at hitems
    rw [hc, List.cons_append, skipBlanks_cons hb]
    split
    · rename_i heq
      injection heq with h1 h2
      exact absurd h1 hne
    · simp [hitems, ofJson, ofItems]
  | .object ((k, j) :: ms) =>
    simp only [pretty, List.cons_append, List.append_assoc, List.length_cons, List.length_append,
      List.length_nil] at hf ⊢
    simp only [integral, integralMembers, Bool.and_eq_true] at hj
    have hms := hm k j ms (level + 1) level rest hj.1 hj.2
      (by simp only [List.length_append, List.length_cons]; omega)
    rw [value, skipBlanks_cons (by decide)]
    simp only [skipBlanks_newline]
    simp only [quote, List.cons_append, List.append_assoc, List.nil_append] at hms ⊢
    rw [skipBlanks_cons (by decide)]
    simp [hms, ofJson, ofMembers]

/-- One more unit of fuel lets the items of an array be read. -/
private theorem readsItems_succ {fuel : Nat} (hv : ReadsValues fuel) (hi : ReadsItems fuel) :
    ReadsItems (fuel + 1) := by
  intro j js level l rest hj hjs hf
  simp only [List.length_append] at hf
  have hvalue := hv j level _ hj (follows_prettyItems level l js (']' :: rest)) (by omega)
  rw [values, List.append_assoc, hvalue]
  -- After the item comes the closing bracket, or a comma and the other items.
  match js with
  | [] =>
    simp only [prettyItems, List.nil_append, skipBlanks_newline]
    rw [skipBlanks_cons (by decide)]
    rfl
  | j' :: js =>
    simp only [integralItems, Bool.and_eq_true] at hjs
    obtain ⟨c, cs, hc, -⟩ := pretty_eq_cons level hj
    have hitems := hi j' js level l rest hjs.1 hjs.2 (by simp [prettyItems, hc] at hf ⊢; omega)
    simp only [prettyItems, List.cons_append, List.append_assoc] at hitems ⊢
    rw [skipBlanks_cons (by decide)]
    simp [values_newline, hitems, ofItems]

/-- One more unit of fuel lets the members of an object be read. -/
private theorem readsMembers_succ {fuel : Nat} (hv : ReadsValues fuel) (hm : ReadsMembers fuel) :
    ReadsMembers (fuel + 1) := by
  intro k j ms level l rest hj hms hf
  simp only [List.length_append, List.length_cons] at hf
  have hvalue := hv j level _ hj (follows_prettyMembers level l ms ('\x7d' :: rest)) (by omega)
  simp only [quote, List.cons_append, List.append_assoc]
  rw [members, skipBlanks_cons (by decide)]
  simp only [pieces?_quoted, List.nil_append, textOf?_chars]
  rw [skipBlanks_cons (by decide)]
  simp only [value_blank, hvalue]
  -- After the member comes the closing brace, or a comma and the other members.
  match ms with
  | [] =>
    simp only [prettyMembers, List.nil_append, skipBlanks_newline]
    rw [skipBlanks_cons (by decide)]
    rfl
  | (k', j') :: ms =>
    simp only [integralMembers, Bool.and_eq_true] at hms
    have hrest := hm k' j' ms level l rest hms.1 hms.2 (by simp [prettyMembers] at hf ⊢; omega)
    simp only [prettyMembers, quote, List.cons_append, List.append_assoc, List.nil_append]
      at hrest ⊢
    rw [skipBlanks_cons (by decide)]
    simp [members_newline, hrest, ofMembers]

/-- `value`, `values` and `members` read what is printed, by induction on the fuel that they share.
-/
private theorem reads (fuel : Nat) : ReadsValues fuel ∧ ReadsItems fuel ∧ ReadsMembers fuel := by
  induction fuel with
  | zero =>
    -- Without fuel the bound leaves no room for the text of a value.
    refine ⟨fun j level rest hj _ hf => ?_, fun j js level l rest hj _ hf => ?_,
      fun k j ms level l rest hj _ hf => ?_⟩
    · obtain ⟨c, cs, hc, -⟩ := pretty_eq_cons level hj
      simp [hc] at hf
    · simp at hf
    · simp at hf
  | succ fuel ih =>
    obtain ⟨hv, hi, hm⟩ := ih
    exact ⟨readsValues_succ hi hm, readsItems_succ hv hi, readsMembers_succ hv hm⟩

/-- `value` reads any printed value, with two units of fuel for each character. -/
theorem readsValues (fuel : Nat) : ReadsValues fuel := (reads fuel).1

/-- `ofText` finds in the stored text of a value without doubles the outline of that value. -/
theorem ofText_toText {j : Json} (hj : j.integral = true) : ofText j.toText = (ofJson j, true) := by
  have h := readsValues (2 * (pretty 0 j).length + 2) j 0 [] hj trivial (by omega)
  rw [List.append_nil] at h
  simp [ofText, ofChars, toText, h, skipBlanks]

end Failover.Scan
