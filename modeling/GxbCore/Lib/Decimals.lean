import Mathlib.Algebra.Group.Int.Defs
import Mathlib.Algebra.Group.Nat.Defs
import Mathlib.Data.List.Basic

/-!
# Decimal numbers in texts

A run of decimal digits has a value, and a text starts with a number or does
not.  The number of a text is read up to the first char that belongs to it no
longer.
-/

namespace GxbCore.Decimal

/-- Only decimal digits. -/
def Digits (text : List Char) : Prop :=
  ∀ c ∈ text, c.isDigit = true

instance (text : List Char) : Decidable (Digits text) :=
  decidable_of_iff (text.all Char.isDigit = true) List.all_eq_true

/-- The value of a run of digits. -/
def value (text : List Char) : Nat :=
  Nat.ofDigitChars 10 text 0

def digitsAt (text : List Char) : Option Int :=
  let digits := text.takeWhile Char.isDigit
  if digits = [] then none else some (value digits)

/-- The number at the start of a text, with its sign. -/
def numberAt : List Char → Option Int
  | '-' :: text => (digitsAt text).map (- ·)
  | '+' :: text => digitsAt text
  | text => digitsAt text

/-- `std::stoll`, which skips white space and throws without a number or when
it has more than 64 bits. -/
def stoll (text : List Char) : Option Int :=
  (numberAt (text.dropWhile Char.isWhitespace)).filter fun number =>
    decide (-2 ^ 63 ≤ number ∧ number < 2 ^ 63)

/-- `to_string` -/
def intText (n : Int) : List Char :=
  if n < 0 then '-' :: Nat.toDigits 10 n.natAbs else Nat.toDigits 10 n.natAbs

section Values

variable {text first second : List Char} {n : Nat}

theorem digits_nil : Digits [] := by
  intro c member
  cases member

theorem digits_cons {c : Char} :
    Digits (c :: text) ↔ c.isDigit = true ∧ Digits text :=
  List.forall_mem_cons

theorem digits_append :
    Digits (first ++ second) ↔ Digits first ∧ Digits second :=
  List.forall_mem_append

theorem digits_zeros (n : Nat) : Digits (List.replicate n '0') := by
  intro c member
  rw [List.eq_of_mem_replicate member]
  rfl

theorem digits_toDigits (n : Nat) : Digits (Nat.toDigits 10 n) :=
  fun _ member => Nat.isDigit_of_mem_toDigits (by decide) (by decide) member

theorem value_append :
    value (first ++ second) =
      value first * 10 ^ second.length + value second := by
  rw [value, Nat.ofDigitChars_append, Nat.ofDigitChars_eq_ofDigitChars_zero,
    Nat.mul_comm]
  rfl

theorem value_append_zeros (n : Nat) :
    value (text ++ List.replicate n '0') = value text * 10 ^ n := by
  rw [value, Nat.ofDigitChars_append, Nat.ofDigitChars_replicate_zero,
    Nat.mul_comm]
  rfl

theorem value_toDigits (n : Nat) : value (Nat.toDigits 10 n) = n :=
  Nat.ofDigitChars_ten_toDigits

theorem value_lt (digits : Digits text) : value text < 10 ^ text.length := by
  induction text with
  | nil => decide
  | cons c text ih =>
      obtain ⟨isDigit, others⟩ := digits_cons.mp digits
      have below := ih others
      have bounds := Char.isDigit_iff_toNat.mp isDigit
      have nine : '9'.toNat = 57 := rfl
      have zero : '0'.toNat = 48 := rfl
      have single : value [c] ≤ 9 := by
        have shape : value [c] = c.toNat - '0'.toNat := by
          simp [value, Nat.ofDigitChars_cons]
        omega
      rw [← List.singleton_append, value_append, List.length_append,
        List.length_singleton, Nat.pow_add, Nat.pow_one]
      have scaled : value [c] * 10 ^ text.length ≤ 9 * 10 ^ text.length :=
        Nat.mul_le_mul_right _ single
      omega

/-- The digits behind the leading one. -/
theorem drop_toDigits (precision rest : Nat) (low : rest < 10 ^ precision) :
    Digits ((Nat.toDigits 10 (10 ^ precision + rest)).drop 1) ∧
      ((Nat.toDigits 10 (10 ^ precision + rest)).drop 1).length = precision ∧
      value ((Nat.toDigits 10 (10 ^ precision + rest)).drop 1) = rest := by
  have digits := digits_toDigits (10 ^ precision + rest)
  have isValue := value_toDigits (10 ^ precision + rest)
  have most := Nat.length_toDigits_le_iff (b := 10) (n := 10 ^ precision + rest)
    (k := precision + 1) (by decide) (by omega)
  have notFewer : ¬ (Nat.toDigits 10 (10 ^ precision + rest)).length ≤
      precision := by
    intro few
    have below := value_lt digits
    rw [isValue] at below
    have grows := Nat.pow_le_pow_right (show 0 < 10 by decide) few
    omega
  have isLength : (Nat.toDigits 10 (10 ^ precision + rest)).length =
      precision + 1 := by
    have atMost := most.mpr (by rw [Nat.pow_succ]; omega)
    omega
  cases whole : Nat.toDigits 10 (10 ^ precision + rest) with
  | nil => rw [whole] at isLength; cases isLength
  | cons c text =>
      rw [whole] at digits isValue isLength
      obtain ⟨isDigit, others⟩ := digits_cons.mp digits
      have textLength : text.length = precision := by simpa using isLength
      refine ⟨others, textLength, ?_⟩
      have below := value_lt others
      rw [textLength] at below
      rw [← List.singleton_append, value_append, textLength] at isValue
      -- the leading digit is a one
      have positive : 0 < value [c] := by
        by_contra notPositive
        have none : value [c] = 0 := by omega
        rw [none, Nat.zero_mul] at isValue
        omega
      have single : value [c] < 2 := by
        by_contra large
        have twice := Nat.mul_le_mul_right (10 ^ precision)
          (Nat.not_lt.mp large)
        omega
      have isOne : value [c] = 1 := by omega
      rw [isOne, Nat.one_mul] at isValue
      exact Nat.add_left_cancel isValue

end Values

section Numbers

variable {text first second rest : List Char} {c : Char}

/-- No digit at the start. -/
def Stops (text : List Char) : Prop :=
  ∀ c ∈ text.head?, c.isDigit = false

theorem stops_nil : Stops [] := by
  intro c member
  cases member

theorem stops_cons (notDigit : c.isDigit = false) : Stops (c :: text) := by
  intro other member
  cases member
  exact notDigit

/-- The value of two runs of digits with a sign between them. -/
def reading (first second : List Char) : Option Int :=
  if first ≠ [] then some (value first)
  else if second ≠ [] then some (-value second)
  else none

theorem takeWhile_digits (digits : Digits first) (stops : Stops rest) :
    (first ++ rest).takeWhile Char.isDigit = first := by
  induction first with
  | nil =>
      cases rest with
      | nil => rfl
      | cons c rest =>
          rw [List.nil_append, List.takeWhile_cons, stops c rfl]
          rfl
  | cons c first ih =>
      obtain ⟨isDigit, others⟩ := digits_cons.mp digits
      rw [List.cons_append, List.takeWhile_cons, isDigit, if_pos rfl,
        ih others]

theorem digitsAt_append (digits : Digits first) (stops : Stops rest) :
    digitsAt (first ++ rest) =
      if first = [] then none else some (value first : Int) := by
  rw [digitsAt, takeWhile_digits digits stops]

theorem numberAt_digits (digits : Digits first) (some : first ≠ [])
    (stops : Stops rest) : numberAt (first ++ rest) = .some (value first) := by
  have reads := digitsAt_append digits stops
  rw [if_neg some] at reads
  cases first with
  | nil => exact absurd rfl some
  | cons c first =>
      have isDigit := (digits_cons.mp digits).1
      rw [List.cons_append] at reads ⊢
      rw [numberAt]
      · exact reads
      · rintro text same
        cases same
        cases isDigit
      · rintro text same
        cases same
        cases isDigit

theorem numberAt_reading (firstDigits : Digits first)
    (secondDigits : Digits second) (stops : Stops rest) :
    numberAt (first ++ '-' :: (second ++ rest)) = reading first second := by
  rw [reading]
  by_cases some : first ≠ []
  · rw [if_pos some]
    exact numberAt_digits firstDigits some (stops_cons rfl)
  · rw [not_not.mp some]
    simp only [ne_eq, not_true_eq_false, if_false, List.nil_append, numberAt]
    rw [digitsAt_append secondDigits stops]
    by_cases more : second = []
    · simp [more]
    · simp [more]

theorem isWhitespace_of_isDigit (isDigit : c.isDigit = true) :
    c.isWhitespace = false := by
  rw [Bool.eq_false_iff]
  intro white
  simp only [Char.isWhitespace, Bool.or_eq_true, decide_eq_true_eq] at white
  rcases white with ((rfl | rfl) | rfl) | rfl
  · cases isDigit
  · cases isDigit
  · cases isDigit
  · cases isDigit

/-- What `stoll` gives for a text without white space. -/
theorem stoll_eq_some {number : Int}
    (noSpace : ∀ c ∈ text, c.isWhitespace = false) :
    stoll text = some number ↔
      numberAt text = some number ∧ -2 ^ 63 ≤ number ∧ number < 2 ^ 63 := by
  have same : text.dropWhile Char.isWhitespace = text := by
    cases text with
    | nil => rfl
    | cons c text =>
        rw [List.dropWhile_cons, noSpace c List.mem_cons_self]
        rfl
  rw [stoll, same, Option.filter_eq_some_iff, decide_eq_true_eq]

end Numbers

/-- A char that stands in a text once splits it. -/
theorem exists_split {text : List Char} {c : Char} (member : c ∈ text)
    (once : text.count c ≤ 1) :
    ∃ first second, text = first ++ c :: second ∧ c ∉ first ∧ c ∉ second := by
  obtain ⟨first, second, rfl⟩ := List.append_of_mem member
  rw [List.count_append, List.count_cons_self] at once
  exact ⟨first, second, rfl, List.count_eq_zero.mp (by omega),
    List.count_eq_zero.mp (by omega)⟩

end GxbCore.Decimal
