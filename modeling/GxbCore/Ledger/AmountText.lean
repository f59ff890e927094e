import GxbCore.Ledger.Amounts
import GxbCore.Lib.Decimals

/-!
# Amounts as texts

`amount_to_string` writes an amount with the digits of its precision behind a
dot, and `amount_from_string` reads one.  It scans the chars first, and cuts the
text at the dot before it looks for the sign, so that a '-' at another place
than the first is part of one of the pieces.
-/

namespace GxbCore.Ledger.AmountText

open Decimal

/-- `asset::scaled_precision` -/
def scaledPrecision (precision : Nat) : Except Fault Int := do
  fcAssert (precision < 19) ""
  return 10 ^ precision

def scan : List Char → (negativeFound decimalFound : Bool) →
    Except Fault (Bool × Bool)
  | [], negativeFound, decimalFound => .ok (negativeFound, decimalFound)
  | c :: rest, negativeFound, decimalFound =>
      if c.isDigit then scan rest negativeFound decimalFound
      else if c = '-' ∧ negativeFound = false then
        scan rest true decimalFound
      else if c = '.' ∧ decimalFound = false then
        scan rest negativeFound true
      else .error (.assertion "")

/-- `find( '.' )`; nothing is `npos`. -/
def findDot (amountString : List Char) : Option Nat :=
  if '.' ∈ amountString then some (amountString.idxOf '.') else none

def substr (text : List Char) (start : Nat) (count : Option Nat) :
    List Char :=
  match count with
  | some count => (text.drop start).take count
  | none => text.drop start

/-- What stands before the dot, in satoshis. -/
def readWhole (scaled : Int) (lhs : List Char) : Except Fault Int :=
  if lhs ≠ [] then do
    let whole ← orThrow (stoll lhs) (.assertion "stoll")
    let product ← share (whole * scaled)
    share (0 + product)
  else
    .ok 0

/-- The satoshis with what stands behind the dot. -/
def readFraction (scaled : Int) (rhs : List Char) (satoshis : Int) :
    Except Fault Int := do
  let maxRhsSize := ((intText scaled).drop 1).length
  fcAssert (rhs.length ≤ maxRhsSize) ""
  let rhs := rhs ++ List.replicate (maxRhsSize - rhs.length) '0'
  if rhs ≠ [] then do
    let fraction ← orThrow (stoll rhs) (.assertion "stoll")
    share (satoshis + fraction)
  else
    return satoshis

def amountFromString (precision : Nat) (amountString : List Char) :
    Except Fault Int := do
  let (negativeFound, decimalFound) ← scan amountString false false
  let scaled ← scaledPrecision precision
  let decimalPos := findDot amountString
  let lhs :=
    substr amountString (if negativeFound then 1 else 0) decimalPos
  let satoshis ← readWhole scaled lhs
  let satoshis ←
    match decimalFound, decimalPos with
    | true, some pos =>
        readFraction scaled (amountString.drop (pos + 1)) satoshis
    | _, _ => .ok satoshis
  fcAssert (satoshis ≤ GRAPHENE_MAX_SHARE_SUPPLY) ""
  if negativeFound then share (satoshis * -1) else .ok satoshis

def amountToString (precision : Nat) (amount : Int) :
    Except Fault (List Char) := do
  let scaled ← scaledPrecision precision
  let result := intText (amount.tdiv scaled)
  let decimals := ((amount.tmod scaled).natAbs : Int)
  if decimals ≠ 0 then
    let result :=
      if amount < 0 ∧ result = ['0'] then ['-', '0'] else result
    return result ++ '.' :: (intText (scaled + decimals)).drop 1
  else
    return result

structure Parts where
  negative : Bool
  whole : List Char
  fraction : Option (List Char)

namespace Parts

/-- The digits behind the dot. -/
def digits (parts : Parts) : List Char :=
  parts.fraction.getD []

def text (parts : Parts) : List Char :=
  (if parts.negative then ['-'] else []) ++
    (parts.whole ++
      match parts.fraction with
      | some fraction => '.' :: fraction
      | none => [])

/-- The satoshis without the sign. -/
def magnitude (precision : Nat) (parts : Parts) : Nat :=
  value parts.whole * 10 ^ precision +
    value parts.digits * 10 ^ (precision - parts.digits.length)

def satoshis (precision : Nat) (parts : Parts) : Int :=
  if parts.negative then -parts.magnitude precision
  else parts.magnitude precision

/-- Digits, of which there is one at least, and not more behind the dot than
the precision. -/
structure WellFormed (precision : Nat) (parts : Parts) : Prop where
  whole : Digits parts.whole
  fraction : Digits parts.digits
  short : parts.digits.length ≤ precision
  some : parts.whole ≠ [] ∨ parts.digits ≠ []

end Parts

/-- The text of an amount within the supply limit. -/
def IsAmount (precision : Nat) (amountString : List Char) (amount : Int) :
    Prop :=
  ∃ parts : Parts, parts.WellFormed precision ∧
    parts.text = amountString ∧
    (parts.magnitude precision : Int) ≤ GRAPHENE_MAX_SHARE_SUPPLY ∧
    parts.satoshis precision = amount

/-- The zeros that are put behind the digits. -/
def zeros (precision : Nat) (rhs : List Char) : List Char :=
  List.replicate (precision - rhs.length) '0'

/-- A '-' in front of the dot, and no digit between them. -/
def LeadingDot (precision : Nat) (amountString : List Char) : Prop :=
  ∃ fraction, amountString = '-' :: '.' :: fraction ∧
    Parts.WellFormed precision ⟨true, [], some fraction⟩ ∧
    ((Parts.magnitude precision ⟨true, [], some fraction⟩ : Nat) : Int) ≤
      GRAPHENE_MAX_SHARE_SUPPLY

/-- A '-' behind the first char, and what is read before and behind the dot:
the first char is dropped, and a '-' between digits ends a number. -/
inductive Misplaced (precision : Nat) : List Char → Int → Int → Prop
  | noDot {c : Char} {before behind : List Char} {whole : Int}
      (isDigit : c.isDigit = true) (beforeDigits : Digits before)
      (behindDigits : Digits behind)
      (reads : reading before behind = some whole) :
      Misplaced precision (c :: (before ++ '-' :: behind)) whole 0
  | beforeDot {c : Char} {before behind fraction : List Char} {whole : Int}
      (isDigit : c.isDigit = true) (beforeDigits : Digits before)
      (behindDigits : Digits behind) (fractionDigits : Digits fraction)
      (reads : reading before behind = some whole)
      (short : fraction.length ≤ precision) :
      Misplaced precision (c :: (before ++ '-' :: (behind ++ '.' :: fraction)))
        whole (value fraction * 10 ^ (precision - fraction.length) : Nat)
  | afterDot {c : Char} {whole before behind : List Char} {fraction : Int}
      (isDigit : c.isDigit = true) (wholeDigits : Digits whole)
      (some : whole ≠ []) (beforeDigits : Digits before)
      (behindDigits : Digits behind)
      (short : (before ++ '-' :: behind).length ≤ precision)
      (reads :
        reading before
            (behind ++ zeros precision (before ++ '-' :: behind)) =
          .some fraction) :
      Misplaced precision (c :: (whole ++ '.' :: (before ++ '-' :: behind)))
        (value whole) fraction
  | behindDot {before behind : List Char} {fraction : Int}
      (beforeDigits : Digits before) (behindDigits : Digits behind)
      (short : (before ++ '-' :: behind).length ≤ precision)
      (reads :
        reading before
            (behind ++ zeros precision (before ++ '-' :: behind)) =
          .some fraction) :
      Misplaced precision ('.' :: (before ++ '-' :: behind)) 0 fraction

/-- All numbers on the way fit. -/
def Taken (precision : Nat) (whole fraction : Int) : Prop :=
  (-2 ^ 63 ≤ whole * 10 ^ precision ∧ whole * 10 ^ precision < 2 ^ 63) ∧
    -2 ^ 63 < whole * 10 ^ precision + fraction ∧
    whole * 10 ^ precision + fraction ≤ GRAPHENE_MAX_SHARE_SUPPLY

/-- A text with a misplaced '-' that is read all the same, as all numbers on the
way fit. -/
def Misread (precision : Nat) (amountString : List Char) : Prop :=
  ∃ whole fraction, Misplaced precision amountString whole fraction ∧
    Taken precision whole fraction

/-- Only chars that the scan knows. -/
def Allowed (text : List Char) : Prop :=
  ∀ c ∈ text, c.isDigit = true ∨ c = '-' ∨ c = '.'

section Scan

variable {text first second : List Char}

theorem allowed_append :
    Allowed (first ++ second) ↔ Allowed first ∧ Allowed second :=
  List.forall_mem_append

theorem allowed_cons {c : Char} :
    Allowed (c :: text) ↔
      (c.isDigit = true ∨ c = '-' ∨ c = '.') ∧ Allowed text :=
  List.forall_mem_cons

theorem allowed_of_digits (digits : Digits text) : Allowed text :=
  fun c member => .inl (digits c member)

theorem digits_of_allowed (allowed : Allowed text) (noSign : '-' ∉ text)
    (noDot : '.' ∉ text) : Digits text := by
  intro c member
  rcases allowed c member with isDigit | rfl | rfl
  · exact isDigit
  · exact absurd member noSign
  · exact absurd member noDot

theorem notMem_of_digits {c : Char} (digits : Digits text)
    (notDigit : c.isDigit = false) : c ∉ text := by
  intro member
  rw [digits c member] at notDigit
  cases notDigit

theorem noSpace_of_allowed (allowed : Allowed text) :
    ∀ c ∈ text, c.isWhitespace = false := by
  intro c member
  rcases allowed c member with isDigit | rfl | rfl
  · exact isWhitespace_of_isDigit isDigit
  · rfl
  · rfl

/-- The scan lets digits through, and one sign and one dot. -/
theorem scan_eq_ok {negative decimal : Bool} {found : Bool × Bool} :
    scan text negative decimal = .ok found ↔
      Allowed text ∧ text.count '-' + negative.toNat ≤ 1 ∧
        text.count '.' + decimal.toNat ≤ 1 ∧
        found =
          (negative || decide ('-' ∈ text),
            decimal || decide ('.' ∈ text)) := by
  induction text generalizing negative decimal with
  | nil =>
      have none : Allowed [] := fun c member => by cases member
      cases negative <;> cases decimal <;> simp [scan, none, eq_comm]
  | cons c text ih =>
      rw [scan, allowed_cons]
      by_cases isDigit : c.isDigit = true
      · have notSign : c ≠ '-' := by
          rintro rfl
          cases isDigit
        have notDot : c ≠ '.' := by
          rintro rfl
          cases isDigit
        rw [if_pos isDigit, ih]
        simp [isDigit, notSign, notDot, eq_comm]
      · rw [if_neg isDigit]
        by_cases isSign : c = '-'
        · subst isSign
          cases negative
          · rw [if_pos ⟨rfl, rfl⟩, ih]
            simp
          · simp
        · rw [if_neg fun both => isSign both.1]
          by_cases isDot : c = '.'
          · subst isDot
            cases decimal
            · rw [if_pos ⟨rfl, rfl⟩, ih]
              simp
            · simp
          · rw [if_neg fun both => isDot both.1]
            simp [isDigit, isSign, isDot]

end Scan

def PieceReads (piece : List Char) (number : Int) : Prop :=
  (piece = [] ∧ number = 0) ∨ (piece ≠ [] ∧ stoll piece = some number)

def Fits (number : Int) : Prop :=
  -2 ^ 63 ≤ number ∧ number < 2 ^ 63

theorem share_eq_ok_iff {number result : Int} :
    share number = .ok result ↔ Fits number ∧ result = number := by
  rw [share]
  constructor
  · intro returns
    split at returns
    · next fits =>
        cases returns
        exact ⟨fits, rfl⟩
    · cases returns
  · rintro ⟨fits, rfl⟩
    exact if_pos fits

section Pieces

variable {piece digits before behind : List Char} {number : Int}
  {precision : Nat}

theorem pieceReads_digits (areDigits : Digits piece) :
    PieceReads piece number ↔ number = value piece ∧ Fits number := by
  by_cases none : piece = []
  · subst none
    have zero : value [] = 0 := rfl
    simp only [PieceReads, ne_eq, not_true_eq_false, false_and, or_false,
      true_and, zero, Nat.cast_zero, Fits]
    constructor
    · rintro rfl
      decide
    · exact fun both => both.1
  · have reads := numberAt_digits areDigits none stops_nil
    rw [List.append_nil] at reads
    rw [PieceReads,
      stoll_eq_some (noSpace_of_allowed (allowed_of_digits areDigits)), reads]
    simp [none, Fits, eq_comm]

theorem pieceReads_digits_dot (areDigits : Digits digits) :
    PieceReads (digits ++ ['.']) number ↔
      digits ≠ [] ∧ number = value digits ∧ Fits number := by
  have allowed : Allowed (digits ++ ['.']) :=
    allowed_append.mpr ⟨allowed_of_digits areDigits, by simp [Allowed]⟩
  have some : digits ++ ['.'] ≠ [] := by simp
  rw [PieceReads, stoll_eq_some (noSpace_of_allowed allowed)]
  by_cases none : digits = []
  · subst none
    have reads : numberAt ([] ++ ['.']) = .none := rfl
    rw [reads]
    simp
  · have reads :=
      numberAt_digits areDigits none (@stops_cons [] '.' rfl)
    rw [reads]
    simp only [some, false_and, false_or, ne_eq, not_false_eq_true, true_and,
      none, Option.some.injEq, Fits]
    exact and_congr_left fun _ => eq_comm

/-- Digits with a sign between them, and perhaps a dot at the end. -/
theorem pieceReads_reading (beforeDigits : Digits before)
    (behindDigits : Digits behind) {rest : List Char}
    (isRest : rest = [] ∨ rest = ['.']) :
    PieceReads (before ++ '-' :: (behind ++ rest)) number ↔
      reading before behind = some number ∧ Fits number := by
  have stops : Stops rest := by
    rcases isRest with rfl | rfl
    · exact stops_nil
    · exact stops_cons rfl
  have allowed : Allowed (before ++ '-' :: (behind ++ rest)) := by
    refine allowed_append.mpr ⟨allowed_of_digits beforeDigits,
      allowed_cons.mpr ⟨.inr (.inl rfl), allowed_append.mpr
        ⟨allowed_of_digits behindDigits, ?_⟩⟩⟩
    rcases isRest with rfl | rfl
    · simp [Allowed]
    · simp [Allowed]
  have some : before ++ '-' :: (behind ++ rest) ≠ [] := by simp
  rw [PieceReads, stoll_eq_some (noSpace_of_allowed allowed),
    numberAt_reading beforeDigits behindDigits stops]
  simp [some, Fits]

theorem readWhole_eq_ok {lhs : List Char} {satoshis : Int} :
    readWhole (10 ^ precision) lhs = .ok satoshis ↔
      ∃ whole, PieceReads lhs whole ∧ Fits (whole * 10 ^ precision) ∧
        satoshis = whole * 10 ^ precision := by
  rw [readWhole]
  by_cases none : lhs = []
  · subst none
    simp only [ne_eq, not_true_eq_false, if_false, Except.ok.injEq,
      PieceReads, true_and, false_and, or_false]
    constructor
    · rintro rfl
      exact ⟨0, rfl, by simp [Fits], by simp⟩
    · rintro ⟨_, rfl, _, rfl⟩
      simp
  · rw [if_pos none]
    simp only [bind_eq_ok, orThrow_eq_ok, share_eq_ok_iff, Int.zero_add,
      PieceReads, none, false_and, ne_eq, not_false_eq_true, true_and,
      false_or]
    constructor
    · rintro ⟨whole, reads, _, ⟨fits, rfl⟩, _, rfl⟩
      exact ⟨whole, reads, fits, rfl⟩
    · rintro ⟨whole, reads, fits, rfl⟩
      exact ⟨whole, reads, _, ⟨fits, rfl⟩, fits, rfl⟩

theorem length_scaled (precision : Nat) :
    ((intText (10 ^ precision)).drop 1).length = precision := by
  have positive : ¬ (10 ^ precision : Int) < 0 :=
    Int.not_lt.mpr (Int.pow_nonneg (by decide))
  have natural : (10 ^ precision : Int).natAbs = 10 ^ precision := by
    rw [Int.natAbs_pow]
    rfl
  rw [intText, if_neg positive, natural]
  have behind := drop_toDigits precision 0 (Nat.pow_pos (by decide))
  rw [Nat.add_zero] at behind
  exact behind.2.1

theorem readFraction_eq_ok {rhs : List Char} {satoshis result : Int}
    (fits : Fits satoshis) :
    readFraction (10 ^ precision) rhs satoshis = .ok result ↔
      rhs.length ≤ precision ∧
        ∃ fraction, PieceReads (rhs ++ zeros precision rhs) fraction ∧
          Fits (satoshis + fraction) ∧ result = satoshis + fraction := by
  simp only [readFraction, length_scaled, bind_eq_ok, fcAssert_eq_ok, zeros,
    PieceReads]
  by_cases none : rhs ++ List.replicate (precision - rhs.length) '0' = []
  · simp only [none, ne_eq, not_true_eq_false, if_false, pure, Except.pure,
      Except.ok.injEq, true_and, false_and, or_false]
    constructor
    · rintro ⟨_, short, rfl⟩
      exact ⟨short, 0, rfl, by simpa using fits, by simp⟩
    · rintro ⟨short, _, rfl, _, rfl⟩
      exact ⟨⟨⟩, short, by simp⟩
  · simp only [none, ne_eq, not_false_eq_true, if_true, bind_eq_ok,
      orThrow_eq_ok, share_eq_ok_iff, false_and, true_and, false_or]
    constructor
    · rintro ⟨_, short, fraction, reads, sumFits, rfl⟩
      exact ⟨short, fraction, reads, sumFits, rfl⟩
    · rintro ⟨short, fraction, reads, sumFits, rfl⟩
      exact ⟨⟨⟩, short, fraction, reads, sumFits, rfl⟩

end Pieces

def Returned (negative : Bool) (satoshis amount : Int) : Prop :=
  satoshis ≤ GRAPHENE_MAX_SHARE_SUPPLY ∧
    if negative then Fits (-satoshis) ∧ amount = -satoshis
    else amount = satoshis

section Ways

variable {text front behind : List Char} {precision : Nat}
  {negative : Bool} {amount : Int}

theorem scaledPrecision_of_lt (small : precision < 19) :
    scaledPrecision precision = .ok (10 ^ precision) :=
  bind_eq_ok.mpr ⟨⟨⟩, fcAssert_eq_ok.mpr small, rfl⟩

theorem returned_iff {satoshis : Int} :
    (do
      fcAssert (satoshis ≤ GRAPHENE_MAX_SHARE_SUPPLY) ""
      if negative then share (satoshis * -1) else .ok satoshis) =
        .ok amount ↔
      Returned negative satoshis amount := by
  rw [bind_eq_ok, Returned]
  have opposite : satoshis * -1 = -satoshis := by omega
  cases negative with
  | true =>
      simp only [fcAssert_eq_ok, if_true, share_eq_ok_iff, opposite,
        exists_const]
  | false =>
      simp only [fcAssert_eq_ok, Bool.false_eq_true, if_false,
        Except.ok.injEq, exists_const]
      rw [eq_comm]

theorem amountFromString_noDot (small : precision < 19)
    (scanned : scan text false false = .ok (negative, false))
    (noDot : '.' ∉ text) :
    amountFromString precision text = .ok amount ↔
      ∃ whole, PieceReads (text.drop (if negative then 1 else 0)) whole ∧
        Fits (whole * 10 ^ precision) ∧
        Returned negative (whole * 10 ^ precision) amount := by
  have notFound : findDot text = none := if_neg noDot
  rw [amountFromString, scanned, scaledPrecision_of_lt small]
  simp only [bind_eq_ok, Except.ok.injEq, exists_eq_left', notFound, substr,
    readWhole_eq_ok, ← returned_iff]
  constructor
  · rintro ⟨_, ⟨whole, reads, fits, rfl⟩, rest⟩
    exact ⟨whole, reads, fits, rest⟩
  · rintro ⟨whole, reads, fits, rest⟩
    exact ⟨_, ⟨whole, reads, fits, rfl⟩, rest⟩

theorem findDot_append (noDot : '.' ∉ front) :
    findDot (front ++ '.' :: behind) = some front.length := by
  rw [findDot, if_pos (by simp), List.idxOf_append_of_notMem noDot]
  simp

theorem amountFromString_dot (small : precision < 19)
    (scanned : scan (front ++ '.' :: behind) false false = .ok (negative, true))
    (noDot : '.' ∉ front) :
    amountFromString precision (front ++ '.' :: behind) = .ok amount ↔
      ∃ whole fraction,
        PieceReads
            (((front ++ '.' :: behind).drop (if negative then 1 else 0)).take
              front.length) whole ∧
          Fits (whole * 10 ^ precision) ∧ behind.length ≤ precision ∧
          PieceReads (behind ++ zeros precision behind) fraction ∧
          Fits (whole * 10 ^ precision + fraction) ∧
          Returned negative (whole * 10 ^ precision + fraction) amount := by
  have rhs : (front ++ '.' :: behind).drop (front.length + 1) = behind := by
    rw [← List.singleton_append, ← List.append_assoc,
      List.drop_left' (by simp)]
  rw [amountFromString, scanned, scaledPrecision_of_lt small]
  simp only [bind_eq_ok, Except.ok.injEq, exists_eq_left',
    findDot_append noDot, substr, readWhole_eq_ok, rhs, ← returned_iff]
  constructor
  · rintro ⟨_, ⟨whole, reads, fits, rfl⟩, satoshis, isRead, rest⟩
    obtain ⟨short, fraction, fractionReads, sumFits, rfl⟩ :=
      (readFraction_eq_ok fits).mp isRead
    exact ⟨whole, fraction, reads, fits, short, fractionReads, sumFits, rest⟩
  · rintro ⟨whole, fraction, reads, fits, short, fractionReads, sumFits, rest⟩
    exact ⟨_, ⟨whole, reads, fits, rfl⟩, _,
      (readFraction_eq_ok fits).mpr
        ⟨short, fraction, fractionReads, sumFits, rfl⟩, rest⟩

end Ways

section Front

variable {parts : Parts} {precision : Nat} {negative : Bool} {amount : Int}

theorem returned_natural (magnitude : Nat) :
    Returned negative (magnitude : Int) amount ↔
      (magnitude : Int) ≤ GRAPHENE_MAX_SHARE_SUPPLY ∧
        amount = if negative then -(magnitude : Int) else magnitude := by
  rw [Returned]
  refine and_congr_right fun low => ?_
  rw [GRAPHENE_MAX_SHARE_SUPPLY] at low
  cases negative with
  | true =>
      simp only [if_true, Fits]
      exact ⟨fun both => both.2, fun same => ⟨by omega, same⟩⟩
  | false => simp

theorem fits_of_le {natural most : Nat} (le : natural ≤ most)
    (low : (most : Int) ≤ GRAPHENE_MAX_SHARE_SUPPLY) :
    Fits (natural : Int) := by
  rw [GRAPHENE_MAX_SHARE_SUPPLY] at low
  rw [Fits]
  omega

theorem le_mul_pow (natural precision : Nat) :
    natural ≤ natural * 10 ^ precision :=
  Nat.le_mul_of_pos_right _ (Nat.pow_pos (by decide))

theorem scan_text (wholeDigits : Digits parts.whole)
    (fractionDigits : Digits parts.digits) :
    scan parts.text false false =
      .ok (parts.negative, parts.fraction.isSome) := by
  obtain ⟨negative, whole, fraction⟩ := parts
  dsimp only at wholeDigits
  have noSign := notMem_of_digits wholeDigits (c := '-') rfl
  have noDot := notMem_of_digits wholeDigits (c := '.') rfl
  have allowed := allowed_of_digits wholeDigits
  rw [scan_eq_ok]
  cases fraction with
  | none =>
      cases negative with
      | true =>
          simp [Parts.text, allowed_cons, allowed, noSign, noDot,
            List.count_eq_zero.mpr noSign, List.count_eq_zero.mpr noDot]
      | false =>
          simp [Parts.text, allowed, noSign, noDot,
            List.count_eq_zero.mpr noSign, List.count_eq_zero.mpr noDot]
  | some fraction =>
      have behindDigits : Digits fraction := fractionDigits
      have noSignBehind := notMem_of_digits behindDigits (c := '-') rfl
      have noDotBehind := notMem_of_digits behindDigits (c := '.') rfl
      have allowedBehind := allowed_of_digits behindDigits
      cases negative with
      | true =>
          simp [Parts.text, allowed_cons, allowed_append, allowed,
            allowedBehind, noSign, noDot, noSignBehind,
            List.count_eq_zero.mpr noSign, List.count_eq_zero.mpr noDot,
            List.count_eq_zero.mpr noSignBehind,
            List.count_eq_zero.mpr noDotBehind]
      | false =>
          simp [Parts.text, allowed_cons, allowed_append, allowed,
            allowedBehind, noSign, noSignBehind,
            List.count_eq_zero.mpr noSign, List.count_eq_zero.mpr noDot,
            List.count_eq_zero.mpr noSignBehind,
            List.count_eq_zero.mpr noDotBehind]

/-- A text with the '-' in front is read as its amount, unless there is a '-'
right in front of the dot. -/
theorem amountFromString_text (small : precision < 19)
    (wholeDigits : Digits parts.whole) (fractionDigits : Digits parts.digits) :
    amountFromString precision parts.text = .ok amount ↔
      ¬ (parts.negative = true ∧ parts.whole = [] ∧
          parts.fraction.isSome = true) ∧
        parts.digits.length ≤ precision ∧
        (parts.magnitude precision : Int) ≤ GRAPHENE_MAX_SHARE_SUPPLY ∧
        amount = parts.satoshis precision := by
  have scanned := scan_text wholeDigits fractionDigits
  obtain ⟨negative, whole, fraction⟩ := parts
  dsimp only at wholeDigits scanned
  have noDot := notMem_of_digits wholeDigits (c := '.') rfl
  cases fraction with
  | none =>
      have noDotText : '.' ∉ Parts.text ⟨negative, whole, none⟩ := by
        cases negative with
        | true => simpa [Parts.text] using noDot
        | false => simpa [Parts.text] using noDot
      have piece :
          (Parts.text ⟨negative, whole, none⟩).drop
            (if negative then 1 else 0) = whole := by
        cases negative with
        | true => simp [Parts.text]
        | false => simp [Parts.text]
      have magnitude :
          ((Parts.magnitude precision ⟨negative, whole, none⟩ : Nat) : Int) =
            value whole * 10 ^ precision := by
        have zero : value [] = 0 := rfl
        simp [Parts.magnitude, Parts.digits, zero]
      rw [amountFromString_noDot small scanned noDotText, piece]
      constructor
      · rintro ⟨number, reads, _, returned⟩
        obtain ⟨rfl, _⟩ := (pieceReads_digits wholeDigits).mp reads
        rw [← magnitude] at returned
        obtain ⟨low, same⟩ := (returned_natural _).mp returned
        exact ⟨fun all => Bool.false_ne_true all.2.2, Nat.zero_le _, low,
          same⟩
      · rintro ⟨_, _, low, same⟩
        refine ⟨value whole, (pieceReads_digits wholeDigits).mpr
          ⟨rfl, fits_of_le ?_ low⟩, ?_, ?_⟩
        · exact Nat.le_trans (le_mul_pow _ precision)
            (Nat.le_add_right _ _)
        · rw [← magnitude]
          exact fits_of_le (Nat.le_refl _) low
        · rw [← magnitude]
          exact (returned_natural _).mpr ⟨low, same⟩
  | some fraction =>
      have behindDigits : Digits fraction := fractionDigits
      have tailDigits : Digits (fraction ++ zeros precision fraction) :=
        digits_append.mpr ⟨behindDigits, digits_zeros _⟩
      have tail : value (fraction ++ zeros precision fraction) =
          value fraction * 10 ^ (precision - fraction.length) :=
        value_append_zeros _
      have magnitude :
          ((Parts.magnitude precision ⟨negative, whole, some fraction⟩ : Nat) :
            Int) =
            value whole * 10 ^ precision +
              (value (fraction ++ zeros precision fraction) : Nat) := by
        rw [tail]
        simp [Parts.magnitude, Parts.digits]
      -- the piece in front of the dot, which has the dot after a sign
      obtain ⟨front, isText, noDotFront, pieceReads⟩ :
          ∃ front,
            Parts.text ⟨negative, whole, some fraction⟩ =
                front ++ '.' :: fraction ∧
              '.' ∉ front ∧
              ∀ number,
                PieceReads
                    (((front ++ '.' :: fraction).drop
                      (if negative then 1 else 0)).take front.length)
                    number ↔
                  ¬ (negative = true ∧ whole = []) ∧
                    number = value whole ∧ Fits number := by
        cases negative with
        | true =>
            refine ⟨'-' :: whole, by simp [Parts.text], by simpa using noDot,
              fun number => ?_⟩
            have piece :
                ((('-' :: whole) ++ '.' :: fraction).drop 1).take
                    ('-' :: whole).length = whole ++ ['.'] := by
              simp [List.take_append,
                List.take_of_length_le (Nat.le_succ whole.length)]
            simp only [if_true, piece]
            rw [pieceReads_digits_dot wholeDigits]
            simp
        | false =>
            refine ⟨whole, by simp [Parts.text], noDot, fun number => ?_⟩
            have piece :
                ((whole ++ '.' :: fraction).drop 0).take whole.length =
                  whole := by
              simp
            simp only [Bool.false_eq_true, if_false, piece]
            rw [pieceReads_digits wholeDigits]
            simp
      rw [isText] at scanned ⊢
      rw [amountFromString_dot small scanned noDotFront]
      constructor
      · rintro ⟨number, rest, reads, _, short, restReads, _, returned⟩
        obtain ⟨allowed, rfl, _⟩ := (pieceReads number).mp reads
        obtain ⟨rfl, _⟩ := (pieceReads_digits tailDigits).mp restReads
        rw [← magnitude] at returned
        obtain ⟨low, same⟩ := (returned_natural _).mp returned
        exact ⟨fun all => allowed ⟨all.1, all.2.1⟩, short, low, same⟩
      · rintro ⟨allowed, short, low, same⟩
        have wholeLow : value whole * 10 ^ precision ≤
            Parts.magnitude precision ⟨negative, whole, some fraction⟩ :=
          Nat.le_add_right _ _
        have tailLow : value (fraction ++ zeros precision fraction) ≤
            Parts.magnitude precision ⟨negative, whole, some fraction⟩ := by
          rw [tail]
          exact Nat.le_add_left _ _
        refine ⟨value whole, value (fraction ++ zeros precision fraction),
          (pieceReads _).mpr ⟨fun both => allowed ⟨both.1, both.2, rfl⟩, rfl,
            fits_of_le (Nat.le_trans (le_mul_pow _ precision) wholeLow) low⟩,
          ?_, short,
          (pieceReads_digits tailDigits).mpr ⟨rfl, fits_of_le tailLow low⟩,
          ?_, ?_⟩
        · have fits := fits_of_le wholeLow low
          simpa using fits
        · rw [← magnitude]
          exact fits_of_le (Nat.le_refl _) low
        · rw [← magnitude]
          exact (returned_natural _).mpr ⟨low, same⟩

end Front

section Behind

variable {text front behind : List Char} {precision : Nat}

theorem exists_returned {satoshis : Int} :
    (∃ amount, Returned true satoshis amount) ↔
      -2 ^ 63 < satoshis ∧ satoshis ≤ GRAPHENE_MAX_SHARE_SUPPLY := by
  have most : GRAPHENE_MAX_SHARE_SUPPLY < 2 ^ 63 := by decide
  simp only [Returned, Fits, if_true]
  constructor
  · rintro ⟨_, low, fits, _⟩
    exact ⟨by omega, low⟩
  · rintro ⟨high, low⟩
    exact ⟨-satoshis, low, by omega, rfl⟩

theorem fits_of_scaled {whole : Int} (fits : Fits (whole * 10 ^ precision)) :
    Fits whole := by
  have positive : (1 : Int) ≤ 10 ^ precision :=
    Int.add_one_le_of_lt (Int.pow_pos (by decide))
  obtain ⟨low, high⟩ := fits
  rw [Fits]
  rcases Int.le_total 0 whole with up | down
  · have grows := Int.mul_le_mul_of_nonneg_left positive up
    rw [Int.mul_one] at grows
    omega
  · have shrinks := Int.mul_le_mul_of_nonpos_left down positive
    rw [Int.mul_one] at shrinks
    omega

theorem exists_ok_noDot (small : precision < 19)
    (scanned : scan text false false = .ok (true, false)) (noDot : '.' ∉ text) :
    (∃ amount, amountFromString precision text = .ok amount) ↔
      ∃ whole, PieceReads (text.drop 1) whole ∧ Taken precision whole 0 := by
  simp only [amountFromString_noDot small scanned noDot, if_true, Taken,
    Int.add_zero]
  constructor
  · rintro ⟨amount, whole, reads, fits, returned⟩
    exact ⟨whole, reads, fits, exists_returned.mp ⟨amount, returned⟩⟩
  · rintro ⟨whole, reads, fits, taken⟩
    obtain ⟨amount, returned⟩ := exists_returned.mpr taken
    exact ⟨amount, whole, reads, fits, returned⟩

theorem exists_ok_dot (small : precision < 19)
    (scanned : scan (front ++ '.' :: behind) false false = .ok (true, true))
    (noDot : '.' ∉ front) :
    (∃ amount,
      amountFromString precision (front ++ '.' :: behind) = .ok amount) ↔
      ∃ whole fraction,
        PieceReads (((front ++ '.' :: behind).drop 1).take front.length)
            whole ∧
          behind.length ≤ precision ∧
          PieceReads (behind ++ zeros precision behind) fraction ∧
          Taken precision whole fraction := by
  have most : GRAPHENE_MAX_SHARE_SUPPLY < 2 ^ 63 := by decide
  simp only [amountFromString_dot small scanned noDot, if_true, Taken]
  constructor
  · rintro ⟨amount, whole, fraction, reads, fits, short, readsBehind, _,
      returned⟩
    exact ⟨whole, fraction, reads, short, readsBehind, fits,
      exists_returned.mp ⟨amount, returned⟩⟩
  · rintro ⟨whole, fraction, reads, short, readsBehind, fits, taken⟩
    obtain ⟨amount, returned⟩ := exists_returned.mpr taken
    refine ⟨amount, whole, fraction, reads, fits, short, readsBehind, ?_,
      returned⟩
    rw [Fits]
    omega

theorem scan_shape {first second : List Char}
    (allowedFirst : Allowed first) (allowedSecond : Allowed second)
    (noSignFirst : '-' ∉ first) (noSignSecond : '-' ∉ second)
    (dots : (first ++ '-' :: second).count '.' ≤ 1) :
    scan (first ++ '-' :: second) false false =
      .ok (true, decide ('.' ∈ first ++ '-' :: second)) := by
  rw [scan_eq_ok]
  refine ⟨allowed_append.mpr ⟨allowedFirst,
    allowed_cons.mpr ⟨.inr (.inl rfl), allowedSecond⟩⟩, ?_, by simpa using dots,
    by simp⟩
  simp [List.count_eq_zero.mpr noSignFirst,
    List.count_eq_zero.mpr noSignSecond]

theorem fits_of_reading {number : Int} {before digits : List Char}
    (small : precision < 19) (beforeDigits : Digits before)
    (areDigits : Digits digits) (shortBefore : before.length ≤ precision)
    (shortDigits : digits.length ≤ precision)
    (reads : reading before digits = some number) : Fits number := by
  have most : (10 : Nat) ^ precision ≤ 10 ^ 18 :=
    Nat.pow_le_pow_right (by decide) (by omega)
  have beforeLow := Nat.lt_of_lt_of_le (value_lt beforeDigits)
    (Nat.pow_le_pow_right (show 0 < 10 by decide) shortBefore)
  have digitsLow := Nat.lt_of_lt_of_le (value_lt areDigits)
    (Nat.pow_le_pow_right (show 0 < 10 by decide) shortDigits)
  rw [Fits]
  rw [reading] at reads
  split at reads
  · cases reads
    omega
  · split at reads
    · cases reads
      omega
    · cases reads

variable {c : Char} {before whole fraction : List Char}

theorem noDot_sign (beforeDigits : Digits before)
    (behindDigits : Digits behind) : '.' ∉ before ++ '-' :: behind := by
  have noDotBefore := notMem_of_digits beforeDigits (c := '.') rfl
  have noDotBehind := notMem_of_digits behindDigits (c := '.') rfl
  simp [noDotBefore, noDotBehind]

/-- The piece in front of the dot: without its first char, and with the dot. -/
theorem piece_cons (c : Char) (front behind : List Char) :
    (((c :: front) ++ '.' :: behind).drop 1).take (c :: front).length =
      front ++ ['.'] := by
  simp [List.take_append, List.take_of_length_le (Nat.le_succ front.length)]

theorem exists_ok_sign (small : precision < 19) (isDigit : c.isDigit = true)
    (beforeDigits : Digits before) (behindDigits : Digits behind) :
    (∃ amount,
      amountFromString precision (c :: (before ++ '-' :: behind)) =
        .ok amount) ↔
      ∃ number, reading before behind = some number ∧
        Taken precision number 0 := by
  have frontDigits : Digits (c :: before) :=
    digits_cons.mpr ⟨isDigit, beforeDigits⟩
  have noDot := noDot_sign frontDigits behindDigits
  have scanned :=
    scan_shape (allowed_of_digits frontDigits)
      (allowed_of_digits behindDigits)
      (notMem_of_digits frontDigits (c := '-') rfl)
      (notMem_of_digits behindDigits (c := '-') rfl)
      (by rw [List.count_eq_zero.mpr noDot]; decide)
  rw [decide_eq_false noDot] at scanned
  have piece := fun number =>
    @pieceReads_reading before behind number beforeDigits behindDigits []
      (.inl rfl)
  simp only [List.append_nil] at piece
  rw [← List.cons_append, exists_ok_noDot small scanned noDot]
  simp only [List.cons_append, List.drop_one, List.tail_cons, piece]
  constructor
  · rintro ⟨number, ⟨reads, _⟩, taken⟩
    exact ⟨number, reads, taken⟩
  · rintro ⟨number, reads, taken⟩
    exact ⟨number, ⟨reads, fits_of_scaled taken.1⟩, taken⟩

theorem exists_ok_sign_dot (small : precision < 19)
    (isDigit : c.isDigit = true) (beforeDigits : Digits before)
    (behindDigits : Digits behind) (fractionDigits : Digits fraction) :
    (∃ amount,
      amountFromString precision
          (c :: (before ++ '-' :: (behind ++ '.' :: fraction))) =
        .ok amount) ↔
      fraction.length ≤ precision ∧
        ∃ number, reading before behind = some number ∧
          Taken precision number
            (value fraction * 10 ^ (precision - fraction.length) : Nat) := by
  have frontDigits : Digits (c :: before) :=
    digits_cons.mpr ⟨isDigit, beforeDigits⟩
  have shape :
      (c :: before) ++ '-' :: (behind ++ '.' :: fraction) =
        (c :: (before ++ '-' :: behind)) ++ '.' :: fraction := by
    simp
  have noDot : '.' ∉ c :: (before ++ '-' :: behind) :=
    noDot_sign frontDigits behindDigits
  have noDotFraction := notMem_of_digits fractionDigits (c := '.') rfl
  have scanned :
      scan ((c :: (before ++ '-' :: behind)) ++ '.' :: fraction) false false =
        .ok (true, true) := by
    rw [← shape]
    have scans :=
      @scan_shape (c :: before) (behind ++ '.' :: fraction)
        (allowed_of_digits frontDigits)
        (allowed_append.mpr ⟨allowed_of_digits behindDigits,
          allowed_cons.mpr ⟨.inr (.inr rfl),
            allowed_of_digits fractionDigits⟩⟩)
        (notMem_of_digits frontDigits (c := '-') rfl)
        (by simp [notMem_of_digits behindDigits (c := '-') rfl,
          notMem_of_digits fractionDigits (c := '-') rfl])
        (by rw [shape, List.count_append, List.count_eq_zero.mpr noDot,
          List.count_cons_self, List.count_eq_zero.mpr noDotFraction])
    rw [scans]
    simp
  have tailDigits : Digits (fraction ++ zeros precision fraction) :=
    digits_append.mpr ⟨fractionDigits, digits_zeros _⟩
  have tail : value (fraction ++ zeros precision fraction) =
      value fraction * 10 ^ (precision - fraction.length) :=
    value_append_zeros _
  have tailFits : fraction.length ≤ precision →
      Fits (value (fraction ++ zeros precision fraction) : Nat) := by
    intro short
    have length : (fraction ++ zeros precision fraction).length =
        precision := by
      rw [List.length_append, zeros, List.length_replicate]
      omega
    have low := value_lt tailDigits
    rw [length] at low
    have most : (10 : Nat) ^ precision ≤ 10 ^ 18 :=
      Nat.pow_le_pow_right (by decide) (by omega)
    rw [Fits]
    omega
  have isText : c :: (before ++ '-' :: (behind ++ '.' :: fraction)) =
      (c :: (before ++ '-' :: behind)) ++ '.' :: fraction := shape
  rw [isText, exists_ok_dot small scanned noDot, piece_cons, ← tail]
  simp only [List.append_assoc, List.cons_append,
    pieceReads_reading beforeDigits behindDigits (.inr rfl),
    pieceReads_digits tailDigits]
  constructor
  · rintro ⟨number, _, ⟨reads, _⟩, short, ⟨rfl, _⟩, taken⟩
    exact ⟨short, number, reads, taken⟩
  · rintro ⟨short, number, reads, taken⟩
    exact ⟨number, _, ⟨reads, fits_of_scaled taken.1⟩, short,
      ⟨rfl, tailFits short⟩, taken⟩

section DotSign

variable (small : precision < 19) (beforeDigits : Digits before)
  (behindDigits : Digits behind)
include small beforeDigits behindDigits

theorem pieceReads_behind {number : Int}
    (short : (before ++ '-' :: behind).length ≤ precision) :
    PieceReads
        ((before ++ '-' :: behind) ++
          zeros precision (before ++ '-' :: behind)) number ↔
      reading before
          (behind ++ zeros precision (before ++ '-' :: behind)) =
        some number := by
  have digits : Digits (behind ++ zeros precision (before ++ '-' :: behind)) :=
    digits_append.mpr ⟨behindDigits, digits_zeros _⟩
  have shape :
      (before ++ '-' :: behind) ++
          zeros precision (before ++ '-' :: behind) =
        before ++ '-' ::
          ((behind ++ zeros precision (before ++ '-' :: behind)) ++ []) := by
    simp
  rw [shape, pieceReads_reading beforeDigits digits (.inl rfl)]
  have lengths : (behind ++
      zeros precision (before ++ '-' :: behind)).length ≤ precision := by
    rw [List.length_append, zeros, List.length_replicate]
    rw [List.length_append, List.length_cons] at short ⊢
    omega
  have beforeShort : before.length ≤ precision := by
    rw [List.length_append] at short
    omega
  exact ⟨fun both => both.1, fun reads => ⟨reads,
    fits_of_reading small beforeDigits digits beforeShort lengths reads⟩⟩

omit small in
theorem scan_dot_sign {front : List Char} (frontDigits : Digits front) :
    scan (front ++ '.' :: (before ++ '-' :: behind)) false false =
      .ok (true, true) := by
  have noDotFront := notMem_of_digits frontDigits (c := '.') rfl
  have noDotBehind := notMem_of_digits behindDigits (c := '.') rfl
  have noDotBefore := notMem_of_digits beforeDigits (c := '.') rfl
  have shape :
      front ++ '.' :: (before ++ '-' :: behind) =
        (front ++ '.' :: before) ++ '-' :: behind := by
    simp
  have scans :=
    @scan_shape (front ++ '.' :: before) behind
      (allowed_append.mpr ⟨allowed_of_digits frontDigits,
        allowed_cons.mpr ⟨.inr (.inr rfl), allowed_of_digits beforeDigits⟩⟩)
      (allowed_of_digits behindDigits)
      (by simp [notMem_of_digits frontDigits (c := '-') rfl,
        notMem_of_digits beforeDigits (c := '-') rfl])
      (notMem_of_digits behindDigits (c := '-') rfl)
      (by simp [List.count_eq_zero.mpr noDotFront,
        List.count_eq_zero.mpr noDotBefore,
        List.count_eq_zero.mpr noDotBehind])
  rw [shape, scans]
  simp

theorem exists_ok_dot_sign (isDigit : c.isDigit = true)
    (wholeDigits : Digits whole) :
    (∃ amount,
      amountFromString precision
          (c :: (whole ++ '.' :: (before ++ '-' :: behind))) =
        .ok amount) ↔
      whole ≠ [] ∧ (before ++ '-' :: behind).length ≤ precision ∧
        ∃ number,
          reading before
              (behind ++ zeros precision (before ++ '-' :: behind)) =
            some number ∧
          Taken precision (value whole) number := by
  have frontDigits : Digits (c :: whole) :=
    digits_cons.mpr ⟨isDigit, wholeDigits⟩
  have scanned := scan_dot_sign beforeDigits behindDigits frontDigits
  rw [← List.cons_append,
    exists_ok_dot small scanned
      (notMem_of_digits frontDigits (c := '.') rfl), piece_cons]
  simp only [pieceReads_digits_dot wholeDigits]
  constructor
  · rintro ⟨_, number, ⟨some, rfl, _⟩, short, reads, taken⟩
    exact ⟨some, short, number,
      (pieceReads_behind small beforeDigits behindDigits short).mp reads,
      taken⟩
  · rintro ⟨some, short, number, reads, taken⟩
    exact ⟨_, number, ⟨some, rfl, fits_of_scaled taken.1⟩, short,
      (pieceReads_behind small beforeDigits behindDigits short).mpr reads,
      taken⟩

theorem exists_ok_bare_dot_sign :
    (∃ amount,
      amountFromString precision ('.' :: (before ++ '-' :: behind)) =
        .ok amount) ↔
      (before ++ '-' :: behind).length ≤ precision ∧
        ∃ number,
          reading before
              (behind ++ zeros precision (before ++ '-' :: behind)) =
            some number ∧
          Taken precision 0 number := by
  have scanned := scan_dot_sign beforeDigits behindDigits digits_nil
  rw [← List.nil_append ('.' :: _), exists_ok_dot small scanned (by simp)]
  simp only [List.length_nil, List.take_zero, PieceReads, ne_eq,
    not_true_eq_false, false_and, or_false, true_and]
  constructor
  · rintro ⟨_, number, rfl, short, reads, taken⟩
    exact ⟨short, number,
      (pieceReads_behind small beforeDigits behindDigits short).mp reads,
      taken⟩
  · rintro ⟨short, number, reads, taken⟩
    exact ⟨0, number, rfl, short,
      (pieceReads_behind small beforeDigits behindDigits short).mpr reads,
      taken⟩

end DotSign

end Behind

/-- A text with a '-' behind its first char is taken when it is misread. -/
theorem exists_ok_iff_misread {precision : Nat} {text : List Char}
    (small : precision < 19) (hasSign : '-' ∈ text)
    (notFront : text.head? ≠ some '-') :
    (∃ amount, amountFromString precision text = .ok amount) ↔
      Misread precision text := by
  constructor
  · intro accepted
    obtain ⟨found, scanned⟩ :
        ∃ found, scan text false false = .ok found := by
      obtain ⟨amount, returns⟩ := accepted
      obtain ⟨found, scanned, _⟩ := bind_eq_ok.mp returns
      exact ⟨found, scanned⟩
    obtain ⟨allowed, signs, dots, _⟩ := scan_eq_ok.mp scanned
    obtain ⟨front, behind, rfl, noSign, noSignBehind⟩ :=
      exists_split hasSign (by simpa using signs)
    obtain ⟨allowedFront, allowedRest⟩ := allowed_append.mp allowed
    have allowedBehind := (allowed_cons.mp allowedRest).2
    rw [List.count_append, List.count_cons_of_ne (by decide)] at dots
    by_cases dotFront : '.' ∈ front
    · have once := List.one_le_count_iff.mpr dotFront
      have noDotBehind : '.' ∉ behind :=
        List.count_eq_zero.mp (by simp at dots; omega)
      obtain ⟨whole, before, rfl, noDot, noDotBefore⟩ :=
        exists_split dotFront (by simp at dots; omega)
      obtain ⟨allowedWhole, allowedBefore⟩ := allowed_append.mp allowedFront
      rw [List.mem_append, List.mem_cons, not_or, not_or] at noSign
      have wholeDigits := digits_of_allowed allowedWhole noSign.1 noDot
      have beforeDigits :=
        digits_of_allowed (allowed_cons.mp allowedBefore).2 noSign.2.2
          noDotBefore
      have behindDigits :=
        digits_of_allowed allowedBehind noSignBehind noDotBehind
      rw [List.append_assoc, List.cons_append] at accepted ⊢
      cases whole with
      | nil =>
          obtain ⟨short, number, reads, taken⟩ :=
            (exists_ok_bare_dot_sign small beforeDigits behindDigits).mp
              accepted
          exact ⟨0, number, .behindDot beforeDigits behindDigits short reads,
            taken⟩
      | cons c whole =>
          obtain ⟨isDigit, others⟩ := digits_cons.mp wholeDigits
          obtain ⟨some, short, number, reads, taken⟩ :=
            (exists_ok_dot_sign small beforeDigits behindDigits isDigit
              others).mp accepted
          exact ⟨_, number, .afterDot isDigit others some beforeDigits
            behindDigits short reads, taken⟩
    · have frontDigits := digits_of_allowed allowedFront noSign dotFront
      cases front with
      | nil => exact absurd rfl notFront
      | cons c before =>
          obtain ⟨isDigit, beforeDigits⟩ := digits_cons.mp frontDigits
          by_cases dotBehind : '.' ∈ behind
          · obtain ⟨middle, fraction, rfl, noDot, noDotFraction⟩ :=
              exists_split dotBehind (by simp at dots; omega)
            obtain ⟨allowedMiddle, allowedFraction⟩ :=
              allowed_append.mp allowedBehind
            rw [List.mem_append, List.mem_cons, not_or, not_or]
              at noSignBehind
            have middleDigits :=
              digits_of_allowed allowedMiddle noSignBehind.1 noDot
            have fractionDigits :=
              digits_of_allowed (allowed_cons.mp allowedFraction).2
                noSignBehind.2.2 noDotFraction
            obtain ⟨short, number, reads, taken⟩ :=
              (exists_ok_sign_dot small isDigit beforeDigits middleDigits
                fractionDigits).mp accepted
            exact ⟨number, _, .beforeDot isDigit beforeDigits middleDigits
              fractionDigits reads short, taken⟩
          · have behindDigits :=
              digits_of_allowed allowedBehind noSignBehind dotBehind
            obtain ⟨number, reads, taken⟩ :=
              (exists_ok_sign small isDigit beforeDigits behindDigits).mp
                accepted
            exact ⟨number, 0, .noDot isDigit beforeDigits behindDigits reads,
              taken⟩
  · rintro ⟨whole, fraction, misplaced, taken⟩
    cases misplaced with
    | noDot isDigit beforeDigits behindDigits reads =>
        exact (exists_ok_sign small isDigit beforeDigits behindDigits).mpr
          ⟨_, reads, taken⟩
    | beforeDot isDigit beforeDigits behindDigits fractionDigits reads short =>
        exact (exists_ok_sign_dot small isDigit beforeDigits behindDigits
          fractionDigits).mpr ⟨short, _, reads, taken⟩
    | afterDot isDigit wholeDigits some beforeDigits behindDigits short reads =>
        exact (exists_ok_dot_sign small beforeDigits behindDigits isDigit
          wholeDigits).mpr ⟨some, short, _, reads, taken⟩
    | behindDot beforeDigits behindDigits short reads =>
        exact (exists_ok_bare_dot_sign small beforeDigits behindDigits).mpr
          ⟨short, _, reads, taken⟩

section Reads

variable {precision : Nat} {text : List Char} {amount : Int}

theorem exists_digit (isAmount : IsAmount precision text amount) :
    ∃ c ∈ text, c.isDigit = true := by
  obtain ⟨⟨negative, whole, fraction⟩, wellFormed, rfl, _⟩ := isAmount
  rcases wellFormed.some with some | some
  · obtain ⟨c, member⟩ := List.exists_mem_of_ne_nil _ some
    exact ⟨c, by simp [Parts.text, show c ∈ whole from member],
      wellFormed.whole c member⟩
  · obtain ⟨c, member⟩ := List.exists_mem_of_ne_nil _ some
    cases fraction with
    | none => cases member
    | some fraction =>
        exact ⟨c, by simp [Parts.text, show c ∈ fraction from member],
          wellFormed.fraction c member⟩

theorem head_text {parts : Parts} (wholeDigits : Digits parts.whole)
    (fractionDigits : Digits parts.digits) (hasSign : '-' ∈ parts.text) :
    parts.text.head? = some '-' := by
  obtain ⟨negative, whole, fraction⟩ := parts
  dsimp only at wholeDigits
  cases negative with
  | true => rfl
  | false =>
      have noSign := notMem_of_digits wholeDigits (c := '-') rfl
      cases fraction with
      | none => simp [Parts.text, noSign] at hasSign
      | some fraction =>
          have noSignBehind : '-' ∉ fraction :=
            notMem_of_digits fractionDigits (c := '-') rfl
          simp [Parts.text, noSign, noSignBehind] at hasSign

theorem sign_of_misread (misread : Misread precision text) :
    '-' ∈ text ∧ text.head? ≠ some '-' := by
  obtain ⟨_, _, misplaced, _⟩ := misread
  have notSign : ∀ {c : Char}, c.isDigit = true → c ≠ '-' := by
    rintro c isDigit rfl
    cases isDigit
  cases misplaced with
  | noDot isDigit => exact ⟨by simp, by simpa using notSign isDigit⟩
  | beforeDot isDigit => exact ⟨by simp, by simpa using notSign isDigit⟩
  | afterDot isDigit => exact ⟨by simp, by simpa using notSign isDigit⟩
  | behindDot => exact ⟨by simp, by simp⟩

/-- A text that is scanned, with the '-' in front, has the parts of an
amount. -/
theorem exists_parts (allowed : Allowed text) (signs : text.count '-' ≤ 1)
    (dots : text.count '.' ≤ 1) (front : '-' ∈ text → text.head? = some '-') :
    ∃ parts : Parts, parts.text = text ∧ Digits parts.whole ∧
      Digits parts.digits := by
  -- the text behind the sign
  have unsigned :
      ∀ rest : List Char, Allowed rest → '-' ∉ rest → rest.count '.' ≤ 1 →
        ∃ whole fraction,
          (Parts.text ⟨false, whole, fraction⟩) = rest ∧ Digits whole ∧
            Digits (fraction.getD []) := by
    intro rest allowed noSign dots
    by_cases hasDot : '.' ∈ rest
    · obtain ⟨whole, fraction, rfl, noDot, noDotBehind⟩ :=
        exists_split hasDot dots
      obtain ⟨allowedWhole, allowedRest⟩ := allowed_append.mp allowed
      rw [List.mem_append, List.mem_cons, not_or, not_or] at noSign
      exact ⟨whole, some fraction, by simp [Parts.text],
        digits_of_allowed allowedWhole noSign.1 noDot,
        digits_of_allowed (allowed_cons.mp allowedRest).2 noSign.2.2
          noDotBehind⟩
    · exact ⟨rest, none, by simp [Parts.text],
        digits_of_allowed allowed noSign hasDot, digits_nil⟩
  by_cases hasSign : '-' ∈ text
  · cases text with
    | nil => cases hasSign
    | cons c rest =>
        obtain rfl : c = '-' := by simpa using front hasSign
        rw [List.count_cons_self] at signs
        rw [List.count_cons_of_ne (by decide)] at dots
        obtain ⟨whole, fraction, isRest, wholeDigits, fractionDigits⟩ :=
          unsigned rest (allowed_cons.mp allowed).2
            (List.count_eq_zero.mp (by omega)) dots
        refine ⟨⟨true, whole, fraction⟩, ?_, wholeDigits, fractionDigits⟩
        rw [← isRest]
        rfl
  · obtain ⟨whole, fraction, isText, wholeDigits, fractionDigits⟩ :=
      unsigned text allowed hasSign dots
    exact ⟨⟨false, whole, fraction⟩, isText, wholeDigits, fractionDigits⟩

/-- None of the texts that are read though they are no amounts, or refused
though they are. -/
structure WellRead (precision : Nat) (text : List Char) : Prop where
  notEmpty : text ≠ []
  notSign : text ≠ ['-']
  notDot : text ≠ ['.']
  notLeadingDot : ¬ LeadingDot precision text
  notMisread : ¬ Misread precision text

/-- Without a digit a text is taken for zero, unless it has both signs. -/
theorem amountFromString_noDigit {parts : Parts} (small : precision < 19)
    (noWhole : parts.whole = []) (noDigits : parts.digits = [])
    (notBoth : ¬ (parts.negative = true ∧ parts.fraction.isSome = true)) :
    amountFromString precision parts.text = .ok 0 := by
  have zero : value [] = 0 := rfl
  have none : parts.magnitude precision = 0 := by
    rw [Parts.magnitude, noWhole, noDigits, zero]
    omega
  refine (amountFromString_text small (noWhole ▸ digits_nil)
    (noDigits ▸ digits_nil)).mpr
      ⟨fun all => notBoth ⟨all.1, all.2.2⟩, ?_, ?_, ?_⟩
  · rw [noDigits]
    exact Nat.zero_le _
  · rw [none]
    decide
  · simp [Parts.satoshis, none]

theorem noDigit_not_well {parts : Parts} (small : precision < 19)
    (noWhole : parts.whole = []) (noDigits : parts.digits = [])
    (notBoth : ¬ (parts.negative = true ∧ parts.fraction.isSome = true))
    (noDigit : parts.text.any Char.isDigit = false) :
    ¬ ∀ amount, amountFromString precision parts.text = .ok amount ↔
      IsAmount precision parts.text amount := by
  intro well
  obtain ⟨c, member, isDigit⟩ :=
    exists_digit ((well 0).mp
      (amountFromString_noDigit small noWhole noDigits notBoth))
  exact List.any_eq_false.mp noDigit c member isDigit

/-- A text of the parts of an amount is read as the amount that it is exactly
when it is well read. -/
theorem reads_text {parts : Parts} (small : precision < 19)
    (wholeDigits : Digits parts.whole) (fractionDigits : Digits parts.digits) :
    (∀ amount, amountFromString precision parts.text = .ok amount ↔
      IsAmount precision parts.text amount) ↔
      WellRead precision parts.text := by
  constructor
  · intro well
    refine ⟨?_, ?_, ?_, ?_, ?_⟩
    · intro isText
      rw [isText] at well
      exact @noDigit_not_well precision ⟨false, [], none⟩ small rfl rfl
        (by simp) (by decide) well
    · intro isText
      rw [isText] at well
      exact @noDigit_not_well precision ⟨true, [], none⟩ small rfl rfl
        (by simp) (by decide) well
    · intro isText
      rw [isText] at well
      exact @noDigit_not_well precision ⟨false, [], some []⟩ small rfl rfl
        (by simp) (by decide) well
    · rintro ⟨fraction, isText, wellFormed, low⟩
      have isAmount : IsAmount precision parts.text _ :=
        ⟨⟨true, [], some fraction⟩, wellFormed, isText.symm, low, rfl⟩
      have returns := (well _).mpr isAmount
      rw [isText] at returns
      have notBoth :=
        ((@amountFromString_text ⟨true, [], some fraction⟩ precision _ small
          wellFormed.whole wellFormed.fraction).mp returns).1
      exact notBoth ⟨rfl, rfl, rfl⟩
    · intro misread
      obtain ⟨hasSign, notFront⟩ := sign_of_misread misread
      exact notFront (head_text wholeDigits fractionDigits hasSign)
  · intro wellRead amount
    constructor
    · intro returns
      obtain ⟨notBoth, short, low, same⟩ :=
        (amountFromString_text small wholeDigits fractionDigits).mp returns
      refine ⟨parts, ⟨wholeDigits, fractionDigits, short, ?_⟩, rfl, low,
        same.symm⟩
      -- without a digit it is one of the three texts
      by_contra none
      obtain ⟨negative, whole, fraction⟩ := parts
      simp only [not_or, not_not] at none
      obtain ⟨rfl, noDigits⟩ := none
      cases fraction with
      | none =>
          cases negative with
          | true => exact wellRead.notSign rfl
          | false => exact wellRead.notEmpty rfl
      | some fraction =>
          obtain rfl : fraction = [] := noDigits
          cases negative with
          | true => exact notBoth ⟨rfl, rfl, rfl⟩
          | false => exact wellRead.notDot rfl
    · rintro ⟨⟨negative, whole, fraction⟩, wellFormed, isText, low, rfl⟩
      rw [← isText]
      refine (amountFromString_text small wellFormed.whole
        wellFormed.fraction).mpr ⟨?_, wellFormed.short, low, rfl⟩
      rintro ⟨isNegative, noWhole, isSome⟩
      obtain ⟨fraction, rfl⟩ := Option.isSome_iff_exists.mp isSome
      dsimp only at isNegative noWhole
      subst isNegative noWhole
      exact wellRead.notLeadingDot ⟨fraction, isText.symm, wellFormed, low⟩

/-- Every text that has to do with an amount is let through by the scan. -/
theorem scan_of_isAmount (isAmount : IsAmount precision text amount) :
    ∃ found, scan text false false = .ok found := by
  obtain ⟨parts, wellFormed, rfl, _⟩ := isAmount
  exact ⟨_, scan_text wellFormed.whole wellFormed.fraction⟩

theorem scan_of_ok (returns : amountFromString precision text = .ok amount) :
    ∃ found, scan text false false = .ok found := by
  obtain ⟨found, scanned, _⟩ := bind_eq_ok.mp returns
  exact ⟨found, scanned⟩

theorem wellRead_of_refused (small : precision < 19)
    (refused : ∀ found, scan text false false ≠ .ok found) :
    WellRead precision text := by
  refine ⟨?_, ?_, ?_, ?_, ?_⟩
  · rintro rfl
    exact refused _ rfl
  · rintro rfl
    exact refused _ rfl
  · rintro rfl
    exact refused _ rfl
  · rintro ⟨fraction, rfl, wellFormed, _⟩
    exact refused _
      (@scan_text ⟨true, [], some fraction⟩ wellFormed.whole
        wellFormed.fraction)
  · intro misread
    obtain ⟨hasSign, notFront⟩ := sign_of_misread misread
    obtain ⟨_, returns⟩ :=
      (exists_ok_iff_misread small hasSign notFront).mpr misread
    obtain ⟨found, scanned⟩ := scan_of_ok returns
    exact refused found scanned

theorem reads_misplaced (small : precision < 19) (hasSign : '-' ∈ text)
    (notFront : text.head? ≠ some '-') :
    (∀ amount, amountFromString precision text = .ok amount ↔
      IsAmount precision text amount) ↔ WellRead precision text := by
  have noAmount : ∀ amount, ¬ IsAmount precision text amount := by
    rintro amount ⟨parts, wellFormed, rfl, _⟩
    exact notFront
      (head_text wellFormed.whole wellFormed.fraction hasSign)
  have accepted := exists_ok_iff_misread small hasSign notFront
  constructor
  · intro well
    refine ⟨?_, ?_, ?_, ?_, ?_⟩
    · rintro rfl
      cases hasSign
    · rintro rfl
      exact notFront rfl
    · rintro rfl
      simp at hasSign
    · rintro ⟨fraction, rfl, _⟩
      exact notFront rfl
    · intro misread
      obtain ⟨amount, returns⟩ := accepted.mpr misread
      exact noAmount amount ((well amount).mp returns)
  · intro wellRead amount
    constructor
    · intro returns
      exact absurd (accepted.mp ⟨amount, returns⟩) wellRead.notMisread
    · intro isAmount
      exact absurd isAmount (noAmount amount)

theorem reads_iff (small : precision < 19) :
    (∀ amount, amountFromString precision text = .ok amount ↔
      IsAmount precision text amount) ↔ WellRead precision text := by
  by_cases scans : ∃ found, scan text false false = .ok found
  · obtain ⟨found, scanned⟩ := scans
    obtain ⟨allowed, signs, dots, _⟩ := scan_eq_ok.mp scanned
    by_cases front : '-' ∈ text → text.head? = some '-'
    · obtain ⟨parts, rfl, wholeDigits, fractionDigits⟩ :=
        exists_parts allowed (by simpa using signs) (by simpa using dots) front
      exact reads_text small wholeDigits fractionDigits
    · rw [Classical.not_imp] at front
      exact reads_misplaced small front.1 front.2
  · have refused : ∀ found, scan text false false ≠ .ok found :=
      fun found scanned => scans ⟨found, scanned⟩
    refine ⟨fun _ => wellRead_of_refused small refused, fun _ amount => ?_⟩
    constructor
    · intro returns
      exact absurd (scan_of_ok returns) scans
    · intro isAmount
      exact absurd (scan_of_isAmount isAmount) scans

end Reads

section RoundTrip

variable {precision : Nat} {amount : Int}

def written (precision : Nat) (amount : Int) : Parts where
  negative := decide (amount < 0)
  whole := Nat.toDigits 10 (amount.natAbs / 10 ^ precision)
  fraction :=
    if amount.natAbs % 10 ^ precision = 0 then none
    else
      some ((Nat.toDigits 10
        (10 ^ precision + amount.natAbs % 10 ^ precision)).drop 1)

theorem written_digits :
    Digits (written precision amount).digits ∧
      (written precision amount).digits.length ≤ precision ∧
      value (written precision amount).digits *
          10 ^ (precision - (written precision amount).digits.length) =
        amount.natAbs % 10 ^ precision := by
  rw [Parts.digits, written]
  dsimp only
  by_cases none : amount.natAbs % 10 ^ precision = 0
  · have zero : value [] = 0 := rfl
    rw [if_pos none, none]
    exact ⟨digits_nil, Nat.zero_le _, by simp [zero]⟩
  · rw [if_neg none, Option.getD_some]
    obtain ⟨digits, length, isValue⟩ :=
      drop_toDigits precision (amount.natAbs % 10 ^ precision)
        (Nat.mod_lt _ (Nat.pow_pos (by decide)))
    refine ⟨digits, Nat.le_of_eq length, ?_⟩
    rw [length, isValue, Nat.sub_self, Nat.pow_zero, Nat.mul_one]

theorem magnitude_written :
    (written precision amount).magnitude precision = amount.natAbs := by
  have isWhole :
      value (written precision amount).whole =
        amount.natAbs / 10 ^ precision := value_toDigits _
  rw [Parts.magnitude, written_digits.2.2, isWhole]
  exact Nat.div_add_mod' _ _

theorem satoshis_written :
    (written precision amount).satoshis precision = amount := by
  rw [Parts.satoshis, magnitude_written]
  by_cases negative : amount < 0
  · have isNegative : (written precision amount).negative = true :=
      decide_eq_true negative
    rw [if_pos isNegative]
    omega
  · have notNegative : (written precision amount).negative = false :=
      decide_eq_false negative
    rw [notNegative]
    simp only [Bool.false_eq_true, if_false]
    omega

theorem intText_quotient
    (some : amount < 0 → amount.natAbs / 10 ^ precision ≠ 0) :
    intText (amount.tdiv (10 ^ precision)) =
      (if amount < 0 then ['-'] else []) ++
        Nat.toDigits 10 (amount.natAbs / 10 ^ precision) := by
  have size : (amount.tdiv (10 ^ precision)).natAbs =
      amount.natAbs / 10 ^ precision := by
    rw [Int.natAbs_tdiv, Int.natAbs_pow]
    rfl
  rw [intText, size]
  by_cases negative : amount < 0
  · have down : amount.tdiv (10 ^ precision) ≤ 0 := by
      rw [← Int.neg_neg amount, Int.neg_tdiv]
      exact Int.neg_nonpos_of_nonneg
        (Int.tdiv_nonneg (by omega) (Int.pow_nonneg (by decide)))
    have notZero := some negative
    rw [if_pos negative, if_pos (by omega)]
    rfl
  · have up : 0 ≤ amount.tdiv (10 ^ precision) :=
      Int.tdiv_nonneg (by omega) (Int.pow_nonneg (by decide))
    rw [if_neg negative, if_neg (by omega)]
    rfl

theorem amountToString_eq (small : precision < 19) :
    amountToString precision amount =
      .ok (written precision amount).text := by
  have scaled : scaledPrecision precision = .ok (10 ^ precision) :=
    scaledPrecision_of_lt small
  have rest : (amount.tmod (10 ^ precision)).natAbs =
      amount.natAbs % 10 ^ precision := by
    rw [Int.natAbs_tmod, Int.natAbs_pow]
    rfl
  refine bind_eq_ok.mpr ⟨10 ^ precision, scaled, ?_⟩
  simp only [rest, Parts.text, written, decide_eq_true_eq]
  by_cases none : amount.natAbs % 10 ^ precision = 0
  · have some : amount < 0 → amount.natAbs / 10 ^ precision ≠ 0 := by
      intro negative noWhole
      have parts := Nat.div_add_mod amount.natAbs (10 ^ precision)
      rw [none, noWhole] at parts
      omega
    have noDecimals : ¬ ((0 : Nat) : Int) ≠ 0 := by decide
    rw [none, if_neg noDecimals, if_pos rfl, intText_quotient some,
      List.append_nil]
    rfl
  · have decimals : ((amount.natAbs % 10 ^ precision : Nat) : Int) ≠ 0 := by
      omega
    have digits :
        intText (10 ^ precision +
            ((amount.natAbs % 10 ^ precision : Nat) : Int)) =
          Nat.toDigits 10
            (10 ^ precision + amount.natAbs % 10 ^ precision) := by
      have sum : (10 ^ precision : Int) +
          ((amount.natAbs % 10 ^ precision : Nat) : Int) =
            ((10 ^ precision + amount.natAbs % 10 ^ precision : Nat) :
              Int) := by
        simp
      rw [sum, intText, if_neg (by omega), Int.natAbs_natCast]
    -- the sign is put in front when the whole part is zero
    have front :
        (if amount < 0 ∧ intText (amount.tdiv (10 ^ precision)) = ['0'] then
          ['-', '0'] else intText (amount.tdiv (10 ^ precision))) =
          (if amount < 0 then ['-'] else []) ++
            Nat.toDigits 10 (amount.natAbs / 10 ^ precision) := by
      by_cases small : amount < 0 ∧ amount.natAbs / 10 ^ precision = 0
      · have quotient : amount.tdiv (10 ^ precision) = 0 := by
          apply Int.natAbs_eq_zero.mp
          rw [Int.natAbs_tdiv, Int.natAbs_pow]
          exact small.2
        rw [quotient, if_pos ⟨small.1, rfl⟩, if_pos small.1, small.2]
        rfl
      · have isText := @intText_quotient precision amount
          fun negative noWhole => small ⟨negative, noWhole⟩
        have notZero :
            ¬ (amount < 0 ∧
              intText (amount.tdiv (10 ^ precision)) = ['0']) := by
          rintro ⟨negative, isZero⟩
          rw [isText, if_pos negative] at isZero
          cases isZero
        rw [if_neg notZero, isText]
    rw [if_pos decimals, front, digits, if_neg none, List.append_assoc]
    rfl

theorem amountFromString_amountToString (small : precision < 19)
    (low : (amount.natAbs : Int) ≤ GRAPHENE_MAX_SHARE_SUPPLY) :
    ∃ text, amountToString precision amount = .ok text ∧
      amountFromString precision text = .ok amount := by
  refine ⟨_, amountToString_eq small, ?_⟩
  have wholeDigits : Digits (written precision amount).whole :=
    digits_toDigits _
  refine (amountFromString_text small wholeDigits written_digits.1).mpr
    ⟨?_, written_digits.2.1, ?_, satoshis_written.symm⟩
  · rintro ⟨_, noWhole, _⟩
    exact Nat.toDigits_ne_nil noWhole
  · rw [magnitude_written]
    exact low

end RoundTrip

/-- Every amount within the supply limit is read back from its text.  The texts
that are read as the amounts that they are, and refused when they are none, are
all but these: a text without a char, a '-' or a '.' alone, which are taken for
zero; a '-' right in front of the dot of an amount, which is refused; a '-'
behind the first char where the numbers around it fit. -/
theorem amount_text {precision : Nat} (small : precision < 19) :
    (∀ amount : Int, (amount.natAbs : Int) ≤ GRAPHENE_MAX_SHARE_SUPPLY →
      ∃ text, amountToString precision amount = .ok text ∧
        amountFromString precision text = .ok amount) ∧
      ∀ text,
        (∀ amount, amountFromString precision text = .ok amount ↔
          IsAmount precision text amount) ↔ WellRead precision text :=
  ⟨fun _ low => amountFromString_amountToString small low,
    fun _ => reads_iff small⟩

theorem amount_text_five :
    (∀ amount : Int, (amount.natAbs : Int) ≤ GRAPHENE_MAX_SHARE_SUPPLY →
      ∃ text, amountToString 5 amount = .ok text ∧
        amountFromString 5 text = .ok amount) ∧
      ∀ text,
        (∀ amount, amountFromString 5 text = .ok amount ↔
          IsAmount 5 text amount) ↔ WellRead 5 text :=
  amount_text (by decide)

/-- With five digits behind the dot, "1-2" is read as 2, and "-.5" is refused. -/
theorem amount_text_fails :
    amountFromString 5 ['1', '-', '2'] = .ok 200000 ∧
      (¬ ∃ amount, IsAmount 5 ['1', '-', '2'] amount) ∧
      IsAmount 5 ['-', '.', '5'] (-50000) ∧
      amountFromString 5 ['-', '.', '5'] = .error (.assertion "stoll") := by
  refine ⟨rfl, ?_, ?_, rfl⟩
  · rintro ⟨amount, parts, wellFormed, isText, _⟩
    have front := head_text wellFormed.whole wellFormed.fraction
    rw [isText] at front
    exact absurd (front (by decide)) (by decide)
  · refine ⟨⟨true, [], some ['5']⟩, ⟨?_, ?_, ?_, ?_⟩, rfl, ?_, rfl⟩
    · decide
    · decide
    · decide
    · exact .inr (by decide)
    · decide

end GxbCore.Ledger.AmountText
