import GxbCore.Lib.Fallible
import GxbCore.Lib.MixedRadix
import Mathlib.Data.List.DropRight

/-!
# Names of tables and actions

A name packs twelve symbols of five bits and one of four bits into 64 bits.  It
is read from a zero-terminated string, and written by a loop that starts with
the last symbol and then trims the dots at the end.
-/

namespace GxbCore.Abi.Name

open MixedRadix

/-- The char that ends a string. -/
def nul : Char :=
  Char.ofNat 0

/-- What a `const char*` points to: the chars before the zero char. -/
structure CString where
  chars : List Char
  noNul : nul ∉ chars
  deriving DecidableEq

/-- `str[i]`, which is the zero char at the end; nothing is read behind it. -/
def CString.get (str : CString) (i : Nat) : Char :=
  str.chars.getD i nul

def strnlen (str : CString) (most : Nat) : Nat :=
  min str.chars.length most

def charToSymbol (c : Char) : UInt64 :=
  if 'a' ≤ c ∧ c ≤ 'z' then
    UInt64.ofNat (c.toNat - 'a'.toNat) + 6
  else if '1' ≤ c ∧ c ≤ '5' then
    UInt64.ofNat (c.toNat - '1'.toNat) + 1
  else
    0

/-- The loop of `string_to_name`: `i` and the name; `rest` is `12 - i`. -/
def packSymbols (str : CString) : Nat → Nat → UInt64 → Nat × UInt64
  | 0, i, name => (i, name)
  | rest + 1, i, name =>
      if str.get i ≠ nul then
        packSymbols str rest (i + 1)
          (name ||| (charToSymbol (str.get i) &&& 0x1f)
            <<< UInt64.ofNat (64 - 5 * (i + 1)))
      else
        (i, name)

def stringToName (str : CString) : UInt64 :=
  let (i, name) := packSymbols str 12 0 0
  if i = 12 then
    name ||| (charToSymbol (str.get 12) &&& 0x0F)
  else
    name

def charmap : List Char :=
  ['.', '1', '2', '3', '4', '5', 'a', 'b', 'c', 'd', 'e', 'f', 'g', 'h', 'i',
    'j', 'k', 'l', 'm', 'n', 'o', 'p', 'q', 'r', 's', 't', 'u', 'v', 'w', 'x',
    'y', 'z']

/-- `charmap[symbol]` -/
def symbolToChar (symbol : Nat) : Char :=
  charmap.getD symbol nul

/-- The loop of `operator string`, from `i` on; `rest` is `13 - i`. -/
def writeSymbols : Nat → Nat → UInt64 → List Char → List Char
  | 0, _, _, str => str
  | rest + 1, i, tmp, str =>
      let c := symbolToChar (tmp &&& if i = 0 then 0x0f else 0x1f).toNat
      writeSymbols rest (i + 1) (tmp >>> if i = 0 then 4 else 5)
        (str.set (12 - i) c)

/-- `trim_right_if` of the dots -/
def trimDots (str : List Char) : List Char :=
  str.rdropWhile (· == '.')

/-- The chars of `operator string` -/
def nameChars (value : UInt64) : List Char :=
  trimDots (writeSymbols 13 0 value (List.replicate 13 '.'))

/-- The radices of the thirteen symbols. -/
def radices : List Nat :=
  List.replicate 12 32 ++ [16]

def symbols (value : UInt64) : List Nat :=
  toDigits radices value.toNat

/-- The symbols of `rest` chars from the place `i` on. -/
def symbolsFrom (str : CString) (i rest : Nat) : List Nat :=
  (List.range' i rest).map fun j => (charToSymbol (str.get j)).toNat % 32

theorem prod_radices : radices.prod = 2 ^ 64 := by
  decide

theorem radices_pos : ∀ radix ∈ radices, 0 < radix := by
  decide

theorem areDigits_symbols (value : UInt64) :
    AreDigits radices (symbols value) :=
  areDigits_toDigits radices_pos _

theorem length_symbols (value : UInt64) : (symbols value).length = 13 := by
  rw [symbols, length_toDigits]
  rfl

theorem ofDigits_symbols (value : UInt64) :
    ofDigits radices (symbols value) = value.toNat := by
  rw [symbols, ofDigits_toDigits, prod_radices,
    Nat.mod_eq_of_lt value.toNat_lt]

section Writing

/-- A round of five bits writes the digit to the end of the dots. -/
theorem writeSymbols_five (rest : Nat) (few : rest ≤ 12) (tmp : UInt64)
    (suffix : List Char) :
    writeSymbols rest (13 - rest) tmp (List.replicate rest '.' ++ suffix) =
      (toDigits (List.replicate rest 32) tmp.toNat).map symbolToChar ++
        suffix := by
  induction rest generalizing tmp suffix with
  | zero => rfl
  | succ rest ih =>
      have later : 13 - (rest + 1) + 1 = 13 - rest := by omega
      have notFirst : 13 - (rest + 1) ≠ 0 := by omega
      have place : 12 - (13 - (rest + 1)) = rest := by omega
      have written :
          (List.replicate (rest + 1) '.' ++ suffix).set rest
              (symbolToChar (tmp.toNat % 32)) =
            List.replicate rest '.' ++
              (symbolToChar (tmp.toNat % 32) :: suffix) := by
        rw [List.replicate_succ', List.append_assoc,
          List.set_append_right _ _ (by simp)]
        simp
      have bits : (tmp &&& 0x1f).toNat = tmp.toNat % 32 := by
        rw [UInt64.toNat_and]
        exact Nat.and_two_pow_sub_one_eq_mod tmp.toNat 5
      have shifted : (tmp >>> 5).toNat = tmp.toNat / 32 := by
        rw [UInt64.toNat_shiftRight]
        exact Nat.shiftRight_eq_div_pow tmp.toNat 5
      rw [writeSymbols]
      simp only [if_neg notFirst, later, place, bits, written]
      rw [ih (by omega), shifted, List.replicate_succ',
        toDigits_concat]
      simp

theorem writeSymbols_all (value : UInt64) :
    writeSymbols 13 0 value (List.replicate 13 '.') =
      (symbols value).map symbolToChar := by
  have bits : (value &&& 0x0f).toNat = value.toNat % 16 := by
    rw [UInt64.toNat_and]
    exact Nat.and_two_pow_sub_one_eq_mod value.toNat 4
  have shifted : (value >>> 4).toNat = value.toNat / 16 := by
    rw [UInt64.toNat_shiftRight]
    exact Nat.shiftRight_eq_div_pow value.toNat 4
  have rounds :=
    writeSymbols_five 12 (Nat.le_refl 12) (value >>> 4)
      [symbolToChar (value.toNat % 16)]
  rw [writeSymbols]
  simp only [if_true, bits]
  rw [symbols, radices, toDigits_concat, ← shifted]
  simpa using rounds

end Writing

section Reading

variable {str : CString}

theorem get_eq_nul_iff {i : Nat} : str.get i = nul ↔ str.chars.length ≤ i := by
  rw [CString.get, List.getD_eq_getElem?_getD]
  by_cases inside : i < str.chars.length
  · rw [List.getElem?_eq_getElem inside, Option.getD_some]
    constructor
    · intro isNul
      exact absurd (isNul ▸ List.getElem_mem inside) str.noNul
    · intro beyond
      omega
  · rw [List.getElem?_eq_none (Nat.le_of_not_lt inside), Option.getD_none]
    exact ⟨fun _ => Nat.le_of_not_lt inside, fun _ => rfl⟩

theorem charToSymbol_nul : charToSymbol nul = 0 := by
  decide

theorem ofDigits_symbolsFrom_end {i : Nat} (rest : Nat)
    (ended : str.get i = nul) :
    ofDigits (List.replicate rest 32) (symbolsFrom str i rest) = 0 := by
  induction rest generalizing i with
  | zero => rfl
  | succ rest ih =>
      have next : str.get (i + 1) = nul := by
        rw [get_eq_nul_iff] at ended ⊢
        omega
      have goes := ih next
      simp only [symbolsFrom] at goes
      simp [symbolsFrom, List.range'_succ, List.replicate_succ, ofDigits, ended,
        charToSymbol_nul, goes]

theorem or_shift {high chunk : Nat} (place : Nat) (small : chunk < 32) :
    high * 2 ^ (place + 5) ||| chunk <<< place =
      (high * 32 + chunk) * 2 ^ place := by
  have joined :=
    Nat.shiftLeft_add_eq_or_of_lt (show chunk < 2 ^ 5 by omega) high
  have shape : high * 2 ^ (place + 5) = high <<< 5 <<< place := by
    rw [← Nat.shiftLeft_add, Nat.shiftLeft_eq, Nat.add_comm]
  rw [shape, ← Nat.shiftLeft_or_distrib, ← joined, Nat.shiftLeft_eq,
    Nat.shiftLeft_eq]

/-- The loop packs the symbols that are left to the bits that are left. -/
theorem packSymbols_packs (rest i : Nat) (places : i + rest = 12) (high : Nat)
    (name : UInt64) (placed : name.toNat = high * 2 ^ (5 * rest + 4)) :
    (packSymbols str rest i name).2.toNat =
        (high * 32 ^ rest +
          ofDigits (List.replicate rest 32) (symbolsFrom str i rest)) * 16 ∧
      ((packSymbols str rest i name).1 = 12 ∨ str.get 12 = nul) := by
  induction rest generalizing i high name with
  | zero =>
      have isTwelve : i = 12 := places
      simp [packSymbols, symbolsFrom, ofDigits, placed, isTwelve]
  | succ rest ih =>
      have shift : 64 - 5 * (i + 1) = 5 * rest + 4 := by omega
      rw [packSymbols]
      split
      · next goesOn =>
          rw [shift]
          obtain ⟨chunk, isChunk⟩ :
              ∃ chunk, chunk = (charToSymbol (str.get i)).toNat % 32 :=
            ⟨_, rfl⟩
          have small : chunk < 32 := isChunk ▸ Nat.mod_lt _ (by decide)
          have bits : (charToSymbol (str.get i) &&& 0x1f).toNat = chunk := by
            rw [UInt64.toNat_and, isChunk]
            exact Nat.and_two_pow_sub_one_eq_mod _ 5
          have amount : (UInt64.ofNat (5 * rest + 4)).toNat % 64 =
              5 * rest + 4 := by
            rw [UInt64.toNat_ofNat',
              Nat.mod_eq_of_lt (show 5 * rest + 4 < 2 ^ 64 by omega),
              Nat.mod_eq_of_lt (show 5 * rest + 4 < 64 by omega)]
          have fits : chunk <<< (5 * rest + 4) < 2 ^ 64 := by
            rw [Nat.shiftLeft_eq]
            calc chunk * 2 ^ (5 * rest + 4)
                < 2 ^ 5 * 2 ^ (5 * rest + 4) :=
                  Nat.mul_lt_mul_of_pos_right small (Nat.two_pow_pos _)
              _ = 2 ^ (5 + (5 * rest + 4)) := (Nat.pow_add 2 5 _).symm
              _ ≤ 2 ^ 64 := Nat.pow_le_pow_right (by decide) (by omega)
          have packed :
              (name ||| (charToSymbol (str.get i) &&& 0x1f)
                <<< UInt64.ofNat (5 * rest + 4)).toNat =
                (high * 32 + chunk) * 2 ^ (5 * rest + 4) := by
            rw [UInt64.toNat_or, UInt64.toNat_shiftLeft, bits, amount,
              Nat.mod_eq_of_lt fits, placed, ← or_shift _ small,
              show 5 * (rest + 1) + 4 = 5 * rest + 4 + 5 by omega]
          obtain ⟨value, ends⟩ :=
            ih (i + 1) (by omega) (high * 32 + chunk) _ packed
          refine ⟨?_, ends⟩
          rw [value]
          simp only [symbolsFrom, List.range'_succ, List.map_cons,
            List.replicate_succ, ofDigits, List.prod_replicate, ← isChunk,
            Nat.pow_succ]
          rw [Nat.add_mul (high * 32), Nat.add_assoc (high * 32 * 32 ^ rest),
            Nat.mul_assoc high, Nat.mul_comm 32]
      · next stops =>
          have ended : str.get i = nul := not_not.mp stops
          have none := ofDigits_symbolsFrom_end (rest + 1) ended
          have farther : str.get 12 = nul := by
            rw [get_eq_nul_iff] at ended ⊢
            omega
          refine ⟨?_, .inr farther⟩
          rw [none, placed, Nat.add_zero, Nat.pow_add, Nat.pow_mul,
            ← Nat.mul_assoc]
          rfl

/-- The symbols that are read from a string. -/
def spelled (str : CString) : List Nat :=
  symbolsFrom str 0 12 ++ [(charToSymbol (str.get 12)).toNat % 16]

theorem areDigits_spelled (str : CString) :
    AreDigits radices (spelled str) := by
  refine List.forall₂_iff_get.mpr
    ⟨by simp [radices, spelled, symbolsFrom], ?_⟩
  intro i inside _
  by_cases isLast : i < 12
  · simp only [radices, spelled, List.get_eq_getElem]
    rw [List.getElem_append_left (by simpa [symbolsFrom] using isLast),
      List.getElem_append_left (by simpa using isLast)]
    simp only [symbolsFrom, List.getElem_map, List.getElem_replicate]
    exact Nat.mod_lt _ (by decide)
  · have isTwelve : i = 12 := by
      have bound : i < 13 := inside
      omega
    subst isTwelve
    exact Nat.mod_lt _ (by decide)

theorem packSymbols_all (str : CString) :
    (packSymbols str 12 0 0).2.toNat =
        ofDigits (List.replicate 12 32) (symbolsFrom str 0 12) * 16 ∧
      ((packSymbols str 12 0 0).1 = 12 ∨ str.get 12 = nul) := by
  have placed : (0 : UInt64).toNat = 0 * 2 ^ (5 * 12 + 4) := by
    rw [Nat.zero_mul]
    rfl
  have packs := @packSymbols_packs str 12 0 (Nat.zero_add 12) 0 0 placed
  rw [Nat.zero_mul, Nat.zero_add] at packs
  exact packs

/-- The last symbol takes the bits that the others leave. -/
theorem or_last {name last : UInt64} {high : Nat}
    (packed : name.toNat = high * 16) :
    (name ||| (last &&& 0x0F)).toNat = high * 16 + last.toNat % 16 := by
  have bits : (last &&& 0x0F).toNat = last.toNat % 16 := by
    rw [UInt64.toNat_and]
    exact Nat.and_two_pow_sub_one_eq_mod _ 4
  have small : last.toNat % 16 < 2 ^ 4 := Nat.mod_lt _ (by decide)
  have shape : high * 16 = high <<< 4 := (Nat.shiftLeft_eq high 4).symm
  rw [UInt64.toNat_or, bits, packed, shape,
    ← Nat.shiftLeft_add_eq_or_of_lt small]

theorem toNat_stringToName (str : CString) :
    (stringToName str).toNat = ofDigits radices (spelled str) := by
  have sameLength :
      (List.replicate 12 32).length = (symbolsFrom str 0 12).length := by
    simp [symbolsFrom]
  have packs := packSymbols_all str
  rw [spelled, radices, ofDigits_concat sameLength, stringToName]
  revert packs
  generalize packSymbols str 12 0 0 = reached
  generalize ofDigits (List.replicate 12 32) (symbolsFrom str 0 12) = high
  obtain ⟨i, name⟩ := reached
  rintro ⟨packed, ends⟩
  change (if i = 12 then
    name ||| (charToSymbol (str.get 12) &&& 0x0F) else name).toNat = _
  by_cases isTwelve : i = 12
  · rw [if_pos isTwelve]
    exact or_last packed
  · have ended : str.get 12 = nul := ends.resolve_left isTwelve
    rw [if_neg isTwelve, ended, charToSymbol_nul, packed, UInt64.toNat_zero,
      Nat.zero_mod, Nat.add_zero]

theorem symbols_stringToName (str : CString) :
    symbols (stringToName str) = spelled str := by
  rw [symbols, toNat_stringToName, toDigits_ofDigits (areDigits_spelled str)]

end Reading

section Trimming

variable {chars str : List Char} {count : Nat}

theorem trimDots_append_dots (str : List Char) (count : Nat) :
    trimDots (str ++ List.replicate count '.') = trimDots str := by
  induction count with
  | zero => rw [List.replicate_zero, List.append_nil]
  | succ count ih =>
      rw [List.replicate_succ', ← List.append_assoc, trimDots,
        List.rdropWhile_concat_pos _ _ _ (by rfl)]
      exact ih

theorem exists_dots (str : List Char) :
    ∃ count, trimDots str ++ List.replicate count '.' = str := by
  refine ⟨(str.rtakeWhile (· == '.')).length, ?_⟩
  have dots :
      List.replicate (str.rtakeWhile (· == '.')).length '.' =
        str.rtakeWhile (· == '.') := by
    refine (List.eq_replicate_iff.mpr ⟨rfl, fun c member => ?_⟩).symm
    simpa using List.mem_rtakeWhile_imp member
  rw [dots]
  exact List.rdropWhile_append_rtakeWhile

theorem trimDots_eq_self_iff :
    trimDots str = str ↔ str.getLast? ≠ some '.' := by
  rw [trimDots, List.rdropWhile_eq_self_iff]
  rcases List.eq_nil_or_concat str with rfl | ⟨front, last, rfl⟩
  · simp
  · simp

theorem getLast?_trimDots (str : List Char) :
    (trimDots str).getLast? ≠ some '.' :=
  trimDots_eq_self_iff.mp (List.rdropWhile_idempotent _ _)

/-- The string with dots behind it. -/
def padded (chars : List Char) : List Char :=
  chars ++ List.replicate (13 - chars.length) '.'

theorem padded_trimDots (length : str.length = 13) :
    padded (trimDots str) = str := by
  obtain ⟨count, whole⟩ := exists_dots str
  have lengths := congrArg List.length whole
  rw [List.length_append, List.length_replicate, length] at lengths
  rw [padded, show 13 - (trimDots str).length = count by omega, whole]

theorem trimDots_padded (last : chars.getLast? ≠ some '.') :
    trimDots (padded chars) = chars := by
  rw [padded, trimDots_append_dots, trimDots_eq_self_iff.mpr last]

end Trimming

theorem mem_charmap_symbolToChar :
    ∀ symbol < 32, symbolToChar symbol ∈ charmap := by
  decide

theorem mem_take_symbolToChar :
    ∀ symbol < 16, symbolToChar symbol ∈ charmap.take 16 := by
  decide

theorem symbolToChar_charToSymbol :
    ∀ c ∈ charmap, symbolToChar ((charToSymbol c).toNat % 32) = c := by
  have all :
      charmap.all
        (fun c => symbolToChar ((charToSymbol c).toNat % 32) == c) =
          true := by
    decide
  intro c member
  exact eq_of_beq (List.all_eq_true.mp all c member)

theorem symbolToChar_last :
    ∀ c ∈ charmap.take 16,
      symbolToChar ((charToSymbol c).toNat % 16) = c := by
  have all :
      (charmap.take 16).all
        (fun c => symbolToChar ((charToSymbol c).toNat % 16) == c) =
          true := by
    decide
  intro c member
  exact eq_of_beq (List.all_eq_true.mp all c member)

theorem symbolToChar_keeps_order :
    ∀ symbol < 32, ∀ other < 32,
      (symbolToChar symbol < symbolToChar other ↔ symbol < other) ∧
        (symbolToChar symbol = symbolToChar other ↔ symbol = other) := by
  decide

theorem nul_notMem_charmap : nul ∉ charmap := by
  decide

/-- The strings over the symbols, without a dot at the end. -/
structure IsName (chars : List Char) : Prop where
  length : chars.length ≤ 13
  every : ∀ c ∈ chars, c ∈ charmap
  thirteenth : ∀ c, chars[12]? = some c → c ∈ charmap.take 16
  last : chars.getLast? ≠ some '.'

section Strings

variable {digits others : List Nat} {str : CString}

/-- A digit of a name is below 32, the last one below 16. -/
theorem digit_lt (areDigits : AreDigits radices digits) :
    ∀ digit ∈ digits, digit < 32 := by
  intro digit member
  obtain ⟨i, inside, isDigit⟩ := List.getElem_of_mem member
  have place : i < radices.length := areDigits.length_eq ▸ inside
  have small : digits[i] < radices[i] :=
    (List.forall₂_iff_get.mp areDigits).2 i place inside
  have most : ∀ radix ∈ radices, radix ≤ 32 := by decide
  exact isDigit ▸
    Nat.lt_of_lt_of_le small (most _ (List.getElem_mem place))

theorem last_digit_lt (areDigits : AreDigits radices digits) {digit : Nat}
    (isLast : digits[12]? = some digit) : digit < 16 := by
  obtain ⟨inside, isDigit⟩ := List.getElem?_eq_some_iff.mp isLast
  exact isDigit ▸
    (List.forall₂_iff_get.mp areDigits).2 12 (by decide) inside

theorem map_symbolToChar_lt_iff (areDigits : AreDigits radices digits)
    (otherDigits : AreDigits radices others) :
    digits.map symbolToChar < others.map symbolToChar ↔ digits < others := by
  have sameLength : digits.length = others.length :=
    areDigits.length_eq.symm.trans otherDigits.length_eq
  exact map_lt_map_iff sameLength fun x isDigit y isOther =>
    symbolToChar_keeps_order x (digit_lt areDigits x isDigit) y
      (digit_lt otherDigits y isOther)

theorem map_symbolToChar_inj (areDigits : AreDigits radices digits)
    (otherDigits : AreDigits radices others)
    (sameChars : digits.map symbolToChar = others.map symbolToChar) :
    digits = others := by
  have notLess : ¬ ofDigits radices digits < ofDigits radices others := by
    rw [ofDigits_lt_iff areDigits otherDigits,
      ← map_symbolToChar_lt_iff areDigits otherDigits, sameChars]
    exact List.lt_irrefl _
  have notMore : ¬ ofDigits radices others < ofDigits radices digits := by
    rw [ofDigits_lt_iff otherDigits areDigits,
      ← map_symbolToChar_lt_iff otherDigits areDigits, sameChars]
    exact List.lt_irrefl _
  have same : ofDigits radices digits = ofDigits radices others := by omega
  rw [← toDigits_ofDigits areDigits, same, toDigits_ofDigits otherDigits]

theorem padded_nameChars (value : UInt64) :
    padded (nameChars value) = (symbols value).map symbolToChar := by
  rw [nameChars, writeSymbols_all, padded_trimDots]
  rw [List.length_map, length_symbols]

theorem isName_nameChars (value : UInt64) : IsName (nameChars value) where
  length := by
    have lengths := congrArg List.length (padded_nameChars value)
    rw [padded, List.length_append, List.length_map, length_symbols] at lengths
    omega
  every := by
    intro c member
    have written : c ∈ (symbols value).map symbolToChar := by
      rw [← padded_nameChars]
      exact List.mem_append_left _ member
    obtain ⟨symbol, isSymbol, rfl⟩ := List.mem_map.mp written
    exact mem_charmap_symbolToChar symbol
      (digit_lt (areDigits_symbols value) symbol isSymbol)
  thirteenth := by
    intro c isThirteenth
    have written : ((symbols value).map symbolToChar)[12]? = some c := by
      obtain ⟨inside, isChar⟩ := List.getElem?_eq_some_iff.mp isThirteenth
      rw [← padded_nameChars, padded, List.getElem?_append_left inside,
        isThirteenth]
    rw [List.getElem?_map, Option.map_eq_some_iff] at written
    obtain ⟨symbol, isSymbol, rfl⟩ := written
    exact mem_take_symbolToChar symbol
      (last_digit_lt (areDigits_symbols value) isSymbol)
  last := by
    rw [nameChars]
    exact getLast?_trimDots _

/-- `operator string` -/
def toString (value : UInt64) : CString where
  chars := nameChars value
  noNul isNul :=
    nul_notMem_charmap ((isName_nameChars value).every nul isNul)

theorem chars_toString (value : UInt64) :
    (toString value).chars = nameChars value := by
  rw [toString]

theorem isName_toString (value : UInt64) : IsName (toString value).chars := by
  rw [chars_toString]
  exact isName_nameChars value

theorem padded_toString (value : UInt64) :
    padded (toString value).chars = (symbols value).map symbolToChar := by
  rw [chars_toString, padded_nameChars]

/-- The symbols that are read are those of the chars, with dots behind them. -/
theorem map_spelled (isName : IsName str.chars) :
    (spelled str).map symbolToChar = padded str.chars := by
  refine List.ext_getElem ?_ fun i inSpelled inPadded => ?_
  · have short := isName.length
    rw [List.length_map, ← (areDigits_spelled str).length_eq, padded,
      List.length_append, List.length_replicate]
    simp only [radices, List.length_append, List.length_replicate,
      List.length_singleton]
    omega
  · have places : i < 13 := by simpa [spelled, symbolsFrom] using inSpelled
    -- the char at the place, which is a dot behind the end
    have isChar :
        (i < str.chars.length ∧ str.get i = (padded str.chars)[i]) ∨
          (str.get i = nul ∧ (padded str.chars)[i] = '.') := by
      by_cases inside : i < str.chars.length
      · refine .inl ⟨inside, ?_⟩
        simp [CString.get, padded, inside]
      · refine .inr ⟨get_eq_nul_iff.mpr (Nat.le_of_not_lt inside), ?_⟩
        simp [padded, List.getElem_append_right (Nat.le_of_not_lt inside)]
    have inDigits : i < (spelled str).length := by simpa using inSpelled
    rw [List.getElem_map]
    by_cases isLast : i < 12
    · have isSymbol :
          (spelled str)[i] =
            (charToSymbol (str.get i)).toNat % 32 := by
        simp [spelled, symbolsFrom, isLast]
      rw [isSymbol]
      rcases isChar with ⟨inside, isChar⟩ | ⟨isNul, isDot⟩
      · rw [← isChar]
        refine symbolToChar_charToSymbol _ (isName.every _ ?_)
        simp [CString.get, inside]
      · rw [isNul, isDot]
        decide
    · have isTwelve : i = 12 := by omega
      subst isTwelve
      have isSymbol :
          (spelled str)[12] =
            (charToSymbol (str.get 12)).toNat % 16 := by
        simp [spelled, symbolsFrom]
      rw [isSymbol]
      rcases isChar with ⟨inside, isChar⟩ | ⟨isNul, isDot⟩
      · rw [← isChar]
        refine symbolToChar_last _ (isName.thirteenth _ ?_)
        simp [CString.get, inside]
      · rw [isNul, isDot]
        decide

end Strings

/-- `name_type_exception` with its text and the values in it. -/
inductive NameTypeException where
  | longer (text : String) (name : CString)
  | notNormalized (text : String) (name normalized : CString)
  deriving DecidableEq

/-- `name::set`, which is the new value -/
def set (str : CString) : Except NameTypeException UInt64 := do
  let len := strnlen str 14
  require (len ≤ 13)
    (.longer "Name is longer than 13 characters (${name}) " str)
  let value := stringToName str
  require (toString value = str)
    (.notNormalized
      "Name not properly normalized (name: ${name}, normalized: ${normalized}) "
      str (toString value))
  return value

theorem set_eq_ok_iff {str : CString} {value : UInt64} :
    set str = .ok value ↔
      str.chars.length ≤ 13 ∧ stringToName str = value ∧
        toString value = str := by
  have lengths : strnlen str 14 ≤ 13 ↔ str.chars.length ≤ 13 := by
    rw [strnlen]
    omega
  simp only [set, bind_eq_ok, require_eq_ok, lengths, pure, Except.pure,
    Except.ok.injEq]
  constructor
  · rintro ⟨_, short, _, comesBack, rfl⟩
    exact ⟨short, rfl, comesBack⟩
  · rintro ⟨short, rfl, comesBack⟩
    exact ⟨⟨⟩, short, ⟨⟩, comesBack, rfl⟩

theorem stringToName_toString (value : UInt64) :
    stringToName (toString value) = value := by
  have chars :
      (spelled (toString value)).map symbolToChar =
        (symbols value).map symbolToChar := by
    rw [map_spelled (isName_toString value), padded_toString]
  have sameSymbols : spelled (toString value) = symbols value :=
    map_symbolToChar_inj (areDigits_spelled _) (areDigits_symbols value) chars
  refine UInt64.toNat_inj.mp ?_
  rw [toNat_stringToName, sameSymbols, ofDigits_symbols]

theorem toString_stringToName {str : CString} (isName : IsName str.chars) :
    toString (stringToName str) = str := by
  have chars : nameChars (stringToName str) = str.chars := by
    rw [nameChars, writeSymbols_all, symbols_stringToName, map_spelled isName,
      trimDots_padded isName.last]
  cases str
  simpa only [toString, CString.mk.injEq] using chars

/-- Names are in the order of their strings with dots behind them. -/
theorem lt_iff_padded_lt (value other : UInt64) :
    value < other ↔
      padded (toString value).chars < padded (toString other).chars := by
  rw [padded_toString, padded_toString,
    map_symbolToChar_lt_iff (areDigits_symbols value)
      (areDigits_symbols other),
    ← ofDigits_lt_iff (areDigits_symbols value) (areDigits_symbols other),
    ofDigits_symbols, ofDigits_symbols, UInt64.lt_iff_toNat_lt]

/-- Each value is the value of its string, the names are the strings that are
taken, and names are in the order of their strings with dots behind them. -/
theorem name_codec :
    (∀ value, set (toString value) = .ok value) ∧
      (∀ str, (∃ value, set str = .ok value) ↔ IsName str.chars) ∧
      ∀ value other : UInt64,
        value < other ↔
          padded (toString value).chars < padded (toString other).chars := by
  refine ⟨fun value => ?_, fun str => ⟨?_, fun isName => ?_⟩, ?_⟩
  · exact set_eq_ok_iff.mpr
      ⟨(isName_toString value).length, stringToName_toString value, rfl⟩
  · rintro ⟨value, taken⟩
    obtain ⟨_, _, comesBack⟩ := set_eq_ok_iff.mp taken
    rw [← comesBack]
    exact isName_toString value
  · exact ⟨stringToName str, set_eq_ok_iff.mpr
      ⟨isName.length, rfl, toString_stringToName isName⟩⟩
  · exact lt_iff_padded_lt

end GxbCore.Abi.Name
