import Mathlib.Algebra.BigOperators.Group.List.Basic
import Mathlib.Data.List.Forall2

/-!
# Numbers in mixed radices

A number is a list of digits, the most significant first, each below the radix
of its place.
-/

namespace GxbCore.MixedRadix

def ofDigits : List Nat → List Nat → Nat
  | _ :: radices, digit :: digits =>
      digit * radices.prod + ofDigits radices digits
  | _, _ => 0

/-- The digits of a number, of which as much is read as the places hold. -/
def toDigits : List Nat → Nat → List Nat
  | [], _ => []
  | radix :: radices, n => n / radices.prod % radix :: toDigits radices n

/-- Every digit is below its radix. -/
def AreDigits (radices digits : List Nat) : Prop :=
  List.Forall₂ (fun radix digit => digit < radix) radices digits

section Digits

variable {radices digits others : List Nat} {n radix digit : Nat}

@[simp]
theorem length_toDigits (radices : List Nat) (n : Nat) :
    (toDigits radices n).length = radices.length := by
  induction radices with
  | nil => rfl
  | cons radix radices ih =>
      simp [toDigits, ih]

theorem areDigits_toDigits (positive : ∀ radix ∈ radices, 0 < radix) (n : Nat) :
    AreDigits radices (toDigits radices n) := by
  induction radices with
  | nil => exact .nil
  | cons radix radices ih =>
      exact .cons (Nat.mod_lt _ (positive radix List.mem_cons_self))
        (ih fun other member =>
          positive other (List.mem_cons_of_mem _ member))

theorem ofDigits_lt (areDigits : AreDigits radices digits) :
    ofDigits radices digits < radices.prod := by
  induction areDigits with
  | nil => simp [ofDigits]
  | @cons radix digit radices digits small _ ih =>
      calc digit * radices.prod + ofDigits radices digits
          < digit * radices.prod + radices.prod :=
            Nat.add_lt_add_left ih _
        _ = (digit + 1) * radices.prod := by rw [Nat.succ_mul]
        _ ≤ radix * radices.prod := Nat.mul_le_mul_right _ small
        _ = (radix :: radices).prod := (List.prod_cons).symm

theorem toDigits_mod (radices : List Nat) (n : Nat) :
    toDigits radices (n % radices.prod) = toDigits radices n := by
  induction radices generalizing n with
  | nil => rfl
  | cons radix radices ih =>
      have inner :
          toDigits radices (n % (radix :: radices).prod) =
            toDigits radices n := by
        rw [← ih (n % (radix :: radices).prod),
          ← ih n, List.prod_cons, Nat.mod_mul_left_mod]
      rw [toDigits, toDigits, inner, List.prod_cons, Nat.mul_comm,
        Nat.mod_mul_right_div_self, Nat.mod_mod]

/-- The digits are those of the number. -/
theorem toDigits_ofDigits (areDigits : AreDigits radices digits) :
    toDigits radices (ofDigits radices digits) = digits := by
  induction areDigits with
  | nil => rfl
  | @cons radix digit radices digits small rest ih =>
      have below := ofDigits_lt rest
      have positive : 0 < radices.prod := Nat.zero_lt_of_lt below
      have high :
          (digit * radices.prod + ofDigits radices digits) / radices.prod =
            digit := by
        rw [Nat.mul_comm, Nat.mul_add_div positive,
          Nat.div_eq_of_lt below, Nat.add_zero]
      have low :
          (digit * radices.prod + ofDigits radices digits) % radices.prod =
            ofDigits radices digits := by
        rw [Nat.mul_comm, Nat.mul_add_mod, Nat.mod_eq_of_lt below]
      rw [ofDigits, toDigits, high, Nat.mod_eq_of_lt small,
        ← toDigits_mod radices, low, ih]

/-- The number is that of the digits, as far as the places hold it. -/
theorem ofDigits_toDigits (radices : List Nat) (n : Nat) :
    ofDigits radices (toDigits radices n) = n % radices.prod := by
  induction radices with
  | nil => simp [ofDigits, Nat.mod_one]
  | cons radix radices ih =>
      rw [toDigits, ofDigits, ih, List.prod_cons,
        Nat.mul_comm radix, Nat.mod_mul, Nat.add_comm,
        Nat.mul_comm radices.prod]

/-- The last digit is the least. -/
theorem toDigits_concat (radices : List Nat) (radix n : Nat) :
    toDigits (radices ++ [radix]) n =
      toDigits radices (n / radix) ++ [n % radix] := by
  induction radices with
  | nil => simp [toDigits]
  | cons first radices ih =>
      rw [List.cons_append, toDigits, ih, toDigits,
        List.prod_append, List.prod_singleton, List.cons_append,
        Nat.mul_comm, Nat.div_div_eq_div_mul]

theorem ofDigits_concat (same : radices.length = digits.length) :
    ofDigits (radices ++ [radix]) (digits ++ [digit]) =
      ofDigits radices digits * radix + digit := by
  induction radices generalizing digits with
  | nil =>
      rw [List.length_nil] at same
      rw [List.length_eq_zero_iff.mp same.symm]
      simp [ofDigits]
  | cons first radices ih =>
      cases digits with
      | nil => cases same
      | cons high digits =>
          simp only [List.length_cons, Nat.succ.injEq] at same
          simp only [List.cons_append, ofDigits, ih same,
            List.prod_append, List.prod_singleton]
          rw [Nat.add_mul, Nat.mul_assoc, Nat.add_assoc]

/-- Numbers are in the order of their digits. -/
theorem ofDigits_lt_iff (areDigits : AreDigits radices digits)
    (otherDigits : AreDigits radices others) :
    ofDigits radices digits < ofDigits radices others ↔ digits < others := by
  induction areDigits generalizing others with
  | nil =>
      cases otherDigits
      simp [ofDigits]
  | @cons radix digit radices digits small rest ih =>
      cases otherDigits with
      | @cons _ other _ laters smallOther restOther =>
          have below := ofDigits_lt rest
          have belowOther := ofDigits_lt restOther
          rw [List.cons_lt_cons_iff, ← ih restOther, ofDigits,
            ofDigits]
          rcases Nat.lt_trichotomy digit other with less | same | more
          · have step : (digit + 1) * radices.prod ≤ other * radices.prod :=
              Nat.mul_le_mul_right _ less
            rw [Nat.succ_mul] at step
            constructor
            · exact fun _ => .inl less
            · exact fun _ => by omega
          · simp [same]
          · have step : (other + 1) * radices.prod ≤ digit * radices.prod :=
              Nat.mul_le_mul_right _ more
            rw [Nat.succ_mul] at step
            constructor
            · intro lower
              omega
            · rintro (less | ⟨same, _⟩)
              · omega
              · omega

end Digits

/-- An order is kept entry by entry. -/
theorem map_lt_map_iff {α β : Type} [LT α] [LT β] {f : α → β}
    {left right : List α} (sameLength : left.length = right.length)
    (keeps :
      ∀ x ∈ left, ∀ y ∈ right, (f x < f y ↔ x < y) ∧ (f x = f y ↔ x = y)) :
    left.map f < right.map f ↔ left < right := by
  induction left generalizing right with
  | nil =>
      rw [List.length_nil] at sameLength
      rw [List.length_eq_zero_iff.mp sameLength.symm]
      simp
  | cons x left ih =>
      cases right with
      | nil => cases sameLength
      | cons y right =>
          obtain ⟨keepsLess, keepsSame⟩ :=
            keeps x List.mem_cons_self y List.mem_cons_self
          rw [List.map_cons, List.map_cons, List.cons_lt_cons_iff,
            List.cons_lt_cons_iff, keepsLess, keepsSame,
            ih (by simpa using sameLength)
              fun z isLeft w isRight =>
                keeps z (List.mem_cons_of_mem _ isLeft) w
                  (List.mem_cons_of_mem _ isRight)]

end GxbCore.MixedRadix
