import Mathlib.Data.Prod.Lex
import GxbCore.Ledger.Amounts
import GxbCore.Lib.Exchange

/-!
# The algebra of prices

Prices are compared by their assets first, and prices between the same assets by
products across, in 128 bits without a sign.  An amount is exchanged at a price
in either direction: the asset of the base into that of the quote, or back.

With positive amounts of 64 bits nothing wraps, and what is computed is what the
fractions say.
-/

namespace GxbCore.Ledger

section Operators

/-- The products that two prices are compared by. -/
def Price.amult (a b : Price) : Int :=
  uint128 (uint128 b.quote.amount * a.base.amount)

def Price.bmult (a b : Price) : Int :=
  uint128 (uint128 a.quote.amount * b.base.amount)

/-- `a == b` -/
def Price.eq (a b : Price) : Bool :=
  if (a.base.assetId, a.quote.assetId) ≠ (b.base.assetId, b.quote.assetId) then
    false
  else
    amult a b == bmult a b

/-- `a < b` -/
def Price.lt (a b : Price) : Bool :=
  if a.base.assetId < b.base.assetId then
    true
  else if a.base.assetId > b.base.assetId then
    false
  else if a.quote.assetId < b.quote.assetId then
    true
  else if a.quote.assetId > b.quote.assetId then
    false
  else
    decide (amult a b < bmult a b)

/-- `a <= b` -/
def Price.le (a b : Price) : Bool :=
  a.eq b || a.lt b

/-- `a != b` -/
def Price.ne (a b : Price) : Bool :=
  !a.eq b

/-- `a > b` -/
def Price.gt (a b : Price) : Bool :=
  !a.le b

/-- `a >= b` -/
def Price.ge (a b : Price) : Bool :=
  !a.lt b

end Operators

section Amounts

/-- An amount that is not negative, in 64 bits. -/
structure Asset.Proper (a : Asset) : Prop where
  nonneg : 0 ≤ a.amount
  fits : a.amount < 2 ^ 63

/-- A price between amounts that are not negative. -/
structure Price.Proper (p : Price) : Prop where
  base : p.base.Proper
  quote : p.quote.Proper

/-- A price between positive amounts of at most the largest supply. -/
structure Price.InRange (p : Price) : Prop where
  base_pos : 0 < p.base.amount
  base_le : p.base.amount ≤ GRAPHENE_MAX_SHARE_SUPPLY
  quote_pos : 0 < p.quote.amount
  quote_le : p.quote.amount ≤ GRAPHENE_MAX_SHARE_SUPPLY

theorem Price.InRange.proper {p : Price} (inRange : p.InRange) : p.Proper := by
  obtain ⟨basePos, baseLe, quotePos, quoteLe⟩ := inRange
  unfold GRAPHENE_MAX_SHARE_SUPPLY at baseLe quoteLe
  exact ⟨⟨by omega, by omega⟩, ⟨by omega, by omega⟩⟩

theorem uint128_mul {left right : Int}
    (leftNonneg : 0 ≤ left) (leftFits : left < 2 ^ 63)
    (rightNonneg : 0 ≤ right) (rightFits : right < 2 ^ 63) :
    uint128 (uint128 left * right) = left * right := by
  have low : 0 ≤ left * right := Int.mul_nonneg leftNonneg rightNonneg
  have high : left * right ≤ 2 ^ 63 * 2 ^ 63 :=
    Int.mul_le_mul (Int.le_of_lt leftFits) (Int.le_of_lt rightFits)
      rightNonneg (by decide)
  have same : uint128 left = left :=
    Int.emod_eq_of_lt leftNonneg (by omega)
  rw [same, uint128]
  exact Int.emod_eq_of_lt low (by omega)

/-- An exchange returns the portion at the rate of the other side to this one,
as long as that is not more than the largest supply. -/
theorem times_eq_ok {a result : Asset} {p : Price}
    (amount : a.Proper) (price : p.Proper) :
    a.times p = .ok result ↔
      (a.assetId = p.base.assetId ∧ 0 < p.base.amount ∧
        portion a.amount p.quote.amount p.base.amount ≤
          GRAPHENE_MAX_SHARE_SUPPLY ∧
        ⟨portion a.amount p.quote.amount p.base.amount, p.quote.assetId⟩ =
          result) ∨
      (a.assetId ≠ p.base.assetId ∧ a.assetId = p.quote.assetId ∧
        0 < p.quote.amount ∧
        portion a.amount p.base.amount p.quote.amount ≤
          GRAPHENE_MAX_SHARE_SUPPLY ∧
        ⟨portion a.amount p.base.amount p.quote.amount, p.base.assetId⟩ =
          result) := by
  have forth :=
    uint128_mul amount.nonneg amount.fits price.quote.nonneg price.quote.fits
  have back :=
    uint128_mul amount.nonneg amount.fits price.base.nonneg price.base.fits
  unfold Asset.times
  by_cases isBase : a.assetId = p.base.assetId
  · simp only [isBase, if_true, forth, bind_eq_ok, fcAssert_eq_ok]
    simp [portion, pure, Except.pure]
  · by_cases isQuote : a.assetId = p.quote.assetId
    · have other : p.quote.assetId ≠ p.base.assetId := isQuote ▸ isBase
      simp only [isQuote, other, if_true, if_false, back, bind_eq_ok,
        fcAssert_eq_ok]
      simp [portion, pure, Except.pure, other]
    · simp [isBase, isQuote]

/-- What is returned by an exchange can be exchanged again. -/
theorem Asset.Proper.times {a result : Asset} {p : Price}
    (returns : a.times p = .ok result) : result.Proper := by
  refine ⟨times_nonneg returns, ?_⟩
  have atMost : result.amount ≤ GRAPHENE_MAX_SHARE_SUPPLY := by
    unfold Asset.times at returns
    split at returns
    · obtain ⟨_, _, returns⟩ := bind_eq_ok.mp returns
      obtain ⟨_, checked, returns⟩ := bind_eq_ok.mp returns
      cases returns
      exact fcAssert_eq_ok.mp checked
    · split at returns
      · obtain ⟨_, _, returns⟩ := bind_eq_ok.mp returns
        obtain ⟨_, checked, returns⟩ := bind_eq_ok.mp returns
        cases returns
        exact fcAssert_eq_ok.mp checked
      · cases returns
  unfold GRAPHENE_MAX_SHARE_SUPPLY at atMost
  omega

end Amounts

section Order

variable {a b p : Price}

def Price.fraction (p : Price) : ℚ :=
  p.base.amount / p.quote.amount

/-- What prices are ordered by: their assets, then their fractions. -/
def Price.key (p : Price) : AssetId ×ₗ AssetId ×ₗ ℚ :=
  toLex (p.base.assetId, toLex (p.quote.assetId, p.fraction))

theorem Price.amult_eq (aRange : a.InRange) (bRange : b.InRange) :
    amult a b = a.base.amount * b.quote.amount := by
  have aProper := aRange.proper.base
  have bProper := bRange.proper.quote
  rw [amult, uint128_mul bProper.nonneg bProper.fits aProper.nonneg
    aProper.fits, Int.mul_comm]

theorem Price.bmult_eq (aRange : a.InRange) (bRange : b.InRange) :
    bmult a b = b.base.amount * a.quote.amount := by
  have aProper := aRange.proper.quote
  have bProper := bRange.proper.base
  rw [bmult, uint128_mul aProper.nonneg aProper.fits bProper.nonneg
    bProper.fits, Int.mul_comm]

/-- `==` compares the keys. -/
theorem Price.eq_iff (aRange : a.InRange) (bRange : b.InRange) :
    a.eq b = true ↔ a.key = b.key := by
  have across : a.fraction = b.fraction ↔ amult a b = bmult a b := by
    rw [amult_eq aRange bRange, bmult_eq aRange bRange]
    exact fraction_eq_iff aRange.quote_pos bRange.quote_pos
  simp only [Price.eq, key, toLex_inj, Prod.mk.injEq, across, ne_eq, ite_not]
  by_cases sameAssets :
      a.base.assetId = b.base.assetId ∧ a.quote.assetId = b.quote.assetId
  · simp [sameAssets]
  · simp only [sameAssets, if_false, Bool.false_eq_true, false_iff]
    intro same
    exact sameAssets ⟨same.1, same.2.1⟩

/-- `<` compares the keys. -/
theorem Price.lt_iff (aRange : a.InRange) (bRange : b.InRange) :
    a.lt b = true ↔ a.key < b.key := by
  have across : a.fraction < b.fraction ↔ amult a b < bmult a b := by
    rw [amult_eq aRange bRange, bmult_eq aRange bRange]
    exact fraction_lt_iff aRange.quote_pos bRange.quote_pos
  simp only [key, Prod.Lex.toLex_lt_toLex, across, Price.lt]
  rcases Nat.lt_trichotomy a.base.assetId b.base.assetId with less | same | more
  · simp [less]
  · rcases Nat.lt_trichotomy a.quote.assetId b.quote.assetId with
      less | sameQuote | more
    · simp [same, less]
    · simp [same, sameQuote]
    · simp [same, more, Nat.lt_asymm more, Nat.ne_of_gt more]
  · simp [more, Nat.lt_asymm more, Nat.ne_of_gt more]

/-- The operators say how the keys compare, and between the same two assets how
the fractions do. -/
structure Price.Ordered (a b : Price) : Prop where
  eq : a.eq b = true ↔ a.key = b.key
  lt : a.lt b = true ↔ a.key < b.key
  le : a.le b = true ↔ a.key ≤ b.key
  ne : a.ne b = true ↔ a.key ≠ b.key
  gt : a.gt b = true ↔ b.key < a.key
  ge : a.ge b = true ↔ b.key ≤ a.key
  fractions :
    a.base.assetId = b.base.assetId → a.quote.assetId = b.quote.assetId →
      (a.eq b = true ↔ a.fraction = b.fraction) ∧
      (a.lt b = true ↔ a.fraction < b.fraction)

theorem Price.ordered (aRange : a.InRange) (bRange : b.InRange) :
    Price.Ordered a b := by
  have same := eq_iff aRange bRange
  have less := lt_iff aRange bRange
  have atMost : a.le b = true ↔ a.key ≤ b.key := by
    rw [Price.le, Bool.or_eq_true, same, less, or_comm, ← le_iff_lt_or_eq]
  refine ⟨same, less, atMost, ?_, ?_, ?_, ?_⟩
  · rw [Price.ne, Bool.not_eq_true', ← Bool.not_eq_true, same]
  · rw [Price.gt, Bool.not_eq_true', ← Bool.not_eq_true, atMost, not_le]
  · rw [Price.ge, Bool.not_eq_true', ← Bool.not_eq_true, less, not_lt]
  · intro sameBase sameQuote
    rw [same, less, key, key, sameBase, sameQuote]
    simp [Prod.Lex.toLex_lt_toLex]

end Order

section Exchanges

variable {a : Asset} {p : Price}

/-- What an exchange gives: the exact product, rounded down, with more for a
larger amount, and back at most the amount. -/
structure Price.Exchanges (p : Price) (a : Asset) : Prop where
  floor :
    ∀ result, a.times p = .ok result →
      (a.assetId = p.base.assetId →
        result =
          ⟨⌊(a.amount : ℚ) * (p.quote.amount / p.base.amount)⌋,
            p.quote.assetId⟩) ∧
      (a.assetId ≠ p.base.assetId →
        result =
          ⟨⌊(a.amount : ℚ) * (p.base.amount / p.quote.amount)⌋,
            p.base.assetId⟩)
  monotone :
    ∀ (more : Asset) result, more.assetId = a.assetId →
      a.amount ≤ more.amount → more.amount < 2 ^ 63 →
      more.times p = .ok result →
        ∃ less, a.times p = .ok less ∧ less.assetId = result.assetId ∧
          less.amount ≤ result.amount
  back :
    p.base.assetId ≠ p.quote.assetId →
      ∀ forth back, a.times p = .ok forth → forth.times p = .ok back →
        back.assetId = a.assetId ∧ back.amount ≤ a.amount

theorem Price.InRange.floor (inRange : p.InRange) (amount : a.Proper)
    {result : Asset} (returns : a.times p = .ok result) :
    (a.assetId = p.base.assetId →
      result =
        ⟨⌊(a.amount : ℚ) * (p.quote.amount / p.base.amount)⌋,
          p.quote.assetId⟩) ∧
    (a.assetId ≠ p.base.assetId →
      result =
        ⟨⌊(a.amount : ℚ) * (p.base.amount / p.quote.amount)⌋,
          p.base.assetId⟩) := by
  rcases (times_eq_ok amount inRange.proper).mp returns with
    ⟨isBase, _, _, same⟩ | ⟨notBase, _, _, _, same⟩
  · rw [← same, portion_eq_floor inRange.base_pos]
    exact ⟨fun _ => rfl, fun other => absurd isBase other⟩
  · rw [← same, portion_eq_floor inRange.quote_pos]
    exact ⟨fun isBase => absurd isBase notBase, fun _ => rfl⟩

theorem Price.InRange.monotone
    (inRange : p.InRange) (amount : a.Proper) {more result : Asset}
    (sameAsset : more.assetId = a.assetId) (le : a.amount ≤ more.amount)
    (fits : more.amount < 2 ^ 63) (returns : more.times p = .ok result) :
    ∃ less, a.times p = .ok less ∧ less.assetId = result.assetId ∧
      less.amount ≤ result.amount := by
  have moreProper : more.Proper := ⟨amount.nonneg.trans le, fits⟩
  have proper := inRange.proper
  rcases (times_eq_ok moreProper proper).mp returns with
    ⟨isBase, positive, atMost, same⟩ |
      ⟨notBase, isQuote, positive, atMost, same⟩
  · have below := portion_mono proper.quote.nonneg positive le
    refine ⟨_, (times_eq_ok amount proper).mpr
      (.inl ⟨sameAsset ▸ isBase, positive, below.trans atMost, rfl⟩), ?_⟩
    rw [← same]
    exact ⟨rfl, below⟩
  · have below := portion_mono proper.base.nonneg positive le
    refine ⟨_, (times_eq_ok amount proper).mpr
      (.inr ⟨sameAsset ▸ notBase, sameAsset ▸ isQuote, positive,
        below.trans atMost, rfl⟩), ?_⟩
    rw [← same]
    exact ⟨rfl, below⟩

theorem Price.InRange.back (inRange : p.InRange) (amount : a.Proper)
    (apart : p.base.assetId ≠ p.quote.assetId) {forth back : Asset}
    (returns : a.times p = .ok forth) (again : forth.times p = .ok back) :
    back.assetId = a.assetId ∧ back.amount ≤ a.amount := by
  have again := (times_eq_ok (Asset.Proper.times returns) inRange.proper).mp again
  rcases (times_eq_ok amount inRange.proper).mp returns with
    ⟨isBase, _, _, rfl⟩ | ⟨_, isQuote, _, _, rfl⟩
  · rcases again with ⟨wrong, _⟩ | ⟨_, _, _, _, rfl⟩
    · exact absurd wrong.symm apart
    · exact ⟨isBase.symm, portion_back_le inRange.quote_pos inRange.base_pos⟩
  · rcases again with ⟨_, _, _, rfl⟩ | ⟨wrong, _⟩
    · exact ⟨isQuote.symm, portion_back_le inRange.base_pos inRange.quote_pos⟩
    · exact absurd rfl wrong

/-- Prices between positive amounts are totally ordered by their assets and
their fractions; at such a price an amount is exchanged into the exact product,
rounded down, more for more, and between two different assets back into at most
the amount. -/
theorem price_algebra
    {b : Price} (pRange : p.InRange) (bRange : b.InRange) (amount : a.Proper) :
    Price.Ordered p b ∧ p.Exchanges a :=
  ⟨Price.ordered pRange bRange,
    ⟨fun _ => pRange.floor amount,
      fun _ _ => pRange.monotone amount,
      fun apart _ _ => pRange.back amount apart⟩⟩

theorem price_algebra_thirds :
    Price.Ordered ⟨⟨1, 0⟩, ⟨3, 1⟩⟩ ⟨⟨2, 0⟩, ⟨6, 1⟩⟩ ∧
      Price.Exchanges ⟨⟨1, 0⟩, ⟨3, 1⟩⟩ ⟨10, 1⟩ :=
  price_algebra ⟨by decide, by decide, by decide, by decide⟩
    ⟨by decide, by decide, by decide, by decide⟩ ⟨by decide, by decide⟩

/-- At a price within one asset an amount grows both ways. -/
theorem price_within_asset_grows :
    ¬ ∀ (p : Price) (a forth back : Asset), p.InRange → a.Proper →
      a.times p = .ok forth → forth.times p = .ok back →
        back.amount ≤ a.amount := by
  intro back
  have grown :=
    back ⟨⟨1, 0⟩, ⟨2, 0⟩⟩ ⟨1, 0⟩ ⟨2, 0⟩ ⟨4, 0⟩
      ⟨by decide, by decide, by decide, by decide⟩ ⟨by decide, by decide⟩
      (by decide) (by decide)
  exact absurd grown (by decide)

end Exchanges

end GxbCore.Ledger
