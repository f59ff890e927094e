import GxbCore.Ledger.QuotedFees

/-!
# Setting a fee

The fee that an operation needs depends on its size, and its size on the fee
that it carries.  `set_fee` therefore quotes and writes in turn, a few times at
most, and keeps the largest quote.

A fee is packed as an amount of eight bytes and the number of its asset.  All
quotes at one rate are in the same asset, so from the first fee that is written
on the size stays the same, and the second quote is the last one that matters.
-/

namespace GxbCore.Ledger

section Setting

def MAX_FEE_STABILIZATION_ITERATION : Nat :=
  4

/-- An operation of any kind, with the fee it carries. -/
structure FeedOperation (Body : Type) where
  fee : Asset
  body : Body
  deriving DecidableEq, Repr

variable {Body : Type}

/-- `set_fee_visitor` -/
def FeedOperation.withFee (op : FeedOperation Body) (fee : Asset) :
    FeedOperation Body :=
  { op with fee := fee }

/-- `std::max` on assets, which throws on two different ones. -/
def Asset.larger (a b : Asset) : Except Fault Asset := do
  let less ← a.lt b
  return if less then b else a

/-- The loop of `set_fee`: the last quote `f` and the largest one so far. -/
def FeeSchedule.stabilize (schedule : FeeSchedule (FeedOperation Body))
    (coreExchangeRate : Price) (coreAssetId : AssetId) :
    Nat → FeedOperation Body → Asset → Asset →
      Except Fault (Asset × FeedOperation Body)
  | 0, op, _, fMax => .ok (fMax, op)
  | rounds + 1, op, f, fMax => do
      let op := op.withFee fMax
      let f2 ← schedule.calculateFee op coreExchangeRate coreAssetId
      if f = f2 then
        return (fMax, op)
      else
        let fMax ← fMax.larger f2
        schedule.stabilize coreExchangeRate coreAssetId rounds op f2 fMax

/-- `fee_schedule::set_fee`: what it returns, and the operation as it leaves
it. -/
def FeeSchedule.setFee (schedule : FeeSchedule (FeedOperation Body))
    (op : FeedOperation Body) (coreExchangeRate : Price)
    (coreAssetId : AssetId) : Except Fault (Asset × FeedOperation Body) := do
  let f ← schedule.calculateFee op coreExchangeRate coreAssetId
  schedule.stabilize coreExchangeRate coreAssetId
    MAX_FEE_STABILIZATION_ITERATION op f f

/-- The fee that an operation needs depends on the fee it carries only by the
size of that. -/
def FeeSchedule.BySize (schedule : FeeSchedule (FeedOperation Body))
    (packSize : Asset → Nat) : Prop :=
  ∀ (op : FeedOperation Body) (fee other : Asset),
    packSize fee = packSize other →
      schedule.baseValue (op.withFee fee) =
        schedule.baseValue (op.withFee other)

/-- An amount is packed in as many bytes whatever it is. -/
def FixedWidth (packSize : Asset → Nat) : Prop :=
  ∀ fee other : Asset, fee.assetId = other.assetId →
    packSize fee = packSize other

end Setting

section Quotes

variable {Body : Type} {schedule : FeeSchedule (FeedOperation Body)}
  {op after : FeedOperation Body} {rate : Price} {core : AssetId}
  {fee f fMax : Asset}

theorem times_assetId {a result : Asset} {rate : Price}
    (returns : a.times rate = .ok result) :
    result.assetId = feeAsset rate a.assetId := by
  unfold Asset.times at returns
  rw [feeAsset]
  by_cases isBase : a.assetId = rate.base.assetId
  · rw [if_pos isBase.symm]
    rw [if_pos isBase] at returns
    simp only [bind_eq_ok] at returns
    obtain ⟨_, _, _, _, returns⟩ := returns
    cases returns
    rfl
  · rw [if_neg (fun same => isBase same.symm)]
    rw [if_neg isBase] at returns
    split at returns
    · simp only [bind_eq_ok] at returns
      obtain ⟨_, _, _, _, returns⟩ := returns
      cases returns
      rfl
    · cases returns

theorem calculateFee_assetId {Op : Type} {schedule : FeeSchedule Op} {op : Op}
    (quoted : schedule.calculateFee op rate core = .ok fee) :
    fee.assetId = feeAsset (exchangeRate rate core) core := by
  obtain ⟨_, rounded, exchanged, raised, _⟩ := calculateFee_eq_ok.mp quoted
  rw [(raiseFee_eq_ok raised).1]
  exact times_assetId exchanged

theorem calculateFee_congr {Op : Type} {schedule : FeeSchedule Op}
    {op other : Op} (same : schedule.baseValue op = schedule.baseValue other) :
    schedule.calculateFee op rate core =
      schedule.calculateFee other rate core := by
  have scaled : schedule.scaled op = schedule.scaled other := by
    rw [FeeSchedule.scaled, FeeSchedule.scaled, same]
  rw [FeeSchedule.calculateFee, FeeSchedule.calculateFee, scaled]

/-- The larger of two amounts of one asset is one of them, and not less than
either. -/
theorem larger_eq_ok {a b : Asset} (sameAsset : a.assetId = b.assetId) :
    ∃ most, a.larger b = .ok most ∧ (most = a ∨ most = b) ∧
      a.amount ≤ most.amount ∧ b.amount ≤ most.amount := by
  by_cases less : a.amount < b.amount
  · refine ⟨b, ?_, .inr rfl, Int.le_of_lt less, Int.le_refl _⟩
    simp [Asset.larger, Asset.lt, fcAssert, require, sameAsset, less, bind,
      Except.bind, pure, Except.pure]
  · refine ⟨a, ?_, .inl rfl, Int.le_refl _, Int.not_lt.mp less⟩
    simp [Asset.larger, Asset.lt, fcAssert, require, sameAsset, less, bind,
      Except.bind, pure, Except.pure]

section Rounds

variable {rounds : Nat} {f2 most : Asset}

theorem stabilize_stops
    (again : schedule.calculateFee (op.withFee fMax) rate core = .ok f) :
    schedule.stabilize rate core (rounds + 1) op f fMax =
      .ok (fMax, op.withFee fMax) := by
  rw [FeeSchedule.stabilize, again]
  exact if_pos rfl

/-- Another quote is remembered, if it is larger, and written. -/
theorem stabilize_goes_on
    (again : schedule.calculateFee (op.withFee fMax) rate core = .ok f2)
    (differs : f ≠ f2) (isMost : fMax.larger f2 = .ok most) :
    schedule.stabilize rate core (rounds + 1) op f fMax =
      schedule.stabilize rate core rounds (op.withFee fMax) f2 most := by
  rw [FeeSchedule.stabilize, again]
  refine (if_neg differs).trans ?_
  rw [isMost]
  rfl

end Rounds

/-- Whatever the sizes are, the loop returns at least what the operation that it
leaves needs. -/
theorem stabilize_covers {rounds : Nat}
    (quoted : schedule.calculateFee op rate core = .ok f)
    (sameAsset : fMax.assetId = f.assetId) (atMost : f.amount ≤ fMax.amount)
    (returns : schedule.stabilize rate core rounds op f fMax =
      .ok (fee, after)) :
    after.body = op.body ∧
      ∃ quote, schedule.calculateFee after rate core = .ok quote ∧
        quote.assetId = fee.assetId ∧ quote.amount ≤ fee.amount := by
  induction rounds generalizing op f fMax with
  | zero =>
      cases returns
      exact ⟨rfl, f, quoted, sameAsset.symm, atMost⟩
  | succ rounds ih =>
      have unfolded := returns
      rw [FeeSchedule.stabilize] at unfolded
      obtain ⟨f2, again, _⟩ := bind_eq_ok.mp unfolded
      by_cases same : f = f2
      · rw [← same] at again
        rw [stabilize_stops again] at returns
        cases returns
        exact ⟨rfl, f, again, sameAsset.symm, atMost⟩
      · have assets : fMax.assetId = f2.assetId := by
          rw [sameAsset, calculateFee_assetId quoted,
            calculateFee_assetId again]
        obtain ⟨most, isMost, either, _, low⟩ := larger_eq_ok assets
        rw [stabilize_goes_on again same isMost] at returns
        have sameMost : most.assetId = f2.assetId := by
          rcases either with rfl | rfl
          · exact assets
          · rfl
        have later := ih again sameMost low returns
        exact later

theorem stabilize_returns
    {packSize : Asset → Nat} {rounds : Nat} {quote : Asset}
    (bySize : schedule.BySize packSize) (fixed : FixedWidth packSize)
    (quoted : schedule.calculateFee op rate core = .ok f)
    (again : schedule.calculateFee (op.withFee f) rate core = .ok quote) :
    ∃ fee,
      schedule.stabilize rate core (rounds + 2) op f f =
        .ok (fee, op.withFee fee) := by
  by_cases same : f = quote
  · rw [← same] at again
    exact ⟨f, stabilize_stops again⟩
  · have assets : f.assetId = quote.assetId := by
      rw [calculateFee_assetId quoted, calculateFee_assetId again]
    obtain ⟨most, isMost, either, _, _⟩ := larger_eq_ok assets
    have sameMost : most.assetId = f.assetId := by
      rcases either with rfl | rfl
      · rfl
      · exact assets.symm
    -- the amount does not change the size, so the quote is the same again
    have stays :
        schedule.calculateFee ((op.withFee f).withFee most) rate core =
          .ok quote := by
      rw [← again]
      exact calculateFee_congr (bySize op most f (fixed most f sameMost))
    refine ⟨most, ?_⟩
    rw [stabilize_goes_on again same isMost, stabilize_stops stays]
    rfl

/-- When the fee of an operation can be calculated, as it is and with the fee
that is set first, then `set_fee` returns the fee that the operation has then,
and this is at least the fee that is calculated for it. -/
theorem set_fee_fixpoint {packSize : Asset → Nat} {quote : Asset}
    (bySize : schedule.BySize packSize) (fixed : FixedWidth packSize)
    (quoted : schedule.calculateFee op rate core = .ok f)
    (again : schedule.calculateFee (op.withFee f) rate core = .ok quote) :
    ∃ fee after,
      schedule.setFee op rate core = .ok (fee, after) ∧
        after = op.withFee fee ∧
        ∃ needed, schedule.calculateFee after rate core = .ok needed ∧
          needed.assetId = fee.assetId ∧ needed.amount ≤ fee.amount := by
  obtain ⟨fee, stabilized⟩ :=
    @stabilize_returns _ _ _ _ _ _ _ 2 _ bySize fixed quoted again
  obtain ⟨_, covers⟩ :=
    stabilize_covers quoted rfl (Int.le_refl _) stabilized
  refine ⟨fee, op.withFee fee, ?_, rfl, covers⟩
  exact bind_eq_ok.mpr ⟨f, quoted, stabilized⟩

end Quotes

section Sample

/-- Bytes of a fee: eight for the amount, and one for each seven bits of the
number of the asset. -/
def packedFeeSize (fee : Asset) : Nat :=
  8 + (Nat.log2 fee.assetId / 7 + 1)

def byteSchedule : FeeSchedule (FeedOperation Nat) where
  baseValue op := UInt64.ofNat (op.body + packedFeeSize op.fee)
  scale := 10000

/-- An operation of a hundred bytes that carries a fee in asset 1000. -/
def farFeed : FeedOperation Nat :=
  ⟨⟨7, 1000⟩, 100⟩

/-- The fee that is set is a byte shorter than the one that was carried. -/
theorem set_fee_fixpoint_bytes :
    ∃ fee after,
      byteSchedule.setFee farFeed (unitPrice 1) 1 = .ok (fee, after) ∧
        after = farFeed.withFee fee ∧
        ∃ needed,
          byteSchedule.calculateFee after (unitPrice 1) 1 = .ok needed ∧
            needed.assetId = fee.assetId ∧ needed.amount ≤ fee.amount :=
  @set_fee_fixpoint _ byteSchedule farFeed (unitPrice 1) 1 ⟨110, 1⟩
    packedFeeSize ⟨109, 1⟩
    (fun _ _ _ same => congrArg (fun size => UInt64.ofNat (_ + size)) same)
    (fun _ _ same => congrArg (fun id => 8 + (Nat.log2 id / 7 + 1)) same)
    ((calculateFee_unit rfl).mpr ⟨by decide, by decide⟩)
    ((calculateFee_unit rfl).mpr ⟨by decide, by decide⟩)

end Sample

end GxbCore.Ledger
