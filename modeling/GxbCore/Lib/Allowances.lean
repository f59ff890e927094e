import GxbCore.Lib.Rows

/-!
# Allowances

An allowance lets somebody take up to a limit in every period.  It keeps the
start of the period of the last claim and what was claimed in it; a claim in a
later period moves the start and begins a new count.  The terms can be replaced
at any time by ones that begin later, and the count goes on.

Times are natural numbers, and a claim is a time and an amount.
-/

namespace GxbCore

/-- The terms of an allowance and its count. -/
structure Allowance where
  start : Nat
  period : Nat
  limit : Int
  claimed : Int

namespace Allowance

def claimedSince (begins : Nat) (claims : List (Nat × Int)) : Int :=
  total (fun c => if begins ≤ c.1 then c.2 else 0) claims

/-- What was claimed from a time on and before another. -/
def claimedBetween (begins ends : Nat) (claims : List (Nat × Int)) : Int :=
  total (fun c => if begins ≤ c.1 ∧ c.1 < ends then c.2 else 0) claims

/-- The whole periods that have passed since the start. -/
def passed (a : Allowance) (now : Nat) : Nat :=
  (now - a.start) / a.period

/-- What can be claimed. -/
def available (a : Allowance) (now : Nat) : Int :=
  if a.start + a.period ≤ now then a.limit
  else if a.claimed < a.limit then a.limit - a.claimed
  else 0

def claim (a : Allowance) (now : Nat) (amount : Int) : Allowance :=
  { a with
    start := a.start + a.passed now * a.period
    claimed := if a.passed now = 0 then a.claimed + amount else amount }

/-- The count covers what was claimed since the start.  The periods are counted
from `anchor`. -/
structure Covers (a : Allowance) (anchor now : Nat)
    (claims : List (Nat × Int)) : Prop where
  positive : 0 < a.period
  aligned : ∃ periods, a.start = anchor + periods * a.period
  nonneg : ∀ c ∈ claims, 0 ≤ c.2
  past : ∀ c ∈ claims, c.1 ≤ now
  before : ∀ c ∈ claims, c.1 < a.start + a.period
  covered : claimedSince (min a.start now) claims ≤ a.claimed

section Claims

variable {claims : List (Nat × Int)} {begins ends : Nat}

theorem claimedSince_cons (c : Nat × Int) :
    claimedSince begins (c :: claims) =
      (if begins ≤ c.1 then c.2 else 0) + claimedSince begins claims := by
  simp [claimedSince]

theorem claimedBetween_cons (c : Nat × Int) :
    claimedBetween begins ends (c :: claims) =
      (if begins ≤ c.1 ∧ c.1 < ends then c.2 else 0)
        + claimedBetween begins ends claims := by
  simp [claimedBetween]

/-- Less was claimed from a later time on. -/
theorem claimedSince_antitone (nonneg : ∀ c ∈ claims, 0 ≤ c.2)
    {later : Nat} (order : begins ≤ later) :
    claimedSince later claims ≤ claimedSince begins claims := by
  induction claims with
  | nil => exact Int.le_refl _
  | cons c rest ih =>
      rw [List.forall_mem_cons] at nonneg
      have fewer := ih nonneg.2
      have first := nonneg.1
      rw [claimedSince_cons, claimedSince_cons]
      split
      · next late =>
          rw [if_pos (Nat.le_trans order late)]
          omega
      · split
        · omega
        · omega

theorem claimedBetween_le_since (nonneg : ∀ c ∈ claims, 0 ≤ c.2) :
    claimedBetween begins ends claims ≤ claimedSince begins claims := by
  induction claims with
  | nil => exact Int.le_refl _
  | cons c rest ih =>
      rw [List.forall_mem_cons] at nonneg
      have fewer := ih nonneg.2
      have first := nonneg.1
      rw [claimedSince_cons, claimedBetween_cons]
      by_cases late : begins ≤ c.1
      · rw [if_pos late]
        split
        · omega
        · omega
      · rw [if_neg late, if_neg fun both => late both.1]
        omega

/-- Nothing was claimed from a time on that is after all claims. -/
theorem claimedSince_eq_zero (early : ∀ c ∈ claims, c.1 < begins) :
    claimedSince begins claims = 0 := by
  apply total_eq_zero
  intro c member
  rw [if_neg (Nat.not_le.mpr (early c member))]

end Claims

namespace Covers

variable {a : Allowance} {anchor now : Nat} {claims : List (Nat × Int)}

/-- The allowance is new. -/
theorem start {begins period : Nat} (limit : Int) (now : Nat)
    (positive : 0 < period) :
    Covers ⟨begins, period, limit, 0⟩ begins now [] where
  positive := positive
  aligned := ⟨0, by simp⟩
  nonneg := by simp
  past := by simp
  before := by simp
  covered := Int.le_refl 0

theorem wait (covers : Covers a anchor now claims) {later : Nat}
    (passes : now ≤ later) : Covers a anchor later claims :=
  { covers with
    past := fun c member => Nat.le_trans (covers.past c member) passes
    covered :=
      Int.le_trans
        (claimedSince_antitone covers.nonneg (by omega))
        covers.covered }

/-- The terms are replaced by ones that do not begin earlier than now. -/
theorem renew (covers : Covers a anchor now claims) {begins period : Nat}
    (limit : Int) (positive : 0 < period) (later : now ≤ begins) :
    Covers ⟨begins, period, limit, a.claimed⟩ begins now claims where
  positive := positive
  aligned := ⟨0, by simp⟩
  nonneg := covers.nonneg
  past := covers.past
  before c member := by
    have past := covers.past c member
    dsimp only
    omega
  covered :=
    Int.le_trans
      (claimedSince_antitone covers.nonneg (by dsimp only; omega))
      covers.covered

variable (covers : Covers a anchor now claims) (begun : a.start ≤ now)
include covers begun

/-- The current period is the one of the claim. -/
theorem claim_period (amount : Int) :
    (a.claim now amount).start ≤ now ∧
      now < (a.claim now amount).start + a.period := by
  have whole := Nat.div_add_mod (now - a.start) a.period
  have rest := Nat.mod_lt (now - a.start) covers.positive
  rw [Nat.mul_comm] at whole
  simp only [claim, passed]
  omega

/-- A claim of what is available is counted. -/
theorem claim_counted {amount : Int} (positive : 0 < amount)
    (allowed : amount ≤ a.available now) :
    claimedSince (a.claim now amount).start ((now, amount) :: claims)
        ≤ (a.claim now amount).claimed ∧
      (a.claim now amount).claimed ≤ a.limit := by
  have begins := (covers.claim_period begun amount).1
  rw [claimedSince_cons, if_pos begins]
  by_cases first : a.passed now = 0
  · have sameStart : (a.claim now amount).start = a.start := by
      simp [claim, first]
    have current : ¬ a.start + a.period ≤ now := by
      intro elapsed
      have whole : 1 ≤ a.passed now := by
        rw [passed, Nat.le_div_iff_mul_le covers.positive]
        omega
      omega
    have covered := covers.covered
    rw [Nat.min_eq_left begun] at covered
    rw [available, if_neg current] at allowed
    rw [sameStart]
    simp only [claim, first, if_true]
    split at allowed
    · omega
    · omega
  · have elapsed : a.start + a.period ≤ now := by
      have whole : 1 ≤ a.passed now := by omega
      rw [passed, Nat.le_div_iff_mul_le covers.positive] at whole
      omega
    -- Everything that was claimed before belongs to earlier periods.
    have nothing : claimedSince (a.claim now amount).start claims = 0 := by
      apply claimedSince_eq_zero
      intro c member
      have early := covers.before c member
      have further : a.period ≤ a.passed now * a.period :=
        Nat.le_mul_of_pos_left _ (by omega)
      simp only [claim]
      omega
    rw [available, if_pos elapsed] at allowed
    rw [nothing]
    simp only [claim, first, if_false]
    omega

theorem claim {amount : Int} (positive : 0 < amount)
    (allowed : amount ≤ a.available now) :
    Covers (a.claim now amount) anchor now ((now, amount) :: claims) where
  positive := covers.positive
  aligned := by
    obtain ⟨periods, isStart⟩ := covers.aligned
    refine ⟨periods + a.passed now, ?_⟩
    simp only [Allowance.claim, isStart, Nat.add_mul]
    omega
  nonneg := List.forall_mem_cons.mpr
    ⟨Int.le_of_lt positive, covers.nonneg⟩
  past := List.forall_mem_cons.mpr ⟨Nat.le_refl now, covers.past⟩
  before := by
    have period := (covers.claim_period begun amount).2
    refine List.forall_mem_cons.mpr ⟨period, ?_⟩
    intro c member
    exact Nat.lt_of_le_of_lt (covers.past c member) period
  covered := by
    rw [Nat.min_eq_left (covers.claim_period begun amount).1]
    exact (covers.claim_counted begun positive allowed).1

/-- With the claim, what was claimed in its period is within the limit. -/
theorem claim_within {amount : Int} (positive : 0 < amount)
    (allowed : amount ≤ a.available now) {number : Nat}
    (after : anchor + number * a.period ≤ now)
    (before : now < anchor + (number + 1) * a.period) :
    claimedBetween (anchor + number * a.period)
        (anchor + (number + 1) * a.period) ((now, amount) :: claims)
      ≤ a.limit := by
  have claimed := covers.claim begun positive allowed
  obtain ⟨begins, ends⟩ := covers.claim_period begun amount
  obtain ⟨periods, isStart⟩ := claimed.aligned
  have isNumber : periods = number := by
    have samePeriod : (a.claim now amount).period = a.period := rfl
    rw [samePeriod] at isStart
    rw [isStart] at begins ends
    have upper : periods < number + 1 := by
      refine Nat.lt_of_mul_lt_mul_right (a := a.period) ?_
      omega
    have lower : number < periods + 1 := by
      refine Nat.lt_of_mul_lt_mul_right (a := a.period) ?_
      rw [Nat.add_mul, Nat.one_mul]
      omega
    omega
  rw [← isNumber]
  obtain ⟨counted, limited⟩ := covers.claim_counted begun positive allowed
  refine Int.le_trans (claimedBetween_le_since claimed.nonneg) ?_
  change claimedSince (anchor + periods * (a.claim now amount).period) _ ≤ _
  rw [← isStart]
  exact Int.le_trans counted limited

end Covers

end Allowance

end GxbCore
