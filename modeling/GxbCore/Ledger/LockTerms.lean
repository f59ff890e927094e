import Mathlib.Algebra.Order.Group.Abs
import GxbCore.Lib.Deposits
import GxbCore.Ledger.HolderOps

/-!
# The term of a locked balance

`balance_lock` takes an amount from its owner, and `balance_unlock` gives it
back when the days of the lock have passed since its date.  The owner chooses
the date, up to half a minute from the head block time, and the days are counted
by unsigned subtraction: before that date the lock looks like one from long ago.

An undo takes the chain back to an earlier state together with its history, so
the runs are those of one chain.
-/

namespace GxbCore.Ledger

open Database Deposits

section Operations

variable {db after : Database} {required : Option Int}

/-- The object that `balance_lock_evaluator::do_apply` creates. -/
def BalanceLockOperation.lockBalance (o : BalanceLockOperation) (id : Nat) :
    LockBalance where
  id := id
  owner := o.account
  createDateTime := o.createDateTime
  lockDays := o.lockDays
  programId := o.programId
  amount := o.amount
  interestRate := o.interestRate.toUInt16
  memo := o.memo

/-- The date is close enough to the head block time. -/
def LockBalance.admittedAt (lock : LockBalance) (time : Nat) : Prop :=
  |int32Difference lock.createDateTime (UInt32.ofNat time)|
    ≤ LOCKED_BALANCE_EXPIRED_TIME

/-- The days of the lock have passed, as the evaluator counts them. -/
def LockBalance.releasedAt (lock : LockBalance) (time : Nat) : Prop :=
  lock.lockDays
    ≤ (UInt32.ofNat time - lock.createDateTime) / SECONDS_PER_DAY

theorem balanceLock_opens {o : BalanceLockOperation}
    (returns : (balanceLockEvaluator required o).run db = .ok after) :
    (o.lockBalance db.nextLockId).admittedAt db.headBlockTime.toNat ∧
      after.locks = db.locks ++ [o.lockBalance db.nextLockId] ∧
      after.nextLockId = db.nextLockId + 1 ∧
      after.properties = db.properties := by
  obtain ⟨_, assets, accounts, applied, evaluated, applies, charges⟩ :=
    run_applies (fun _ _ => rfl) returns
  simp only [balanceLockEvaluator, bind_eq_ok, fcAssert_eq_ok] at evaluated
  obtain ⟨_, _, _, _, _, _, _, _, _, _, _, _, _, _, _, _, _, _, close⟩ :=
    evaluated
  have frame := adjustBalance_frame applies
  have charged := adjustBalance_frame charges
  refine ⟨?_, ?_, ?_, ?_⟩
  · rw [LockBalance.admittedAt, UInt32.ofNat_toNat]
    exact close
  · rw [charged, frame]
    rfl
  · rw [charged, frame]
  · rw [charged, frame]

theorem balanceUnlock_closes {o : BalanceUnlockOperation}
    (returns : (balanceUnlockEvaluator required o).run db = .ok after) :
    ∃ lock, db.locks.find? (·.id == o.lockId) = some lock ∧
      lock.owner = o.account ∧
      lock.releasedAt db.headBlockTime.toNat ∧
      after.locks = db.locks.eraseP (·.id == o.lockId) ∧
      after.nextLockId = db.nextLockId ∧
      after.properties = db.properties ∧
      (after.getBalance lock.owner lock.amount.assetId).amount =
        (db.getBalance lock.owner lock.amount.assetId).amount
          + lock.amount.amount
          - if o.fee.assetId = lock.amount.assetId then o.fee.amount
            else 0 := by
  obtain ⟨_, assets, accounts, applied, evaluated, applies, charges⟩ :=
    run_applies (fun _ _ => rfl) returns
  simp only [balanceUnlockEvaluator, bind_eq_ok, fcAssert_eq_ok,
    orThrow_eq_ok] at evaluated applies
  obtain ⟨lock, found, _, isOwner, past⟩ := evaluated
  obtain ⟨again, foundAgain, middle, pays, removes⟩ := applies
  obtain rfl : lock = again := by
    rw [found, Option.some.injEq] at foundAgain
    exact foundAgain
  cases removes
  have paid := adjustBalance_frame pays
  have charged := adjustBalance_frame charges
  refine ⟨lock, found, isOwner, ?_, ?_, ?_, ?_, ?_⟩
  · rw [LockBalance.releasedAt, UInt32.ofNat_toNat]
    exact past
  · rw [charged, paid]
  · rw [charged, paid]
  · rw [charged, paid]
  · have fee :=
      adjustBalance_getBalance charges lock.owner lock.amount.assetId
    have amount :=
      adjustBalance_getBalance pays lock.owner lock.amount.assetId
    rw [if_pos ⟨isOwner, rfl⟩] at amount
    change (middle.getBalance _ _).amount =
      (db.getBalance _ _).amount + lock.amount.amount at amount
    change (after.getBalance _ _).amount = (middle.getBalance _ _).amount + _
      at fee
    rw [fee, amount]
    change _ + (if lock.owner = o.account ∧ _ = o.fee.assetId
      then -o.fee.amount else 0) = _
    by_cases same : o.fee.assetId = lock.amount.assetId
    · rw [if_pos ⟨isOwner, same.symm⟩, if_pos same]
      rfl
    · rw [if_neg fun both => same both.2.symm, if_neg same]
      omega

end Operations

section Runs

/-- The runs of a chain on which nothing was locked, as far as locks go, with
what happened to them.  Everything but the two operations leaves the locks
alone, whatever else it changes. -/
inductive LockRun : Database → List (DepositEvent LockBalance) → Prop
  | start (db : Database) (none : db.locks = []) : LockRun db []
  | lock {db after : Database} {trace : List (DepositEvent LockBalance)}
      (run : LockRun db trace) (required : Option Int)
      (o : BalanceLockOperation)
      (returns : (balanceLockEvaluator required o).run db = .ok after) :
      LockRun after
        (.opened (o.lockBalance db.nextLockId) db.headBlockTime.toNat
          :: trace)
  | unlock {db after : Database} {trace : List (DepositEvent LockBalance)}
      (run : LockRun db trace) (required : Option Int)
      (o : BalanceUnlockOperation) (lock : LockBalance)
      (found : db.locks.find? (·.id == o.lockId) = some lock)
      (returns : (balanceUnlockEvaluator required o).run db = .ok after) :
      LockRun after (.closed lock db.headBlockTime.toNat :: trace)
  | elsewhere {db after : Database} {trace : List (DepositEvent LockBalance)}
      (run : LockRun db trace) (locks : after.locks = db.locks)
      (nextLockId : after.nextLockId = db.nextLockId)
      (passes : db.headBlockTime ≤ after.headBlockTime) :
      LockRun after trace

variable {db : Database} {trace : List (DepositEvent LockBalance)}

theorem LockRun.deposits (run : LockRun db trace) :
    Deposits.Run LockBalance.id LockBalance.admittedAt
      LockBalance.releasedAt db.headBlockTime.toNat db.nextLockId db.locks
      trace := by
  induction run with
  | start db none =>
      rw [none]
      exact .start _ _
  | lock _ required o returns ih =>
      obtain ⟨admitted, locks, next, properties⟩ := balanceLock_opens returns
      rw [locks, next, headBlockTime, properties]
      exact ih.opens _ rfl admitted
  | unlock _ required o lock found returns ih =>
      obtain ⟨again, foundAgain, _, released, locks, next, properties, _⟩ :=
        balanceUnlock_closes returns
      obtain rfl : lock = again := by
        rw [found, Option.some.injEq] at foundAgain
        exact foundAgain
      rw [locks, next, headBlockTime, properties]
      exact ih.closes found released
  | elsewhere _ locks next passes ih =>
      rw [locks, next]
      exact ih.wait (UInt32.le_iff_toNat_le.mp passes)

end Runs

section Term

/-- The lock has lasted its days, since it was made or since its date, whichever
is earlier. -/
def LockBalance.lasted (lock : LockBalance) (since time : Nat) : Prop :=
  min since lock.createDateTime.toNat + lock.lockDays.toNat * 86400 ≤ time

instance LockBalance.decidableLasted (lock : LockBalance)
    (since time : Nat) : Decidable (lock.lasted since time) :=
  inferInstanceAs (Decidable (_ ≤ time))

/-- The unlock is not attempted before the date of the lock, unless the lock is
for no days. -/
def LockBalance.dated (lock : LockBalance) (time : Nat) : Prop :=
  lock.createDateTime.toNat ≤ time ∨ lock.lockDays = 0

variable {lock : LockBalance} {since time : Nat}

theorem lasted_of_dated (small : time < 2 ^ 32) (before : since ≤ time)
    (released : lock.releasedAt time) (dated : lock.dated time) :
    lock.lasted since time := by
  rcases dated with reached | noDays
  · have seconds :
        lock.lockDays.toNat ≤ (time - lock.createDateTime.toNat) / 86400 := by
      have days := UInt32.le_iff_toNat_le.mp released
      rw [UInt32.toNat_div, UInt32.toNat_sub_of_le,
        UInt32.toNat_ofNat_of_lt' small] at days
      · exact days
      · rw [UInt32.le_iff_toNat_le, UInt32.toNat_ofNat_of_lt' small]
        exact reached
    have whole := Nat.div_mul_le_self (time - lock.createDateTime.toNat) 86400
    have days := Nat.mul_le_mul_right 86400 seconds
    unfold LockBalance.lasted
    omega
  · rw [LockBalance.lasted, noDays]
    exact Nat.le_trans (Nat.min_le_left _ _) before

theorem date_le_of_admitted (small : since < 2 ^ 32)
    (recent : 30 ≤ since) (admitted : lock.admittedAt since) :
    lock.createDateTime.toNat ≤ since + 30 := by
  obtain ⟨low, high⟩ := abs_le.mp admitted
  have wide := lock.createDateTime.toNat_lt
  obtain ⟨seconds, isDifference⟩ :
      ∃ seconds, seconds =
        (2 ^ 32 - since + lock.createDateTime.toNat) % 2 ^ 32 :=
    ⟨_, rfl⟩
  have difference :
      int32Difference lock.createDateTime (UInt32.ofNat since) =
        if 2 * seconds < 2 ^ 32 then (seconds : Int)
        else seconds - (2 ^ 32 : Nat) := by
    change (lock.createDateTime - UInt32.ofNat since).toBitVec.toInt = _
    rw [BitVec.toInt_eq_toNat_cond, UInt32.toNat_toBitVec, UInt32.toNat_sub,
      UInt32.toNat_ofNat_of_lt' small, ← isDifference]
  rw [difference, LOCKED_BALANCE_EXPIRED_TIME] at low high
  split at low
  · next ahead =>
      rw [if_pos ahead] at high
      omega
  · next behind =>
      rw [if_neg behind] at high
      omega

theorem dated_of_lasted (small : since < 2 ^ 32) (recent : 30 ≤ since)
    (before : since ≤ time) (admitted : lock.admittedAt since)
    (lasted : lock.lasted since time) : lock.dated time := by
  have close := date_le_of_admitted small recent admitted
  by_cases reached : lock.createDateTime.toNat ≤ time
  · exact .inl reached
  · refine .inr (UInt32.toNat_inj.mp ?_)
    change lock.lockDays.toNat = 0
    unfold LockBalance.lasted at lasted
    omega

end Term

section Returns

variable {db : Database} {trace : List (DepositEvent LockBalance)}

theorem LockRun.times_small (run : LockRun db trace) :
    ∀ lock time,
      DepositEvent.opened lock time ∈ trace ∨ .closed lock time ∈ trace →
        time < 2 ^ 32 := by
  induction run with
  | start => simp
  | lock _ _ _ _ ih =>
      intro other time happened
      simp only [List.mem_cons, DepositEvent.opened.injEq, reduceCtorEq,
        false_or] at happened
      rcases happened with (⟨_, rfl⟩ | opened) | closed
      · exact UInt32.toNat_lt _
      · exact ih other time (.inl opened)
      · exact ih other time (.inr closed)
  | unlock _ _ _ _ _ _ ih =>
      intro other time happened
      simp only [List.mem_cons, DepositEvent.closed.injEq, reduceCtorEq,
        false_or] at happened
      rcases happened with opened | ⟨_, rfl⟩ | closed
      · exact ih other time (.inl opened)
      · exact UInt32.toNat_lt _
      · exact ih other time (.inr closed)
  | elsewhere _ _ _ _ ih => exact ih

/-- In every run a lock that was unlocked had lasted its days exactly if the
unlock was not attempted before the date of the lock; a lock is stored and was
never unlocked, or it was unlocked once and is gone; and an unlock pays the
amount to the owner. -/
theorem balance_lock_term (run : LockRun db trace) :
    (∀ lock time, .closed lock time ∈ trace →
      ∃ since, .opened lock since ∈ trace ∧ since ≤ time ∧
        (lock.dated time → lock.lasted since time) ∧
        (30 ≤ since → lock.lasted since time → lock.dated time)) ∧
    (∀ lock since, .opened lock since ∈ trace →
      (lock ∈ db.locks ∧ timesClosed LockBalance.id trace lock.id = 0) ∨
        ((∀ other ∈ db.locks, other.id ≠ lock.id) ∧
          timesClosed LockBalance.id trace lock.id = 1)) ∧
    ∀ required o after,
      (balanceUnlockEvaluator required o).run db = .ok after →
        ∃ lock ∈ db.locks, lock.id = o.lockId ∧
          (after.getBalance lock.owner lock.amount.assetId).amount =
            (db.getBalance lock.owner lock.amount.assetId).amount
              + lock.amount.amount
              - if o.fee.assetId = lock.amount.assetId then o.fee.amount
                else 0 := by
  have accounted := run.deposits.accounted
  refine ⟨?_, ?_, ?_⟩
  · intro lock time closed
    obtain ⟨since, opened, before, admitted, released⟩ :=
      accounted.term closed
    have sinceSmall := run.times_small lock since (.inl opened)
    have timeSmall := run.times_small lock time (.inr closed)
    exact ⟨since, opened, before,
      lasted_of_dated timeSmall before released,
      fun recent => dated_of_lasted sinceSmall recent before admitted⟩
  · intro lock since opened
    exact accounted.once opened
  · intro required o after returns
    obtain ⟨lock, found, _, _, _, _, _, paid⟩ := balanceUnlock_closes returns
    exact ⟨lock, List.mem_of_find?_eq_some found,
      by simpa using List.find?_some found, paid⟩

end Returns

section Sample

/-- One holder of ten coins, and a lock for thirty days. -/
def lockChain (time : Time) : Database :=
  { plainDatabase with
    accounts := [plainAccount 11]
    balances := [⟨0, 1, 1000000⟩]
    parameters := { plainParameters with
      lockBalanceParams := [("30", ⟨30, 5, true⟩)] }
    properties := { plainDatabase.properties with time := time } }

/-- The lock of one coin, with a date ten seconds ahead. -/
def sampleLock : BalanceLockOperation where
  fee := ⟨0, 1⟩
  account := 0
  createDateTime := 1610000010
  programId := "30"
  amount := ⟨100000, 1⟩
  lockDays := 30
  interestRate := 5
  memo := ""

def lockedChain (time : Time) : Database :=
  { lockChain time with
    balances := [⟨0, 1, 900000⟩]
    locks := [sampleLock.lockBalance 0]
    nextLockId := 1 }

/-- The coin has been given back. -/
def unlockedChain (time : Time) : Database :=
  { lockChain time with nextLockId := 1 }

theorem lockedChain_run (later : Time) (passes : 1610000000 ≤ later) :
    LockRun (lockedChain later)
      [.opened (sampleLock.lockBalance 0) 1610000000] := by
  have locked :
      LockRun (lockedChain 1610000000)
        [.opened (sampleLock.lockBalance 0) 1610000000] :=
    .lock (.start (lockChain 1610000000) rfl) none sampleLock (by decide)
  exact .elsewhere locked rfl rfl passes

theorem unlockedChain_run (time : Time) (passes : 1610000000 ≤ time)
    (returns :
      (balanceUnlockEvaluator none ⟨⟨0, 1⟩, 0, 0⟩).run (lockedChain time) =
        .ok (unlockedChain time)) :
    LockRun (unlockedChain time)
      [.closed (sampleLock.lockBalance 0) time.toNat,
        .opened (sampleLock.lockBalance 0) 1610000000] :=
  .unlock (lockedChain_run time passes) none ⟨⟨0, 1⟩, 0, 0⟩ _ rfl returns

/-- Thirty days after the date the coin can be unlocked. -/
theorem balance_lock_term_thirty_days :
    ∃ since, since ≤ 1612592010 ∧
      (sampleLock.lockBalance 0).lasted since 1612592010 := by
  obtain ⟨since, _, before, lasts, _⟩ :=
    (balance_lock_term
      (unlockedChain_run 1612592010 (by decide) (by decide))).1 _ _
      List.mem_cons_self
  exact ⟨since, before, lasts (.inl (by decide))⟩

/-- In the next second the coin can be unlocked too. -/
theorem balance_unlocked_at_once :
    ¬ ∀ db trace, LockRun db trace →
        ∀ lock time, .closed lock time ∈ trace →
          ∃ since, .opened lock since ∈ trace ∧
            lock.lasted since time := by
  intro claimed
  obtain ⟨since, opened, lasted⟩ :=
    claimed _ _ (unlockedChain_run 1610000001 (by decide) (by decide)) _ _
      List.mem_cons_self
  simp only [List.mem_cons, reduceCtorEq, DepositEvent.opened.injEq,
    List.not_mem_nil, or_false, false_or] at opened
  rw [opened.2] at lasted
  exact absurd lasted (by decide)

end Sample

end GxbCore.Ledger
