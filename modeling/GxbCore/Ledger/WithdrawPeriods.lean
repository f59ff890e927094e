import Mathlib.Data.List.Nodup
import GxbCore.Lib.Allowances
import GxbCore.Ledger.HolderOps

/-!
# The periods of a withdraw permission

A permission is an allowance: in every period the authorized account can claim
up to the limit, from the start of the first period until the expiration.  The
claim does not ask whether the first period has begun, and the expiration and
the end of a period are computed in 32 bits.  In the runs in which neither
matters the limit is kept in every period.
-/

namespace GxbCore.Ledger

open Database

section Terms

/-- What `withdraw_permission_create` and `withdraw_permission_update` grant. -/
structure PermitTerms where
  withdrawalLimit : Asset
  withdrawalPeriodSec : UInt32
  periodsUntilExpiration : UInt32
  periodStartTime : Time
  deriving DecidableEq, Repr

def WithdrawPermissionCreateOperation.terms
    (o : WithdrawPermissionCreateOperation) : PermitTerms :=
  ⟨o.withdrawalLimit, o.withdrawalPeriodSec, o.periodsUntilExpiration,
    o.periodStartTime⟩

def WithdrawPermissionUpdateOperation.terms
    (o : WithdrawPermissionUpdateOperation) : PermitTerms :=
  ⟨o.withdrawalLimit, o.withdrawalPeriodSec, o.periodsUntilExpiration,
    o.periodStartTime⟩

namespace PermitTerms

def periodStart (terms : PermitTerms) (number : Nat) : Nat :=
  terms.periodStartTime.toNat + number * terms.withdrawalPeriodSec.toNat

/-- The end of the last period, without wrap-around. -/
def expiration (terms : PermitTerms) : Nat :=
  terms.periodStart terms.periodsUntilExpiration.toNat

/-- The expiration fits into 32 bits. -/
def Fits (terms : PermitTerms) : Prop :=
  terms.expiration < 2 ^ 32

end PermitTerms

/-- A grant or a claim for the permission with an id. -/
inductive PermitEvent where
  | granted (id : Nat) (terms : PermitTerms)
  | claimed (id : Nat) (amount : Asset) (time : Nat)
  deriving DecidableEq, Repr

def PermitEvent.id : PermitEvent → Nat
  | .granted id _ => id
  | .claimed id _ _ => id

/-- The terms of the last grant. -/
def inForce (id : Nat) : List PermitEvent → Option PermitTerms
  | [] => none
  | .granted other terms :: earlier =>
      if other = id then some terms else inForce id earlier
  | .claimed _ _ _ :: earlier => inForce id earlier

/-- The claims of a permission, with their times. -/
def claimsOf (id : Nat) : List PermitEvent → List (Nat × Int)
  | [] => []
  | .granted _ _ :: earlier => claimsOf id earlier
  | .claimed other amount time :: earlier =>
      if other = id then (time, amount.amount) :: claimsOf id earlier
      else claimsOf id earlier

theorem claimsOf_eq_nil {id : Nat} {trace : List PermitEvent}
    (others : ∀ event ∈ trace, event.id ≠ id) : claimsOf id trace = [] := by
  induction trace with
  | nil => rfl
  | cons event earlier ih =>
      rw [List.forall_mem_cons] at others
      cases event with
      | granted other terms => exact ih others.2
      | claimed other amount time =>
          have different : other ≠ id := others.1
          rw [claimsOf, if_neg different]
          exact ih others.2

end Terms

section Operations

variable {db after : Database} {required : Option Int}

/-- The object that `withdraw_permission_create_evaluator::do_apply` creates. -/
def WithdrawPermissionCreateOperation.permission
    (o : WithdrawPermissionCreateOperation) (id : Nat) :
    WithdrawPermission where
  id := id
  withdrawFromAccount := o.withdrawFromAccount
  authorizedAccount := o.authorizedAccount
  withdrawalLimit := o.withdrawalLimit
  withdrawalPeriodSec := o.withdrawalPeriodSec
  periodStartTime := o.periodStartTime
  expiration :=
    o.periodStartTime + o.periodsUntilExpiration * o.withdrawalPeriodSec
  claimedThisPeriod := 0

def WithdrawPermissionUpdateOperation.updated
    (o : WithdrawPermissionUpdateOperation) (permit : WithdrawPermission) :
    WithdrawPermission :=
  { permit with
    periodStartTime := o.periodStartTime
    expiration :=
      o.periodStartTime + o.periodsUntilExpiration * o.withdrawalPeriodSec
    withdrawalLimit := o.withdrawalLimit
    withdrawalPeriodSec := o.withdrawalPeriodSec }

theorem withdrawPermissionCreate_grants {o : WithdrawPermissionCreateOperation}
    (returns :
      (withdrawPermissionCreateEvaluator required o).run db = .ok after) :
    after.permissions =
        db.permissions ++ [o.permission db.nextPermissionId] ∧
      after.nextPermissionId = db.nextPermissionId + 1 ∧
      after.headBlockTime = db.headBlockTime := by
  obtain ⟨_, assets, accounts, applied, _, applies, charges⟩ :=
    run_applies (fun _ _ => rfl) returns
  cases applies
  have charged := adjustBalance_frame charges
  refine ⟨?_, ?_, ?_⟩
  · rw [charged]
    rfl
  · rw [charged]
  · rw [charged]
    rfl

theorem withdrawPermissionUpdate_grants {o : WithdrawPermissionUpdateOperation}
    (returns :
      (withdrawPermissionUpdateEvaluator required o).run db = .ok after) :
    ∃ permit,
      db.permissions.find? (·.id == o.permissionToUpdate) = some permit ∧
        db.headBlockTime ≤ o.periodStartTime ∧
        after.permissions =
          replaceFirst (·.id == o.permissionToUpdate) (o.updated permit)
            db.permissions ∧
        after.nextPermissionId = db.nextPermissionId ∧
        after.headBlockTime = db.headBlockTime := by
  obtain ⟨_, assets, accounts, applied, evaluated, applies, charges⟩ :=
    run_applies (fun _ _ => rfl) returns
  simp only [withdrawPermissionUpdateEvaluator, bind_eq_ok, fcAssert_eq_ok,
    orThrow_eq_ok] at evaluated applies
  obtain ⟨permit, found, _, _, _, _, _, _, _, later, _⟩ := evaluated
  obtain ⟨again, foundAgain, updates⟩ := applies
  obtain rfl : permit = again := by
    rw [found, Option.some.injEq] at foundAgain
    exact foundAgain
  cases updates
  have charged := adjustBalance_frame charges
  refine ⟨permit, found, later, ?_, ?_, ?_⟩
  · rw [charged]
    rfl
  · rw [charged]
  · rw [charged]
    rfl

theorem withdrawPermissionClaim_claims {o : WithdrawPermissionClaimOperation}
    (returns :
      (withdrawPermissionClaimEvaluator required o).run db = .ok after) :
    ∃ permit available claimed,
      db.permissions.find? (·.id == o.withdrawPermission) = some permit ∧
        permit.expiration > db.headBlockTime ∧
        permit.availableThisPeriod db.headBlockTime = .ok available ∧
        o.amountToWithdraw.assetId = available.assetId ∧
        o.amountToWithdraw.amount ≤ available.amount ∧
        permit.claim db.headBlockTime o.amountToWithdraw.amount =
          .ok claimed ∧
        after.permissions =
          replaceFirst (·.id == o.withdrawPermission) claimed
            db.permissions ∧
        after.nextPermissionId = db.nextPermissionId ∧
        after.headBlockTime = db.headBlockTime := by
  obtain ⟨_, assets, accounts, applied, evaluated, applies, charges⟩ :=
    run_applies (fun _ _ => rfl) returns
  simp only [withdrawPermissionClaimEvaluator, bind_eq_ok, fcAssert_eq_ok,
    orThrow_eq_ok, Asset.le] at evaluated applies
  obtain ⟨permit, found, _, valid, _, _, _, _, available, isAvailable, within,
    ⟨_, sameAsset, isWithin⟩, _, allowed, _⟩ := evaluated
  cases isWithin
  obtain ⟨again, foundAgain, claimed, claims, middle, takes, gives⟩ := applies
  obtain rfl : permit = again := by
    rw [found, Option.some.injEq] at foundAgain
    exact foundAgain
  have taken := adjustBalance_frame takes
  have given := adjustBalance_frame gives
  have charged := adjustBalance_frame charges
  refine ⟨permit, available, claimed, found, valid, isAvailable, sameAsset,
    of_decide_eq_true allowed, claims, ?_, ?_, ?_⟩
  · rw [charged, given, taken]
  · rw [charged, given, taken]
  · rw [charged, given, taken]
    rfl

theorem withdrawPermissionDelete_removes {o : WithdrawPermissionDeleteOperation}
    (returns :
      (withdrawPermissionDeleteEvaluator required o).run db = .ok after) :
    after.permissions =
        db.permissions.eraseP (·.id == o.withdrawalPermission) ∧
      after.nextPermissionId = db.nextPermissionId ∧
      after.headBlockTime = db.headBlockTime := by
  obtain ⟨_, assets, accounts, applied, _, applies, charges⟩ :=
    run_applies (fun _ _ => rfl) returns
  cases applies
  have charged := adjustBalance_frame charges
  refine ⟨?_, ?_, ?_⟩
  · rw [charged]
  · rw [charged]
  · rw [charged]
    rfl

end Operations

section Allowances

def WithdrawPermission.allowance (permit : WithdrawPermission) :
    Allowance where
  start := permit.periodStartTime.toNat
  period := permit.withdrawalPeriodSec.toNat
  limit := permit.withdrawalLimit.amount
  claimed := permit.claimedThisPeriod

/-- The first period of the permission, or the one of its last claim, has
begun. -/
def WithdrawPermission.Begun (permit : WithdrawPermission) (now : Time) :
    Prop :=
  permit.periodStartTime ≤ now

variable {permit claimed : WithdrawPermission} {now : Time} {amount : Int}
  {available : Asset}

/-- Without wrap-around the permission makes available what the allowance
does. -/
theorem availableThisPeriod_amount
    (fits :
      permit.periodStartTime.toNat + permit.withdrawalPeriodSec.toNat
        < 2 ^ 32)
    (returns : permit.availableThisPeriod now = .ok available) :
    available.amount = permit.allowance.available now.toNat ∧
      available.assetId = permit.withdrawalLimit.assetId := by
  have sum :
      (permit.periodStartTime + permit.withdrawalPeriodSec).toNat =
        permit.periodStartTime.toNat + permit.withdrawalPeriodSec.toNat := by
    rw [UInt32.toNat_add, Nat.mod_eq_of_lt fits]
  unfold WithdrawPermission.availableThisPeriod at returns
  unfold Allowance.available WithdrawPermission.allowance
  dsimp only
  split at returns
  · next elapsed =>
      rw [UInt32.le_iff_toNat_le, sum] at elapsed
      cases returns
      rw [if_pos elapsed]
      exact ⟨rfl, rfl⟩
  next current =>
    rw [UInt32.le_iff_toNat_le, sum] at current
    rw [if_neg current]
    split at returns
    · next some =>
        obtain ⟨left, checked, returns⟩ := bind_eq_ok.mp returns
        cases returns
        rw [if_pos some]
        exact ⟨eq_of_share checked, rfl⟩
    · next none =>
        cases returns
        rw [if_neg none]
        exact ⟨rfl, rfl⟩

theorem toNat_ofInt_of_lt {value : Nat} (small : value < 2 ^ 32) :
    (UInt32.ofInt (value : Int)).toNat = value := by
  rw [UInt32.ofInt, UInt32.toNat_ofNat']
  omega

theorem claim_allowance (begun : permit.Begun now)
    (returns : permit.claim now amount = .ok claimed) :
    claimed.allowance = permit.allowance.claim now.toNat amount ∧
      claimed = { permit with
        periodStartTime := claimed.periodStartTime
        claimedThisPeriod := claimed.claimedThisPeriod } := by
  have order := UInt32.le_iff_toNat_le.mp begun
  have wide := now.toNat_lt
  simp only [WithdrawPermission.claim, bind_eq_ok] at returns
  obtain ⟨counted, checked, returns⟩ := returns
  cases returns
  have periods :
      (secondsSince now permit.periodStartTime).tdiv
          permit.withdrawalPeriodSec.toNat =
        (permit.allowance.passed now.toNat : Int) := by
    rw [secondsSince, Allowance.passed, WithdrawPermission.allowance,
      ← Nat.cast_sub order, ← Int.ofNat_tdiv]
  have whole :
      permit.allowance.passed now.toNat * permit.withdrawalPeriodSec.toNat
        ≤ now.toNat - permit.periodStartTime.toNat :=
    Nat.div_mul_le_self _ _
  refine ⟨?_, rfl⟩
  have isCounted := eq_of_share checked
  rw [periods] at isCounted
  simp only [WithdrawPermission.allowance, Allowance.claim,
    Allowance.mk.injEq, true_and]
  refine ⟨?_, ?_⟩
  · rw [periods, ← Nat.cast_mul, UInt32.toNat_add,
      toNat_ofInt_of_lt (by omega), Nat.mod_eq_of_lt (by omega)]
    rfl
  · rw [isCounted]
    exact if_congr Nat.cast_eq_zero rfl rfl

end Allowances

section Runs

/-- `update_withdraw_permissions`: what has expired is removed. -/
def Database.updateWithdrawPermissions (db : Database) : Database :=
  { db with
    permissions :=
      db.permissions.filter fun permit =>
        permit.expiration > db.headBlockTime }

/-- The runs of a chain without permissions, as far as these go, with what was
granted and claimed, the latest first.  The grants and the claims are limited to
some. -/
inductive PermitRun (grants : PermitTerms → Prop)
    (claims : WithdrawPermission → Time → Prop) :
    Database → List PermitEvent → Prop
  | start (db : Database) (none : db.permissions = []) :
      PermitRun grants claims db []
  | create {db after : Database} {trace : List PermitEvent}
      (run : PermitRun grants claims db trace) (required : Option Int)
      (o : WithdrawPermissionCreateOperation) (valid : o.validate = .ok ())
      (returns :
        (withdrawPermissionCreateEvaluator required o).run db = .ok after)
      (regular : grants o.terms) :
      PermitRun grants claims after
        (.granted db.nextPermissionId o.terms :: trace)
  | update {db after : Database} {trace : List PermitEvent}
      (run : PermitRun grants claims db trace) (required : Option Int)
      (o : WithdrawPermissionUpdateOperation) (valid : o.validate = .ok ())
      (returns :
        (withdrawPermissionUpdateEvaluator required o).run db = .ok after)
      (regular : grants o.terms) :
      PermitRun grants claims after
        (.granted o.permissionToUpdate o.terms :: trace)
  | claim {db after : Database} {trace : List PermitEvent}
      (run : PermitRun grants claims db trace) (required : Option Int)
      (o : WithdrawPermissionClaimOperation) (permit : WithdrawPermission)
      (found :
        db.permissions.find? (·.id == o.withdrawPermission) = some permit)
      (valid : o.validate = .ok ())
      (returns :
        (withdrawPermissionClaimEvaluator required o).run db = .ok after)
      (regular : claims permit db.headBlockTime) :
      PermitRun grants claims after
        (.claimed o.withdrawPermission o.amountToWithdraw
          db.headBlockTime.toNat :: trace)
  | delete {db after : Database} {trace : List PermitEvent}
      (run : PermitRun grants claims db trace) (required : Option Int)
      (o : WithdrawPermissionDeleteOperation)
      (returns :
        (withdrawPermissionDeleteEvaluator required o).run db =
          .ok after) :
      PermitRun grants claims after trace
  | expire {db : Database} {trace : List PermitEvent}
      (run : PermitRun grants claims db trace) :
      PermitRun grants claims db.updateWithdrawPermissions trace
  | elsewhere {db after : Database} {trace : List PermitEvent}
      (run : PermitRun grants claims db trace)
      (permissions : after.permissions = db.permissions)
      (nextPermissionId : after.nextPermissionId = db.nextPermissionId)
      (passes : db.headBlockTime ≤ after.headBlockTime) :
      PermitRun grants claims after trace

/-- The permission is as its terms say, and its count covers its claims. -/
structure Honors (trace : List PermitEvent) (now : Nat)
    (permit : WithdrawPermission) (terms : PermitTerms) : Prop where
  inForce : inForce permit.id trace = some terms
  fits : terms.Fits
  limit : permit.withdrawalLimit = terms.withdrawalLimit
  period : permit.withdrawalPeriodSec = terms.withdrawalPeriodSec
  expiration : permit.expiration.toNat = terms.expiration
  covers :
    permit.allowance.Covers terms.periodStartTime.toNat now
      (claimsOf permit.id trace)

/-- Every permission is as its terms say. -/
structure Permitted (db : Database) (trace : List PermitEvent) : Prop where
  unique : (db.permissions.map (·.id)).Nodup
  earlier : ∀ permit ∈ db.permissions, permit.id < db.nextPermissionId
  events : ∀ event ∈ trace, event.id < db.nextPermissionId
  honors :
    ∀ permit ∈ db.permissions,
      ∃ terms, Honors trace db.headBlockTime.toNat permit terms

variable {db after : Database} {trace : List PermitEvent}
  {required : Option Int} {terms : PermitTerms}

theorem Honors.other {now : Nat} {permit : WithdrawPermission}
    (honors : Honors trace now permit terms)
    {event : PermitEvent} (different : event.id ≠ permit.id) :
    Honors (event :: trace) now permit terms := by
  refine
    { honors with
      inForce := ?_
      covers := ?_ }
  · cases event with
    | granted other terms => exact (if_neg different).trans honors.inForce
    | claimed other amount time => exact honors.inForce
  · cases event with
    | granted other terms => exact honors.covers
    | claimed other amount time =>
        have isOther : other ≠ permit.id := different
        rw [claimsOf, if_neg isOther]
        exact honors.covers

/-- The current period ends before the expiration, so its end fits into 32
bits. -/
theorem Honors.end_fits {now : Time} {permit : WithdrawPermission}
    (honors : Honors trace now.toNat permit terms)
    (begun : permit.Begun now) (before : now.toNat < terms.expiration) :
    permit.periodStartTime.toNat + permit.withdrawalPeriodSec.toNat
      < 2 ^ 32 := by
  obtain ⟨passed, isStart⟩ := honors.covers.aligned
  have order := UInt32.le_iff_toNat_le.mp begun
  have fits := honors.fits
  change permit.periodStartTime.toNat =
    _ + passed * permit.withdrawalPeriodSec.toNat at isStart
  unfold PermitTerms.Fits PermitTerms.expiration PermitTerms.periodStart
    at fits
  unfold PermitTerms.expiration PermitTerms.periodStart at before
  rw [← honors.period] at fits before
  have fewer : passed < terms.periodsUntilExpiration.toNat := by
    refine Nat.lt_of_mul_lt_mul_right (a := permit.withdrawalPeriodSec.toNat) ?_
    omega
  have whole :=
    Nat.mul_le_mul_right permit.withdrawalPeriodSec.toNat
      (Nat.succ_le_of_lt fewer)
  rw [Nat.succ_mul] at whole
  omega

theorem toNat_expiration (fits : terms.Fits) :
    (terms.periodStartTime
        + terms.periodsUntilExpiration * terms.withdrawalPeriodSec).toNat =
      terms.expiration := by
  unfold PermitTerms.Fits PermitTerms.expiration PermitTerms.periodStart
    at fits
  rw [UInt32.toNat_add, UInt32.toNat_mul,
    Nat.mod_eq_of_lt (Nat.lt_of_le_of_lt (Nat.le_add_left _ _) fits),
    Nat.mod_eq_of_lt fits]
  rfl

namespace Permitted

theorem start (none : db.permissions = []) : Permitted db [] where
  unique := by simp [none]
  earlier := by simp [none]
  events := by simp
  honors := by simp [none]

theorem create {o : WithdrawPermissionCreateOperation}
    (permitted : Permitted db trace) (valid : o.validate = .ok ())
    (returns :
      (withdrawPermissionCreateEvaluator required o).run db = .ok after)
    (fits : o.terms.Fits) :
    Permitted after (.granted db.nextPermissionId o.terms :: trace) := by
  obtain ⟨permissions, next, time⟩ := withdrawPermissionCreate_grants returns
  simp only [WithdrawPermissionCreateOperation.validate, bind_eq_ok,
    fcAssert_eq_ok] at valid
  obtain ⟨_, _, _, _, _, _, _, positive, _⟩ := valid
  refine ⟨?_, ?_, ?_, ?_⟩
  · rw [permissions]
    refine nodup_map_concat permitted.unique ?_
    intro permit member
    exact Nat.ne_of_lt (permitted.earlier permit member)
  · rw [permissions, next]
    refine forall_concat ?_ (Nat.lt_succ_self _)
    intro permit member
    exact Nat.lt_succ_of_lt (permitted.earlier permit member)
  · rw [next, List.forall_mem_cons]
    refine ⟨Nat.lt_succ_self _, ?_⟩
    intro event member
    exact Nat.lt_succ_of_lt (permitted.events event member)
  · rw [permissions, time]
    refine forall_concat ?_ ?_
    · intro permit member
      obtain ⟨terms, honors⟩ := permitted.honors permit member
      exact ⟨terms, honors.other
        (Nat.ne_of_gt (permitted.earlier permit member))⟩
    · have noClaims : claimsOf db.nextPermissionId trace = [] :=
        claimsOf_eq_nil fun event member =>
          Nat.ne_of_lt (permitted.events event member)
      refine ⟨o.terms, if_pos rfl, fits, rfl, rfl, toNat_expiration fits, ?_⟩
      change Allowance.Covers _ _ _ (claimsOf db.nextPermissionId trace)
      rw [noClaims]
      exact .start _ _ (UInt32.lt_iff_toNat_lt.mp positive)

theorem replaced {permit fresh : WithdrawPermission} {id : Nat}
    {event : PermitEvent} {terms : PermitTerms} (permitted : Permitted db trace)
    (found : db.permissions.find? (·.id == id) = some permit)
    (permissions :
      after.permissions = replaceFirst (·.id == id) fresh db.permissions)
    (next : after.nextPermissionId = db.nextPermissionId)
    (time : after.headBlockTime = db.headBlockTime)
    (sameId : fresh.id = permit.id) (about : event.id = id)
    (honors : Honors (event :: trace) db.headBlockTime.toNat fresh terms) :
    Permitted after (event :: trace) := by
  have member := List.mem_of_find?_eq_some found
  have isFound : permit.id = id := by simpa using List.find?_some found
  refine ⟨?_, ?_, ?_, ?_⟩
  · rw [permissions, map_replaceFirst found sameId]
    exact permitted.unique
  · rw [permissions, next]
    refine forall_replaceFirst permitted.earlier ?_
    exact sameId ▸ permitted.earlier permit member
  · rw [next, List.forall_mem_cons, about, ← isFound]
    exact ⟨permitted.earlier permit member, permitted.events⟩
  · rw [permissions, time]
    intro other stored
    by_cases same : other.id = id
    · have freshFound :=
        find_replaceFirst found
          (show (fresh.id == id) = true by simp [sameId, isFound])
      have unique := permitted.unique
      rw [← map_replaceFirst found sameId] at unique
      have isFresh : other = fresh :=
        List.inj_on_of_nodup_map unique stored
          (List.mem_of_find?_eq_some freshFound)
          (same.trans (sameId.trans isFound).symm)
      exact ⟨terms, isFresh ▸ honors⟩
    · rcases mem_replaceFirst stored with isFresh | inPermissions
      · exact absurd (isFresh ▸ sameId.trans isFound) same
      · obtain ⟨otherTerms, otherHonors⟩ :=
          permitted.honors other inPermissions
        exact ⟨otherTerms, otherHonors.other (about ▸ Ne.symm same)⟩

theorem update {o : WithdrawPermissionUpdateOperation}
    (permitted : Permitted db trace) (valid : o.validate = .ok ())
    (returns :
      (withdrawPermissionUpdateEvaluator required o).run db = .ok after)
    (fits : o.terms.Fits) :
    Permitted after (.granted o.permissionToUpdate o.terms :: trace) := by
  obtain ⟨permit, found, later, permissions, next, time⟩ :=
    withdrawPermissionUpdate_grants returns
  simp only [WithdrawPermissionUpdateOperation.validate, bind_eq_ok,
    fcAssert_eq_ok] at valid
  obtain ⟨_, _, _, _, _, positive, _⟩ := valid
  have isFound : permit.id = o.permissionToUpdate := by
    simpa using List.find?_some found
  obtain ⟨terms, honors⟩ :=
    permitted.honors permit (List.mem_of_find?_eq_some found)
  have renewed :
      Honors (.granted o.permissionToUpdate o.terms :: trace)
        db.headBlockTime.toNat (o.updated permit) o.terms := by
    refine ⟨if_pos isFound.symm, fits, rfl, rfl, toNat_expiration fits, ?_⟩
    exact honors.covers.renew o.withdrawalLimit.amount
      (UInt32.lt_iff_toNat_lt.mp positive)
      (UInt32.le_iff_toNat_le.mp later)
  exact permitted.replaced found permissions next time rfl rfl renewed

end Permitted

/-- A claim keeps within the terms that are in force: it is made after the start
of the first period and before the expiration, and with it what was claimed in
its period is at most the limit. -/
def ClaimWithin (id : Nat) (amount : Asset) (time : Nat)
    (earlier : List PermitEvent) : Prop :=
  ∃ terms, inForce id earlier = some terms ∧
    terms.periodStartTime.toNat ≤ time ∧ time < terms.expiration ∧
    amount.assetId = terms.withdrawalLimit.assetId ∧
    ∀ number, terms.periodStart number ≤ time →
      time < terms.periodStart (number + 1) →
        Allowance.claimedBetween (terms.periodStart number)
            (terms.periodStart (number + 1))
            (claimsOf id (.claimed id amount time :: earlier))
          ≤ terms.withdrawalLimit.amount

namespace Permitted

theorem claim {o : WithdrawPermissionClaimOperation}
    {permit : WithdrawPermission} (permitted : Permitted db trace)
    (found : db.permissions.find? (·.id == o.withdrawPermission) = some permit)
    (valid : o.validate = .ok ())
    (returns : (withdrawPermissionClaimEvaluator required o).run db = .ok after)
    (begun : permit.Begun db.headBlockTime) :
    Permitted after
        (.claimed o.withdrawPermission o.amountToWithdraw
          db.headBlockTime.toNat :: trace) ∧
      ClaimWithin o.withdrawPermission o.amountToWithdraw
        db.headBlockTime.toNat trace := by
  obtain ⟨again, available, claimed, foundAgain, unexpired, isAvailable,
    sameAsset, allowed, claims, permissions, next, time⟩ :=
    withdrawPermissionClaim_claims returns
  obtain rfl : permit = again := by
    rw [found, Option.some.injEq] at foundAgain
    exact foundAgain
  simp only [WithdrawPermissionClaimOperation.validate, bind_eq_ok,
    fcAssert_eq_ok] at valid
  obtain ⟨_, _, _, positive, _⟩ := valid
  have isFound : permit.id = o.withdrawPermission := by
    simpa using List.find?_some found
  obtain ⟨terms, honors⟩ :=
    permitted.honors permit (List.mem_of_find?_eq_some found)
  have order := UInt32.le_iff_toNat_le.mp begun
  have before : db.headBlockTime.toNat < terms.expiration := by
    rw [← honors.expiration]
    exact UInt32.lt_iff_toNat_lt.mp unexpired
  have fits := honors.end_fits begun before
  obtain ⟨sameAmount, limitAsset⟩ :=
    availableThisPeriod_amount fits isAvailable
  rw [sameAmount] at allowed
  obtain ⟨isClaim, sameRest⟩ := claim_allowance begun claims
  have claimsNow :
      claimsOf o.withdrawPermission
          (.claimed o.withdrawPermission o.amountToWithdraw
            db.headBlockTime.toNat :: trace) =
        (db.headBlockTime.toNat, o.amountToWithdraw.amount)
          :: claimsOf permit.id trace := by
    rw [claimsOf, if_pos rfl, isFound]
  refine ⟨?_, ?_⟩
  · have sameId : claimed.id = permit.id := by rw [sameRest]
    have counted :
        Honors
          (.claimed o.withdrawPermission o.amountToWithdraw
            db.headBlockTime.toNat :: trace)
          db.headBlockTime.toNat claimed terms := by
      refine ⟨?_, honors.fits, ?_, ?_, ?_, ?_⟩
      · rw [sameId]
        exact honors.inForce
      · rw [sameRest]
        exact honors.limit
      · rw [sameRest]
        exact honors.period
      · rw [sameRest]
        exact honors.expiration
      · rw [sameId, isFound, claimsNow, isClaim]
        exact honors.covers.claim order positive allowed
    exact permitted.replaced found permissions next time sameId rfl counted
  · refine ⟨terms, isFound ▸ honors.inForce, ?_, before, ?_, ?_⟩
    · obtain ⟨passed, isStart⟩ := honors.covers.aligned
      have anchored : terms.periodStartTime.toNat ≤ permit.allowance.start :=
        isStart ▸ Nat.le_add_right _ _
      exact Nat.le_trans anchored order
    · rw [sameAsset, limitAsset, honors.limit]
    · intro number begins ends
      have samePeriod :
          permit.allowance.period = terms.withdrawalPeriodSec.toNat :=
        congrArg UInt32.toNat honors.period
      have sameLimit : permit.allowance.limit = terms.withdrawalLimit.amount :=
        congrArg Asset.amount honors.limit
      have within := @honors.covers.claim_within
      rw [samePeriod, sameLimit] at within
      rw [claimsNow]
      exact within order positive allowed begins ends

theorem fewer (permitted : Permitted db trace)
    (sublist : after.permissions.Sublist db.permissions)
    (next : after.nextPermissionId = db.nextPermissionId)
    (passes : db.headBlockTime ≤ after.headBlockTime) :
    Permitted after trace where
  unique := permitted.unique.sublist (sublist.map _)
  earlier permit member :=
    next ▸ permitted.earlier permit (sublist.subset member)
  events := next ▸ permitted.events
  honors permit member := by
    obtain ⟨terms, honors⟩ :=
      permitted.honors permit (sublist.subset member)
    exact ⟨terms, { honors with
      covers := honors.covers.wait (UInt32.le_iff_toNat_le.mp passes) }⟩

end Permitted

/-- All claims so far are within their terms. -/
def ClaimsWithin (trace : List PermitEvent) : Prop :=
  ∀ later id amount time earlier,
    trace = later ++ .claimed id amount time :: earlier →
      ClaimWithin id amount time earlier

theorem ClaimsWithin.cons {event : PermitEvent} (within : ClaimsWithin trace)
    (isWithin :
      ∀ id amount time, event = .claimed id amount time →
        ClaimWithin id amount time trace) : ClaimsWithin (event :: trace) := by
  intro later id amount time earlier same
  cases later with
  | nil =>
      obtain ⟨isClaim, isTrace⟩ := List.cons.inj same
      exact isTrace ▸ isWithin id amount time isClaim
  | cons first rest =>
      exact within rest id amount time earlier (List.cons.inj same).2

theorem PermitRun.permitted
    (run : PermitRun PermitTerms.Fits WithdrawPermission.Begun db trace) :
    Permitted db trace ∧ ClaimsWithin trace := by
  induction run with
  | start db none =>
      refine ⟨.start none, ?_⟩
      intro later id amount time earlier same
      cases later with
      | nil => cases same
      | cons first rest => cases same
  | create _ required o valid returns fits ih =>
      obtain ⟨permitted, within⟩ := ih
      refine ⟨permitted.create valid returns fits, within.cons ?_⟩
      intro id amount time isClaim
      cases isClaim
  | update _ required o valid returns fits ih =>
      obtain ⟨permitted, within⟩ := ih
      refine ⟨permitted.update valid returns fits, within.cons ?_⟩
      intro id amount time isClaim
      cases isClaim
  | claim _ required o permit found valid returns begun ih =>
      obtain ⟨permitted, within⟩ := ih
      obtain ⟨claims, isWithin⟩ :=
        permitted.claim found valid returns begun
      refine ⟨claims, within.cons ?_⟩
      intro id amount time isClaim
      cases isClaim
      exact isWithin
  | delete _ required o returns ih =>
      obtain ⟨permitted, within⟩ := ih
      obtain ⟨permissions, next, time⟩ :=
        withdrawPermissionDelete_removes returns
      refine ⟨permitted.fewer ?_ next (time ▸ UInt32.le_refl _), within⟩
      exact permissions ▸ List.eraseP_sublist
  | expire _ ih =>
      obtain ⟨permitted, within⟩ := ih
      exact ⟨permitted.fewer List.filter_sublist rfl (UInt32.le_refl _),
        within⟩
  | elsewhere _ permissions next passes ih =>
      obtain ⟨permitted, within⟩ := ih
      exact ⟨permitted.fewer (permissions ▸ .refl _) next passes, within⟩

/-- In every run in which no expiration wraps around and nothing is claimed
before its period has begun, every claim is within its terms, and the expiration
of every permission is the end of its last period. -/
theorem withdraw_permission_limits
    (run : PermitRun PermitTerms.Fits WithdrawPermission.Begun db trace) :
    ClaimsWithin trace ∧
      ∀ permit ∈ db.permissions,
        ∃ terms, inForce permit.id trace = some terms ∧
          permit.expiration.toNat = terms.expiration := by
  obtain ⟨permitted, within⟩ := run.permitted
  refine ⟨within, ?_⟩
  intro permit member
  obtain ⟨terms, honors⟩ := permitted.honors permit member
  exact ⟨terms, honors.inForce, honors.expiration⟩

end Runs

section Sample

/-- Two accounts, the first with a hundred. -/
def permitChain (time : Time) : Database :=
  { plainDatabase with
    accounts := [plainAccount 11, plainAccount 12]
    balances := [⟨0, 1, 100⟩]
    properties := { plainDatabase.properties with time := time } }

/-- The first account lets the second one claim five a day, for some days from
the next minute on. -/
def samplePermit (days : UInt32) : WithdrawPermissionCreateOperation where
  fee := ⟨0, 1⟩
  withdrawFromAccount := 0
  authorizedAccount := 1
  withdrawalLimit := ⟨5, 1⟩
  withdrawalPeriodSec := 86400
  periodsUntilExpiration := days
  periodStartTime := 1610000060

/-- The second account claims five. -/
def sampleClaim : WithdrawPermissionClaimOperation where
  fee := ⟨0, 1⟩
  withdrawPermission := 0
  withdrawFromAccount := 0
  withdrawToAccount := 1
  amountToWithdraw := ⟨5, 1⟩

/-- The permission has been granted. -/
def permittedChain (days : UInt32) (time : Time) : Database :=
  { permitChain time with
    permissions := [(samplePermit days).permission 0]
    nextPermissionId := 1 }

/-- Five have been claimed, in the first period or before it. -/
def withdrawnChain (time : Time) : Database :=
  { permitChain time with
    balances := [⟨0, 1, 95⟩, ⟨1, 1, 5⟩]
    permissions :=
      [{ (samplePermit 7).permission 0 with claimedThisPeriod := 5 }]
    nextPermissionId := 1 }

variable {grants : PermitTerms → Prop}
  {claims : WithdrawPermission → Time → Prop}

theorem permittedChain_run (days : UInt32) (time : Time)
    (creates :
      (withdrawPermissionCreateEvaluator none (samplePermit days)).run
          (permitChain 1610000000) =
        .ok (permittedChain days 1610000000))
    (valid : (samplePermit days).validate = .ok ())
    (regular : grants (samplePermit days).terms) (passes : 1610000000 ≤ time) :
    PermitRun grants claims (permittedChain days time)
      [.granted 0 (samplePermit days).terms] := by
  have granted :
      PermitRun grants claims (permittedChain days 1610000000)
        [.granted 0 (samplePermit days).terms] :=
    .create (.start (permitChain 1610000000) rfl) none (samplePermit days)
      valid creates regular
  exact .elsewhere granted rfl rfl passes

theorem withdraw_permission_limits_first_day :
    ClaimWithin 0 ⟨5, 1⟩ 1610000100
      [.granted 0 (samplePermit 7).terms] := by
  have run :
      PermitRun PermitTerms.Fits WithdrawPermission.Begun
        (withdrawnChain 1610000100)
        [.claimed 0 ⟨5, 1⟩ 1610000100, .granted 0 (samplePermit 7).terms] :=
    .claim
      (permittedChain_run 7 1610000100 (by decide) (by decide)
        (show (samplePermit 7).terms.expiration < 2 ^ 32 by decide)
        (by decide))
      none sampleClaim _ rfl (by decide) (by decide)
      (show (1610000060 : Time) ≤ 1610000100 by decide)
  exact (withdraw_permission_limits run).1 [] _ _ _ _ rfl

/-- The five can be claimed before the first period, and a permission for 49711
days expires on the first day. -/
theorem withdraw_permission_unlimited :
    (¬ ∀ db trace,
        PermitRun (fun _ => True) (fun _ _ => True) db trace →
          ClaimsWithin trace) ∧
      ¬ ∀ db trace,
        PermitRun (fun _ => True) (fun _ _ => True) db trace →
          ∀ permit ∈ db.permissions,
            ∃ terms, inForce permit.id trace = some terms ∧
              permit.expiration.toNat = terms.expiration := by
  refine ⟨?_, ?_⟩
  · intro claimed
    have run :
        PermitRun (fun _ => True) (fun _ _ => True)
          (withdrawnChain 1610000001)
          [.claimed 0 ⟨5, 1⟩ 1610000001,
            .granted 0 (samplePermit 7).terms] :=
      .claim
        (permittedChain_run 7 1610000001 (by decide) (by decide) trivial
          (by decide))
        none sampleClaim _ rfl (by decide) (by decide) trivial
    obtain ⟨terms, isTerms, begun, _⟩ := claimed _ _ run [] _ _ _ _ rfl
    cases isTerms
    exact absurd begun (by decide)
  · intro claimed
    have run :
        PermitRun (fun _ => True) (fun _ _ => True)
          (permittedChain 49711 1610000000)
          [.granted 0 (samplePermit 49711).terms] :=
      permittedChain_run 49711 1610000000 (by decide) (by decide) trivial
        (by decide)
    obtain ⟨terms, isTerms, same⟩ :=
      claimed _ _ run _ (List.mem_singleton.mpr rfl)
    cases isTerms
    exact absurd same (by decide)

end Sample

end GxbCore.Ledger
