import GxbCore.Ledger.Objects

/-!
# The percentages by which fees are split

An account is given its percentages when it is created, from the parameters of
that time, and keeps them when the parameters change.  An upgrade gives the
lifetime referrer all that the network does not take.  So the percentages of
every account come from parameters that were valid once, and stay within the
whole.
-/

namespace GxbCore.Ledger

def HARDFORK_453_TIME : Time :=
  1450288800

def GRAPHENE_DEFAULT_NETWORK_PERCENT_OF_FEE : UInt16 :=
  2000

/-- The percentages of an `account_object`. -/
structure FeePercentages where
  networkFeePercentage : UInt16
  lifetimeReferrerFeePercentage : UInt16
  referrerRewardsPercentage : UInt16
  deriving DecidableEq, Repr

/-- The percentages of `chain_parameters`. -/
structure PercentParameters where
  networkPercentOfFee : UInt16
  lifetimeReferrerPercentOfFee : UInt16
  deriving DecidableEq, Repr

/-- `chain_parameters::validate`, as far as it is about these. -/
def PercentParameters.validate (parameters : PercentParameters) :
    Except Fault Unit := do
  fcAssert (parameters.networkPercentOfFee.toNat ≤ GRAPHENE_100_PERCENT) ""
  fcAssert
    (parameters.lifetimeReferrerPercentOfFee.toNat ≤ GRAPHENE_100_PERCENT) ""
  fcAssert
    (parameters.networkPercentOfFee.toNat +
        parameters.lifetimeReferrerPercentOfFee.toNat ≤ GRAPHENE_100_PERCENT) ""

/-- What `account_create_operation` says of the referrer. -/
structure ReferrerTerms where
  registrar : AccountId
  referrer : AccountId
  referrerPercent : UInt16
  deriving DecidableEq, Repr

/-- `account_create_operation::validate`, as far as it is about these. -/
def ReferrerTerms.validate (o : ReferrerTerms) : Except Fault Unit :=
  fcAssert (o.referrerPercent.toNat ≤ GRAPHENE_100_PERCENT) ""

/-- The percentage that `account_create_evaluator::do_apply` stores: before
hard fork 453 a small one was given in whole percents. -/
def ReferrerTerms.storedPercent (o : ReferrerTerms) (now : Time) : UInt16 :=
  if now ≤ HARDFORK_453_TIME ∧ o.referrer ≠ o.registrar ∧
      o.referrerPercent ≠ 0 ∧ o.referrerPercent ≤ 0x100 then
    if o.referrerPercent * 100 > 10000 then 10000
    else o.referrerPercent * 100
  else
    o.referrerPercent

/-- The parameters and the accounts, as far as they have percentages. -/
structure PercentState where
  parameters : PercentParameters
  pendingParameters : Option PercentParameters
  accounts : List FeePercentages
  deriving DecidableEq, Repr

namespace PercentState

variable (state : PercentState)

def addAccount (referrerRewardsPercentage : UInt16) : PercentState :=
  { state with
    accounts := state.accounts ++
      [⟨state.parameters.networkPercentOfFee,
        state.parameters.lifetimeReferrerPercentOfFee,
        referrerRewardsPercentage⟩] }

/-- `account_create_evaluator::do_apply` -/
def createAccount (now : Time) (o : ReferrerTerms) : PercentState :=
  state.addAccount (o.storedPercent now)

/-- `contract_deploy_evaluator::do_apply` -/
def deployContract : PercentState :=
  state.addAccount 0

/-- `account_upgrade_evaluator::do_apply` -/
def upgradeAccount (id : AccountId) (account : FeePercentages) :
    PercentState :=
  { state with
    accounts := state.accounts.set id
      { account with
        lifetimeReferrerFeePercentage :=
          10000 - account.networkFeePercentage } }

/-- `committee_member_update_global_parameters_evaluator::do_apply` -/
def updateParameters (parameters : PercentParameters) : PercentState :=
  { state with pendingParameters := some parameters }

/-- The parameters of the next maintenance interval. -/
def takeParameters : PercentState :=
  match state.pendingParameters with
  | none => state
  | some parameters => { state with parameters, pendingParameters := none }

end PercentState

/-- The accounts that genesis creates before any operation: the network takes
its default part or nothing. -/
inductive GenesisPercentages : FeePercentages → Prop
  | paying :
      GenesisPercentages
        ⟨GRAPHENE_DEFAULT_NETWORK_PERCENT_OF_FEE,
          10000 - GRAPHENE_DEFAULT_NETWORK_PERCENT_OF_FEE, 0⟩
  | exempt : GenesisPercentages ⟨0, 10000, 0⟩

/-- The states of a chain whose genesis parameters are valid. -/
inductive ReachedPercentages : PercentState → Prop
  | genesis {parameters : PercentParameters} {accounts : List FeePercentages}
      (valid : parameters.validate = .ok ())
      (special : ∀ account ∈ accounts, GenesisPercentages account) :
      ReachedPercentages ⟨parameters, none, accounts⟩
  | create {state : PercentState} (reached : ReachedPercentages state)
      (now : Time) (o : ReferrerTerms) (validates : o.validate = .ok ()) :
      ReachedPercentages (state.createAccount now o)
  | deploy {state : PercentState} (reached : ReachedPercentages state) :
      ReachedPercentages state.deployContract
  | upgrade {state : PercentState} (reached : ReachedPercentages state)
      (id : AccountId) {account : FeePercentages}
      (found : state.accounts[id]? = some account) :
      ReachedPercentages (state.upgradeAccount id account)
  | update {state : PercentState} (reached : ReachedPercentages state)
      (parameters : PercentParameters)
      (validates : parameters.validate = .ok ()) :
      ReachedPercentages (state.updateParameters parameters)
  | maintain {state : PercentState} (reached : ReachedPercentages state) :
      ReachedPercentages state.takeParameters

/-- The percentages stay within the whole. -/
structure FeePercentages.Valid (p : FeePercentages) : Prop where
  network_add_lifetime_le :
    p.networkFeePercentage.toNat + p.lifetimeReferrerFeePercentage.toNat ≤
      GRAPHENE_100_PERCENT
  referrer_le : p.referrerRewardsPercentage.toNat ≤ GRAPHENE_100_PERCENT

def FeePercentages.toSplit (p : FeePercentages) (valid : p.Valid) :
    FeeSplit where
  networkFeePercentage := p.networkFeePercentage.toNat
  lifetimeReferrerFeePercentage := p.lifetimeReferrerFeePercentage.toNat
  referrerRewardsPercentage := p.referrerRewardsPercentage.toNat
  network_add_lifetime_le := valid.network_add_lifetime_le
  referrer_le := valid.referrer_le

section Reached

variable {state : PercentState}

theorem validate_parameters {parameters : PercentParameters}
    (validates : parameters.validate = .ok ()) :
    parameters.networkPercentOfFee.toNat +
        parameters.lifetimeReferrerPercentOfFee.toNat ≤
      GRAPHENE_100_PERCENT := by
  simp only [PercentParameters.validate, bind_eq_ok, fcAssert_eq_ok]
    at validates
  obtain ⟨_, _, _, _, within⟩ := validates
  exact within

/-- A small percentage stays within the whole when it is scaled. -/
theorem storedPercent_le {o : ReferrerTerms} (now : Time)
    (validates : o.validate = .ok ()) :
    (o.storedPercent now).toNat ≤ GRAPHENE_100_PERCENT := by
  unfold ReferrerTerms.storedPercent
  split
  · split
    · decide
    · next small =>
        exact UInt16.le_iff_toNat_le.mp (UInt16.not_lt.mp small)
  · exact fcAssert_eq_ok.mp validates

/-- What every reached state has: valid parameters, now and pending, and valid
accounts. -/
structure PercentState.Valid (state : PercentState) : Prop where
  parameters :
    state.parameters.networkPercentOfFee.toNat +
        state.parameters.lifetimeReferrerPercentOfFee.toNat ≤
      GRAPHENE_100_PERCENT
  pendingParameters :
    ∀ parameters, state.pendingParameters = some parameters →
      parameters.networkPercentOfFee.toNat +
          parameters.lifetimeReferrerPercentOfFee.toNat ≤
        GRAPHENE_100_PERCENT
  accounts : ∀ account ∈ state.accounts, account.Valid

theorem GenesisPercentages.valid {account : FeePercentages}
    (special : GenesisPercentages account) : account.Valid := by
  cases special with
  | paying => exact ⟨by decide, by decide⟩
  | exempt => exact ⟨by decide, by decide⟩

theorem PercentState.Valid.addAccount (valid : state.Valid)
    {referrerRewardsPercentage : UInt16}
    (within : referrerRewardsPercentage.toNat ≤ GRAPHENE_100_PERCENT) :
    (state.addAccount referrerRewardsPercentage).Valid where
  parameters := valid.parameters
  pendingParameters := valid.pendingParameters
  accounts account member := by
    rcases List.mem_append.mp member with older | fresh
    · exact valid.accounts account older
    · rw [List.mem_singleton.mp fresh]
      exact ⟨valid.parameters, within⟩

/-- An upgrade leaves to the lifetime referrer what the network does not
take. -/
theorem FeePercentages.Valid.upgrade {account : FeePercentages}
    (valid : account.Valid) :
    { account with
      lifetimeReferrerFeePercentage :=
        10000 - account.networkFeePercentage : FeePercentages }.Valid where
  network_add_lifetime_le := by
    have within := valid.network_add_lifetime_le
    have atMost : account.networkFeePercentage ≤ 10000 := by
      rw [UInt16.le_iff_toNat_le]
      exact Nat.le_trans (Nat.le_add_right _ _) within
    have network : account.networkFeePercentage.toNat ≤ 10000 :=
      UInt16.le_iff_toNat_le.mp atMost
    change
      account.networkFeePercentage.toNat +
          (10000 - account.networkFeePercentage).toNat ≤ 10000
    rw [UInt16.toNat_sub_of_le _ _ atMost]
    change
      account.networkFeePercentage.toNat +
          (10000 - account.networkFeePercentage.toNat) ≤ 10000
    omega
  referrer_le := valid.referrer_le

theorem ReachedPercentages.valid (reached : ReachedPercentages state) :
    state.Valid := by
  induction reached with
  | genesis valid special =>
      exact ⟨validate_parameters valid, (fun _ isPending => nomatch isPending),
        fun account member => (special account member).valid⟩
  | create _ now o validates ih =>
      exact ih.addAccount (storedPercent_le now validates)
  | deploy _ ih =>
      exact ih.addAccount (by decide)
  | upgrade _ id found ih =>
      refine ⟨ih.parameters,
        ih.pendingParameters, ?_⟩
      intro account member
      rcases List.mem_or_eq_of_mem_set member with older | rfl
      · exact ih.accounts account older
      · exact (ih.accounts _
          (List.mem_of_getElem? found)).upgrade
  | update _ parameters validates ih =>
      refine ⟨ih.parameters, ?_, ih.accounts⟩
      intro other isPending
      cases isPending
      exact validate_parameters validates
  | maintain _ ih =>
      unfold PercentState.takeParameters
      split
      · exact ih
      · next parameters isPending =>
          exact ⟨ih.pendingParameters parameters isPending,
            (fun _ isNone => nomatch isNone), ih.accounts⟩

end Reached

end GxbCore.Ledger
