import GxbCore.Protocol.Authority

/-!
# What verify_authority accepts

`grounded` is what an approval means, without a search: an authority is grounded
at a depth when its threshold is reached by the keys that signed, the accounts
approved from the start, and the accounts whose active authority is grounded one
level below.

Every account that the search remembers is one of these, and every authority
that it takes as met is grounded at some depth.  The other way round the search
finds whatever is grounded within its depth, except that the sum of weights has
32 bits: an authority whose threshold is close to `2 ^ 32` can be passed over.
-/

namespace GxbCore.Protocol

variable {K : Type} [DecidableEq K]

namespace Signatures

section Meaning

variable (signatures : Signatures K)

def reached (approves : AccountId → Bool) (auth : Authority K) : Bool :=
  decide
    (auth.weightThreshold.toNat ≤
      (weights (fun key => key ∈ signatures.sigs) auth.keyAuths).sum +
        (weights (fun account => approves account = true)
          auth.accountAuths).sum)

/-- An authority has a derivation of at most this nesting depth. -/
def grounded : Nat → Authority K → Bool
  | 0, auth =>
      signatures.reached
        (fun account => decide (account ∈ signatures.approved)) auth
  | depth + 1, auth =>
      signatures.reached
        (fun account =>
          decide (account ∈ signatures.approved) ||
            (signatures.getActive account).any (grounded depth)) auth

/-- An account approves: from the start, or with a derivation of at most this
nesting depth for its active authority. -/
def approvesWithin (depth : Nat) (account : AccountId) : Prop :=
  account ∈ signatures.approved ∨
    (signatures.getActive account).any (signatures.grounded depth) = true

def Approves (account : AccountId) : Prop :=
  ∃ depth, signatures.approvesWithin depth account

/-- Every required authority has a derivation of at most this nesting depth; an
active one may be met by the owner authority of the account. -/
structure Met (depth : Nat) (required : Required K) : Prop where
  other :
    ∀ auth ∈ required.other, signatures.grounded depth auth = true
  active :
    ∀ id ∈ required.active,
      signatures.approvesWithin depth id ∨
        (signatures.getOwner id).any (signatures.grounded depth) = true
  owner :
    ∀ id ∈ required.owner,
      id ∈ signatures.ownerApprovals ∨
        (signatures.getOwner id).any (signatures.grounded depth) = true

/-- The authorities that the search can come across. -/
inductive Involved (required : Required K) : Authority K → Prop
  | other {auth : Authority K} (isOther : auth ∈ required.other) :
      Involved required auth
  | active {auth : Authority K} {id : AccountId}
      (isRequired : id ∈ required.active)
      (isActive : signatures.getActive id = some auth) :
      Involved required auth
  | activeOwner {auth : Authority K} {id : AccountId}
      (isRequired : id ∈ required.active)
      (isOwner : signatures.getOwner id = some auth) :
      Involved required auth
  | owner {auth : Authority K} {id : AccountId}
      (isRequired : id ∈ required.owner)
      (isOwner : signatures.getOwner id = some auth) :
      Involved required auth
  | nested {upper auth : Authority K} {entry : AccountId × UInt16}
      (involved : Involved required upper)
      (member : entry ∈ upper.accountAuths)
      (isActive : signatures.getActive entry.1 = some auth) :
      Involved required auth

open Classical in
noncomputable def metWeights (auth : Authority K) : List Nat :=
  weights (fun key => key ∈ signatures.sigs) auth.keyAuths ++
    weights signatures.Approves auth.accountAuths

end Meaning

section Depth

variable {signatures : Signatures K} {auth : Authority K}

theorem reached_mono {approves approves' : AccountId → Bool}
    (implies : ∀ account, approves account = true → approves' account = true)
    (isReached : signatures.reached approves auth = true) :
    signatures.reached approves' auth = true := by
  simp only [reached, decide_eq_true_eq] at isReached ⊢
  have more :=
    @weights_sum_mono AccountId (fun account => approves account = true)
      (fun account => approves' account = true) _ _ auth.accountAuths
      (fun entry _ => implies entry.1)
  omega

theorem grounded_succ {depth : Nat}
    (isGrounded : signatures.grounded depth auth = true) :
    signatures.grounded (depth + 1) auth = true := by
  induction depth generalizing auth with
  | zero =>
      refine reached_mono ?_ isGrounded
      intro account isApproved
      simp only [isApproved, Bool.true_or]
  | succ depth ih =>
      refine reached_mono ?_ isGrounded
      intro account approves
      simp only [Bool.or_eq_true, Option.any_eq_true] at approves ⊢
      rcases approves with isApproved | ⟨active, isActive, below⟩
      · exact Or.inl isApproved
      · exact Or.inr ⟨active, isActive, ih below⟩

theorem grounded_mono {few many : Nat} (fewer : few ≤ many)
    (isGrounded : signatures.grounded few auth = true) :
    signatures.grounded many auth = true := by
  induction many with
  | zero =>
      obtain rfl : few = 0 := by omega
      exact isGrounded
  | succ many ih =>
      by_cases same : few = many + 1
      · exact same ▸ isGrounded
      · exact grounded_succ (ih (by omega))

theorem approvesWithin_mono {few many : Nat} {account : AccountId}
    (fewer : few ≤ many) (approves : signatures.approvesWithin few account) :
    signatures.approvesWithin many account := by
  rcases approves with isApproved | below
  · exact Or.inl isApproved
  · simp only [Option.any_eq_true] at below
    obtain ⟨active, isActive, isGrounded⟩ := below
    refine Or.inr ?_
    simp only [Option.any_eq_true]
    exact ⟨active, isActive, grounded_mono fewer isGrounded⟩

theorem common_depth {α : Type} {holds : Nat → α → Prop}
    (mono : ∀ few many item, few ≤ many → holds few item → holds many item)
    {items : List α} (each : ∀ item ∈ items, ∃ depth, holds depth item) :
    ∃ depth, ∀ item ∈ items, holds depth item := by
  induction items with
  | nil => exact ⟨0, by simp⟩
  | cons first rest ih =>
      obtain ⟨own, isFirst⟩ := each first List.mem_cons_self
      obtain ⟨depth, areRest⟩ :=
        ih
          (fun item member => each item (List.mem_cons_of_mem _ member))
      refine ⟨max own depth, ?_⟩
      intro item member
      rcases List.mem_cons.mp member with same | inRest
      · rw [same]
        exact mono _ _ _ (Nat.le_max_left _ _) isFirst
      · exact mono _ _ _ (Nat.le_max_right _ _) (areRest item inRest)

open Classical in
theorem grounded_of_approves
    (isReached :
      auth.weightThreshold.toNat ≤
        (weights (fun key => key ∈ signatures.sigs) auth.keyAuths).sum +
          (weights signatures.Approves auth.accountAuths).sum) :
    ∃ depth, signatures.grounded depth auth = true := by
  obtain ⟨depth, together⟩ :
      ∃ depth, ∀ entry ∈ auth.accountAuths,
        signatures.Approves entry.1 →
          signatures.approvesWithin depth entry.1 := by
    refine common_depth ?_ ?_
    · intro few many entry fewer within approves
      exact approvesWithin_mono fewer (within approves)
    · intro entry _
      by_cases approves : signatures.Approves entry.1
      · obtain ⟨depth, within⟩ := approves
        exact ⟨depth, fun _ => within⟩
      · exact ⟨0, fun approvesToo => absurd approvesToo approves⟩
  refine ⟨depth + 1, ?_⟩
  simp only [grounded, reached, decide_eq_true_eq]
  refine Nat.le_trans isReached (Nat.add_le_add_left ?_ _)
  apply weights_sum_mono
  intro entry member approves
  simp only [Bool.or_eq_true, decide_eq_true_eq]
  exact together entry member approves

end Depth

/-- The same accounts, with more keys and more approvals. -/
structure Grows (few many : Signatures K) : Prop where
  sigs : few.sigs ⊆ many.sigs
  getActive : many.getActive = few.getActive
  getOwner : many.getOwner = few.getOwner
  activeApprovals : few.activeApprovals ⊆ many.activeApprovals
  ownerApprovals : few.ownerApprovals ⊆ many.ownerApprovals

section Grow

variable {few many : Signatures K} {depth : Nat} {auth : Authority K}

omit [DecidableEq K] in
theorem Grows.approved (grows : Grows few many) :
    few.approved ⊆ many.approved := by
  intro account isApproved
  simp only [Signatures.approved, List.mem_append] at isApproved ⊢
  exact isApproved.imp_left
    (Or.imp (fun owner => grows.ownerApprovals owner)
      fun active => grows.activeApprovals active)

theorem Grows.reached (grows : Grows few many)
    {approves approves' : AccountId → Bool}
    (implies : ∀ account, approves account = true → approves' account = true)
    (isReached : few.reached approves auth = true) :
    many.reached approves' auth = true := by
  simp only [Signatures.reached, decide_eq_true_eq] at isReached ⊢
  have keys :=
    @weights_sum_mono K (fun key => key ∈ few.sigs)
      (fun key => key ∈ many.sigs) _ _ auth.keyAuths
      (fun _ _ member => grows.sigs member)
  have accounts :=
    @weights_sum_mono AccountId (fun account => approves account = true)
      (fun account => approves' account = true) _ _ auth.accountAuths
      (fun entry _ => implies entry.1)
  omega

theorem Grows.grounded (grows : Grows few many)
    (isGrounded : few.grounded depth auth = true) :
    many.grounded depth auth = true := by
  induction depth generalizing auth with
  | zero =>
      refine grows.reached ?_ isGrounded
      intro account isApproved
      rw [decide_eq_true_eq] at isApproved ⊢
      exact grows.approved isApproved
  | succ depth ih =>
      refine grows.reached ?_ isGrounded
      intro account approves
      simp only [Bool.or_eq_true, decide_eq_true_eq, Option.any_eq_true]
        at approves ⊢
      rw [grows.getActive]
      rcases approves with isApproved | ⟨active, isActive, below⟩
      · exact .inl (grows.approved isApproved)
      · exact .inr ⟨active, isActive, ih below⟩

theorem Grows.anyGrounded (grows : Grows few many)
    {found : Option (Authority K)}
    (isGrounded : found.any (few.grounded depth) = true) :
    found.any (many.grounded depth) = true := by
  rw [Option.any_eq_true] at isGrounded ⊢
  obtain ⟨auth, isFound, below⟩ := isGrounded
  exact ⟨auth, isFound, grows.grounded below⟩

theorem Grows.met (grows : Grows few many) {required : Required K}
    (met : few.Met depth required) : many.Met depth required where
  other auth member := grows.grounded (met.other auth member)
  active id member := by
    rw [Signatures.approvesWithin, grows.getActive, grows.getOwner]
    exact (met.active id member).imp
      (Or.imp (fun isApproved => grows.approved isApproved)
        fun below => grows.anyGrounded below)
      fun owner => grows.anyGrounded owner
  owner id member := by
    rw [grows.getOwner]
    exact (met.owner id member).imp
      (fun isApproved => grows.ownerApprovals isApproved)
      fun owner => grows.anyGrounded owner

end Grow

end Signatures

section Search

variable {signatures : Signatures K}

/-- The keys of the state are those that signed, and every account it remembers
approves. -/
structure Sound (signatures : Signatures K) (state : SignState K) :
    Prop where
  keys :
    ∀ key, (state.providedSignatures key).isSome ↔ key ∈ signatures.sigs
  remembers : ∀ account ∈ signatures.approved, account ∈ state.approvedBy
  approves : ∀ account ∈ state.approvedBy, signatures.Approves account

theorem Sound.start (signatures : Signatures K) :
    Sound signatures signatures.start :=
  { keys := by
      intro key
      simp only [Signatures.start]
      split
      · simp [*]
      · simp [*]
    remembers := fun _ isApproved => isApproved
    approves := fun _ isApproved => ⟨0, Or.inl isApproved⟩ }

theorem Sound.use {state : SignState K} (sound : Sound signatures state)
    {key : K} (signed : key ∈ signatures.sigs) :
    Sound signatures (state.use key) :=
  { keys := by
      intro other
      simp only [SignState.use]
      split
      · rename_i same
        simp [same, signed]
      · exact sound.keys other
    remembers := sound.remembers
    approves := sound.approves }

theorem signedBy_checks (signatures : Signatures K) (key : K) :
    Checks (signedBy signatures.context) (Sound signatures)
      (fun key => key ∈ signatures.sigs)
      (fun key => key ∈ signatures.sigs) key := by
  have cases :
      ∀ state, Sound signatures state →
        signedBy signatures.context key state =
          if key ∈ signatures.sigs then (true, state.use key)
          else (false, state) := by
    intro state sound
    have isKey := sound.keys key
    unfold signedBy
    split
    · rename_i used provided
      rw [provided] at isKey
      rw [if_pos (isKey.mp rfl)]
    · rename_i provided
      rw [provided] at isKey
      have notSigned : key ∉ signatures.sigs := by simpa using isKey
      have notAvailable : key ∉ signatures.context.availableKeys := by
        simp [Signatures.context]
      rw [if_neg notSigned, if_neg notAvailable]
  constructor
  · intro state sound
    rw [cases state sound]
    split
    · rename_i signed
      exact sound.use signed
    · exact sound
  · intro state sound
    rw [cases state sound]
    split
    · rename_i signed
      exact fun _ => signed
    · intro impossible
      cases impossible
  · intro state sound signed
    rw [cases state sound, if_pos signed]

/-- What the check of one account does, from what the search below it does. -/
theorem checkAccount_checks {must : AccountId → Prop}
    {below : Option (AccountId → SignState K → Bool × SignState K)}
    {account : AccountId}
    (kept :
      ∀ check, below = some check → ∀ state, Sound signatures state →
        Sound signatures (check account state).2 ∧
          ((check account state).1 = true → signatures.Approves account))
    (complete :
      must account → account ∉ signatures.approved →
        ∃ check, below = some check ∧ ∀ state, Sound signatures state →
          (check account state).1 = true) :
    Checks (checkAccount below) (Sound signatures) signatures.Approves
      must account := by
  constructor
  · intro state sound
    unfold checkAccount
    split
    · exact sound
    · split
      · exact sound
      · rename_i check
        have spec := kept check rfl state sound
        split
        · rename_i next checked
          rw [checked] at spec
          exact
            { keys := spec.1.keys
              remembers := fun other isApproved =>
                List.mem_cons_of_mem _ (spec.1.remembers other isApproved)
              approves := by
                intro other member
                rcases List.mem_cons.mp member with same | older
                · rw [same]
                  exact spec.2 rfl
                · exact spec.1.approves other older }
        · rename_i next checked
          rw [checked] at spec
          exact spec.1
  · intro state sound
    unfold checkAccount
    split
    · rename_i remembered
      exact fun _ => sound.approves account remembered
    · split
      · intro impossible
        cases impossible
      · rename_i check
        have spec := kept check rfl state sound
        split
        · rename_i next checked
          rw [checked] at spec
          exact spec.2
        · intro impossible
          cases impossible
  · intro state sound required
    unfold checkAccount
    split
    · rfl
    · rename_i notRemembered
      have notApproved : account ∉ signatures.approved :=
        fun isApproved => notRemembered (sound.remembers _ isApproved)
      obtain ⟨check, isBelow, found⟩ := complete required notApproved
      have checked := found state sound
      subst isBelow
      simp only
      split
      · rfl
      · rename_i next failed
        rw [failed] at checked
        exact checked

section Entries

variable {must : AccountId → Prop} {auth : Authority K}
  {below : Option (AccountId → SignState K → Bool × SignState K)}
  {state : SignState K}

theorem keyAuths_checks (signatures : Signatures K) (auth : Authority K) :
    ∀ entry ∈ auth.keyAuths,
      Checks (signedBy signatures.context) (Sound signatures)
        (fun key => key ∈ signatures.sigs)
        (fun key => key ∈ signatures.sigs) entry.1 :=
  fun entry _ => signedBy_checks signatures entry.1

open Classical in
theorem checkEntries_sound
    (checks :
      ∀ entry ∈ auth.accountAuths,
        Checks (checkAccount below) (Sound signatures)
          signatures.Approves must entry.1)
    (sound : Sound signatures state) :
    Sound signatures
        (checkEntries signatures.context auth below state).2 ∧
      ((checkEntries signatures.context auth below state).1 = true →
        ∃ depth, signatures.grounded depth auth = true) := by
  have keyChecks := keyAuths_checks signatures auth
  have keysSound :=
    @weigh_keeps K (SignState K) (signedBy signatures.context)
      auth.weightThreshold auth.keyAuths 0 state _ _ _ keyChecks sound
  have keysLow :=
    @weigh_total_le K (SignState K) (signedBy signatures.context)
      auth.weightThreshold auth.keyAuths 0 state _ _ _ _ keyChecks sound
  unfold checkEntries
  generalize keysEq :
    weigh (signedBy signatures.context) auth.weightThreshold
      auth.keyAuths 0 state = keys at keysSound keysLow ⊢
  have accountsSound :=
    @weigh_keeps AccountId (SignState K) (checkAccount below)
      auth.weightThreshold auth.accountAuths keys.total keys.state _ _ _
      checks keysSound
  have accountsLow :=
    @weigh_total_le AccountId (SignState K) (checkAccount below)
      auth.weightThreshold auth.accountAuths keys.total keys.state _ _ _ _
      checks keysSound
  simp only [UInt32.toNat_zero] at keysLow
  simp only
  split
  · -- the keys are enough
    rename_i met
    refine ⟨keysSound, fun _ => Signatures.grounded_of_approves ?_⟩
    rw [← keysEq] at met
    have isReached := weigh_met met
    rw [keysEq, UInt32.le_iff_toNat_le] at isReached
    omega
  · split
    · rename_i met
      refine ⟨accountsSound, fun _ => Signatures.grounded_of_approves ?_⟩
      have isReached := weigh_met met
      rw [UInt32.le_iff_toNat_le] at isReached
      omega
    · refine ⟨accountsSound, fun isReached =>
        Signatures.grounded_of_approves ?_⟩
      rw [decide_eq_true_eq, UInt32.le_iff_toNat_le] at isReached
      omega

open Classical in
/-- Where no sum jumps, the two loops find the approvals that they must. -/
theorem checkEntries_complete [DecidablePred must]
    (checks :
      ∀ entry ∈ auth.accountAuths,
        Checks (checkAccount below) (Sound signatures)
          signatures.Approves must entry.1)
    (sound : Sound signatures state)
    (noJump : NoJump auth.weightThreshold 0 (signatures.metWeights auth))
    (isReached :
      auth.weightThreshold.toNat ≤
        (weights (fun key => key ∈ signatures.sigs) auth.keyAuths).sum +
          (weights must auth.accountAuths).sum) :
    (checkEntries signatures.context auth below state).1 = true := by
  have keyChecks := keyAuths_checks signatures auth
  obtain ⟨keysNoJump, accountsNoJump⟩ := noJump.of_append
  have keysSound :=
    @weigh_keeps K (SignState K) (signedBy signatures.context)
      auth.weightThreshold auth.keyAuths 0 state _ _ _ keyChecks sound
  have keysLow :=
    @weigh_total_le K (SignState K) (signedBy signatures.context)
      auth.weightThreshold auth.keyAuths 0 state _ _ _ _ keyChecks sound
  have keysHigh :=
    @weigh_total_ge K (SignState K) (signedBy signatures.context)
      auth.weightThreshold auth.keyAuths 0 state _ _ _ _ _ keyChecks sound
      keysNoJump
  have keysBelow :=
    @weigh_not_met K (SignState K) (signedBy signatures.context)
      auth.weightThreshold auth.keyAuths 0 state
  unfold checkEntries
  generalize
    weigh (signedBy signatures.context) auth.weightThreshold
      auth.keyAuths 0 state = keys at keysSound keysLow keysHigh keysBelow ⊢
  simp only
  split
  · rfl
  · rename_i notMet
    have notMet := Bool.eq_false_iff.mpr notMet
    split
    · rfl
    · rename_i notMetToo
      have notMetToo := Bool.eq_false_iff.mpr notMetToo
      rw [decide_eq_true_eq]
      by_cases zero : auth.weightThreshold.toNat = 0
      · rw [UInt32.le_iff_toNat_le]
        omega
      · have positive : (0 : UInt32) < auth.weightThreshold := by
          rw [UInt32.lt_iff_toNat_lt]
          exact Nat.pos_of_ne_zero zero
        have exactly :
            keys.total.toNat =
              0 + (weights (fun key => key ∈ signatures.sigs)
                auth.keyAuths).sum :=
          Nat.le_antisymm keysLow
            (keysHigh (UInt32.lt_iff_toNat_lt.mp positive) notMet)
        rw [← exactly] at accountsNoJump
        have accountsHigh :=
          weigh_total_ge checks keysSound accountsNoJump
            (UInt32.lt_iff_toNat_lt.mp (keysBelow positive notMet))
            notMetToo
        rw [UInt32.le_iff_toNat_le]
        omega

end Entries

theorem approves_of_grounded {account : AccountId} {auth : Authority K}
    {depth : Nat} (isActive : signatures.getActive account = some auth)
    (isGrounded : signatures.grounded depth auth = true) :
    signatures.approvesWithin depth account := by
  refine Or.inr ?_
  rw [isActive]
  exact isGrounded

/-- `check_authority` accepts only what has a derivation. -/
theorem checkAuthority_sound (remaining : Nat) {auth : Option (Authority K)}
    {state : SignState K} (sound : Sound signatures state) :
    Sound signatures
        (checkAuthority signatures.context remaining auth state).2 ∧
      ((checkAuthority signatures.context remaining auth state).1 =
          true →
        ∃ found depth, auth = some found ∧
          signatures.grounded depth found = true) := by
  induction remaining generalizing auth state with
  | zero =>
      cases auth with
      | none => exact ⟨sound, fun impossible => by cases impossible⟩
      | some auth =>
          have checks :
              ∀ entry ∈ auth.accountAuths,
                Checks (checkAccount none) (Sound signatures)
                  signatures.Approves (fun _ => False) entry.1 :=
            fun entry _ =>
              checkAccount_checks (fun check isBelow => by cases isBelow)
                (fun impossible => impossible.elim)
          obtain ⟨kept, found⟩ := checkEntries_sound checks sound
          refine ⟨kept, fun met => ?_⟩
          obtain ⟨depth, isGrounded⟩ := found met
          exact ⟨auth, depth, rfl, isGrounded⟩
  | succ remaining ih =>
      cases auth with
      | none => exact ⟨sound, fun impossible => by cases impossible⟩
      | some auth =>
          have checks :
              ∀ entry ∈ auth.accountAuths,
                Checks
                  (checkAccount
                    (some fun account =>
                      checkAuthority signatures.context remaining
                        (signatures.context.getActive account)))
                  (Sound signatures) signatures.Approves
                  (fun _ => False) entry.1 := by
            intro entry _
            refine checkAccount_checks ?_
              (fun impossible => impossible.elim)
            intro check isBelow before soundBefore
            cases isBelow
            obtain ⟨kept, found⟩ := ih soundBefore
            refine ⟨kept, fun met => ?_⟩
            obtain ⟨active, depth, isActive, isGrounded⟩ := found met
            exact ⟨depth, approves_of_grounded isActive isGrounded⟩
          obtain ⟨kept, found⟩ := checkEntries_sound checks sound
          refine ⟨kept, fun met => ?_⟩
          obtain ⟨depth, isGrounded⟩ := found met
          exact ⟨auth, depth, rfl, isGrounded⟩

/-- `check_authority` finds the derivations within its depth, where no sum
jumps. -/
theorem checkAuthority_complete {involved : Authority K → Prop}
    (bounded :
      ∀ auth, involved auth →
        NoJump auth.weightThreshold 0 (signatures.metWeights auth))
    (closed :
      ∀ upper auth entry, involved upper →
        entry ∈ upper.accountAuths →
        signatures.getActive entry.1 = some auth → involved auth)
    (remaining : Nat) {auth : Authority K} {state : SignState K}
    (sound : Sound signatures state) (isInvolved : involved auth)
    (isGrounded : signatures.grounded remaining auth = true) :
    (checkAuthority signatures.context remaining (some auth) state).1 =
      true := by
  classical
  induction remaining generalizing auth state with
  | zero =>
      have checks :
          ∀ entry ∈ auth.accountAuths,
            Checks (checkAccount none) (Sound signatures)
              signatures.Approves
              (fun account => account ∈ signatures.approved) entry.1 :=
        fun entry _ =>
          checkAccount_checks (fun check isBelow => by cases isBelow)
            (fun isApproved notApproved =>
              absurd isApproved notApproved)
      refine checkEntries_complete checks sound
        (bounded auth isInvolved) ?_
      simp only [Signatures.grounded, Signatures.reached,
        decide_eq_true_eq] at isGrounded
      exact isGrounded
  | succ remaining ih =>
      have checks :
          ∀ entry ∈ auth.accountAuths,
            Checks
              (checkAccount
                (some fun account =>
                  checkAuthority signatures.context remaining
                    (signatures.context.getActive account)))
              (Sound signatures) signatures.Approves
              (signatures.approvesWithin remaining) entry.1 := by
        intro entry member
        refine checkAccount_checks ?_ ?_
        · intro check isBelow before soundBefore
          cases isBelow
          obtain ⟨kept, found⟩ :=
            checkAuthority_sound remaining soundBefore
          refine ⟨kept, fun met => ?_⟩
          obtain ⟨active, depth, isActive, grounded⟩ := found met
          exact ⟨depth, approves_of_grounded isActive grounded⟩
        · intro approves notApproved
          refine ⟨_, rfl, ?_⟩
          intro before soundBefore
          rcases approves with isApproved | below
          · exact absurd isApproved notApproved
          · rw [Option.any_eq_true] at below
            obtain ⟨active, isActive, grounded⟩ := below
            have contextActive :
                signatures.context.getActive entry.1 = some active :=
              isActive
            rw [contextActive]
            exact ih soundBefore
              (closed auth active entry isInvolved member isActive)
              grounded
      refine checkEntries_complete checks sound
        (bounded auth isInvolved) ?_
      simp only [Signatures.grounded, Signatures.reached,
        decide_eq_true_eq] at isGrounded
      refine Nat.le_trans isGrounded (Nat.add_le_add_left ?_ _)
      apply weights_sum_mono
      intro entry _ approves
      simpa [Signatures.approvesWithin] using approves

end Search

section Verify

variable {Op : Type} {requires : Op → Required K} {ops : List Op}
  {signatures : Signatures K}

def AuthorityFault.missing : AuthorityFault K → Bool
  | .missingOtherAuth _ => true
  | .missingActiveAuth _ => true
  | .missingOwnerAuth _ => true
  | .invalidCommitteeApproval => false
  | .irrelevantSig => false

variable {before after : SignState K}

/-- What one round of the three loops says when it returns. -/
theorem checkOther_sound {auth : Authority K} (sound : Sound signatures before)
    (returns : signatures.checkOther auth before = .ok after) :
    Sound signatures after ∧
      ∃ depth, signatures.grounded depth auth = true := by
  obtain ⟨kept, found⟩ :=
    @checkAuthority_sound K _ signatures signatures.maxRecursionDepth
      (some auth) before sound
  unfold Signatures.checkOther at returns
  split at returns
  · rename_i next checked
    rw [checked] at kept found
    cases returns
    obtain ⟨same, depth, isSame, isGrounded⟩ := found rfl
    cases isSame
    exact ⟨kept, depth, isGrounded⟩
  · cases returns

theorem checkAccountAuthority_sound {id : AccountId}
    {state : SignState K} (sound : Sound signatures state) :
    Sound signatures
        (checkAccountAuthority signatures.context
          signatures.maxRecursionDepth id state).2 ∧
      ((checkAccountAuthority signatures.context
          signatures.maxRecursionDepth id state).1 = true →
        ∃ depth, signatures.approvesWithin depth id) := by
  unfold checkAccountAuthority
  split
  · rename_i remembered
    exact ⟨sound, fun _ => sound.approves id remembered⟩
  · obtain ⟨kept, found⟩ :=
      @checkAuthority_sound K _ signatures signatures.maxRecursionDepth
        (signatures.getActive id) state sound
    refine ⟨kept, fun met => ?_⟩
    obtain ⟨active, depth, isActive, isGrounded⟩ := found met
    exact ⟨depth, approves_of_grounded isActive isGrounded⟩

theorem checkOwnerAuthority_sound {id : AccountId}
    {state : SignState K} (sound : Sound signatures state)
    (met :
      (checkAuthority signatures.context signatures.maxRecursionDepth
        (signatures.getOwner id) state).1 = true) :
    ∃ depth,
      (signatures.getOwner id).any (signatures.grounded depth) = true := by
  obtain ⟨_, found⟩ :=
    @checkAuthority_sound K _ signatures signatures.maxRecursionDepth
      (signatures.getOwner id) state sound
  obtain ⟨owner, depth, isOwner, isGrounded⟩ := found met
  refine ⟨depth, ?_⟩
  rw [isOwner]
  exact isGrounded

theorem checkActive_sound {id : AccountId} (sound : Sound signatures before)
    (returns : signatures.checkActive id before = .ok after) :
    Sound signatures after ∧
      ∃ depth, signatures.approvesWithin depth id ∨
        (signatures.getOwner id).any (signatures.grounded depth) =
          true := by
  obtain ⟨kept, found⟩ :=
    @checkAccountAuthority_sound K _ signatures id before sound
  unfold Signatures.checkActive at returns
  split at returns
  · rename_i next checked
    rw [checked] at kept found
    cases returns
    obtain ⟨depth, approves⟩ := found rfl
    exact ⟨kept, depth, Or.inl approves⟩
  · rename_i next checked
    rw [checked] at kept
    have owner :=
      @checkOwnerAuthority_sound K _ signatures id next kept
    have keptOwner :=
      (@checkAuthority_sound K _ signatures signatures.maxRecursionDepth
        (signatures.getOwner id) next kept).1
    split at returns
    · rename_i last checkedOwner
      rw [checkedOwner] at owner keptOwner
      cases returns
      obtain ⟨depth, isGrounded⟩ := owner rfl
      exact ⟨keptOwner, depth, Or.inr isGrounded⟩
    · cases returns

theorem checkOwner_sound {id : AccountId} (sound : Sound signatures before)
    (returns : signatures.checkOwner id before = .ok after) :
    Sound signatures after ∧
      ∃ depth, id ∈ signatures.ownerApprovals ∨
        (signatures.getOwner id).any (signatures.grounded depth) =
          true := by
  unfold Signatures.checkOwner at returns
  split at returns
  · rename_i isApproved
    cases returns
    exact ⟨sound, 0, Or.inl isApproved⟩
  · have owner :=
      @checkOwnerAuthority_sound K _ signatures id before sound
    have kept :=
      (@checkAuthority_sound K _ signatures signatures.maxRecursionDepth
        (signatures.getOwner id) before sound).1
    split at returns
    · rename_i last checked
      rw [checked] at owner kept
      cases returns
      obtain ⟨depth, isGrounded⟩ := owner rfl
      exact ⟨kept, depth, Or.inr isGrounded⟩
    · cases returns

theorem any_grounded_mono {auth : Option (Authority K)} {few many : Nat}
    (fewer : few ≤ many)
    (isGrounded : auth.any (signatures.grounded few) = true) :
    auth.any (signatures.grounded many) = true := by
  rw [Option.any_eq_true] at isGrounded ⊢
  obtain ⟨found, isFound, grounded⟩ := isGrounded
  exact ⟨found, isFound, Signatures.grounded_mono fewer grounded⟩

/-- The three loops return only when every required authority has a
derivation. -/
theorem verifyAuthority_sound {state : SignState K}
    (returns : verifyAuthority requires ops signatures = .ok state) :
    ∃ depth,
      signatures.Met depth (getRequiredAuthorities requires ops) := by
  unfold verifyAuthority at returns
  generalize getRequiredAuthorities requires ops = required at returns ⊢
  simp only at returns
  split at returns
  · cases returns
  · obtain ⟨afterOther, otherReturns, returns⟩ :=
      Outcome.bind_eq_ok.mp returns
    obtain ⟨afterActive, activeReturns, returns⟩ :=
      Outcome.bind_eq_ok.mp returns
    obtain ⟨afterOwner, ownerReturns, _⟩ :=
      Outcome.bind_eq_ok.mp returns
    obtain ⟨soundOther, other⟩ :=
      @forEach_ok_all _ _ _ signatures.checkOther (Sound signatures) _
        required.other _ _
        (fun auth _ before after sound => checkOther_sound sound)
        (Sound.start signatures) otherReturns
    obtain ⟨soundActive, active⟩ :=
      @forEach_ok_all _ _ _ signatures.checkActive (Sound signatures) _
        required.active _ _
        (fun id _ before after sound => checkActive_sound sound)
        soundOther activeReturns
    obtain ⟨_, owner⟩ :=
      @forEach_ok_all _ _ _ signatures.checkOwner (Sound signatures) _
        required.owner _ _
        (fun id _ before after sound => checkOwner_sound sound)
        soundActive ownerReturns
    obtain ⟨otherDepth, otherMet⟩ :=
      @Signatures.common_depth _
        (fun depth auth => signatures.grounded depth auth = true)
        (fun few many auth fewer =>
          Signatures.grounded_mono fewer) _ other
    obtain ⟨activeDepth, activeMet⟩ :=
      @Signatures.common_depth _
        (fun depth id =>
          signatures.approvesWithin depth id ∨
            (signatures.getOwner id).any (signatures.grounded depth) =
              true)
        (fun few many id fewer met =>
          met.imp (Signatures.approvesWithin_mono fewer)
            (any_grounded_mono fewer)) _ active
    obtain ⟨ownerDepth, ownerMet⟩ :=
      @Signatures.common_depth _
        (fun depth id =>
          id ∈ signatures.ownerApprovals ∨
            (signatures.getOwner id).any (signatures.grounded depth) =
              true)
        (fun few many id fewer met =>
          met.imp (fun isApproved => isApproved)
            (any_grounded_mono fewer)) _ owner
    refine ⟨max otherDepth (max activeDepth ownerDepth), ?_, ?_, ?_⟩
    · intro auth member
      exact Signatures.grounded_mono (by omega) (otherMet auth member)
    · intro id member
      exact (activeMet id member).imp
        (Signatures.approvesWithin_mono (by omega))
        (any_grounded_mono (by omega))
    · intro id member
      exact (ownerMet id member).imp (fun isApproved => isApproved)
        (any_grounded_mono (by omega))

section Complete

variable {required : Required K}

/-- No sum jumps in any authority that the search can come across. -/
def Bounded (signatures : Signatures K) (required : Required K) : Prop :=
  ∀ auth, signatures.Involved required auth →
    NoJump auth.weightThreshold 0 (signatures.metWeights auth)

theorem Bounded.check (bounded : Bounded signatures required)
    {auth : Authority K} {state : SignState K} (sound : Sound signatures state)
    (isInvolved : signatures.Involved required auth)
    (isGrounded :
      signatures.grounded signatures.maxRecursionDepth auth = true) :
    ∃ after,
      checkAuthority signatures.context signatures.maxRecursionDepth
        (some auth) state = (true, after) ∧ Sound signatures after := by
  have met :=
    checkAuthority_complete bounded
      (fun upper auth entry isUpper member isActive =>
        .nested isUpper member isActive)
      signatures.maxRecursionDepth sound isInvolved isGrounded
  have kept :=
    (@checkAuthority_sound K _ signatures signatures.maxRecursionDepth
      (some auth) state sound).1
  generalize
    checkAuthority signatures.context signatures.maxRecursionDepth
      (some auth) state = result at met kept ⊢
  obtain ⟨found, after⟩ := result
  cases met
  exact ⟨after, rfl, kept⟩

theorem Bounded.checkOther (bounded : Bounded signatures required)
    (met : signatures.Met signatures.maxRecursionDepth required)
    {auth : Authority K} (member : auth ∈ required.other)
    {before : SignState K} (sound : Sound signatures before) :
    ∃ after, signatures.checkOther auth before = .ok after ∧
      Sound signatures after := by
  obtain ⟨after, found, kept⟩ :=
    bounded.check sound (.other member) (met.other auth member)
  refine ⟨after, ?_, kept⟩
  simp only [Signatures.checkOther, found]

theorem Bounded.checkActive (bounded : Bounded signatures required)
    (met : signatures.Met signatures.maxRecursionDepth required)
    {id : AccountId} (member : id ∈ required.active)
    {before : SignState K} (sound : Sound signatures before) :
    ∃ after, signatures.checkActive id before = .ok after ∧
      Sound signatures after := by
  have kept :=
    (@checkAccountAuthority_sound K _ signatures id before sound).1
  cases checked :
      checkAccountAuthority signatures.context
        signatures.maxRecursionDepth id before with
  | mk found after =>
      rw [checked] at kept
      cases found with
      | true =>
          refine ⟨after, ?_, kept⟩
          simp only [Signatures.checkActive, checked]
      | false =>
          -- the account does not approve, so its owner authority is met
          rcases met.active id member with approves | isGrounded
          · exfalso
            unfold checkAccountAuthority at checked
            split at checked
            · cases checked
            · rename_i notRemembered
              rcases approves with isApproved | active
              · exact notRemembered (sound.remembers id isApproved)
              · rw [Option.any_eq_true] at active
                obtain ⟨auth, isActive, isGrounded⟩ := active
                obtain ⟨_, found, _⟩ :=
                  bounded.check sound (.active member isActive) isGrounded
                have contextActive :
                    signatures.context.getActive id = some auth :=
                  isActive
                rw [contextActive, found] at checked
                cases checked
          · rw [Option.any_eq_true] at isGrounded
            obtain ⟨auth, isOwner, grounded⟩ := isGrounded
            obtain ⟨last, found, keptLast⟩ :=
              bounded.check kept (.activeOwner member isOwner) grounded
            refine ⟨last, ?_, keptLast⟩
            simp only [Signatures.checkActive, checked, isOwner, found]

theorem Bounded.checkOwner (bounded : Bounded signatures required)
    (met : signatures.Met signatures.maxRecursionDepth required)
    {id : AccountId} (member : id ∈ required.owner)
    {before : SignState K} (sound : Sound signatures before) :
    ∃ after, signatures.checkOwner id before = .ok after ∧
      Sound signatures after := by
  unfold Signatures.checkOwner
  split
  · exact ⟨before, rfl, sound⟩
  · rename_i notApproved
    rcases met.owner id member with isApproved | isGrounded
    · exact absurd isApproved notApproved
    · rw [Option.any_eq_true] at isGrounded
      obtain ⟨auth, isOwner, grounded⟩ := isGrounded
      obtain ⟨after, found, kept⟩ :=
        bounded.check sound (.owner member isOwner) grounded
      refine ⟨after, ?_, kept⟩
      simp only [isOwner, found]

end Complete

end Verify

open Classical in
/-- Ordinary weights do not add up to `2 ^ 32`. -/
theorem noJump_of_light {signatures : Signatures K} {auth : Authority K}
    (light :
      (weights (fun _ => True) auth.keyAuths).sum +
        (weights (fun _ => True) auth.accountAuths).sum < 2 ^ 32) :
    NoJump auth.weightThreshold 0 (signatures.metWeights auth) := by
  apply NoJump.of_sum_lt
  have keys :=
    @weights_sum_mono K (fun key => key ∈ signatures.sigs)
      (fun _ => True) _ _ auth.keyAuths (fun _ _ _ => trivial)
  have accounts :=
    @weights_sum_mono AccountId signatures.Approves (fun _ => True) _ _
      auth.accountAuths (fun _ _ _ => trivial)
  rw [Signatures.metWeights, List.sum_append]
  omega

def mutualActive (account : AccountId) : Option (Authority Nat) :=
  if account = 10 then
    some ⟨2, [(11, 1)], [(1, 1)]⟩
  else if account = 11 then
    some ⟨1, [(10, 1)], [(2, 1)]⟩
  else
    none

def mutualSignatures : Signatures Nat where
  sigs := [1, 2]
  getActive := mutualActive
  getOwner := fun _ => none
  maxRecursionDepth := 2
  allowCommittee := false
  activeApprovals := []
  ownerApprovals := []

/-- An operation that requires the active authority of account 10. -/
def mutualRequires (_ : Unit) : Required Nat :=
  ⟨[10], [], []⟩

theorem mutualActive_cases {account : AccountId} {auth : Authority Nat}
    (isActive : mutualActive account = some auth) :
    auth = ⟨2, [(11, 1)], [(1, 1)]⟩ ∨
      auth = ⟨1, [(10, 1)], [(2, 1)]⟩ := by
  unfold mutualActive at isActive
  split at isActive
  · exact Or.inl (Option.some.inj isActive).symm
  · split at isActive
    · exact Or.inr (Option.some.inj isActive).symm
    · cases isActive

/-- Keys whose weights add up to `65534 + 65535 * count`. -/
def heavyKeys (count : Nat) : List (Nat × UInt16) :=
  (0, 65534) :: (List.range count).map fun key => (key + 1, 65535)

/-- An authority over so many keys and one more, with the highest threshold
there is. -/
def heavyAuthority (count : Nat) : Authority Nat where
  weightThreshold := 4294967295
  accountAuths := []
  keyAuths := heavyKeys count ++ [(count + 1, 65535)]

/-- All of the keys have signed. -/
def heavySignatures (count : Nat) : Signatures Nat where
  sigs := List.range (count + 2)
  getActive := fun _ => none
  getOwner := fun _ => none
  maxRecursionDepth := 2
  allowCommittee := false
  activeApprovals := []
  ownerApprovals := []

/-- An operation that requires this authority. -/
def heavyRequires (count : Nat) (_ : Unit) : Required Nat :=
  ⟨[], [], [heavyAuthority count]⟩

theorem weights_heavyKeys (count : Nat) :
    (weights (fun key => key ∈ (heavySignatures count).sigs)
      (heavyKeys count)).sum = 65534 + 65535 * count := by
  have all :
      ∀ entry ∈ heavyKeys count,
        decide (entry.1 ∈ (heavySignatures count).sigs) = true := by
    intro entry member
    simp only [heavySignatures, List.mem_range, decide_eq_true_eq]
    rcases List.mem_cons.mp member with same | later
    · rw [same]
      omega
    · obtain ⟨key, inRange, same⟩ := List.mem_map.mp later
      rw [List.mem_range] at inRange
      rw [← same]
      omega
  rw [weights, List.filter_eq_self.mpr all, heavyKeys, List.map_cons,
    List.map_map, List.sum_cons]
  have constant :
      (List.range count).map
        ((fun entry : Nat × UInt16 => entry.2.toNat) ∘
          fun key => (key + 1, (65535 : UInt16))) =
        List.replicate count 65535 := by
    rw [List.eq_replicate_iff]
    simp
  rw [constant, List.sum_replicate_nat, Nat.mul_comm]
  rfl

/-- Up to the last key the sum is exact, and stays below the threshold. -/
theorem weigh_heavyKeys {count : Nat} {state : SignState Nat}
    (low : 65534 + 65535 * count < 4294967295)
    (sound : Sound (heavySignatures count) state) :
    let tally :=
      weigh (signedBy (heavySignatures count).context) 4294967295
        (heavyKeys count) 0 state
    tally.met = false ∧
      tally.total.toNat = 65534 + 65535 * count ∧
      Sound (heavySignatures count) tally.state := by
  intro tally
  have checks :
      ∀ entry ∈ heavyKeys count,
        Checks (signedBy (heavySignatures count).context)
          (Sound (heavySignatures count))
          (fun key => key ∈ (heavySignatures count).sigs)
          (fun key => key ∈ (heavySignatures count).sigs) entry.1 :=
    fun entry _ => signedBy_checks (heavySignatures count) entry.1
  have atMost : tally.total.toNat ≤ 0 + _ :=
    @weigh_total_le Nat (SignState Nat)
      (signedBy (heavySignatures count).context) 4294967295
      (heavyKeys count) 0 state _ _ _ _ checks sound
  rw [weights_heavyKeys] at atMost
  have notMet : tally.met = false := by
    rw [← Bool.not_eq_true]
    intro met
    have isReached := weigh_met met
    rw [UInt32.le_iff_toNat_le] at isReached
    have threshold : (4294967295 : UInt32).toNat = 4294967295 := rfl
    rw [threshold] at isReached
    have same : tally.total.toNat < 4294967295 := by omega
    exact absurd isReached (Nat.not_le.mpr same)
  have atLeast : 0 + _ ≤ tally.total.toNat :=
    weigh_total_ge checks sound
      (NoJump.of_sum_lt (by rw [weights_heavyKeys]; simp; omega))
      (by decide) notMet
  rw [weights_heavyKeys] at atLeast
  exact ⟨notMet, by omega, weigh_keeps checks sound⟩

/-- The last key takes the sum over `2 ^ 32`, and the authority is not found to
be met. -/
theorem checkAuthority_heavy {count : Nat} {state : SignState Nat}
    (exactly : 65534 + 65535 * count = 4294967294)
    (sound : Sound (heavySignatures count) state) :
    (checkAuthority (heavySignatures count).context 2
      (some (heavyAuthority count)) state).1 = false := by
  obtain ⟨notMet, sum, keysSound⟩ :=
    @weigh_heavyKeys count state (by omega) sound
  have wholeKeys :=
    @weigh_append _ _ (signedBy (heavySignatures count).context)
      4294967295 (heavyKeys count) 0 state
      [(count + 1, (65535 : UInt16))] notMet
  generalize
    weigh (signedBy (heavySignatures count).context) 4294967295
      (heavyKeys count) 0 state = tally at sum keysSound wholeKeys
  have total : tally.total = 4294967294 := by
    rw [← UInt32.toNat_inj, sum, exactly]
    rfl
  have signed :
      (signedBy (heavySignatures count).context (count + 1)
        tally.state).1 = true :=
    (signedBy_checks (heavySignatures count) (count + 1)).complete _
      keysSound (List.mem_range.mpr (by omega))
  have keys :
      weigh (signedBy (heavySignatures count).context) 4294967295
        (heavyAuthority count).keyAuths 0 state =
        ⟨65533, false,
          (signedBy (heavySignatures count).context (count + 1)
            tally.state).2⟩ := by
    have shape :
        (heavyAuthority count).keyAuths =
          heavyKeys count ++ [(count + 1, 65535)] := rfl
    rw [shape, wholeKeys, total]
    cases checked :
        signedBy (heavySignatures count).context (count + 1)
          tally.state with
    | mk counts next =>
        rw [checked] at signed
        simp only at signed
        subst signed
        simp only [weigh, checked]
        rw [if_neg (by decide)]
        rfl
  have threshold :
      (heavyAuthority count).weightThreshold = 4294967295 := rfl
  have noAccounts : (heavyAuthority count).accountAuths = [] := rfl
  simp only [checkAuthority, checkEntries, threshold, keys, noAccounts,
    weigh, Bool.false_eq_true, if_false]
  decide

theorem grounded_heavy {count : Nat}
    (exactly : 65534 + 65535 * count = 4294967294) :
    (heavySignatures count).grounded 0 (heavyAuthority count) = true := by
  simp only [Signatures.grounded, Signatures.reached, decide_eq_true_eq]
  have keys :
      (weights (fun key => key ∈ (heavySignatures count).sigs)
        (heavyAuthority count).keyAuths).sum =
        65534 + 65535 * count + 65535 := by
    have signed : count + 1 ∈ (heavySignatures count).sigs :=
      List.mem_range.mpr (by omega)
    have last :
        weights (fun key => key ∈ (heavySignatures count).sigs)
          [(count + 1, (65535 : UInt16))] = [65535] := by
      simp [weights, signed]
    have parts :
        weights (fun key => key ∈ (heavySignatures count).sigs)
          (heavyAuthority count).keyAuths =
        weights (fun key => key ∈ (heavySignatures count).sigs)
            (heavyKeys count) ++ [65535] := by
      rw [← last]
      simp only [weights, heavyAuthority, List.filter_append,
        List.map_append]
    rw [parts, List.sum_append, weights_heavyKeys]
    rfl
  have threshold :
      (heavyAuthority count).weightThreshold.toNat = 4294967295 := rfl
  rw [keys, threshold]
  omega

theorem verifyAuthority_heavy {count : Nat}
    (exactly : 65534 + 65535 * count = 4294967294) :
    (heavySignatures count).Met 2
        (getRequiredAuthorities (heavyRequires count) [()]) ∧
      ∃ state,
        verifyAuthority (heavyRequires count) [()]
            (heavySignatures count) =
          .throw (.missingOtherAuth (heavyAuthority count)) state := by
  constructor
  · refine
      { other := ?_
        active := by
          intro id member
          cases member
        owner := by
          intro id member
          cases member }
    intro auth member
    have same : auth = heavyAuthority count := List.mem_singleton.mp member
    rw [same]
    exact Signatures.grounded_mono (Nat.zero_le _)
      (grounded_heavy exactly)
  · have missed :=
      checkAuthority_heavy exactly (Sound.start (heavySignatures count))
    have required :
        getRequiredAuthorities (heavyRequires count) [()] =
          ⟨[], [], [heavyAuthority count]⟩ := rfl
    cases checked :
        checkAuthority (heavySignatures count).context 2
          (some (heavyAuthority count)) (heavySignatures count).start with
    | mk found state =>
        rw [checked] at missed
        simp only at missed
        subst missed
        have depth : (heavySignatures count).maxRecursionDepth = 2 := rfl
        have loop :
            (heavySignatures count).checkOther (heavyAuthority count)
                (heavySignatures count).start =
              .throw (.missingOtherAuth (heavyAuthority count)) state := by
          simp only [Signatures.checkOther, depth, checked]
        refine ⟨state, ?_⟩
        simp only [verifyAuthority, required, List.not_mem_nil, and_false,
          if_false, forEach_cons, loop, Outcome.bind_throw]

end GxbCore.Protocol
