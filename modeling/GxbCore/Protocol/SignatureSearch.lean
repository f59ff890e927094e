import GxbCore.Protocol.RequiredSignatures

/-!
# Which keys a search uses

A search that is never cut off by its depth and whose sums never jump finds
exactly the authorities that are grounded, whatever it has met and remembered
before.  The keys that it uses are then those that it is asked for: those of the
entries that come before an authority is met.
-/

namespace GxbCore.Protocol

variable {K : Type} [DecidableEq K]

section Entries

/-- The entries of both kinds, in the order in which they are weighed. -/
def Authority.entries (auth : Authority K) : List ((K ⊕ AccountId) × UInt16) :=
  auth.keyAuths.map (Prod.map Sum.inl id) ++
    auth.accountAuths.map (Prod.map Sum.inr id)

def checkItem (context : SignContext K)
    (below : Option (AccountId → SignState K → Bool × SignState K)) :
    K ⊕ AccountId → SignState K → Bool × SignState K
  | .inl key => signedBy context key
  | .inr account => checkAccount below account

theorem checkEntries_eq (context : SignContext K) (auth : Authority K)
    (below : Option (AccountId → SignState K → Bool × SignState K))
    (state : SignState K) :
    checkEntries context auth below state =
      ((weigh (checkItem context below) auth.weightThreshold auth.entries 0
          state).met ||
        decide (auth.weightThreshold ≤
          (weigh (checkItem context below) auth.weightThreshold auth.entries 0
            state).total),
        (weigh (checkItem context below) auth.weightThreshold auth.entries 0
          state).state) := by
  have keys :
      weigh (checkItem context below) auth.weightThreshold
          (auth.keyAuths.map (Prod.map Sum.inl id)) 0 state =
        weigh (signedBy context) auth.weightThreshold auth.keyAuths 0 state :=
    weigh_map
  have accounts :
      ∀ total state,
        weigh (checkItem context below) auth.weightThreshold
            (auth.accountAuths.map (Prod.map Sum.inr id)) total state =
          weigh (checkAccount below) auth.weightThreshold auth.accountAuths
            total state :=
    fun _ _ => weigh_map
  unfold checkEntries Authority.entries
  rw [← keys]
  simp only
  cases met :
      (weigh (checkItem context below) auth.weightThreshold
        (auth.keyAuths.map (Prod.map Sum.inl id)) 0 state).met with
  | true =>
      rw [weigh_append_met met, met]
      rfl
  | false =>
      rw [weigh_append met, accounts]
      simp only [Bool.false_eq_true, if_false]
      split
      · next metLater => rw [metLater]; rfl
      · next notMet => rw [Bool.eq_false_iff.mpr notMet]; rfl

end Entries

namespace Signatures

section Grounded

variable (signatures : Signatures K)

def Grounded (auth : Authority K) : Prop :=
  ∃ depth, signatures.grounded depth auth = true

/-- The entry counts: the key signed, or the account approves. -/
def Counts : K ⊕ AccountId → Prop
  | .inl key => key ∈ signatures.sigs
  | .inr account => signatures.Approves account

variable {signatures}

theorem approves_iff {account : AccountId} :
    signatures.Approves account ↔
      account ∈ signatures.approved ∨
        ∃ auth, signatures.getActive account = some auth ∧
          signatures.Grounded auth := by
  constructor
  · rintro ⟨depth, isApproved | below⟩
    · exact .inl isApproved
    · rw [Option.any_eq_true] at below
      obtain ⟨auth, isActive, isGrounded⟩ := below
      exact .inr ⟨auth, isActive, depth, isGrounded⟩
  · rintro (isApproved | ⟨auth, isActive, depth, isGrounded⟩)
    · exact ⟨0, .inl isApproved⟩
    · refine ⟨depth, .inr ?_⟩
      rw [isActive]
      exact isGrounded

open Classical in
theorem weights_entries (auth : Authority K) :
    weights signatures.Counts auth.entries = signatures.metWeights auth := by
  unfold Authority.entries metWeights
  rw [weights_append, weights_map, weights_map]
  congr 1
  exact weights_congr fun _ => Iff.rfl

open Classical in
theorem grounded_iff {auth : Authority K} :
    signatures.Grounded auth ↔
      auth.weightThreshold.toNat ≤
        (weights signatures.Counts auth.entries).sum := by
  rw [weights_entries, metWeights, List.sum_append]
  constructor
  · rintro ⟨depth, isGrounded⟩
    have later := grounded_succ isGrounded
    simp only [grounded, reached, decide_eq_true_eq] at later
    refine Nat.le_trans later (Nat.add_le_add_left ?_ _)
    apply weights_sum_mono
    intro entry _ approves
    refine ⟨depth, ?_⟩
    simpa [approvesWithin] using approves
  · intro reaches
    exact grounded_of_approves reaches

end Grounded

section Asked

variable (signatures : Signatures K)

open Classical in
/-- A search of the authority comes to the key: through entries before which the
threshold is not reached, and through accounts that are not approved from the
start. -/
inductive AskedFrom : Authority K → K → Prop
  | key {auth : Authority K} {key : K} {weight : UInt16}
      {done later : List ((K ⊕ AccountId) × UInt16)}
      (split : auth.entries = done ++ (.inl key, weight) :: later)
      (reached :
        StillOpen auth.weightThreshold (weights signatures.Counts done)) :
      AskedFrom auth key
  | account {auth lower : Authority K} {account : AccountId} {key : K}
      {weight : UInt16} {done later : List ((K ⊕ AccountId) × UInt16)}
      (split : auth.entries = done ++ (.inr account, weight) :: later)
      (reached :
        StillOpen auth.weightThreshold (weights signatures.Counts done))
      (notApproved : account ∉ signatures.approved)
      (isActive : signatures.getActive account = some lower)
      (below : AskedFrom lower key) :
      AskedFrom auth key

def NestedWithin : Nat → Authority K → Prop
  | 0, auth =>
      ∀ entry ∈ auth.accountAuths, entry.1 ∈ signatures.approved
  | depth + 1, auth =>
      ∀ entry ∈ auth.accountAuths, entry.1 ∉ signatures.approved →
        ∀ lower, signatures.getActive entry.1 = some lower →
          NestedWithin depth lower

/-- The search of an entry comes to the key. -/
def EntryAsks : K ⊕ AccountId → K → Prop
  | .inl asked, key => asked = key
  | .inr account, key =>
      account ∉ signatures.approved ∧
        ∃ lower, signatures.getActive account = some lower ∧
          signatures.AskedFrom lower key

variable {signatures}

open Classical in
theorem askedFrom_iff {auth : Authority K} {key : K} :
    signatures.AskedFrom auth key ↔
      ∃ done entry later, auth.entries = done ++ entry :: later ∧
        StillOpen auth.weightThreshold (weights signatures.Counts done) ∧
          signatures.EntryAsks entry.1 key := by
  constructor
  · intro asked
    cases asked with
    | key split reached => exact ⟨_, _, _, split, reached, rfl⟩
    | account split reached notApproved isActive below =>
        exact ⟨_, _, _, split, reached, notApproved, _, isActive, below⟩
  · rintro ⟨done, ⟨item, weight⟩, later, split, reached, asks⟩
    cases item with
    | inl asked =>
        obtain rfl : asked = key := asks
        exact .key split reached
    | inr account =>
        obtain ⟨notApproved, lower, isActive, below⟩ := asks
        exact .account split reached notApproved isActive below

end Asked

end Signatures

section Search

variable {signatures : Signatures K} {context : SignContext K}
  {allowed : K → Prop} {state : SignState K} {auth : Authority K}

def SignState.Used (state : SignState K) (key : K) : Prop :=
  state.providedSignatures key = some true

/-- The keys are those of the signatures, or can be added; the ones used are
allowed; and the accounts that are remembered approve, after all keys that their
authorities ask for were used. -/
structure Tracked (signatures : Signatures K) (context : SignContext K)
    (allowed : K → Prop) (state : SignState K) : Prop where
  keys :
    ∀ key,
      ((state.providedSignatures key).isSome ∨
          key ∈ context.availableKeys) ↔
        key ∈ signatures.sigs
  permitted : ∀ key, state.Used key → allowed key
  remembers : ∀ account ∈ signatures.approved, account ∈ state.approvedBy
  approves : ∀ account ∈ state.approvedBy, signatures.Approves account
  asked :
    ∀ account ∈ state.approvedBy, account ∉ signatures.approved →
      ∀ auth, signatures.getActive account = some auth →
        ∀ key ∈ signatures.sigs, signatures.AskedFrom auth key →
          state.Used key

theorem SignState.used_use {key other : K} :
    (state.use key).Used other ↔ other = key ∨ state.Used other := by
  unfold SignState.Used SignState.use
  by_cases same : other = key
  · simp [same]
  · simp [same]

theorem Tracked.use {key : K}
    (tracked : Tracked signatures context allowed state)
    (isKey : key ∈ signatures.sigs) (isAllowed : allowed key) :
    Tracked signatures context allowed (state.use key) := by
  refine ⟨?_, ?_, tracked.remembers, tracked.approves, ?_⟩
  · intro other
    by_cases same : other = key
    · simp [SignState.use, same, isKey]
    · simp only [SignState.use, if_neg same]
      exact tracked.keys other
  · intro other used
    rcases SignState.used_use.mp used with same | before
    · exact same ▸ isAllowed
    · exact tracked.permitted other before
  · intro account member notApproved auth isActive other isOther asked
    exact SignState.used_use.mpr
      (.inr (tracked.asked account member notApproved auth isActive other
        isOther asked))

theorem signedBy_eq {key : K}
    (tracked : Tracked signatures context allowed state) :
    signedBy context key state =
      if key ∈ signatures.sigs then (true, state.use key)
      else (false, state) := by
  have isKey := tracked.keys key
  unfold signedBy
  split
  · next provided =>
      rw [provided] at isKey
      rw [if_pos (isKey.mp (.inl rfl))]
  · next provided =>
      rw [provided] at isKey
      simp only [Option.isSome_none, Bool.false_eq_true, false_or] at isKey
      simp only [isKey]

/-- What a check leaves: it is exact, and afterwards the keys that it asks for
are used, with those that were used before. -/
structure Follows (signatures : Signatures K) (context : SignContext K)
    (allowed : K → Prop) (state : SignState K)
    (outcome : Bool × SignState K) (counts : Prop) (asks : K → Prop) :
    Prop where
  tracked : Tracked signatures context allowed outcome.2
  exact : outcome.1 = true ↔ counts
  asked : ∀ key ∈ signatures.sigs, asks key → outcome.2.Used key
  stays : ∀ key, state.Used key → outcome.2.Used key

theorem signedBy_follows {key : K}
    (tracked : Tracked signatures context allowed state)
    (isAllowed : key ∈ signatures.sigs → allowed key) :
    Follows signatures context allowed state (signedBy context key state)
      (key ∈ signatures.sigs) (fun other => key = other) := by
  rw [signedBy_eq tracked]
  by_cases isKey : key ∈ signatures.sigs
  · rw [if_pos isKey]
    refine ⟨tracked.use isKey (isAllowed isKey), by simp [isKey], ?_, ?_⟩
    · rintro other _ rfl
      exact SignState.used_use.mpr (.inl rfl)
    · intro other used
      exact SignState.used_use.mpr (.inr used)
  · rw [if_neg isKey]
    refine ⟨tracked, by simp [isKey], ?_, fun _ used => used⟩
    rintro other isOther rfl
    exact absurd isOther isKey

variable {account : AccountId}
  {below : Option (AccountId → SignState K → Bool × SignState K)}

theorem Tracked.remember (tracked : Tracked signatures context allowed state)
    (approves : signatures.Approves account)
    (asked :
      ∀ auth, signatures.getActive account = some auth →
        ∀ key ∈ signatures.sigs, signatures.AskedFrom auth key →
          state.Used key) :
    Tracked signatures context allowed
      { state with approvedBy := account :: state.approvedBy } := by
  refine ⟨tracked.keys, tracked.permitted, ?_, ?_, ?_⟩
  · intro other isApproved
    exact List.mem_cons_of_mem _ (tracked.remembers other isApproved)
  · intro other member
    rcases List.mem_cons.mp member with rfl | before
    · exact approves
    · exact tracked.approves other before
  · intro other member
    rcases List.mem_cons.mp member with rfl | before
    · exact fun _ => asked
    · exact tracked.asked other before

theorem checkAccount_follows
    (tracked : Tracked signatures context allowed state)
    (follows :
      account ∉ signatures.approved →
        ∃ check, below = some check ∧
          Follows signatures context allowed state (check account state)
            (∃ auth, signatures.getActive account = some auth ∧
              signatures.Grounded auth)
            (fun key => ∃ auth, signatures.getActive account = some auth ∧
              signatures.AskedFrom auth key)) :
    Follows signatures context allowed state
      (checkAccount below account state) (signatures.Approves account)
      (signatures.EntryAsks (.inr account)) := by
  unfold checkAccount
  split
  · next remembered =>
      refine ⟨tracked, ?_, ?_, fun _ used => used⟩
      · simp [tracked.approves account remembered]
      · rintro key isKey ⟨notApproved, auth, isActive, asked⟩
        exact tracked.asked account remembered notApproved auth isActive key
          isKey asked
  · next notRemembered =>
      have notApproved : account ∉ signatures.approved :=
        fun isApproved =>
          notRemembered (tracked.remembers account isApproved)
      obtain ⟨check, isBelow, spec⟩ := follows notApproved
      have approves :
          signatures.Approves account ↔
            ∃ auth, signatures.getActive account = some auth ∧
              signatures.Grounded auth := by
        rw [Signatures.approves_iff]
        simp [notApproved]
      rw [← approves] at spec
      rw [isBelow]
      simp only
      cases checked : check account state with
      | mk found next =>
          rw [checked] at spec
          have asked :
              ∀ auth, signatures.getActive account = some auth →
                ∀ key ∈ signatures.sigs, signatures.AskedFrom auth key →
                  next.Used key :=
            fun auth isActive key isKey asked =>
              spec.asked key isKey ⟨auth, isActive, asked⟩
          cases found with
          | true =>
              refine ⟨spec.tracked.remember (spec.exact.mp rfl) asked,
                spec.exact, ?_, spec.stays⟩
              rintro key isKey ⟨_, auth, isActive, isAsked⟩
              exact asked auth isActive key isKey isAsked
          | false =>
              refine ⟨spec.tracked, spec.exact, ?_, spec.stays⟩
              rintro key isKey ⟨_, auth, isActive, isAsked⟩
              exact asked auth isActive key isKey isAsked

open Classical in
/-- The loops over the entries follow, if the check of each entry does to which
they come. -/
theorem checkEntries_follows
    (round :
      ∀ done entry later, auth.entries = done ++ entry :: later →
        StillOpen auth.weightThreshold (weights signatures.Counts done) →
        ∀ state, Tracked signatures context allowed state →
          Follows signatures context allowed state
            (checkItem context below entry.1 state)
            (signatures.Counts entry.1) (signatures.EntryAsks entry.1))
    (noJump : NoJump auth.weightThreshold 0 (signatures.metWeights auth))
    (tracked : Tracked signatures context allowed state) :
    Follows signatures context allowed state
      (checkEntries context auth below state) (signatures.Grounded auth)
      (signatures.AskedFrom auth) := by
  rw [← Signatures.weights_entries] at noJump
  obtain ⟨done, rest, ends, ⟨trackedLast, stays, asked⟩, ended, exact⟩ :=
    @weigh_rule _ _ (checkItem context below) auth.weightThreshold
      auth.entries state signatures.Counts _
      (fun done last =>
        Tracked signatures context allowed last ∧
          (∀ key, state.Used key → last.Used key) ∧
          ∀ entry ∈ done, ∀ key ∈ signatures.sigs,
            signatures.EntryAsks entry.1 key → last.Used key)
      (by
        rintro done entry later split stillOpen before
          ⟨trackedBefore, staysBefore, askedBefore⟩
        have follows :=
          round done entry later split stillOpen before trackedBefore
        refine ⟨⟨follows.tracked, ?_, ?_⟩, follows.exact⟩
        · intro key used
          exact follows.stays key (staysBefore key used)
        · intro other member key isKey asks
          rcases List.mem_append.mp member with inDone | isEntry
          · exact follows.stays key
              (askedBefore other inDone key isKey asks)
          · rw [List.mem_singleton.mp isEntry] at asks
            exact follows.asked key isKey asks)
      noJump
      ⟨tracked, fun _ used => used, fun _ impossible => by cases impossible⟩
  rw [checkEntries_eq]
  refine ⟨trackedLast, ?_, ?_, stays⟩
  · rw [Signatures.grounded_iff, ← exact, Bool.or_eq_true, decide_eq_true_eq]
  · intro key isKey isAsked
    obtain ⟨past, entry, later, split, reached, asks⟩ :=
      Signatures.askedFrom_iff.mp isAsked
    obtain ⟨between, isDone⟩ := reached_done ends ended split reached
    refine asked entry ?_ key isKey asks
    rw [isDone]
    exact List.mem_append_right _ List.mem_cons_self

/-- The authorities below this one, and no sum jumps in them. -/
structure Searchable (signatures : Signatures K)
    (involved : Authority K → Prop) : Prop where
  noJump :
    ∀ auth, involved auth →
      NoJump auth.weightThreshold 0 (signatures.metWeights auth)
  closed :
    ∀ upper auth entry, involved upper → entry ∈ upper.accountAuths →
      signatures.getActive entry.1 = some auth → involved auth

omit [DecidableEq K] in
theorem mem_accountAuths {weight : UInt16}
    (member : (.inr account, weight) ∈ auth.entries) :
    (account, weight) ∈ auth.accountAuths := by
  simpa [Authority.entries] using member

/-- Without an authority nothing is found and nothing is asked for. -/
theorem follows_option {remaining : Nat} {found : Option (Authority K)}
    (follows :
      ∀ auth, found = some auth →
        Follows signatures context allowed state
          (checkAuthority context remaining (some auth) state)
          (signatures.Grounded auth) (signatures.AskedFrom auth))
    (tracked : Tracked signatures context allowed state) :
    Follows signatures context allowed state
      (checkAuthority context remaining found state)
      (∃ auth, found = some auth ∧ signatures.Grounded auth)
      (fun key => ∃ auth, found = some auth ∧
        signatures.AskedFrom auth key) := by
  cases found with
  | none =>
      unfold checkAuthority
      exact ⟨tracked, by simp, by simp, fun _ used => used⟩
  | some auth => simpa using follows auth rfl

/-- `check_authority` finds exactly what is grounded, and uses exactly the keys
that it is asked for, whatever was met and remembered before. -/
theorem checkAuthority_follows {involved : Authority K → Prop}
    (same : context.getActive = signatures.getActive)
    (searchable : Searchable signatures involved) (remaining : Nat)
    (isInvolved : involved auth)
    (nested : signatures.NestedWithin remaining auth)
    (isAllowed :
      ∀ key ∈ signatures.sigs, signatures.AskedFrom auth key → allowed key)
    (tracked : Tracked signatures context allowed state) :
    Follows signatures context allowed state
      (checkAuthority context remaining (some auth) state)
      (signatures.Grounded auth) (signatures.AskedFrom auth) := by
  induction remaining generalizing auth state with
  | zero =>
      refine checkEntries_follows ?_ (searchable.noJump auth isInvolved)
        tracked
      rintro done ⟨item, weight⟩ later split reached before trackedBefore
      cases item with
      | inl key =>
          exact signedBy_follows trackedBefore fun isKey =>
            isAllowed key isKey (.key split reached)
      | inr account =>
          show Follows signatures context allowed before
            (checkAccount none account before) (signatures.Approves account)
            (signatures.EntryAsks (.inr account))
          refine checkAccount_follows trackedBefore fun notApproved => ?_
          have member : (account, weight) ∈ auth.accountAuths :=
            mem_accountAuths (by rw [split]; simp)
          exact absurd (nested (account, weight) member) notApproved
  | succ remaining ih =>
      refine checkEntries_follows ?_ (searchable.noJump auth isInvolved)
        tracked
      rintro done ⟨item, weight⟩ later split reached before trackedBefore
      cases item with
      | inl key =>
          exact signedBy_follows trackedBefore fun isKey =>
            isAllowed key isKey (.key split reached)
      | inr account =>
          show Follows signatures context allowed before
            (checkAccount
              (some fun account =>
                checkAuthority context remaining (context.getActive account))
              account before)
            (signatures.Approves account)
            (signatures.EntryAsks (.inr account))
          refine checkAccount_follows trackedBefore fun notApproved =>
            ⟨_, rfl, ?_⟩
          have member : (account, weight) ∈ auth.accountAuths :=
            mem_accountAuths (by rw [split]; simp)
          rw [same]
          refine follows_option (fun lower isActive => ?_) trackedBefore
          exact ih
            (searchable.closed auth lower (account, weight) isInvolved member
              isActive)
            (nested (account, weight) member notApproved lower isActive)
            (fun key isKey asked =>
              isAllowed key isKey
                (.account split reached notApproved isActive asked))
            trackedBefore

end Search

end GxbCore.Protocol
