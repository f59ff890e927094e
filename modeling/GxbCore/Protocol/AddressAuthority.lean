import GxbCore.Lib.FlatMap
import GxbCore.Lib.Wire
import GxbCore.Protocol.Authority

/-!
# Authorities with addresses

An authority may name addresses.  A key has five of them, and `sign_state` looks
an address up in two maps that it builds when it is first asked for one: the
addresses of the provided keys and those of the available keys.

An address of neither map is looked for in both, and then the end of the first
one is dereferenced.
-/

namespace GxbCore.Protocol

/-- `authority` -/
structure AddressedAuthority (K A : Type) where
  weightThreshold : UInt32
  accountAuths : List (AccountId × UInt16)
  keyAuths : List (K × UInt16)
  addressAuths : List (A × UInt16)
  deriving DecidableEq, Repr

/-- The conversions of a public key into addresses. -/
structure Addressing (K A : Type) where
  /-- `address(pts_address(key, compressed, version))` -/
  ptsAddress : K → Bool → UInt8 → A
  /-- `address(key)` -/
  address : K → A

def Addressing.forms {K A : Type} (addressing : Addressing K A) (key : K) :
    List A :=
  [addressing.ptsAddress key false 56, addressing.ptsAddress key true 56,
    addressing.ptsAddress key false 0, addressing.ptsAddress key true 0,
    addressing.address key]

/-- `available_address_sigs` and `provided_address_sigs` -/
structure AddressSigs (K A : Type) where
  available : List (A × K)
  provided : List (A × K)

/-- What a `sign_state` changes. -/
structure AddressState (K A : Type) where
  providedSignatures : List (K × Bool)
  addressSigs : Option (AddressSigs K A)
  approvedBy : List AccountId

/-- What a `sign_state` has references to. -/
structure AddressSearch (K A : Type) where
  addressing : Addressing K A
  availableKeys : List K
  getActive : AccountId → Option (AddressedAuthority K A)

variable {K A : Type} [LinearOrder K] [DecidableEq A]

/-- `provided_signatures[key] = true` -/
def AddressState.use (key : K) (state : AddressState K A) :
    AddressState K A :=
  { state with
    providedSignatures := assign key true state.providedSignatures }

/-- The keys of `provided_signatures`. -/
def AddressState.keys (state : AddressState K A) : List K :=
  state.providedSignatures.map Prod.fst

/-- The constructor of `sign_state`. -/
def AddressState.start (sigs : List K) : AddressState K A where
  providedSignatures :=
    sigs.foldl (fun provided key => assign key false provided) []
  addressSigs := none
  approvedBy := [GRAPHENE_TEMP_ACCOUNT]

namespace AddressSearch

section Search

variable (search : AddressSearch K A)

/-- `signed_by`, for a key -/
def signedByKey (key : K) (state : AddressState K A) :
    Bool × AddressState K A :=
  match state.providedSignatures.lookup key with
  | some _ => (true, state.use key)
  | none =>
      if key ∈ search.availableKeys then (true, state.use key)
      else (false, state)

def enterForms (sigs : List (A × K)) (key : K) : List (A × K) :=
  (search.addressing.forms key).foldl
    (fun sigs address => setEntry address key sigs) sigs

/-- The two maps, built from the keys. -/
def buildAddressSigs (state : AddressState K A) : AddressSigs K A where
  available := search.availableKeys.foldl search.enterForms []
  provided := state.keys.foldl search.enterForms []

/-- The two maps, which are built only once. -/
def addressSigs (state : AddressState K A) : AddressSigs K A :=
  match state.addressSigs with
  | none => search.buildAddressSigs state
  | some sigs => sigs

/-- `signed_by`, for an address; `none` where the end of a map is
dereferenced. -/
def signedByAddress (address : A) (state : AddressState K A) :
    Option (Bool × AddressState K A) :=
  let sigs := search.addressSigs state
  let state := { state with addressSigs := some sigs }
  match sigs.provided.lookup address with
  | some key => some (true, state.use key)
  | none =>
      match sigs.available.lookup address with
      | some key =>
          if key ∈ search.availableKeys then some (true, state.use key)
          else some (false, state)
      -- `itr` is still the end of `provided_address_sigs`
      | none => none

/-- The loop body over `account_auths`; `below` checks the active authority of
an account, unless the depth is used up. -/
def checkAccount
    (below :
      Option (AccountId → AddressState K A → Option (Bool × AddressState K A)))
    (account : AccountId) (state : AddressState K A) :
    Option (Bool × AddressState K A) :=
  if account ∈ state.approvedBy then
    some (true, state)
  else
    match below with
    | none => some (false, state)
    | some check => do
        let (approves, state) ← check account state
        if approves then
          return (true,
            { state with approvedBy := account :: state.approvedBy })
        else
          return (false, state)

/-- The three loops of `check_authority`. -/
def checkEntries (auth : AddressedAuthority K A)
    (below :
      Option (AccountId → AddressState K A → Option (Bool × AddressState K A)))
    (state : AddressState K A) : Option (Bool × AddressState K A) :=
  let keys :=
    weigh search.signedByKey auth.weightThreshold auth.keyAuths 0 state
  if keys.met then
    some (true, keys.state)
  else do
    let addresses ←
      weighSome search.signedByAddress auth.weightThreshold auth.addressAuths
        keys.total keys.state
    if addresses.met then
      return (true, addresses.state)
    else do
      let accounts ←
        weighSome (checkAccount below) auth.weightThreshold auth.accountAuths
          addresses.total addresses.state
      if accounts.met then
        return (true, accounts.state)
      else
        return (decide (auth.weightThreshold ≤ accounts.total), accounts.state)

/-- `check_authority`; the number is what is left of `max_recursion`. -/
def checkAuthority : Nat → Option (AddressedAuthority K A) →
    AddressState K A → Option (Bool × AddressState K A)
  | _, none, state => some (false, state)
  | 0, some auth, state => search.checkEntries auth none state
  | remaining + 1, some auth, state =>
      search.checkEntries auth
        (some fun account =>
          checkAuthority remaining (search.getActive account))
        state

end Search

section Meaning

variable (search : AddressSearch K A) (sigs : List K)

/-- Some provided or available key has the address in one of its forms. -/
def Known (address : A) : Prop :=
  ∃ key ∈ sigs ++ search.availableKeys, address ∈ search.addressing.forms key

instance : DecidablePred (search.Known sigs) := fun _ =>
  inferInstanceAs (Decidable (∃ key ∈ _, _))

/-- The states of a search: what comes of the constructor by looking up keys and
addresses and by remembering accounts, in any order. -/
inductive Reached : AddressState K A → Prop
  | start : Reached (AddressState.start sigs)
  | key {state : AddressState K A} (reached : Reached state) (key : K) :
      Reached (search.signedByKey key state).2
  | address {state next : AddressState K A} {address : A} {result : Bool}
      (reached : Reached state)
      (returns : search.signedByAddress address state = some (result, next)) :
      Reached next
  | approve {state : AddressState K A} (reached : Reached state)
      (accounts : List AccountId) :
      Reached { state with approvedBy := accounts }

/-- A lookup returns, says whether there is such a key, and marks only such a
one. -/
structure DecidedByKeys (address : A) (state : AddressState K A) : Prop where
  returns :
    ∃ result next, search.signedByAddress address state = some (result, next)
  decides :
    ∀ result next, search.signedByAddress address state = some (result, next) →
      (result = true ↔ search.Known sigs address)
  marks :
    ∀ next, search.signedByAddress address state = some (true, next) →
      ∃ key ∈ sigs ++ search.availableKeys,
        address ∈ search.addressing.forms key ∧
          next.providedSignatures = assign key true state.providedSignatures
  untouched :
    ∀ next, search.signedByAddress address state = some (false, next) →
      next.providedSignatures = state.providedSignatures

end Meaning

section Maps

variable {search : AddressSearch K A} {sigs : List K}
  {state next : AddressState K A}

/-- Every entry of a map is a form of one of the keys, and every form has an
entry. -/
structure Covers (search : AddressSearch K A) (keys : List K)
    (map : List (A × K)) : Prop where
  sound :
    ∀ address key, map.lookup address = some key →
      key ∈ keys ∧ address ∈ search.addressing.forms key
  complete :
    ∀ key ∈ keys, ∀ address ∈ search.addressing.forms key,
      ∃ entered, map.lookup address = some entered

variable {address : A}

omit [LinearOrder K] in
theorem lookup_setEntries {key : K} {forms : List A} {map : List (A × K)} :
    (forms.foldl (fun map form => setEntry form key map) map).lookup address =
      if address ∈ forms then some key else map.lookup address := by
  induction forms generalizing map with
  | nil => simp
  | cons form rest ih =>
      rw [List.foldl_cons, ih]
      by_cases later : address ∈ rest
      · rw [if_pos later, if_pos (List.mem_cons_of_mem _ later)]
      · rw [if_neg later]
        by_cases first : address = form
        · rw [if_pos (first ▸ List.mem_cons_self), first,
            lookup_setEntry_self]
        · rw [if_neg (by simp [first, later]), lookup_setEntry_of_ne first]

theorem Covers.enterForms {keys : List K} {map : List (A × K)}
    (covers : Covers search keys map) (key : K) :
    Covers search (keys ++ [key]) (search.enterForms map key) := by
  constructor
  · intro address found isFound
    rw [AddressSearch.enterForms, lookup_setEntries] at isFound
    split at isFound
    · next isForm =>
        cases isFound
        exact ⟨List.mem_append_right _ List.mem_cons_self, isForm⟩
    · obtain ⟨member, isForm⟩ := covers.sound address found isFound
      exact ⟨List.mem_append_left _ member, isForm⟩
  · intro other member address isForm
    rw [AddressSearch.enterForms, lookup_setEntries]
    split
    · exact ⟨key, rfl⟩
    · next notForm =>
        rcases List.mem_append.mp member with inside | isKey
        · exact covers.complete other inside address isForm
        · rw [List.mem_singleton.mp isKey] at isForm
          exact absurd isForm notForm

theorem covers_enterAll {keys earlier : List K} {map : List (A × K)}
    (covers : Covers search earlier map) :
    Covers search (earlier ++ keys) (keys.foldl search.enterForms map) := by
  induction keys generalizing earlier map with
  | nil => simpa using covers
  | cons key rest ih =>
      have step := ih (covers.enterForms key)
      rwa [List.append_assoc, List.singleton_append] at step

theorem covers_build (search : AddressSearch K A) (keys : List K) :
    Covers search keys (keys.foldl search.enterForms []) :=
  @covers_enterAll _ _ _ _ search keys [] [] ⟨by simp, by simp⟩

/-- The provided keys are those of the constructor and available ones, and the
two maps, once they are built, cover the keys of the constructor and the
available ones. -/
structure Consistent (search : AddressSearch K A) (sigs : List K)
    (state : AddressState K A) : Prop where
  provided : ∀ key ∈ state.keys, key ∈ sigs ++ search.availableKeys
  signed : ∀ key ∈ sigs, key ∈ state.keys
  maps :
    ∀ built, state.addressSigs = some built →
      Covers search search.availableKeys built.available ∧
        ∃ keys, Covers search keys built.provided ∧
          (∀ key ∈ keys, key ∈ sigs ++ search.availableKeys) ∧
            ∀ key ∈ sigs, key ∈ keys

omit [DecidableEq A] in
theorem keys_start (sigs : List K) (key : K) :
    key ∈ (AddressState.start (A := A) sigs).keys ↔ key ∈ sigs := by
  have general :
      ∀ entries : List (K × Bool),
        key ∈ (sigs.foldl (fun provided key => assign key false provided)
            entries).map Prod.fst ↔
          key ∈ sigs ∨ key ∈ entries.map Prod.fst := by
    induction sigs with
    | nil => simp
    | cons first rest ih =>
        intro entries
        rw [List.foldl_cons, ih, mem_keys_assign,
          List.mem_cons]
        exact or_left_comm.trans or_assoc.symm
  have fromNone := general []
  simpa [AddressState.keys, AddressState.start] using fromNone

omit [DecidableEq A] in
theorem keys_use {key other : K} :
    other ∈ (state.use key).keys ↔ other = key ∨ other ∈ state.keys :=
  mem_keys_assign

theorem Consistent.start (search : AddressSearch K A) (sigs : List K) :
    Consistent search sigs (AddressState.start sigs) where
  provided key member :=
    List.mem_append_left _ ((keys_start sigs key).mp member)
  signed key member := (keys_start sigs key).mpr member
  maps _ isBuilt := by cases isBuilt

theorem Consistent.use (consistent : Consistent search sigs state) {key : K}
    (isKey : key ∈ sigs ++ search.availableKeys) :
    Consistent search sigs (state.use key) where
  provided other member := by
    rcases keys_use.mp member with rfl | older
    · exact isKey
    · exact consistent.provided other older
  signed other member := keys_use.mpr (.inr (consistent.signed other member))
  maps built isBuilt := consistent.maps built isBuilt

theorem Consistent.build (consistent : Consistent search sigs state) :
    Consistent search sigs
      { state with addressSigs := some (search.addressSigs state) } where
  provided := consistent.provided
  signed := consistent.signed
  maps built isBuilt := by
    cases isBuilt
    unfold AddressSearch.addressSigs
    split
    · exact ⟨covers_build search _, state.keys, covers_build search _,
        consistent.provided, consistent.signed⟩
    · next isBuilt => exact consistent.maps _ isBuilt

/-- A key is looked up among the provided and the available ones. -/
theorem signedByKey_spec (consistent : Consistent search sigs state) (key : K) :
    Consistent search sigs (search.signedByKey key state).2 ∧
      ((search.signedByKey key state).1 = true →
        key ∈ sigs ++ search.availableKeys) := by
  unfold AddressSearch.signedByKey
  split
  · next value found =>
      have isKey : key ∈ state.keys := by
        by_contra absent
        rw [lookup_eq_none_iff_keys.mpr absent] at found
        cases found
      have known := consistent.provided key isKey
      exact ⟨consistent.use known, fun _ => known⟩
  · split
    · next isAvailable =>
        have known := List.mem_append_right sigs isAvailable
        exact ⟨consistent.use known, fun _ => known⟩
    · exact ⟨consistent, fun isTrue => by cases isTrue⟩

/-- An address of a provided or available key is found, and such a key is
marked. -/
theorem signedByAddress_of_known (consistent : Consistent search sigs state)
    (known : search.Known sigs address) :
    ∃ key ∈ sigs ++ search.availableKeys,
      address ∈ search.addressing.forms key ∧
        search.signedByAddress address state =
          some (true,
            AddressState.use key
              { state with
                addressSigs := some (search.addressSigs state) }) := by
  obtain ⟨available, keys, provided, within, signed⟩ :=
    consistent.build.maps _ rfl
  simp only [AddressSearch.signedByAddress]
  cases isProvided : (search.addressSigs state).provided.lookup address with
  | some key =>
      obtain ⟨member, isForm⟩ := provided.sound address key isProvided
      exact ⟨key, within key member, isForm, rfl⟩
  | none =>
      obtain ⟨key, member, isForm⟩ := known
      have isAvailable : key ∈ search.availableKeys := by
        rcases List.mem_append.mp member with isSigned | isAvailable
        · obtain ⟨entered, isEntered⟩ :=
            provided.complete key (signed key isSigned) address isForm
          rw [isProvided] at isEntered
          cases isEntered
        · exact isAvailable
      obtain ⟨entered, isEntered⟩ :=
        available.complete key isAvailable address isForm
      obtain ⟨isAvailable, isForm⟩ :=
        available.sound address entered isEntered
      refine ⟨entered, List.mem_append_right _ isAvailable, isForm, ?_⟩
      simp only [isEntered, if_pos isAvailable]

/-- For an address of no key the end of a map is dereferenced. -/
theorem signedByAddress_of_unknown (consistent : Consistent search sigs state)
    (unknown : ¬ search.Known sigs address) :
    search.signedByAddress address state = none := by
  obtain ⟨available, keys, provided, within, _⟩ :=
    consistent.build.maps _ rfl
  simp only [AddressSearch.signedByAddress]
  split
  · next key isProvided =>
      obtain ⟨member, isForm⟩ := provided.sound address key isProvided
      exact absurd ⟨key, within key member, isForm⟩ unknown
  · split
    · next key isAvailable =>
        obtain ⟨member, isForm⟩ := available.sound address key isAvailable
        exact absurd ⟨key, List.mem_append_right _ member, isForm⟩ unknown
    · rfl

theorem signedByAddress_spec (consistent : Consistent search sigs state)
    {result : Bool}
    (returns : search.signedByAddress address state = some (result, next)) :
    Consistent search sigs next ∧ search.Known sigs address := by
  by_cases known : search.Known sigs address
  · obtain ⟨key, isKey, _, found⟩ :=
      signedByAddress_of_known consistent known
    rw [found] at returns
    cases returns
    exact ⟨consistent.build.use isKey, known⟩
  · rw [signedByAddress_of_unknown consistent known] at returns
    cases returns

theorem Reached.consistent (reached : search.Reached sigs state) :
    Consistent search sigs state := by
  induction reached with
  | start => exact Consistent.start search sigs
  | key _ key ih =>
      exact (signedByKey_spec ih key).1
  | address _ returns ih =>
      exact (signedByAddress_spec ih returns).1
  | approve _ accounts ih =>
      exact ⟨ih.provided, ih.signed,
        ih.maps⟩

end Maps

section Authorities

variable {search : AddressSearch K A} {sigs : List K}
  {state : AddressState K A} {auth : AddressedAuthority K A}

/-- Every address of the authority is one of a provided or available key. -/
def AddressesKnown (search : AddressSearch K A) (sigs : List K)
    (auth : AddressedAuthority K A) : Prop :=
  ∀ entry ∈ auth.addressAuths, search.Known sigs entry.1

/-- What the keys and the addresses of an authority can weigh. -/
def keyWeight (search : AddressSearch K A) (sigs : List K)
    (auth : AddressedAuthority K A) : Nat :=
  (weights (fun key => key ∈ sigs ++ search.availableKeys) auth.keyAuths).sum +
    (weights (search.Known sigs) auth.addressAuths).sum

theorem signedByKey_checks (key : K) :
    Checks search.signedByKey (Consistent search sigs)
      (fun key => key ∈ sigs ++ search.availableKeys) (fun _ => False) key where
  kept _ consistent := (signedByKey_spec consistent key).1
  sound _ consistent := (signedByKey_spec consistent key).2
  complete _ _ must := must.elim

variable
  {below : Option (AccountId → AddressState K A → Option (Bool × AddressState K A))}

omit [LinearOrder K] in
theorem checkAccount_returns {account : AccountId}
    (returns :
      ∀ check, below = some check → ∀ state, Consistent search sigs state →
        ∃ counted next, check account state = some (counted, next) ∧
          Consistent search sigs next)
    (consistent : Consistent search sigs state) :
    ∃ counted next, checkAccount below account state = some (counted, next) ∧
      Consistent search sigs next := by
  unfold checkAccount
  split
  · exact ⟨_, _, rfl, consistent⟩
  · split
    · exact ⟨_, _, rfl, consistent⟩
    · next check =>
        obtain ⟨approves, next, checked, keptNext⟩ :=
          returns check rfl state consistent
        rw [checked]
        cases approves with
        | false => exact ⟨_, _, rfl, keptNext⟩
        | true =>
            exact ⟨_, _, rfl,
              ⟨keptNext.provided, keptNext.signed, keptNext.maps⟩⟩

theorem checkEntries_returns (known : AddressesKnown search sigs auth)
    (returns :
      ∀ check, below = some check → ∀ account state,
        Consistent search sigs state →
        ∃ counted next, check account state = some (counted, next) ∧
          Consistent search sigs next)
    (consistent : Consistent search sigs state) :
    ∃ result next, search.checkEntries auth below state = some (result, next) ∧
      Consistent search sigs next := by
  have afterKeys :
      Consistent search sigs
        (weigh search.signedByKey auth.weightThreshold auth.keyAuths 0
          state).state :=
    weigh_keeps (fun entry _ => signedByKey_checks entry.1) consistent
  unfold AddressSearch.checkEntries
  simp only
  split
  · exact ⟨_, _, rfl, afterKeys⟩
  · obtain ⟨addresses, weighed, afterAddresses⟩ :=
      @weighSome_returns _ _ search.signedByAddress auth.weightThreshold
        auth.addressAuths _ _ (Consistent search sigs)
        (fun entry member state consistent => by
          obtain ⟨key, isKey, _, found⟩ :=
            signedByAddress_of_known consistent (known entry member)
          exact ⟨_, _, found, consistent.build.use isKey⟩)
        afterKeys
    rw [weighed]
    simp only [Option.bind_eq_bind, Option.bind_some]
    split
    · exact ⟨_, _, rfl, afterAddresses⟩
    · obtain ⟨accounts, weighed, afterAccounts⟩ :=
        @weighSome_returns _ _ (checkAccount below) auth.weightThreshold
          auth.accountAuths addresses.total _ (Consistent search sigs)
          (fun entry _ state consistent =>
            checkAccount_returns
              (fun check isBelow => returns check isBelow entry.1) consistent)
          afterAddresses
      rw [weighed]
      simp only [Option.bind_some]
      split
      · exact ⟨_, _, rfl, afterAccounts⟩
      · exact ⟨_, _, rfl, afterAccounts⟩

/-- A search that comes to no other addresses than those of provided or
available keys returns. -/
theorem checkAuthority_returns
    (below :
      ∀ id auth, search.getActive id = some auth →
        AddressesKnown search sigs auth)
    (remaining : Nat) {au : Option (AddressedAuthority K A)}
    (known : ∀ auth, au = some auth → AddressesKnown search sigs auth)
    (consistent : Consistent search sigs state) :
    ∃ result next, search.checkAuthority remaining au state =
        some (result, next) ∧
      Consistent search sigs next := by
  induction remaining generalizing au state with
  | zero =>
      cases au with
      | none => exact ⟨_, _, rfl, consistent⟩
      | some auth =>
          exact checkEntries_returns (known auth rfl)
            (fun _ isBelow => by cases isBelow) consistent
  | succ remaining ih =>
      cases au with
      | none => exact ⟨_, _, rfl, consistent⟩
      | some auth =>
          refine checkEntries_returns (known auth rfl) ?_ consistent
          intro check isBelow account state consistent
          cases isBelow
          exact ih (below account) consistent

/-- An authority with an unknown address, whose other addresses and keys do not
meet the threshold, is not rejected: the search does not return. -/
theorem checkAuthority_of_unknown (unknown : ¬ AddressesKnown search sigs auth)
    (low : keyWeight search sigs auth < auth.weightThreshold.toNat)
    (remaining : Nat) (consistent : Consistent search sigs state) :
    search.checkAuthority remaining (some auth) state = none := by
  have checks :=
    fun (entry : K × UInt16) (_ : entry ∈ auth.keyAuths) =>
      @signedByKey_checks _ _ _ _ search sigs entry.1
  have afterKeys :
      Consistent search sigs
        (weigh search.signedByKey auth.weightThreshold auth.keyAuths 0
          state).state :=
    weigh_keeps checks consistent
  have keys :
      (weigh search.signedByKey auth.weightThreshold auth.keyAuths 0
          state).total.toNat ≤
        0 + (weights (fun key => key ∈ sigs ++ search.availableKeys)
          auth.keyAuths).sum :=
    weigh_total_le checks consistent
  unfold keyWeight at low
  have notMet :
      ¬ (weigh search.signedByKey auth.weightThreshold auth.keyAuths 0
          state).met = true := by
    intro met
    have reached := UInt32.le_iff_toNat_le.mp (weigh_met met)
    omega
  have fails :
      weighSome search.signedByAddress auth.weightThreshold auth.addressAuths
          (weigh search.signedByKey auth.weightThreshold auth.keyAuths 0
            state).total
          (weigh search.signedByKey auth.weightThreshold auth.keyAuths 0
            state).state = none := by
    refine @weighSome_eq_none _ _ search.signedByAddress _ _ _ _
      (Consistent search sigs) (search.Known sigs) _ ?_ ?_ afterKeys (by omega)
    · intro entry _ state counted next consistent found
      obtain ⟨kept, known⟩ := signedByAddress_spec consistent found
      exact ⟨kept, fun _ => known⟩
    · obtain ⟨entry, unknown⟩ := not_forall.mp unknown
      obtain ⟨member, unknown⟩ := Classical.not_imp.mp unknown
      exact ⟨entry, member, fun state consistent =>
        signedByAddress_of_unknown consistent unknown⟩
  have entries : ∀ below, search.checkEntries auth below state = none := by
    intro below
    simp only [AddressSearch.checkEntries, if_neg notMet, fails]
    rfl
  cases remaining with
  | zero => exact entries none
  | succ remaining => exact entries _

/-- In every state of a search a lookup of an address is decided by the keys
exactly when it is an address of a provided or available key.  An authority with
other addresses is never rejected: its check returns where no such address is
come to, and does not return where the rest does not meet the threshold. -/
theorem address_decided_by_keys
    (reached : search.Reached sigs state) :
    (∀ address,
      search.DecidedByKeys sigs address state ↔ search.Known sigs address) ∧
      (∀ remaining auth,
        (∀ id nested, search.getActive id = some nested →
          AddressesKnown search sigs nested) →
        AddressesKnown search sigs auth →
        ∃ result next,
          search.checkAuthority remaining (some auth) state =
            some (result, next)) ∧
      ∀ remaining auth,
        ¬ AddressesKnown search sigs auth →
        keyWeight search sigs auth < auth.weightThreshold.toNat →
        search.checkAuthority remaining (some auth) state = none := by
  have consistent := reached.consistent
  refine ⟨?_, ?_, ?_⟩
  · intro address
    constructor
    · intro decided
      obtain ⟨result, next, found⟩ := decided.returns
      exact (signedByAddress_spec consistent found).2
    · intro known
      obtain ⟨key, isKey, isForm, found⟩ :=
        signedByAddress_of_known consistent known
      constructor
      · exact ⟨_, _, found⟩
      · intro result next again
        rw [found] at again
        cases again
        exact ⟨fun _ => known, fun _ => rfl⟩
      · intro next again
        rw [found] at again
        cases again
        exact ⟨key, isKey, isForm, rfl⟩
      · intro next again
        rw [found] at again
        cases again
  · intro remaining auth below known
    obtain ⟨result, next, returns, _⟩ :=
      checkAuthority_returns below remaining
        (fun _ isAuth => Option.some_inj.mp isAuth ▸ known) consistent
    exact ⟨result, next, returns⟩
  · intro remaining auth unknown low
    exact checkAuthority_of_unknown unknown low remaining consistent

end Authorities

section Sample

/-- The addresses of a key are its five multiples from ten times it on. -/
def sampleAddressing : Addressing Nat Nat where
  ptsAddress key compressed version :=
    10 * key + (if compressed then 1 else 0) + if version = 56 then 0 else 2
  address key := 10 * key + 4

def sampleSearch : AddressSearch Nat Nat where
  addressing := sampleAddressing
  availableKeys := []
  getActive := fun _ => none

/-- The owner of a blinded balance: the address 10, a form of the key 1. -/
def addressOwner : AddressedAuthority Nat Nat where
  weightThreshold := 1
  accountAuths := []
  keyAuths := []
  addressAuths := [(10, 1)]

theorem address_decided_by_keys_signed :
    sampleSearch.DecidedByKeys [1] 10 (AddressState.start [1]) :=
  (address_decided_by_keys Reached.start).1 10 |>.mpr (by decide)

/-- The key 2 signed, and the address 10 is not one of its forms. -/
theorem missing_entry_dereferenced :
    ¬ sampleSearch.DecidedByKeys [2] 10 (AddressState.start [2]) ∧
      sampleSearch.checkAuthority 2 (some addressOwner)
        (AddressState.start [2]) = none := by
  constructor
  · intro decided
    obtain ⟨_, _, found⟩ := decided.returns
    have missing :
        sampleSearch.signedByAddress 10 (AddressState.start [2]) = none := by
      rfl
    rw [missing] at found
    cases found
  · rfl

end Sample

end AddressSearch

end GxbCore.Protocol
