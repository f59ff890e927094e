import GxbCore.Protocol.SignatureSearch

/-!
# When the suggested signatures suffice

The suggestion takes the keys that its search is asked for.  Where no search is
cut off by its depth, no sum of weights jumps, the active authorities need no
owner authority in their place and the existing signatures are not needed, these
keys meet what all available keys meet, and the minimiser leaves a minimal part
of them.
-/

namespace GxbCore.Protocol

variable {K Op : Type} [DecidableEq K]

namespace Signatures

section Required

variable (signatures : Signatures K)

/-- The authority of the account, if there is one, has a derivation. -/
def OwnerGrounded (id : AccountId) : Prop :=
  ∃ auth, signatures.getOwner id = some auth ∧ signatures.Grounded auth

/-- Every required authority has a derivation; an active one may be met by the
owner authority of the account. -/
structure MetAll (required : Required K) : Prop where
  other : ∀ auth ∈ required.other, signatures.Grounded auth
  active :
    ∀ id ∈ required.active,
      signatures.Approves id ∨ signatures.OwnerGrounded id
  owner : ∀ id ∈ required.owner, signatures.OwnerGrounded id

/-- The authorities that the requirements name themselves. -/
inductive TopLevel (required : Required K) : Authority K → Prop
  | other {auth : Authority K} (isOther : auth ∈ required.other) :
      TopLevel required auth
  | active {auth : Authority K} {id : AccountId}
      (isRequired : id ∈ required.active)
      (isActive : signatures.getActive id = some auth) :
      TopLevel required auth
  | activeOwner {auth : Authority K} {id : AccountId}
      (isRequired : id ∈ required.active)
      (isOwner : signatures.getOwner id = some auth) :
      TopLevel required auth
  | owner {auth : Authority K} {id : AccountId}
      (isRequired : id ∈ required.owner)
      (isOwner : signatures.getOwner id = some auth) :
      TopLevel required auth

omit [DecidableEq K] in
theorem TopLevel.involved {required : Required K} {auth : Authority K}
    (topLevel : signatures.TopLevel required auth) :
    signatures.Involved required auth := by
  cases topLevel with
  | other isOther => exact .other isOther
  | active isRequired isActive => exact .active isRequired isActive
  | activeOwner isRequired isOwner => exact .activeOwner isRequired isOwner
  | owner isRequired isOwner => exact .owner isRequired isOwner

def ActiveAsks (id : AccountId) (key : K) : Prop :=
  id ∉ signatures.approved ∧
    ∃ auth, signatures.getActive id = some auth ∧
      signatures.AskedFrom auth key

def OwnerAsks (id : AccountId) (key : K) : Prop :=
  ∃ auth, signatures.getOwner id = some auth ∧ signatures.AskedFrom auth key

/-- Some required authority asks for the key; the owner authorities that take
the place of active ones are left out. -/
def AskedBy (required : Required K) (key : K) : Prop :=
  (∃ auth ∈ required.other, signatures.AskedFrom auth key) ∨
    (∃ id ∈ required.owner, signatures.OwnerAsks id key) ∨
      ∃ id ∈ required.active, signatures.ActiveAsks id key

/-- Every required authority has a derivation, or its account has approved; an
active one may be met by the owner authority of the account. -/
structure Authorised (required : Required K) : Prop where
  other : ∀ auth ∈ required.other, signatures.Grounded auth
  active :
    ∀ id ∈ required.active,
      signatures.Approves id ∨ signatures.OwnerGrounded id
  owner :
    ∀ id ∈ required.owner,
      id ∈ signatures.ownerApprovals ∨ signatures.OwnerGrounded id

/-- The active authority of the account asks for the key, or the owner authority
that takes its place. -/
def EitherAsks (id : AccountId) (key : K) : Prop :=
  signatures.ActiveAsks id key ∨
    ¬ signatures.Approves id ∧ signatures.OwnerAsks id key

/-- Some required authority asks for the key: where no owner has approved, and
for an active authority that is not met its owner authority too. -/
def AskedFor (required : Required K) (key : K) : Prop :=
  (∃ auth ∈ required.other, signatures.AskedFrom auth key) ∨
    (∃ id ∈ required.active, signatures.EitherAsks id key) ∨
      ∃ id ∈ required.owner,
        id ∉ signatures.ownerApprovals ∧ signatures.OwnerAsks id key

end Required

end Signatures

section Loops

variable {signatures : Signatures K} {context : SignContext K}
  {allowed : K → Prop} {state : SignState K}

/-- A part of a search that ends in another state: afterwards the keys that it
asks for are used, with those that were used before. -/
structure Goes (signatures : Signatures K) (context : SignContext K)
    (allowed : K → Prop) (asks : K → Prop) (state next : SignState K) :
    Prop where
  tracked : Tracked signatures context allowed next
  asked : ∀ key ∈ signatures.sigs, asks key → next.Used key
  stays : ∀ key, state.Used key → next.Used key

theorem Follows.goes {outcome : Bool × SignState K} {counts : Prop}
    {asks : K → Prop}
    (follows : Follows signatures context allowed state outcome counts asks) :
    Goes signatures context allowed asks state outcome.2 :=
  ⟨follows.tracked, follows.asked, follows.stays⟩

theorem Goes.refl (tracked : Tracked signatures context allowed state) :
    Goes signatures context allowed (fun _ => False) state state :=
  ⟨tracked, fun _ _ impossible => impossible.elim, fun _ used => used⟩

theorem Goes.trans {first second : K → Prop} {middle next : SignState K}
    (before : Goes signatures context allowed first state middle)
    (after : Goes signatures context allowed second middle next) :
    Goes signatures context allowed (fun key => first key ∨ second key)
      state next := by
  refine ⟨after.tracked, ?_, ?_⟩
  · rintro key isKey (asked | asked)
    · exact after.stays key (before.asked key isKey asked)
    · exact after.asked key isKey asked
  · intro key used
    exact after.stays key (before.stays key used)

theorem Goes.congr {asks other : K → Prop} {next : SignState K}
    (goes : Goes signatures context allowed asks state next)
    (implies : ∀ key, other key → asks key) :
    Goes signatures context allowed other state next :=
  ⟨goes.tracked, fun key isKey asked => goes.asked key isKey (implies key asked),
    goes.stays⟩

theorem foldl_goes {ι : Type} {step : SignState K → ι → SignState K}
    {asks : ι → K → Prop} {items : List ι}
    (round :
      ∀ item ∈ items, ∀ state, Tracked signatures context allowed state →
        Goes signatures context allowed (asks item) state (step state item))
    (tracked : Tracked signatures context allowed state) :
    Goes signatures context allowed (fun key => ∃ item ∈ items, asks item key)
      state (items.foldl step state) := by
  induction items generalizing state with
  | nil => exact (Goes.refl tracked).congr (by simp)
  | cons item rest ih =>
      have first := round item List.mem_cons_self state tracked
      have later :=
        ih
          (fun other member => round other (List.mem_cons_of_mem _ member))
          first.tracked
      refine (first.trans later).congr ?_
      rintro key ⟨other, member, asked⟩
      rcases List.mem_cons.mp member with rfl | inRest
      · exact .inl asked
      · exact .inr ⟨other, inRest, asked⟩

/-- A part of `verify_authority`: it returns exactly if its requirement is met,
and otherwise an authority is missing. -/
def Decides (signatures : Signatures K) (context : SignContext K)
    (allowed : K → Prop) (met : Prop) (asks : K → Prop) (state : SignState K)
    (outcome : Outcome (AuthorityFault K) (SignState K)) : Prop :=
  (met ∧ ∃ next, outcome = .ok next ∧
      Goes signatures context allowed asks state next) ∨
    (¬ met ∧ ∃ fault next, outcome = .throw fault next ∧
      fault.missing = true)

variable {outcome : Outcome (AuthorityFault K) (SignState K)}

theorem Decides.bind {met more : Prop} {first second : K → Prop}
    {next : SignState K → Outcome (AuthorityFault K) (SignState K)}
    (decides : Decides signatures context allowed met first state outcome)
    (later :
      ∀ middle, Tracked signatures context allowed middle →
        Decides signatures context allowed more second middle
          (next middle)) :
    Decides signatures context allowed (met ∧ more)
      (fun key => first key ∨ second key) state (outcome.bind next) := by
  rcases decides with
    ⟨isMet, middle, rfl, goes⟩ | ⟨notMet, fault, middle, rfl, isMissing⟩
  · rcases later middle goes.tracked with
      ⟨isMetToo, last, returns, goesOn⟩ |
        ⟨notMet, fault, last, throws, isMissing⟩
    · exact .inl ⟨⟨isMet, isMetToo⟩, last, returns, goes.trans goesOn⟩
    · exact .inr ⟨fun both => notMet both.2, fault, last, throws, isMissing⟩
  · exact .inr ⟨fun both => notMet both.1, fault, middle, rfl, isMissing⟩

theorem Decides.congr {met other : Prop} {asks less : K → Prop}
    (decides : Decides signatures context allowed met asks state outcome)
    (same : other ↔ met) (implies : ∀ key, less key → asks key) :
    Decides signatures context allowed other less state outcome := by
  unfold Decides
  rw [same]
  refine decides.imp_left ?_
  rintro ⟨isMet, next, returns, goes⟩
  exact ⟨isMet, next, returns, goes.congr implies⟩

theorem forEach_decides {ι : Type}
    {body : ι → SignState K → Outcome (AuthorityFault K) (SignState K)}
    {met : ι → Prop} {asks : ι → K → Prop} {items : List ι}
    (round :
      ∀ item ∈ items, ∀ state, Tracked signatures context allowed state →
        Decides signatures context allowed (met item) (asks item) state
          (body item state))
    (tracked : Tracked signatures context allowed state) :
    Decides signatures context allowed (∀ item ∈ items, met item)
      (fun key => ∃ item ∈ items, asks item key) state
      (forEach body items state) := by
  induction items generalizing state with
  | nil =>
      exact .inl ⟨by simp, state, rfl, (Goes.refl tracked).congr (by simp)⟩
  | cons item rest ih =>
      rw [forEach_cons]
      have first := round item List.mem_cons_self state tracked
      refine (first.bind fun middle trackedMiddle =>
        ih
          (fun other member => round other (List.mem_cons_of_mem _ member))
          trackedMiddle).congr List.forall_mem_cons ?_
      rintro key ⟨other, member, asked⟩
      rcases List.mem_cons.mp member with rfl | inRest
      · exact .inl asked
      · exact .inr ⟨other, inRest, asked⟩

end Loops

section Rounds

variable {signatures : Signatures K} {context : SignContext K}
  {allowed : K → Prop} {required : Required K} {state : SignState K}
  {remaining : Nat}

/-- Every required authority can be searched to its end. -/
structure Complete (signatures : Signatures K) (required : Required K)
    (remaining : Nat) : Prop where
  bounded : Bounded signatures required
  nested :
    ∀ auth, signatures.TopLevel required auth →
      signatures.NestedWithin remaining auth

theorem Complete.follows (complete : Complete signatures required remaining)
    (same : context.getActive = signatures.getActive) {auth : Authority K}
    (topLevel : signatures.TopLevel required auth)
    (isAllowed :
      ∀ key ∈ signatures.sigs, signatures.AskedFrom auth key → allowed key)
    (tracked : Tracked signatures context allowed state) :
    Follows signatures context allowed state
      (checkAuthority context remaining (some auth) state)
      (signatures.Grounded auth) (signatures.AskedFrom auth) := by
  have searchable : Searchable signatures (signatures.Involved required) :=
    ⟨complete.bounded, fun upper auth entry isUpper member isActive =>
      .nested isUpper member isActive⟩
  exact checkAuthority_follows same searchable remaining topLevel.involved
    (complete.nested auth topLevel) isAllowed tracked

theorem Complete.followsOwner
    (complete : Complete signatures required remaining)
    (same : context.getActive = signatures.getActive) {id : AccountId}
    (topLevel :
      ∀ auth, signatures.getOwner id = some auth →
        signatures.TopLevel required auth)
    (isAllowed :
      ∀ key ∈ signatures.sigs, signatures.OwnerAsks id key → allowed key)
    (tracked : Tracked signatures context allowed state) :
    Follows signatures context allowed state
      (checkAuthority context remaining (signatures.getOwner id) state)
      (signatures.OwnerGrounded id) (signatures.OwnerAsks id) :=
  follows_option
    (fun auth isOwner =>
      complete.follows same (topLevel auth isOwner)
        (fun key isKey asked => isAllowed key isKey ⟨auth, isOwner, asked⟩)
        tracked)
    tracked

theorem Complete.followsActive
    (complete : Complete signatures required remaining)
    (same : context.getActive = signatures.getActive) {id : AccountId}
    (member : id ∈ required.active)
    (isAllowed :
      ∀ key ∈ signatures.sigs, signatures.ActiveAsks id key → allowed key)
    (tracked : Tracked signatures context allowed state) :
    Follows signatures context allowed state
      (checkAccountAuthority context remaining id state)
      (signatures.Approves id) (signatures.ActiveAsks id) := by
  unfold checkAccountAuthority
  split
  · next remembered =>
      refine ⟨tracked, by simp [tracked.approves id remembered], ?_,
        fun _ used => used⟩
      rintro key isKey ⟨notApproved, auth, isActive, asked⟩
      exact tracked.asked id remembered notApproved auth isActive key isKey
        asked
  · next notRemembered =>
      have notApproved : id ∉ signatures.approved :=
        fun isApproved => notRemembered (tracked.remembers id isApproved)
      rw [same]
      have follows :=
        @follows_option _ _ signatures context allowed state remaining
          (signatures.getActive id)
          (fun auth isActive =>
            complete.follows same (.active member isActive)
              (fun key isKey asked =>
                isAllowed key isKey ⟨notApproved, auth, isActive, asked⟩)
              tracked)
          tracked
      refine ⟨follows.tracked, ?_, ?_, follows.stays⟩
      · rw [follows.exact, Signatures.approves_iff]
        simp [notApproved]
      · rintro key isKey ⟨_, asked⟩
        exact follows.asked key isKey asked

theorem checkOther_decides
    (complete : Complete signatures required signatures.maxRecursionDepth)
    {auth : Authority K} (member : auth ∈ required.other)
    (isAllowed :
      ∀ key ∈ signatures.sigs, signatures.AskedFrom auth key → allowed key)
    (tracked : Tracked signatures signatures.context allowed state) :
    Decides signatures signatures.context allowed
      (signatures.Grounded auth) (signatures.AskedFrom auth) state
      (signatures.checkOther auth state) := by
  have follows := complete.follows rfl (.other member) isAllowed tracked
  unfold Signatures.checkOther
  cases checked :
      checkAuthority signatures.context signatures.maxRecursionDepth
        (some auth) state with
  | mk found next =>
      rw [checked] at follows
      cases found with
      | true => exact .inl ⟨follows.exact.mp rfl, next, rfl, follows.goes⟩
      | false =>
          refine .inr ⟨fun met => ?_, _, next, rfl, rfl⟩
          cases follows.exact.mpr met

theorem checkActive_decides
    (complete : Complete signatures required signatures.maxRecursionDepth)
    {id : AccountId} (member : id ∈ required.active)
    (isAllowed :
      ∀ key ∈ signatures.sigs, signatures.EitherAsks id key → allowed key)
    (tracked : Tracked signatures signatures.context allowed state) :
    Decides signatures signatures.context allowed
      (signatures.Approves id ∨ signatures.OwnerGrounded id)
      (signatures.EitherAsks id) state (signatures.checkActive id state) := by
  have active :=
    complete.followsActive rfl member
      (fun key isKey asked => isAllowed key isKey (.inl asked)) tracked
  unfold Signatures.checkActive
  cases checked :
      checkAccountAuthority signatures.context signatures.maxRecursionDepth id
        state with
  | mk found next =>
      rw [checked] at active
      cases found with
      | true =>
          have approves := active.exact.mp rfl
          refine .inl ⟨.inl approves, next, rfl, active.goes.congr ?_⟩
          rintro key (asked | ⟨notMet, _⟩)
          · exact asked
          · exact absurd approves notMet
      | false =>
          have notMet : ¬ signatures.Approves id := by
            intro approves
            cases active.exact.mpr approves
          have owner :=
            @Complete.followsOwner K _ signatures signatures.context
              allowed required next signatures.maxRecursionDepth
              complete rfl id (fun _ => .activeOwner member)
              (fun key isKey asked =>
                isAllowed key isKey (.inr ⟨notMet, asked⟩))
              active.tracked
          cases checkedOwner :
              checkAuthority signatures.context signatures.maxRecursionDepth
                (signatures.getOwner id) next with
          | mk foundOwner last =>
              rw [checkedOwner] at owner
              cases foundOwner with
              | true =>
                  refine .inl ⟨.inr (owner.exact.mp rfl), last, ?_, ?_⟩
                  · simp only [checkedOwner]
                  · exact (active.goes.trans owner.goes).congr
                      fun _ asked => asked.imp_right fun both => both.2
              | false =>
                  refine .inr ⟨?_, .missingActiveAuth id, last, ?_, rfl⟩
                  · rintro (approves | grounded)
                    · exact notMet approves
                    · cases owner.exact.mpr grounded
                  · simp only [checkedOwner]

theorem checkOwner_decides
    (complete : Complete signatures required signatures.maxRecursionDepth)
    {id : AccountId} (member : id ∈ required.owner)
    (isAllowed :
      ∀ key ∈ signatures.sigs, id ∉ signatures.ownerApprovals →
        signatures.OwnerAsks id key → allowed key)
    (tracked : Tracked signatures signatures.context allowed state) :
    Decides signatures signatures.context allowed
      (id ∈ signatures.ownerApprovals ∨ signatures.OwnerGrounded id)
      (fun key =>
        id ∉ signatures.ownerApprovals ∧ signatures.OwnerAsks id key)
      state (signatures.checkOwner id state) := by
  unfold Signatures.checkOwner
  by_cases approved : id ∈ signatures.ownerApprovals
  · rw [if_pos approved]
    refine .inl ⟨.inl approved, state, rfl, (Goes.refl tracked).congr ?_⟩
    rintro key ⟨notApproved, _⟩
    exact notApproved approved
  · rw [if_neg approved]
    have follows :=
      @Complete.followsOwner K _ signatures signatures.context allowed
        required state signatures.maxRecursionDepth complete rfl id
        (fun _ => .owner member)
        (fun key isKey asked => isAllowed key isKey approved asked) tracked
    cases checked :
        checkAuthority signatures.context signatures.maxRecursionDepth
          (signatures.getOwner id) state with
    | mk found next =>
        rw [checked] at follows
        cases found with
        | true =>
            exact .inl ⟨.inr (follows.exact.mp rfl), next, rfl,
              follows.goes.congr fun _ asked => asked.2⟩
        | false =>
            refine .inr ⟨?_, _, next, rfl, rfl⟩
            rintro (again | grounded)
            · exact approved again
            · cases follows.exact.mpr grounded

/-- The three loops return exactly when all required authorities are met, and
have used the keys that they were asked for. -/
theorem loops_decide
    (complete : Complete signatures required signatures.maxRecursionDepth)
    (isAllowed :
      ∀ key ∈ signatures.sigs, signatures.AskedFor required key →
        allowed key)
    (tracked : Tracked signatures signatures.context allowed state) :
    Decides signatures signatures.context allowed
      (signatures.Authorised required) (signatures.AskedFor required) state
      ((forEach signatures.checkOther required.other state).bind fun state =>
        (forEach signatures.checkActive required.active state).bind
          fun state =>
        forEach signatures.checkOwner required.owner state) := by
  have others := forEach_decides
    (fun auth member state tracked =>
      @checkOther_decides _ _ _ allowed _ state complete auth member
        (fun key isKey asked =>
          isAllowed key isKey (.inl ⟨auth, member, asked⟩)) tracked)
    tracked
  refine (others.bind fun middle trackedMiddle =>
    (forEach_decides
      (fun id member state tracked =>
        @checkActive_decides _ _ _ allowed _ state complete id member
          (fun key isKey asked =>
            isAllowed key isKey (.inr (.inl ⟨id, member, asked⟩))) tracked)
      trackedMiddle).bind fun last trackedLast =>
        forEach_decides
          (fun id member state tracked =>
            @checkOwner_decides _ _ _ allowed _ state complete id member
              (fun key isKey notApproved asked =>
                isAllowed key isKey
                  (.inr (.inr ⟨id, member, notApproved, asked⟩)))
              tracked)
          trackedLast).congr ?_ ?_
  · constructor
    · intro met
      exact ⟨met.other, met.active, met.owner⟩
    · rintro ⟨other, active, owner⟩
      exact ⟨other, active, owner⟩
  · exact fun _ asked => asked

/-- The rest of `verify_authority` comes after the three loops. -/
theorem loops_bind
    (last : SignState K → Outcome (AuthorityFault K) (SignState K)) :
    ((forEach signatures.checkOther required.other state).bind fun state =>
      (forEach signatures.checkActive required.active state).bind
        fun state =>
      (forEach signatures.checkOwner required.owner state).bind last) =
    ((forEach signatures.checkOther required.other state).bind fun state =>
      (forEach signatures.checkActive required.active state).bind
        fun state =>
      forEach signatures.checkOwner required.owner state).bind last := by
  simp only [Outcome.bind_assoc]

end Rounds

section Verify

variable {signing : Signing K Op} {requires : Op → Required K}
  {keys : List K} {state : SignState K}

theorem tracked_start {added : SignContext K} {present : List K}
    {allowed : K → Prop}
    (together : ∀ key, key ∈ keys ↔ key ∈ present ∨ key ∈ added.availableKeys) :
    Tracked (signing.signatures keys) added allowed
      (signing.signatures present).start := by
  refine ⟨?_, ?_, fun _ isApproved => isApproved,
    fun _ isApproved => ⟨0, .inl isApproved⟩, ?_⟩
  · intro key
    show _ ↔ key ∈ keys
    rw [together key]
    apply or_congr_left
    simp only [Signatures.start]
    split
    · next isKey => simpa [Signing.signatures] using isKey
    · next notKey => simpa [Signing.signatures] using notKey
  · intro key used
    simp only [SignState.Used, Signatures.start] at used
    split at used
    · cases used
    · cases used
  · intro account isApproved notApproved
    exact absurd isApproved notApproved

variable {required : Required K}

theorem metAll_iff :
    (signing.signatures keys).MetAll required ↔
      (signing.signatures keys).Authorised required :=
  ⟨fun met =>
      ⟨met.other, met.active, fun id member => .inr (met.owner id member)⟩,
    fun met =>
      ⟨met.other, met.active, fun id member =>
        (met.owner id member).resolve_left List.not_mem_nil⟩⟩

theorem askedFor_of_askedBy {key : K}
    (asked : (signing.signatures keys).AskedBy required key) :
    (signing.signatures keys).AskedFor required key := by
  rcases asked with other | ⟨id, member, asked⟩ | ⟨id, member, asked⟩
  · exact .inl other
  · exact .inr (.inr ⟨id, member, List.not_mem_nil, asked⟩)
  · exact .inr (.inl ⟨id, member, .inl asked⟩)

/-- `verify_authority` finds an authority missing exactly when one is not met,
and otherwise accepts if it was asked for every key. -/
theorem verify_decides
    (isRequired : getRequiredAuthorities requires signing.operations = required)
    (complete :
      Complete (signing.signatures keys) required signing.maxRecursion)
    (noCommittee : GRAPHENE_COMMITTEE_ACCOUNT ∉ required.active) :
    (¬ (signing.signatures keys).MetAll required ∧
      ∃ fault next, signing.verify requires keys = .throw fault next ∧
        fault.missing = true) ∨
    ((signing.signatures keys).MetAll required ∧
      (∀ fault next, signing.verify requires keys = .throw fault next →
        fault.missing = false) ∧
      ((∀ key ∈ keys, (signing.signatures keys).AskedBy required key) →
        ∃ next, signing.verify requires keys = .ok next)) := by
  unfold Signing.verify verifyAuthority
  rw [isRequired]
  have started :
      Tracked (signing.signatures keys) (signing.signatures keys).context
        (fun _ => True) (signing.signatures keys).start :=
    tracked_start fun key => by simp [Signatures.context]
  have decides :=
    (loops_decide complete (fun _ _ _ => trivial) started).congr
      metAll_iff (fun _ asked => askedFor_of_askedBy asked)
  simp only [noCommittee, and_false, if_false]
  rw [loops_bind]
  rcases decides with
    ⟨met, final, returns, goes⟩ | ⟨notMet, fault, final, throws, isMissing⟩
  · refine .inr ⟨met, ?_, ?_⟩
    · intro fault next throws
      rw [returns, Outcome.bind_ok] at throws
      split at throws
      · cases throws
        rfl
      · cases throws
    · intro asked
      have noneUnused : (signing.signatures keys).hasUnused final = false := by
        rw [Signatures.hasUnused, List.any_eq_false]
        intro key isKey unused
        have used : final.Used key := goes.asked key isKey (asked key isKey)
        rw [SignState.Used] at used
        rw [used] at unused
        cases unused
      refine ⟨final, ?_⟩
      rw [returns, Outcome.bind_ok, noneUnused]
      rfl
  · refine .inl ⟨notMet, fault, final, ?_, isMissing⟩
    rw [throws, Outcome.bind_throw]

end Verify

section Fewer

variable {signing : Signing K Op} {few many : List K}
  {required : Required K}

omit [DecidableEq K] in
theorem grows_of_subset (fewer : few ⊆ many) :
    Signatures.Grows (signing.signatures few) (signing.signatures many) :=
  ⟨fewer, rfl, rfl, fun _ member => member, fun _ member => member⟩

variable {auth : Authority K} {first second : List K}

theorem grounded_more {depth : Nat} (fewer : few ⊆ many)
    (isGrounded : (signing.signatures few).grounded depth auth = true) :
    (signing.signatures many).grounded depth auth = true :=
  (grows_of_subset fewer).grounded isGrounded

theorem Signatures.Grounded.more (fewer : few ⊆ many)
    (isGrounded : (signing.signatures few).Grounded auth) :
    (signing.signatures many).Grounded auth :=
  isGrounded.imp fun _ => grounded_more fewer

theorem approves_more {account : AccountId} (fewer : few ⊆ many)
    (approves : (signing.signatures few).Approves account) :
    (signing.signatures many).Approves account := by
  rw [Signatures.approves_iff] at approves ⊢
  rcases approves with isApproved | ⟨auth, isActive, isGrounded⟩
  · exact .inl isApproved
  · exact .inr ⟨auth, isActive, isGrounded.more fewer⟩

theorem counts_more {item : K ⊕ AccountId} (fewer : few ⊆ many)
    (counts : (signing.signatures few).Counts item) :
    (signing.signatures many).Counts item := by
  cases item with
  | inl key => exact fewer counts
  | inr account => exact approves_more fewer counts

theorem Signatures.OwnerGrounded.more {id : AccountId} (fewer : few ⊆ many)
    (isGrounded : (signing.signatures few).OwnerGrounded id) :
    (signing.signatures many).OwnerGrounded id := by
  obtain ⟨auth, isOwner, isGrounded⟩ := isGrounded
  exact ⟨auth, isOwner, isGrounded.more fewer⟩

theorem Signatures.MetAll.more (fewer : few ⊆ many)
    (met : (signing.signatures few).MetAll required) :
    (signing.signatures many).MetAll required :=
  { other := fun auth member => (met.other auth member).more fewer
    active := fun id member =>
      (met.active id member).imp (approves_more fewer)
        (Signatures.OwnerGrounded.more fewer)
    owner := fun id member => (met.owner id member).more fewer }

theorem Signatures.AskedFrom.fewer {key : K} (fewer : few ⊆ many)
    (asked : (signing.signatures many).AskedFrom auth key) :
    (signing.signatures few).AskedFrom auth key := by
  classical
  have sublist := fun done =>
    @weights_sublist _ (signing.signatures few).Counts
      (signing.signatures many).Counts _ _
      (fun _ => counts_more fewer) done
  induction asked with
  | key split reached => exact .key split (reached.of_sublist (sublist _))
  | account split reached notApproved isActive _ ih =>
      exact .account split (reached.of_sublist (sublist _)) notApproved
        isActive ih

theorem Signatures.AskedBy.fewer {key : K} (fewer : few ⊆ many)
    (asked : (signing.signatures many).AskedBy required key) :
    (signing.signatures few).AskedBy required key := by
  rcases asked with
    ⟨auth, member, asked⟩ | ⟨id, member, auth, isOwner, asked⟩ |
      ⟨id, member, notApproved, auth, isActive, asked⟩
  · exact .inl ⟨auth, member, asked.fewer fewer⟩
  · exact .inr (.inl ⟨id, member, auth, isOwner, asked.fewer fewer⟩)
  · exact .inr (.inr
      ⟨id, member, notApproved, auth, isActive, asked.fewer fewer⟩)

omit [DecidableEq K] in
theorem involved_of_keys
    (involved : (signing.signatures first).Involved required auth) :
    (signing.signatures second).Involved required auth := by
  induction involved with
  | other isOther => exact .other isOther
  | active isRequired isActive => exact .active isRequired isActive
  | activeOwner isRequired isOwner => exact .activeOwner isRequired isOwner
  | owner isRequired isOwner => exact .owner isRequired isOwner
  | nested _ member isActive ih =>
      exact .nested ih member isActive

omit [DecidableEq K] in
theorem topLevel_of_keys
    (topLevel : (signing.signatures first).TopLevel required auth) :
    (signing.signatures second).TopLevel required auth := by
  cases topLevel with
  | other isOther => exact .other isOther
  | active isRequired isActive => exact .active isRequired isActive
  | activeOwner isRequired isOwner => exact .activeOwner isRequired isOwner
  | owner isRequired isOwner => exact .owner isRequired isOwner

omit [DecidableEq K] in
theorem nestedWithin_of_keys {depth : Nat}
    (nested : (signing.signatures first).NestedWithin depth auth) :
    (signing.signatures second).NestedWithin depth auth := by
  induction depth generalizing auth with
  | zero => exact nested
  | succ depth ih =>
      intro entry member notApproved lower isActive
      exact ih
        (nested entry member notApproved lower isActive)

theorem Complete.fewer {remaining : Nat} (fewer : few ⊆ many)
    (complete : Complete (signing.signatures many) required remaining) :
    Complete (signing.signatures few) required remaining := by
  classical
  constructor
  · intro auth involved
    have noJump := complete.bounded auth (involved_of_keys involved)
    rw [← Signatures.weights_entries] at noJump ⊢
    exact noJump.of_sublist
      (weights_sublist (fun _ => counts_more fewer) _)
  · intro auth topLevel
    exact nestedWithin_of_keys
      (complete.nested auth (topLevel_of_keys topLevel))

open Classical in
/-- Where the keys that an authority asks for are enough for the accounts below
it, they are enough for the authority. -/
theorem grounded_of_below
    (enough :
      ∀ key ∈ many, (signing.signatures many).AskedFrom auth key → key ∈ few)
    (below :
      ∀ account weight, (account, weight) ∈ auth.accountAuths →
        account ∉ (signing.signatures many).approved →
        ∀ lower, signing.getActive account = some lower →
          (∀ key ∈ many,
            (signing.signatures many).AskedFrom lower key → key ∈ few) →
          (signing.signatures many).Grounded lower →
          (signing.signatures few).Grounded lower)
    (isGrounded : (signing.signatures many).Grounded auth) :
    (signing.signatures few).Grounded auth := by
  rw [Signatures.grounded_iff] at isGrounded ⊢
  refine @reaches_of_open _ auth.weightThreshold auth.entries
    (signing.signatures many).Counts (signing.signatures few).Counts _ _ []
    ?_ (Nat.le_refl _) isGrounded
  rintro past ⟨item, weight⟩ later split reached counts
  cases item with
  | inl key => exact enough key counts (.key split reached)
  | inr account =>
      have approves : (signing.signatures many).Approves account := counts
      show (signing.signatures few).Approves account
      rw [Signatures.approves_iff] at approves ⊢
      by_cases isApproved : account ∈ (signing.signatures many).approved
      · exact .inl isApproved
      · rcases approves with again | ⟨lower, isActive, isGroundedLower⟩
        · exact absurd again isApproved
        · refine .inr ⟨lower, isActive, ?_⟩
          refine below account weight ?_ isApproved lower isActive ?_
            isGroundedLower
          · exact mem_accountAuths (by rw [split]; simp)
          · intro key isKey asked
            exact enough key isKey
              (.account split reached isApproved isActive asked)

theorem grounded_of_asked {depth : Nat}
    (nested : (signing.signatures many).NestedWithin depth auth)
    (enough :
      ∀ key ∈ many, (signing.signatures many).AskedFrom auth key → key ∈ few)
    (isGrounded : (signing.signatures many).Grounded auth) :
    (signing.signatures few).Grounded auth := by
  induction depth generalizing auth with
  | zero =>
      refine grounded_of_below enough ?_ isGrounded
      intro account weight member notApproved
      exact absurd (nested (account, weight) member) notApproved
  | succ depth ih =>
      refine grounded_of_below enough ?_ isGrounded
      intro account weight member notApproved lower isActive
      exact ih
        (nested (account, weight) member notApproved lower isActive)

end Fewer

section Results

/-- No authority is missing with signatures of these keys. -/
def Signing.NoneMissing (signing : Signing K Op) (requires : Op → Required K)
    (keys : List K) : Prop :=
  ∀ fault state, signing.verify requires keys = .throw fault state →
    fault.missing = false

/-- Some of the available keys can sign so that the transaction is accepted. -/
def Signing.Signable (signing : Signing K Op) (requires : Op → Required K) :
    Prop :=
  ∃ chosen ⊆ signing.availableKeys, ∃ state,
    signing.verify requires (signing.signatureKeys ++ chosen) = .ok state

/-- With the suggested keys no authority is missing; the minimiser returns a
part of them with which none is missing either, and no key of which can be left
out. -/
structure Signing.SuggestionSuffices (signing : Signing K Op)
    (requires : Op → Required K) : Prop where
  enough :
    signing.NoneMissing requires
      (signing.signatureKeys ++ signing.getRequiredSignatures requires)
  minimal :
    ∃ result, signing.minimizeRequiredSignatures requires = .ok result ∧
      result ⊆ signing.getRequiredSignatures requires ∧
      signing.NoneMissing requires (signing.signatureKeys ++ result) ∧
      ∀ key ∈ result,
        ¬ signing.NoneMissing requires
          (signing.signatureKeys ++ without key result)

def Signing.allKeys (signing : Signing K Op) : List K :=
  signing.signatureKeys ++ signing.availableKeys

/-- The searches go to their end, an active authority is met itself where the
owner authority of its account is, and available keys that meet the requirements
together with the existing signatures meet them alone. -/
structure Signing.Agrees (signing : Signing K Op) (required : Required K) :
    Prop where
  complete :
    Complete (signing.signatures signing.allKeys) required signing.maxRecursion
  ownActive :
    ∀ id ∈ required.active,
      (signing.signatures signing.allKeys).OwnerGrounded id →
        (signing.signatures signing.allKeys).Approves id
  alone :
    ∀ keys ⊆ signing.availableKeys,
      (signing.signatures (signing.signatureKeys ++ keys)).MetAll required →
        (signing.signatures keys).MetAll required

variable {signing : Signing K Op} {requires : Op → Required K}
  {required : Required K}

section Search

variable
  (isRequired : getRequiredAuthorities requires signing.operations = required)

include isRequired

/-- The search of the suggestion uses the keys that all keys together ask for,
and no others. -/
theorem search_used
    (complete :
      Complete (signing.signatures signing.allKeys) required
        signing.maxRecursion) {key : K} (isKey : key ∈ signing.allKeys) :
    (signing.search requires).Used key ↔
      (signing.signatures signing.allKeys).AskedBy required key := by
  have started :
      Tracked (signing.signatures signing.allKeys) signing.context
        ((signing.signatures signing.allKeys).AskedBy required)
        (signing.signatures signing.signatureKeys).start :=
    tracked_start fun key => List.mem_append
  have others :=
    @foldl_goes _ _ _ signing.context _ _ _ _ _ required.other
      (fun auth member state tracked =>
        (complete.follows rfl (.other member)
          (fun key _ asked => .inl ⟨auth, member, asked⟩) tracked).goes)
      started
  have owners :=
    @foldl_goes _ _ _ signing.context _ _ _ _ _ required.owner
      (fun id member state tracked =>
        (complete.followsOwner rfl (fun _ => .owner member)
          (fun key _ asked => .inr (.inl ⟨id, member, asked⟩)) tracked).goes)
      others.tracked
  have actives :=
    @foldl_goes _ _ _ signing.context _ _ _ _ _ required.active
      (fun id member state tracked =>
        (complete.followsActive rfl member
          (fun key _ asked => .inr (.inr ⟨id, member, asked⟩)) tracked).goes)
      owners.tracked
  have goes :
      Goes (signing.signatures signing.allKeys) signing.context
        ((signing.signatures signing.allKeys).AskedBy required)
        ((signing.signatures signing.allKeys).AskedBy required)
        (signing.signatures signing.signatureKeys).start
        (signing.search requires) := by
    unfold Signing.search
    rw [isRequired]
    refine ((others.trans owners).trans actives).congr ?_
    rintro key (asked | asked | asked)
    · exact .inl (.inl asked)
    · exact .inl (.inr asked)
    · exact .inr asked
  exact ⟨goes.tracked.permitted key, goes.asked key isKey⟩

theorem mem_getRequiredSignatures
    (complete :
      Complete (signing.signatures signing.allKeys) required
        signing.maxRecursion) {key : K} :
    key ∈ signing.getRequiredSignatures requires ↔
      key ∈ signing.availableKeys ∧ key ∉ signing.signatureKeys ∧
        (signing.signatures signing.allKeys).AskedBy required key := by
  simp only [Signing.getRequiredSignatures, List.mem_filter,
    Bool.and_eq_true, beq_iff_eq, decide_eq_true_eq]
  constructor
  · rintro ⟨isAvailable, used, notSigned⟩
    have isKey : key ∈ signing.allKeys := List.mem_append_right _ isAvailable
    exact ⟨isAvailable, notSigned,
      (search_used isRequired complete isKey).mp used⟩
  · rintro ⟨isAvailable, notSigned, asked⟩
    have isKey : key ∈ signing.allKeys := List.mem_append_right _ isAvailable
    exact ⟨isAvailable, (search_used isRequired complete isKey).mpr asked,
      notSigned⟩

/-- What all keys meet, the existing ones and the suggested ones meet. -/
theorem suggested_metAll (agrees : signing.Agrees required)
    (met : (signing.signatures signing.allKeys).MetAll required) :
    (signing.signatures
      (signing.signatureKeys ++
        signing.getRequiredSignatures requires)).MetAll required := by
  have complete := agrees.complete
  have chosen :
      ∀ key ∈ signing.allKeys,
        (signing.signatures signing.allKeys).AskedBy required key →
        key ∈ signing.signatureKeys ++
          signing.getRequiredSignatures requires := by
    intro key isKey asked
    by_cases signed : key ∈ signing.signatureKeys
    · exact List.mem_append_left _ signed
    · refine List.mem_append_right _
        ((mem_getRequiredSignatures isRequired complete).mpr
          ⟨?_, signed, asked⟩)
      exact (List.mem_append.mp isKey).resolve_left signed
  have owner :
      ∀ id ∈ required.owner,
        (signing.signatures signing.allKeys).OwnerGrounded id →
        (signing.signatures
          (signing.signatureKeys ++
            signing.getRequiredSignatures requires)).OwnerGrounded id := by
    rintro id member ⟨auth, isOwner, isGrounded⟩
    refine ⟨auth, isOwner, grounded_of_asked
      (complete.nested auth (.owner member isOwner)) ?_ isGrounded⟩
    intro key isKey asked
    exact chosen key isKey (.inr (.inl ⟨id, member, auth, isOwner, asked⟩))
  have active :
      ∀ id ∈ required.active,
        (signing.signatures signing.allKeys).Approves id →
        (signing.signatures
          (signing.signatureKeys ++
            signing.getRequiredSignatures requires)).Approves id := by
    intro id member approves
    rw [Signatures.approves_iff] at approves ⊢
    by_cases isApproved :
        id ∈ (signing.signatures signing.allKeys).approved
    · exact .inl isApproved
    · rcases approves with again | ⟨auth, isActive, isGrounded⟩
      · exact absurd again isApproved
      · refine .inr ⟨auth, isActive, grounded_of_asked
          (complete.nested auth (.active member isActive)) ?_ isGrounded⟩
        intro key isKey asked
        exact chosen key isKey
          (.inr (.inr ⟨id, member, isApproved, auth, isActive, asked⟩))
  constructor
  · intro auth member
    refine grounded_of_asked (complete.nested auth (.other member)) ?_
      (met.other auth member)
    intro key isKey asked
    exact chosen key isKey (.inl ⟨auth, member, asked⟩)
  · intro id member
    refine .inl (active id member ?_)
    rcases met.active id member with approves | isGrounded
    · exact approves
    · exact agrees.ownActive id member isGrounded
  · intro id member
    exact owner id member (met.owner id member)

theorem noneMissing_iff {keys : List K}
    (complete :
      Complete (signing.signatures keys) required signing.maxRecursion)
    (noCommittee : GRAPHENE_COMMITTEE_ACCOUNT ∉ required.active) :
    signing.NoneMissing requires keys ↔
      (signing.signatures keys).MetAll required := by
  rcases verify_decides isRequired complete noCommittee with
    ⟨notMet, fault, next, throws, isMissing⟩ | ⟨met, noneMissing, _⟩
  · refine ⟨fun noneMissing => ?_, fun met => absurd met notMet⟩
    rw [noneMissing fault next throws] at isMissing
    cases isMissing
  · exact ⟨fun _ => met, fun _ => noneMissing⟩

open Classical in
theorem minimizeRound_eq {key : K} {keys : List K}
    (complete :
      Complete (signing.signatures signing.allKeys) required
        signing.maxRecursion)
    (noCommittee : GRAPHENE_COMMITTEE_ACCOUNT ∉ required.active)
    (inside : keys ⊆ signing.getRequiredSignatures requires) :
    signing.minimizeRound requires key keys =
      .ok (takeOut
        (fun keys => (signing.signatures keys).MetAll required) keys key) := by
  have asked :
      ∀ other ∈ without key keys,
        other ∈ signing.allKeys ∧
          (signing.signatures signing.allKeys).AskedBy required other := by
    intro other member
    obtain ⟨isAvailable, _, asked⟩ :=
      (mem_getRequiredSignatures isRequired complete).mp
        (inside (mem_without.mp member).1)
    exact ⟨List.mem_append_right _ isAvailable, asked⟩
  have fewer : without key keys ⊆ signing.allKeys :=
    fun other member => (asked other member).1
  unfold Signing.minimizeRound takeOut
  rcases verify_decides isRequired (complete.fewer fewer) noCommittee with
    ⟨notMet, fault, next, throws, isMissing⟩ | ⟨met, _, accepts⟩
  · rw [throws, if_neg notMet]
    simp only [isMissing, if_true]
  · obtain ⟨next, returns⟩ :=
      accepts fun other member => (asked other member).2.fewer fewer
    rw [returns, if_pos met]

/-- What can be signed has no committee requirement, and all keys meet it. -/
theorem Signing.Signable.metAll
    (complete :
      Complete (signing.signatures signing.allKeys) required
        signing.maxRecursion)
    (signable : signing.Signable requires) :
    GRAPHENE_COMMITTEE_ACCOUNT ∉ required.active ∧
      (signing.signatures signing.allKeys).MetAll required := by
  obtain ⟨chosen, areAvailable, state, accepts⟩ := signable
  have fewer : signing.signatureKeys ++ chosen ⊆ signing.allKeys :=
    List.append_subset.mpr
      ⟨List.subset_append_left _ _,
        fun key member => List.mem_append_right _ (areAvailable member)⟩
  have noCommittee : GRAPHENE_COMMITTEE_ACCOUNT ∉ required.active := by
    intro asksCommittee
    unfold Signing.verify verifyAuthority at accepts
    simp only [isRequired, asksCommittee, Signing.signatures, and_self,
      if_true] at accepts
    cases accepts
  refine ⟨noCommittee, ?_⟩
  rcases verify_decides isRequired (complete.fewer fewer) noCommittee with
    ⟨_, fault, next, throws, _⟩ | ⟨met, _⟩
  · rw [accepts] at throws
    cases throws
  · exact met.more fewer

open Classical in
/-- The minimiser returns what is left after every key was tried. -/
theorem minimize_eq
    (complete :
      Complete (signing.signatures signing.allKeys) required
        signing.maxRecursion)
    (noCommittee : GRAPHENE_COMMITTEE_ACCOUNT ∉ required.active) :
    signing.minimizeRequiredSignatures requires =
      .ok ((signing.getRequiredSignatures requires).foldl
        (takeOut fun keys => (signing.signatures keys).MetAll required)
        (signing.getRequiredSignatures requires)) := by
  refine @forEach_eq_foldl _ _ _ _ _
    (fun keys => keys ⊆ signing.getRequiredSignatures requires) _ _ ?_
    (List.Subset.refl _)
  intro key member keys inside
  refine ⟨minimizeRound_eq isRequired complete noCommittee inside, ?_⟩
  have fewer : without key keys ⊆ signing.getRequiredSignatures requires :=
    fun other isLeft => inside (mem_without.mp isLeft).1
  unfold takeOut
  split
  · exact fewer
  · exact List.cons_subset.mpr ⟨member, fewer⟩

end Search

end Results

section Sample

/-- Account 10 needs a weight of two, from key 1 with one or account 11 with two;
account 11 needs key 2. -/
def layeredActive (account : AccountId) : Option (Authority Nat) :=
  if account = 10 then
    some ⟨2, [(11, 2)], [(1, 1)]⟩
  else if account = 11 then
    some ⟨1, [], [(2, 1)]⟩
  else
    none

def layeredSigning : Signing Nat Unit where
  operations := [()]
  signatureKeys := []
  availableKeys := [1, 2]
  getActive := layeredActive
  getOwner := fun _ => none
  maxRecursion := 2

/-- An operation that requires the active authority of account 10. -/
def requiresTen (_ : Unit) : Required Nat :=
  ⟨[10], [], []⟩

theorem layeredActive_cases {account : AccountId} {auth : Authority Nat}
    (isActive : layeredActive account = some auth) :
    (account = 10 ∧ auth = ⟨2, [(11, 2)], [(1, 1)]⟩) ∨
      (account = 11 ∧ auth = ⟨1, [], [(2, 1)]⟩) := by
  unfold layeredActive at isActive
  split at isActive
  · next isTen => exact .inl ⟨isTen, (Option.some.inj isActive).symm⟩
  · split at isActive
    · next isEleven =>
        exact .inr ⟨isEleven, (Option.some.inj isActive).symm⟩
    · cases isActive

theorem layeredSigning_agrees :
    layeredSigning.Agrees
      (getRequiredAuthorities requiresTen layeredSigning.operations) := by
  refine ⟨⟨?_, ?_⟩, ?_, ?_⟩
  · intro auth involved
    have cases :
        auth = ⟨2, [(11, 2)], [(1, 1)]⟩ ∨ auth = ⟨1, [], [(2, 1)]⟩ := by
      cases involved with
      | other isOther => cases isOther
      | active _ isActive =>
          exact (layeredActive_cases isActive).imp And.right And.right
      | activeOwner _ isOwner => cases isOwner
      | owner _ isOwner => cases isOwner
      | nested _ _ isActive =>
          exact (layeredActive_cases isActive).imp And.right And.right
    apply noJump_of_light
    rcases cases with rfl | rfl
    · decide
    · decide
  · intro auth topLevel
    cases topLevel with
    | other isOther => cases isOther
    | active isRequired isActive =>
        intro entry member _ lower isLower
        rcases layeredActive_cases isLower with ⟨_, rfl⟩ | ⟨_, rfl⟩
        · rcases layeredActive_cases isActive with ⟨_, rfl⟩ | ⟨_, rfl⟩
          · rw [List.mem_singleton.mp member] at isLower
            cases isLower
          · cases member
        · intro _ impossible
          cases impossible
    | activeOwner _ isOwner => cases isOwner
    | owner _ isOwner => cases isOwner
  · rintro id _ ⟨auth, isOwner, _⟩
    cases isOwner
  · intro keys _ met
    exact met

/-- The active authority of account 10 needs key 1, and its owner authority
key 2, which is the only available one. -/
def ownerSigning : Signing Nat Unit where
  operations := [()]
  signatureKeys := []
  availableKeys := [2]
  getActive := fun _ => some ⟨1, [], [(1, 1)]⟩
  getOwner := fun _ => some ⟨1, [], [(2, 1)]⟩
  maxRecursion := 2

/-- Account 10 needs key 1, which has signed; account 11 needs a weight of two,
from key 2 with one and key 3 with two. -/
def halfSigned : Signing Nat Unit where
  operations := [()]
  signatureKeys := [1]
  availableKeys := [2, 3]
  getActive := fun account =>
    if account = 10 then some ⟨1, [], [(1, 1)]⟩
    else some ⟨2, [], [(2, 1), (3, 2)]⟩
  getOwner := fun _ => none
  maxRecursion := 2

def requiresBoth (_ : Unit) : Required Nat :=
  ⟨[10, 11], [], []⟩

end Sample

end GxbCore.Protocol
