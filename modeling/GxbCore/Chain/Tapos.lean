import GxbCore.Chain.Agreement
import GxbCore.Chain.PoppedTransactions

/-!
# Transactions as proof of stake

A transaction names a block by the low half of its number and a word of its id.
The id is looked up in `block_summary_object`s, of which there is one for each
16 bit number; every block overwrites the one of its own number.

Whatever is pushed, popped and switched, the summaries are those of the last
65536 blocks of the chain that led to the state.  So a transaction is only
applied on top of the block it names.
-/

namespace GxbCore.Chain

variable {O H W : Type}

/-- `ref_block_num` and `ref_block_prefix` of a transaction. -/
structure Reference where
  refBlockNum : UInt16
  refBlockPrefix : UInt32
  deriving DecidableEq, Repr

/-- `_hash[1]`: the lowest word behind the one that has the number. -/
def BlockId.secondWord (id : BlockId) : UInt32 :=
  UInt32.ofNat id.hash

/-- The instance of the summary of a block. -/
def Block.slot (block : TrxBlock O H) : UInt16 :=
  UInt16.ofNat block.num

/-- The other objects with `block_id` of every `block_summary_object`. -/
structure WithSummaries (W : Type) where
  summaries : UInt16 → BlockId
  world : W

def createBlockSummary (nextBlock : TrxBlock O H)
    (summaries : UInt16 → BlockId) : UInt16 → BlockId :=
  fun slot => if slot = nextBlock.slot then nextBlock.id else summaries slot

/-- The check of `_apply_transaction`. -/
def taposMatches (summaries : UInt16 → BlockId) (reference : Reference) :
    Bool :=
  reference.refBlockPrefix = (summaries reference.refBlockNum).secondWord

/-- What code that does not look at the summaries sees. -/
def ChainState.withoutSummaries (view : TrxView O H (WithSummaries W)) :
    TrxView O H W :=
  { view with rest := (view.rest.1, view.rest.2.world) }

/-- The summaries are read by the check and written by `create_block_summary`,
which follows the maintenance; the rest is left to `evaluators`. -/
def withTapos (reference : O → Reference) (evaluators : Evaluators O H W) :
    Evaluators O H (WithSummaries W) where
  maximumTimeUntilExpiration := fun objects =>
    evaluators.maximumTimeUntilExpiration objects.world
  validate := evaluators.validate
  verifyAuthority := fun objects =>
    evaluators.verifyAuthority objects.world
  taposMatches := fun objects trx =>
    taposMatches objects.summaries (reference trx.contents)
  applyOperations := fun flags view trx => do
    let world ←
      evaluators.applyOperations flags view.withoutSummaries trx
    return ⟨view.rest.2.summaries, world⟩
  validateBlock := fun flags view =>
    evaluators.validateBlock flags view.withoutSummaries
  withinCpuLimit := fun view =>
    evaluators.withinCpuLimit view.withoutSummaries
  updateGlobalDynamicData := fun view block =>
    ⟨view.rest.2.summaries,
      evaluators.updateGlobalDynamicData view.withoutSummaries block⟩
  maintain := fun flags view block => do
    let (active, world) ←
      evaluators.maintain flags view.withoutSummaries block
    return (active, ⟨createBlockSummary block view.rest.2.summaries, world⟩)
  finish := fun flags view block => do
    let (active, world) ←
      evaluators.finish flags view.withoutSummaries block
    return (active, ⟨view.rest.2.summaries, world⟩)

/-- The summaries after these blocks, the last one first. -/
def summariesOf : List (TrxBlock O H) → UInt16 → BlockId
  | [] => fun _ => .zero
  | block :: older => createBlockSummary block (summariesOf older)

/-- The transaction names one of the last 65536 blocks, or a number that no
block has had, with a prefix of zero. -/
def RefersInto (blocks : List (TrxBlock O H)) (reference : Reference) : Prop :=
  (∃ referred ∈ blocks,
    referred.slot = reference.refBlockNum ∧
      referred.id.secondWord = reference.refBlockPrefix ∧
        blocks.length < referred.num + 65536) ∨
  (∀ other ∈ blocks, other.slot ≠ reference.refBlockNum) ∧
    reference.refBlockPrefix = 0

theorem slot_eq_iff {block other : TrxBlock O H} :
    block.slot = other.slot ↔ block.num % 65536 = other.num % 65536 := by
  rw [← UInt16.toNat_inj, Block.slot, Block.slot, UInt16.toNat_ofNat',
    UInt16.toNat_ofNat']

theorem summariesOf_of_none {blocks : List (TrxBlock O H)} {slot : UInt16}
    (none : ∀ other ∈ blocks, other.slot ≠ slot) :
    summariesOf blocks slot = .zero := by
  induction blocks with
  | nil => rfl
  | cons block older ih =>
      rw [summariesOf, createBlockSummary,
        if_neg fun same => none block List.mem_cons_self same.symm]
      exact ih fun other member =>
        none other (List.mem_cons_of_mem _ member)

/-- The summary of a number is the block with that number among the last
65536. -/
theorem summariesOf_of_recent {blocks : List (TrxBlock O H)}
    {referred : TrxBlock O H} (linked : Linked blocks)
    (member : referred ∈ blocks)
    (recent : blocks.length < referred.num + 65536) :
    summariesOf blocks referred.slot = referred.id := by
  induction blocks with
  | nil => cases member
  | cons block older ih =>
      rw [summariesOf, createBlockSummary]
      rcases List.mem_cons.mp member with rfl | deeper
      · rw [if_pos rfl]
      · have below := linked.2.num_le deeper
        have top := linked.head_num
        rw [List.length_cons] at recent
        have apart : referred.slot ≠ block.slot := by
          rw [ne_eq, slot_eq_iff]
          omega
        rw [if_neg apart]
        exact ih linked.2 deeper (by omega)

theorem exists_recent {blocks : List (TrxBlock O H)} {slot : UInt16}
    (linked : Linked blocks) {other : TrxBlock O H}
    (member : other ∈ blocks) (sameSlot : other.slot = slot) :
    ∃ referred ∈ blocks,
      referred.slot = slot ∧ blocks.length < referred.num + 65536 := by
  induction blocks with
  | nil => cases member
  | cons block older ih =>
      have top := linked.head_num
      by_cases isTop : block.slot = slot
      · refine ⟨block, List.mem_cons_self, isTop, ?_⟩
        rw [List.length_cons]
        omega
      · have deeper : other ∈ older := by
          rcases List.mem_cons.mp member with rfl | deeper
          · exact absurd sameSlot isTop
          · exact deeper
        obtain ⟨referred, inOlder, isSlot, recent⟩ :=
          ih linked.2 deeper
        refine ⟨referred, List.mem_cons_of_mem _ inOlder, isSlot, ?_⟩
        rw [← isSlot, slot_eq_iff] at isTop
        rw [List.length_cons]
        omega

/-- The check asks for a block of the chain. -/
theorem taposMatches_iff {blocks : List (TrxBlock O H)}
    (linked : Linked blocks) (reference : Reference) :
    taposMatches (summariesOf blocks) reference = true ↔
      RefersInto blocks reference := by
  rw [taposMatches, decide_eq_true_eq]
  by_cases has : ∃ other ∈ blocks, other.slot = reference.refBlockNum
  · obtain ⟨other, member, sameSlot⟩ := has
    obtain ⟨recently, inBlocks, isSlot, recent⟩ :=
      exists_recent linked member sameSlot
    constructor
    · intro same
      rw [← isSlot, summariesOf_of_recent linked inBlocks recent] at same
      exact Or.inl ⟨recently, inBlocks, isSlot, same.symm, recent⟩
    · rintro (⟨referred, inChain, ofSlot, word, near⟩ | ⟨none, _⟩)
      · rw [← ofSlot, summariesOf_of_recent linked inChain near, word]
      · exact absurd sameSlot (none other member)
  · have none : ∀ other ∈ blocks, other.slot ≠ reference.refBlockNum :=
      fun other member same => has ⟨other, member, same⟩
    rw [summariesOf_of_none none]
    constructor
    · intro zero
      exact Or.inr ⟨none, zero⟩
    · rintro (⟨referred, member, sameSlot, _⟩ | ⟨_, zero⟩)
      · exact absurd sameSlot (none referred member)
      · exact zero

section Runs

variable {reference : O → Reference} {evaluators : Evaluators O H W}
  {checkpoints : Checkpoints} {skip flags : SkipFlags}
  {block : TrxBlock O H} {before after : TrxState O H (WithSummaries W)}

/-- The transactions of a block leave the summaries, and refer to what these
say. -/
theorem applyTransactions_tapos {transactions : List (Transaction O)}
    (returns :
      applyTransactions (withTapos reference evaluators) flags transactions
        before = .ok after) :
    after.rest.world.summaries = before.rest.world.summaries ∧
      (before.headBlockNum ≠ 0 → flags.taposCheck = false →
        ∀ trx ∈ transactions,
          taposMatches before.rest.world.summaries
            (reference trx.contents) = true) := by
  induction transactions generalizing before with
  | nil =>
      cases returns
      exact ⟨rfl, by simp⟩
  | cons trx rest ih =>
      unfold applyTransactions at returns
      rw [List.foldlM_cons] at returns
      obtain ⟨middle, first, later⟩ := bind_eq_ok.mp returns
      have applied := applyTransaction_eq_ok.mp first
      obtain ⟨world, operations, rfl⟩ := applied.operations
      obtain ⟨_, _, isWorld⟩ := bind_eq_ok.mp operations
      have kept : world.summaries = before.rest.world.summaries := by
        rw [← Except.ok.inj isWorld]
        rfl
      obtain ⟨summaries, checked⟩ := ih later
      refine ⟨summaries.trans kept, ?_⟩
      intro hasHead isChecked other member
      rcases List.mem_cons.mp member with rfl | inRest
      · rcases applied.tapos with isFirst | skipped | matching
        · exact absurd isFirst hasHead
        · rw [isChecked] at skipped
          cases skipped
        · exact matching
      · have later := checked hasHead isChecked other inRest
        rw [← kept]
        exact later

/-- What a block does to the summaries, and what its transactions refer to. -/
theorem applyState_tapos
    (flagsAre : applyFlags checkpoints skip block = .ok flags)
    (applies :
      applyState (trxRules (withTapos reference evaluators) checkpoints skip)
        block before = .ok after) :
    after.rest.world.summaries =
        createBlockSummary block before.rest.world.summaries ∧
      (before.headBlockNum ≠ 0 → flags.taposCheck = false →
        ∀ trx ∈ block.body.transactions,
          taposMatches before.rest.world.summaries
            (reference trx.contents) = true) := by
  obtain ⟨middle, maintained, finished, applied⟩ :=
    (applyState_trxRules flagsAre).mp applies
  obtain ⟨kept, checked⟩ := applyTransactions_tapos applied.transactions
  refine ⟨?_, checked⟩
  obtain ⟨_, _, isMaintained⟩ := bind_eq_ok.mp applied.maintains
  obtain ⟨_, _, isFinished⟩ := bind_eq_ok.mp applied.finishes
  have maintains :
      maintained.2.summaries =
        createBlockSummary block before.rest.world.summaries := by
    rw [← Except.ok.inj isMaintained, ← kept]
    simp only [ChainState.view, begunState_rest]
    rfl
  rw [applied.result]
  change finished.2.summaries = _
  rw [← Except.ok.inj isFinished]
  exact maintains

/-- The summaries are those of the chain that led to the state, and every
transaction in it refers to what is below its block. -/
structure Referring (reference : O → Reference) (checkpoints : Checkpoints)
    (skip : SkipFlags) (state : TrxState O H (WithSummaries W)) : Prop where
  linked : Linked state.history
  headId : state.headBlockId = lastId state.history
  headNum : state.headBlockNum = state.history.length
  summaries : state.rest.world.summaries = summariesOf state.history
  refers :
    ∀ newer block older flags,
      state.history = newer ++ block :: older → older ≠ [] →
        applyFlags checkpoints skip block = .ok flags →
          flags.taposCheck = false →
            ∀ trx ∈ block.body.transactions,
              RefersInto older (reference trx.contents)

/-- The step lemma: a block is put on top. -/
theorem Referring.extend
    (referring : Referring reference checkpoints skip before)
    (applies :
      applyState (trxRules (withTapos reference evaluators) checkpoints skip)
        block before = .ok after) :
    Referring reference checkpoints skip after := by
  have extended := applyState_extends applies
  have previous := extended.previous.trans referring.headId
  obtain ⟨flags, flagsAre⟩ := applyFlags_of_applyState applies
  obtain ⟨summaries, checked⟩ := applyState_tapos flagsAre applies
  refine
    { linked := by
        rw [extended.history]
        exact ⟨previous, referring.linked⟩
      headId := by rw [extended.headId, extended.history, lastId_cons]
      headNum := by
        rw [extended.headNum, extended.history, List.length_cons, Block.num,
          previous, referring.linked.lastId_num]
      summaries := by
        rw [summaries, extended.history, summariesOf, referring.summaries]
      refers := ?_ }
  intro newer other older otherFlags split someOlder otherFlagsAre isChecked
    trx member
  rw [extended.history] at split
  cases newer with
  | nil =>
      obtain ⟨rfl, rfl⟩ := List.cons.inj split
      obtain rfl := Except.ok.inj (flagsAre.symm.trans otherFlagsAre)
      have hasHead : before.headBlockNum ≠ 0 := by
        rw [referring.headNum]
        exact fun isEmpty => someOlder (List.length_eq_zero_iff.mp isEmpty)
      have matching := checked hasHead isChecked trx member
      rw [referring.summaries] at matching
      exact (taposMatches_iff referring.linked _).mp matching
  | cons last newer =>
      exact referring.refers newer other older otherFlags
        (List.cons.inj split).2 someOlder otherFlagsAre isChecked trx member

end Runs

/-- A database just after `init_genesis`. -/
structure AtGenesis (db : ChainDatabase (Payload O H)
    (Objects O (WithSummaries W))) : Prop where
  history : db.state.history = []
  headId : db.state.headBlockId = .zero
  headNum : db.state.headBlockNum = 0
  summaries : db.state.rest.world.summaries = fun _ => .zero
  saved : db.objects.saved = []

theorem AtGenesis.throughout
    {db : ChainDatabase (Payload O H) (Objects O (WithSummaries W))}
    (atGenesis : AtGenesis db) (reference : O → Reference)
    (checkpoints : Checkpoints) (skip : SkipFlags) :
    Throughout (Referring reference checkpoints skip) db := by
  intro state member
  rw [atGenesis.saved, List.mem_singleton] at member
  subst member
  refine
    { linked := by rw [atGenesis.history]; trivial
      headId := by rw [atGenesis.history]; exact atGenesis.headId
      headNum := by rw [atGenesis.history]; exact atGenesis.headNum
      summaries := by rw [atGenesis.history]; exact atGenesis.summaries
      refers := ?_ }
  intro newer block older flags split
  rw [atGenesis.history] at split
  exact absurd split (by simp)

/-- Everything is valid, and transactions are what they refer to. -/
def openEvaluators : Evaluators Reference Unit Unit where
  maximumTimeUntilExpiration := fun _ => 86400
  validate := fun _ => true
  verifyAuthority := fun _ _ => true
  taposMatches := fun _ _ => true
  applyOperations := fun _ _ _ => .ok ()
  validateBlock := fun _ _ _ => true
  withinCpuLimit := fun _ _ => true
  updateGlobalDynamicData := fun _ _ => ()
  maintain := fun _ view _ => .ok (view.activeWitnesses, ())
  finish := fun _ view _ => .ok (view.activeWitnesses, ())

def taposGenesis :
    ChainDatabase (Payload Reference Unit)
      (Objects Reference (WithSummaries Unit)) where
  objects :=
    { current :=
        { headBlockNum := 0
          headBlockId := .zero
          lastIrreversibleBlockNum := 0
          activeWitnesses := [0]
          lastConfirmedBlockNum := fun _ => 0
          rest := ⟨1500000000, [], ⟨fun _ => .zero, ()⟩⟩
          history := [] }
      saved := []
      limit := 256 }
  forkDb := .empty
  blockLog := fun _ => none

def namesFirst : Transaction Reference :=
  ⟨1, 1500000100, ⟨1, 77⟩⟩

def firstHere : TrxBlock Reference Unit :=
  ⟨.zero, 77, 0, ⟨1500000003, [], ()⟩⟩

def firstThere : TrxBlock Reference Unit :=
  ⟨.zero, 78, 0, ⟨1500000003, [], ()⟩⟩

def secondHere : TrxBlock Reference Unit :=
  ⟨firstHere.id, 79, 0, ⟨1500000006, [namesFirst], ()⟩⟩

def secondThere : TrxBlock Reference Unit :=
  ⟨firstThere.id, 80, 0, ⟨1500000006, [namesFirst], ()⟩⟩

def pushTapos (blocks : List (TrxBlock Reference Unit)) :
    ChainDatabase (Payload Reference Unit)
      (Objects Reference (WithSummaries Unit)) :=
  blocks.foldl
    (fun db block =>
      (pushBlock (trxRules (withTapos id openEvaluators) [] skipNothing) false
        block db).state)
    taposGenesis

end GxbCore.Chain
