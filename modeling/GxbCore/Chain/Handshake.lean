import GxbCore.Chain.Synchronisation

/-!
# Two nodes that synchronise

The synopsis of one node is answered by another.  If their main chains have the
first block in common, and all blocks up to the last one that the first node
cannot undo, the answer starts at a block that the first node has.

A branch that leaves the main chain where nothing can be undone any more is not
summarised, and a node without blocks has nothing to start from: it gets the
blocks from the first one on.
-/

namespace GxbCore.Chain

variable {B X : Type} {rules : Rules B X} {known : Set (Block B)}
  {db peer : ChainDatabase B X}

/-- The main chains have a common prefix with the first block and the last one
that the requester cannot undo; the chain that is summarised starts with the
same block. -/
structure SharesPrefix (db peer : ChainDatabase B X)
    (chain : List (Block B)) : Prop where
  shared :
    ∃ shared, shared <:+ db.state.history ∧
      shared <:+ peer.state.history ∧
      max 1 db.lastNonUndoableBlockNum ≤ shared.length
  sameStart : chain.getLast? = db.state.history.getLast?

/-- The responder finds the highest block of the synopsis on its main chain and
returns the ids from that block on. -/
def Answered (peer : ChainDatabase B X) (synopsis : List BlockId)
    (limit : Nat) : Prop :=
  ∃ start ∈ synopsis, ∃ ids remaining,
    getBlockIds peer synopsis limit = .ok (ids, remaining) ∧
    OnMainChain peer start ∧
    (∀ id ∈ synopsis, start.num < id.num → ¬ OnMainChain peer id) ∧
    IsAnswer peer start.num limit ids remaining ∧
    ids.head? = some start

variable {chain : List (Block B)} {referencePoint : BlockId}

/-- The part of a summarised chain that is on the main chain reaches the lowest
block of the synopsis. -/
theorem Summarised.common (summarised : Summarised db referencePoint chain)
    (someBlock : db.state.history ≠ [])
    (sameStart : chain.getLast? = db.state.history.getLast?) :
    ∃ common, common <:+ chain ∧ common <:+ db.state.history ∧
      lowestNum db chain ≤ common.length := by
  have whole : chain ≠ [] → lowestNum db chain ≤ chain.length := by
    intro notEmpty
    have positive := List.length_pos_iff.mpr notEmpty
    unfold lowestNum
    omega
  cases summarised with
  | whole _ =>
      exact ⟨_, List.suffix_refl _, List.suffix_refl _, whole someBlock⟩
  | main below =>
      exact ⟨_, List.suffix_refl _, below, whole (List.cons_ne_nil _ _)⟩
  | @fork _ branch older isBranch reaches =>
      refine ⟨older, List.suffix_append _ _, isBranch.below, ?_⟩
      have notEmpty : older ≠ [] := by
        rintro rfl
        -- then the first block of the branch is that of the main chain
        obtain ⟨lowest, isLowest, elsewhere⟩ := isBranch.leaves
        rw [List.append_nil] at sameStart
        rw [Option.mem_def, sameStart] at isLowest
        exact elsewhere (List.mem_of_getLast? isLowest)
      have positive := List.length_pos_iff.mpr notEmpty
      unfold lowestNum
      omega

theorem SharesPrefix.lowest {after : Nat} {synopsis : List BlockId}
    (shares : SharesPrefix db peer chain) (linked : Linked chain)
    (summarised : Summarised db referencePoint chain)
    (isSynopsis : IsSynopsis chain (lowestNum db chain) after synopsis) :
    ∃ id ∈ synopsis, OnMainChain peer id := by
  obtain ⟨shared, ofDb, ofPeer, reaches⟩ := shares.shared
  have someBlock : db.state.history ≠ [] := by
    intro none
    rw [none, List.suffix_nil] at ofDb
    rw [ofDb] at reaches
    exact absurd reaches (by simp)
  obtain ⟨common, ofChain, commonOfDb, low⟩ :=
    summarised.common someBlock shares.sameStart
  -- the shorter one of the two parts of the main chain is in all chains
  obtain ⟨part, partOfChain, partOfPeer, partLow⟩ :
      ∃ part, part <:+ chain ∧ part <:+ peer.state.history ∧
        lowestNum db chain ≤ part.length := by
    rcases Nat.le_total common.length shared.length with short | short
    · exact ⟨common, ofChain,
        (List.suffix_of_suffix_length_le commonOfDb ofDb short).trans
          ofPeer, low⟩
    · refine ⟨shared,
        (List.suffix_of_suffix_length_le ofDb commonOfDb short).trans
          ofChain, ofPeer, ?_⟩
      unfold lowestNum
      omega
  obtain ⟨above, chainIs⟩ := partOfChain
  have linkedPart : Linked part := by
    rw [← chainIs] at linked
    exact linked.of_append
  have positive : 0 < lowestNum db chain := Nat.le_max_left _ _
  obtain ⟨block, member, number⟩ :=
    linkedPart.exists_num positive partLow
  obtain ⟨id, isFirst, firstNum⟩ := isSynopsis.first
  have idIn : id ∈ synopsis := List.mem_of_head? isFirst
  obtain ⟨other, inChain, same⟩ := isSynopsis.inChain id idIn
  have blockIn : block ∈ chain := by
    rw [← chainIs]
    exact List.mem_append_right _ member
  have isBlock : other = block := by
    refine linked.eq_of_num inChain blockIn ?_
    rw [number, ← firstNum, ← same]
    rfl
  exact ⟨id, idIn, block, partOfPeer.subset member, isBlock ▸ same⟩

theorem IsSynopsis.answered {low after limit : Nat} {synopsis : List BlockId}
    (isSynopsis : IsSynopsis chain low after synopsis)
    (ok : ObjectsOk known rules peer.objects) (order : InOrder peer)
    (asked : 0 < limit) (someMain : ∃ id ∈ synopsis, OnMainChain peer id) :
    Answered peer synopsis limit := by
  have positive : ∀ id ∈ synopsis, 1 ≤ id.num := by
    intro id member
    obtain ⟨block, _, rfl⟩ := isSynopsis.inChain id member
    exact block.num_pos
  obtain ⟨later, start, earlier, parts, found, isMain, others⟩ :=
    findLastKnown_spec ok order
      (fun id member => positive id (List.mem_reverse.mp member))
      (by
        obtain ⟨id, member, idMain⟩ := someMain
        exact ⟨id, List.mem_reverse.mpr member, idMain⟩)
  have shape : synopsis = earlier.reverse ++ start :: later.reverse := by
    rw [← List.reverse_reverse synopsis, parts]
    simp
  have startIn : start ∈ synopsis := by
    rw [shape]
    simp
  have known : lastKnownBlockId peer synopsis = .ok start := by
    have notEmpty : ¬ (synopsis = [] ∨ synopsis = [.zero]) := by
      rintro (none | old)
      · rw [none] at startIn
        cases startIn
      · rw [old, List.mem_singleton] at startIn
        have bound := positive start (by rw [old, startIn]; simp)
        rw [startIn] at bound
        exact absurd bound (by decide)
    simp only [lastKnownBlockId, if_neg notEmpty, found]
  obtain ⟨low, high⟩ := isMain.num_le ok
  obtain ⟨ids, remaining, returns, isAnswer⟩ :=
    getBlockIds_of_start ok order.log asked known high
  have from1 : max 1 start.num = start.num := Nat.max_eq_right low
  rw [from1] at isAnswer
  refine ⟨start, startIn, ids, remaining, returns, isMain, ?_, isAnswer,
    ?_⟩
  · -- the numbers rise, so a higher block comes after the one found
    intro id member higher
    refine others id ?_
    rw [shape] at member
    have increasing := isSynopsis.increasing
    rw [shape, List.map_append, List.pairwise_append] at increasing
    rcases List.mem_append.mp member with before | rest
    · have lower :=
        increasing.2.2 id.num (List.mem_map_of_mem before) start.num
          (by simp)
      omega
    · rcases List.mem_cons.mp rest with same | after
      · rw [same] at higher
        exact absurd higher (Nat.lt_irrefl _)
      · exact List.mem_reverse.mp after
  · have someId : 0 < ids.length := by
      rw [isAnswer.length]
      omega
    obtain ⟨block, isBlock, first⟩ := isAnswer.consecutive 0 someId
    obtain ⟨own, ownMember, rfl⟩ := isMain
    have blockIs : block = own := by
      have number := List.find?_some isBlock
      rw [decide_eq_true_eq] at number
      exact ok.current.linked.eq_of_num
        (List.mem_of_find?_eq_some isBlock) ownMember number
    rw [List.head?_eq_getElem?, first, blockIs]

theorem Summarised.linked (summarised : Summarised db referencePoint chain)
    (ok : ObjectsOk known rules db.objects) : Linked chain := by
  cases summarised with
  | whole _ => exact ok.current.linked
  | main below =>
      obtain ⟨newer, history⟩ := below
      have linked := ok.current.linked
      have whole : db.objects.current.history = _ := history.symm
      rw [whole] at linked
      exact linked.of_append
  | fork isBranch _ => exact isBranch.linked

/-- The handshake of two nodes, for every block that a synopsis can be asked up
to. -/
theorem synchronisation_handshake {referencePoint : BlockId}
    {after limit : Nat} (free : CollisionFree known)
    (requester : Node rules known db) (responder : Node rules known peer)
    (isReference : IsReference db referencePoint)
    (fits : highNum db referencePoint + after + 1 < 2 ^ 32)
    (asked : 0 < limit) :
    match getBlockchainSynopsis db referencePoint after with
    | .error fault => ForkRefused db referencePoint fault
    | .ok synopsis =>
        (db.headBlockNum = 0 ∧ synopsis = [] ∧
          ∃ ids remaining,
            getBlockIds peer synopsis limit = .ok (ids, remaining) ∧
            IsAnswer peer 1 limit ids remaining) ∨
        ∃ chain,
          Summarised db referencePoint chain ∧
          IsSynopsis chain (lowestNum db chain) after synopsis ∧
          (SharesPrefix db peer chain → Answered peer synopsis limit) := by
  have ok := requester.databaseOk free
  have okPeer := (responder.databaseOk free).objects
  have orderPeer := responder.inOrder free
  rcases getBlockchainSynopsis_spec free ok (requester.inOrder free)
      isReference fits with
    ⟨fault, throws, refused⟩ | ⟨returns, _, empty⟩ |
    ⟨chain, synopsis, returns, summarised, isSynopsis⟩
  · rw [throws]
    exact refused
  · rw [returns]
    obtain ⟨ids, remaining, answers, isAnswer⟩ :=
      @getBlockIds_of_start B X rules known peer okPeer orderPeer.log []
        .zero limit asked rfl (Nat.zero_le _)
    exact Or.inl ⟨empty, rfl, ids, remaining, answers, isAnswer⟩
  · rw [returns]
    refine Or.inr ⟨chain, summarised, isSynopsis, ?_⟩
    intro shares
    exact isSynopsis.answered okPeer orderPeer asked
      (shares.lowest (summarised.linked ok.objects) summarised isSynopsis)

theorem node_genesis (known : Set (Block Bool)) :
    Node flagRules known genesis := by
  refine ⟨genesis, genesis_opened _, ?_, fun _ _ => rfl, .refl⟩
  intro block member
  cases member

/-- A push that starts no switch: the head of the fork database builds on the
head of the chain, or is not above it. -/
theorem Node.push {known : Set (Block Bool)}
    {db : ChainDatabase Bool Unit} (node : Node flagRules known db)
    (block : Block Bool) (isKnown : block ∈ known)
    (noSwitch :
      (db.forkDb.pushBlock block).state.head.all
        (fun item =>
          decide (item.block.previous = db.headBlockId) ||
            decide (item.num ≤ db.headBlockNum)) = true) :
    Node flagRules known (pushBlock flagRules false block db).state := by
  obtain ⟨origin, opened, log, logEnds, run⟩ := node.reached
  refine ⟨origin, opened, log, logEnds, .push false block run isKnown ?_⟩
  intro _ fork newHead attempts
  rw [attempts.pushed, Outcome.state_ok, attempts.head] at noSwitch
  have higher := attempts.higher
  simp [attempts.elsewhere] at noSwitch
  omega

/-- Without a reference point it is the whole main chain. -/
theorem Summarised.of_zero (summarised : Summarised db .zero chain) :
    chain = db.state.history := by
  generalize isZero : BlockId.zero = referencePoint at summarised
  cases summarised with
  | whole _ => rfl
  | @main block _ _ => exact absurd isZero.symm block.id_ne_zero
  | @fork _ branch older isBranch _ =>
      obtain ⟨lowest, isLowest, _⟩ := isBranch.leaves
      have ends := isBranch.ends
      cases branch with
      | nil => cases isLowest
      | cons block branch =>
          rw [← isZero] at ends
          exact absurd ends block.id_ne_zero

/-- A node with two blocks asks another one with the same blocks. -/
theorem synchronisation_of_equal_nodes :
    getBlockchainSynopsis (pushAll [blockA1, blockA2]) .zero 0 =
        .ok [blockA1.id, blockA2.id] ∧
      Answered (pushAll [blockA1, blockA2]) [blockA1.id, blockA2.id]
        2000 := by
  have node :
      Node flagRules (blocksOf [blockA1, blockA2])
        (pushAll [blockA1, blockA2]) :=
    ((node_genesis _).push blockA1 (by simp) (by decide)).push blockA2
      (by simp) (by decide)
  have handshake :=
    @synchronisation_handshake Bool Unit flagRules
      (blocksOf [blockA1, blockA2]) (pushAll [blockA1, blockA2])
      (pushAll [blockA1, blockA2]) .zero 0 2000
      (collisionFree_blocksOf (by decide)) node node (Or.inl rfl)
      (by decide) (by decide)
  have returns :
      getBlockchainSynopsis (pushAll [blockA1, blockA2]) .zero 0 =
        .ok [blockA1.id, blockA2.id] := by
    decide
  rw [returns] at handshake
  refine ⟨returns, ?_⟩
  rcases handshake with ⟨empty, _⟩ | ⟨chain, summarised, _, answered⟩
  · exact absurd empty (by decide)
  · refine answered ⟨⟨_, List.suffix_refl _, List.suffix_refl _, ?_⟩, ?_⟩
    · decide
    · rw [summarised.of_zero]

/-- A node that was opened again on block `A1`: its undo history is gone. -/
def reopened : ChainDatabase Bool Unit :=
  { pushAll [blockA1] with
    objects := ⟨(pushAll [blockA1]).state, [], 256⟩
    forkDb := ForkDatabase.startBlock blockA1 .empty }

theorem reopened_node :
    Node flagRules (blocksOf [blockA1, blockB1]) reopened := by
  have node :
      Node flagRules (blocksOf [blockA1, blockB1]) (pushAll [blockA1]) :=
    (node_genesis _).push blockA1 (by simp) (by decide)
  have free : CollisionFree (blocksOf [blockA1, blockB1]) :=
    collisionFree_blocksOf (by decide)
  refine ⟨reopened, ⟨?_, rfl, rfl⟩, ?_, ?_, .refl⟩
  · exact (node.databaseOk free).objects.current
  · exact (node.inOrder free).log
  · exact (node.inOrder free).logEnds

/-- The node holds `B1`, a sibling of its only block, and is asked for a synopsis
up to it: it refuses, although the other node has the same main chain.  And a
node without blocks gets a block that it does not have. -/
theorem handshake_refused :
    (∃ (known : Set (Block Bool)) (db peer : ChainDatabase Bool Unit)
      (referencePoint : BlockId),
      CollisionFree known ∧ Node flagRules known db ∧
      Node flagRules known peer ∧
      peer.state.history <:+ db.state.history ∧
      db.lastNonUndoableBlockNum ≤ peer.state.history.length ∧
      (db.forkDb.find referencePoint).isSome ∧
      getBlockchainSynopsis db referencePoint 0 =
        .error .blockOlderThanUndoHistory) ∧
    (genesis.lastNonUndoableBlockNum = 0 ∧
      getBlockchainSynopsis genesis .zero 0 = .ok [] ∧
      getBlockIds (pushAll [blockA1]) [] 2000 =
        .ok ([blockA1.id], 0) ∧
      ¬ OnMainChain genesis blockA1.id) := by
  refine ⟨⟨blocksOf [blockA1, blockB1],
    (pushBlock flagRules false blockB1 reopened).state, reopened,
    blockB1.id, collisionFree_blocksOf (by decide), ?_, reopened_node,
    List.suffix_refl _, by decide, by decide, by decide⟩, by decide,
    by decide, by decide, ?_⟩
  · exact reopened_node.push blockB1 (by simp) (by decide)
  · rintro ⟨block, member, _⟩
    cases member

end GxbCore.Chain
