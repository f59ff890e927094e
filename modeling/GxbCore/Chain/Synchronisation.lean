import Mathlib.Algebra.Group.Nat.Defs
import GxbCore.Chain.OrderedRuns

/-!
# The synchronisation handshake

A node that wants blocks sends a synopsis of its chain, or of a branch that it
holds in the fork database: some ids between the last block that it cannot undo
and the last block, ever closer to each other.  The other node looks for the
last of them that is on its own main chain and returns the ids from there on.

Both read ids by number from the block log.  `fork_history` is a vector that
is read without a check of the index: reading outside of it is a fault of its
own here, and so is a loop that does not end.
-/

namespace GxbCore.Chain

variable {B X : Type}

/-- What the two functions throw, and what they must not do. -/
inductive SyncFault where
  | blockNumberNotContained (num : Nat)
  | branchNotFound
  | blockOlderThanUndoHistory
  | peerIsOnAnUnreachableFork
  | outsideForkHistory
  | endlessLoop
  deriving DecidableEq, Repr

/-- `uint32_t` arithmetic. -/
def wrap (value : Nat) : Nat :=
  value % 2 ^ 32

theorem wrap_of_lt {value : Nat} (fits : value < 2 ^ 32) : wrap value = value :=
  Nat.mod_eq_of_lt fits

/-- `last_non_undoable_block_num`; the snapshots are the states that `_undo_db`
has besides those of active sessions. -/
def ChainDatabase.lastNonUndoableBlockNum (db : ChainDatabase B X) : Nat :=
  db.headBlockNum - db.objects.saved.length

def getBlockIdForNum (db : ChainDatabase B X) (num : Nat) :
    Except SyncFault BlockId :=
  match db.blockLog num with
  | none => .error (.blockNumberNotContained num)
  | some entry => .ok entry.1

/-- `block_database::contains` -/
def BlockLog.contains (log : BlockLog B) (id : BlockId) : Bool :=
  if id = .zero then false
  else
    match log id.num with
    | none => false
    | some entry => decide (entry.1 = id)

def isKnownBlock (db : ChainDatabase B X) (id : BlockId) : Bool :=
  (db.forkDb.find id).isSome || db.blockLog.contains id

def isIncludedBlock (db : ChainDatabase B X) (id : BlockId) :
    Except SyncFault Bool :=
  match getBlockIdForNum db id.num with
  | .error fault => .error fault
  | .ok included => .ok (decide (id = included))

/-- `get_block_ids_on_fork`: the branch from its head down, and the block below
it. -/
def getBlockIdsOnFork (db : ChainDatabase B X) (headOfFork : BlockId) :
    Except SyncFault (List BlockId) :=
  match db.forkDb.fetchBranchFrom db.headBlockId headOfFork with
  | none => .error .branchNotFound
  | some (first, second) =>
      match first.getLast? with
      | none => .error .branchNotFound
      | some last =>
          .ok (second.map ForkItem.id ++ [last.block.previous])

/-- The variables of `get_blockchain_synopsis` that its loop reads. -/
structure Span where
  lowBlockNum : Nat
  nonForkHighBlockNum : Nat
  highBlockNum : Nat
  forkHistory : List BlockId

/-- The part of `get_blockchain_synopsis` for a reference point on a fork. -/
def forkSpan (db : ChainDatabase B X) (referencePoint : BlockId) :
    Except SyncFault Span :=
  match getBlockIdsOnFork db referencePoint with
  | .error fault => .error fault
  | .ok ids =>
      let lastNonForkBlock := ids.getLastD .zero
      let forkHistory := ids.dropLast.reverse
      let nonForkHighBlockNum :=
        if lastNonForkBlock = .zero then 0 else lastNonForkBlock.num
      if nonForkHighBlockNum < db.lastNonUndoableBlockNum then
        .error .blockOlderThanUndoHistory
      else
        .ok
          { lowBlockNum := db.lastNonUndoableBlockNum
            nonForkHighBlockNum := nonForkHighBlockNum
            highBlockNum := nonForkHighBlockNum + forkHistory.length
            forkHistory := forkHistory }

def mainSpan (db : ChainDatabase B X) (referencePoint : BlockId) : Span where
  lowBlockNum :=
    if referencePoint.num < db.lastNonUndoableBlockNum then
      referencePoint.num
    else
      db.lastNonUndoableBlockNum
  nonForkHighBlockNum := referencePoint.num
  highBlockNum := referencePoint.num
  forkHistory := []

/-- The part without a reference point. -/
def wholeSpan (db : ChainDatabase B X) : Span where
  lowBlockNum := db.lastNonUndoableBlockNum
  nonForkHighBlockNum := db.headBlockNum
  highBlockNum := db.headBlockNum
  forkHistory := []

/-- The id that one round of the loop pushes. -/
def synopsisId (db : ChainDatabase B X) (span : Span)
    (lowBlockNum : Nat) : Except SyncFault BlockId :=
  if lowBlockNum ≤ span.nonForkHighBlockNum then
    getBlockIdForNum db lowBlockNum
  else
    match span.forkHistory[
        lowBlockNum - span.nonForkHighBlockNum - 1]? with
    | none => .error .outsideForkHistory
    | some id => .ok id

/-- Half the way to the end, and one more. -/
def nextLow (trueHighBlockNum lowBlockNum : Nat) : Nat :=
  wrap
    (lowBlockNum +
      wrap (trueHighBlockNum + 2 ^ 32 - lowBlockNum + 2) / 2)

/-- The loop; the numbers rise, so fuel above the high one is enough. -/
def synopsisFrom (db : ChainDatabase B X) (span : Span)
    (trueHighBlockNum : Nat) :
    Nat → Nat → Except SyncFault (List BlockId)
  | 0, _ => .error .endlessLoop
  | fuel + 1, lowBlockNum =>
      match synopsisId db span lowBlockNum with
      | .error fault => .error fault
      | .ok id =>
          let next := nextLow trueHighBlockNum lowBlockNum
          if next ≤ span.highBlockNum then
            match synopsisFrom db span trueHighBlockNum fuel next with
            | .error fault => .error fault
            | .ok later => .ok (id :: later)
          else
            .ok [id]

/-- The end of `get_blockchain_synopsis`. -/
def synopsisOf (db : ChainDatabase B X) (numberOfBlocksAfter : Nat)
    (span : Span) : Except SyncFault (List BlockId) :=
  let lowBlockNum := if span.lowBlockNum = 0 then 1 else span.lowBlockNum
  synopsisFrom db span
    (wrap (span.highBlockNum + numberOfBlocksAfter))
    (span.highBlockNum + 1) lowBlockNum

def getBlockchainSynopsis (db : ChainDatabase B X)
    (referencePoint : BlockId) (numberOfBlocksAfter : Nat) :
    Except SyncFault (List BlockId) :=
  if referencePoint ≠ .zero then
    match isIncludedBlock db referencePoint with
    | .error fault => .error fault
    | .ok true =>
        synopsisOf db numberOfBlocksAfter (mainSpan db referencePoint)
    | .ok false =>
        match forkSpan db referencePoint with
        | .error fault => .error fault
        | .ok span => synopsisOf db numberOfBlocksAfter span
  else if db.headBlockNum = 0 then
    .ok []
  else
    synopsisOf db numberOfBlocksAfter (wholeSpan db)

/-- The search for a block of the synopsis, the last one first. -/
def findLastKnown (db : ChainDatabase B X) :
    List BlockId → Except SyncFault BlockId
  | [] => .error .peerIsOnAnUnreachableFork
  | id :: earlier =>
      if id = .zero then
        .ok id
      else if isKnownBlock db id then
        match isIncludedBlock db id with
        | .error fault => .error fault
        | .ok true => .ok id
        | .ok false => findLastKnown db earlier
      else
        findLastKnown db earlier

def lastKnownBlockId (db : ChainDatabase B X)
    (synopsis : List BlockId) : Except SyncFault BlockId :=
  if synopsis = [] ∨ synopsis = [.zero] then
    .ok .zero
  else
    findLastKnown db synopsis.reverse

/-- The loop that collects ids: so many numbers are left up to the head, and
so many ids may still be returned. -/
def blockIdsFrom (db : ChainDatabase B X) :
    Nat → Nat → Nat → Except SyncFault (List BlockId)
  | 0, _, _ => .ok []
  | numbers + 1, limit, num =>
      if limit = 0 then
        .ok []
      else if 0 < num then
        match getBlockIdForNum db num with
        | .error fault => .error fault
        | .ok id =>
            match blockIdsFrom db numbers (limit - 1) (num + 1) with
            | .error fault => .error fault
            | .ok later => .ok (id :: later)
      else
        blockIdsFrom db numbers limit (num + 1)

def remainingItemCount (db : ChainDatabase B X)
    (result : List BlockId) : Nat :=
  match result.getLast? with
  | none => 0
  | some last =>
      if last.num < db.headBlockNum then db.headBlockNum - last.num else 0

def getBlockIds (db : ChainDatabase B X) (blockchainSynopsis : List BlockId)
    (limit : Nat) : Except SyncFault (List BlockId × Nat) :=
  if db.headBlockNum = 0 then
    .ok ([], 0)
  else
    match lastKnownBlockId db blockchainSynopsis with
    | .error fault => .error fault
    | .ok lastKnown =>
        match blockIdsFrom db (db.headBlockNum + 1 - lastKnown.num) limit
            lastKnown.num with
        | .error fault => .error fault
        | .ok result => .ok (result, remainingItemCount db result)

/-- Some blocks of the chain in order: from the low block on, and up to the
last one when none are announced after it. -/
structure IsSynopsis (chain : List (Block B)) (lowBlockNum : Nat)
    (numberOfBlocksAfter : Nat) (synopsis : List BlockId) : Prop where
  inChain : ∀ id ∈ synopsis, ∃ block ∈ chain, block.id = id
  increasing : (synopsis.map BlockId.num).Pairwise (· < ·)
  first : ∃ id, synopsis.head? = some id ∧ id.num = lowBlockNum
  last :
    numberOfBlocksAfter = 0 → synopsis.getLast? = some (lastId chain)

def OnMainChain (db : ChainDatabase B X) (id : BlockId) : Prop :=
  ∃ block ∈ db.state.history, block.id = id

/-- A branch of the fork database that ends in the block and leaves the main
chain above `older`. -/
structure ForkBranch (db : ChainDatabase B X) (headOfFork : BlockId)
    (branch older : List (Block B)) : Prop where
  linked : Linked (branch ++ older)
  ends : lastId (branch ++ older) = headOfFork
  held : ∀ block ∈ branch, ∃ item ∈ db.forkDb.items, item.block = block
  leaves : ∃ lowest ∈ branch.getLast?, lowest ∉ db.state.history
  below : older <:+ db.state.history

/-- The chains that a node can be asked to summarise: all of its main chain, the
main chain up to a block, or a branch that leaves the main chain where it can
still be undone. -/
inductive Summarised (db : ChainDatabase B X) :
    BlockId → List (Block B) → Prop
  | whole (someBlock : 0 < db.headBlockNum) :
      Summarised db .zero db.state.history
  | main {block : Block B} {older : List (Block B)}
      (below : block :: older <:+ db.state.history) :
      Summarised db block.id (block :: older)
  | fork {headOfFork : BlockId} {branch older : List (Block B)}
      (isBranch : ForkBranch db headOfFork branch older)
      (reaches : db.lastNonUndoableBlockNum ≤ older.length) :
      Summarised db headOfFork (branch ++ older)

/-- Why a node may refuse to summarise a branch: it is not linked to the main
chain any more, or it leaves it where nothing can be undone. -/
inductive ForkRefused (db : ChainDatabase B X) (headOfFork : BlockId) :
    SyncFault → Prop
  | unlinked
      (missing :
        db.forkDb.fetchBranchFrom db.headBlockId headOfFork = none) :
      ForkRefused db headOfFork .branchNotFound
  | tooOld {branch older : List (Block B)}
      (isBranch : ForkBranch db headOfFork branch older)
      (short : older.length < db.lastNonUndoableBlockNum) :
      ForkRefused db headOfFork .blockOlderThanUndoHistory

def lowestNum (db : ChainDatabase B X) (chain : List (Block B)) : Nat :=
  max 1 (min db.lastNonUndoableBlockNum chain.length)

/-- The ids of so many blocks of the main chain in a row, and how many blocks
there are after them. -/
structure IsAnswer (db : ChainDatabase B X) (firstNum limit : Nat)
    (ids : List BlockId) (remaining : Nat) : Prop where
  length : ids.length = min limit (db.headBlockNum + 1 - firstNum)
  consecutive :
    ∀ index, index < ids.length →
      ∃ block, mainBlock db.state (firstNum + index) = some block ∧
        ids[index]? = some block.id
  remaining : remaining + ids.length = db.headBlockNum + 1 - firstNum

section Loop

variable {db : ChainDatabase B X} {span : Span} {chain : List (Block B)}

theorem nextLow_eq {trueHigh low : Nat} (positive : 1 ≤ low)
    (below : low ≤ trueHigh) (fits : trueHigh + 1 < 2 ^ 32) :
    nextLow trueHigh low = low + (trueHigh - low + 2) / 2 := by
  have inner : wrap (trueHigh + 2 ^ 32 - low + 2) = trueHigh - low + 2 := by
    unfold wrap
    omega
  unfold nextLow
  rw [inner]
  exact wrap_of_lt (by omega)

/-- Every number up to the high one can be read: the loop ends, and returns
blocks of the chain in order. -/
theorem synopsisFrom_spec {trueHigh : Nat}
    (reads :
      ∀ num, 1 ≤ num → num ≤ span.highBlockNum →
        ∃ block ∈ chain, block.num = num ∧
          synopsisId db span num = .ok block.id)
    (above : span.highBlockNum ≤ trueHigh) (fits : trueHigh + 1 < 2 ^ 32)
    (fuel low : Nat) (positive : 1 ≤ low) (below : low ≤ span.highBlockNum)
    (enough : span.highBlockNum < low + fuel) :
    ∃ ids,
      synopsisFrom db span trueHigh fuel low = .ok ids ∧
      (∀ id ∈ ids, low ≤ id.num ∧ ∃ block ∈ chain, block.id = id) ∧
      (ids.map BlockId.num).Pairwise (· < ·) ∧
      (∃ first, ids.head? = some first ∧ first.num = low) ∧
      (trueHigh = span.highBlockNum →
        ∃ last, ids.getLast? = some last ∧
          last.num = span.highBlockNum) := by
  induction fuel generalizing low with
  | zero => omega
  | succ fuel ih =>
      obtain ⟨block, member, number, read⟩ := reads low positive below
      have next := nextLow_eq positive (below.trans above) fits
      simp only [synopsisFrom, read]
      by_cases more : nextLow trueHigh low ≤ span.highBlockNum
      · obtain ⟨ids, returns, inside, increasing, ⟨first, head, firstNum⟩,
          ends⟩ :=
          ih (nextLow trueHigh low) (by omega) more
            (by omega)
        rw [if_pos more, returns]
        refine ⟨block.id :: ids, rfl, ?_, ?_, ⟨block.id, rfl, number⟩, ?_⟩
        · intro id isIn
          rcases List.mem_cons.mp isIn with same | later
          · rw [same]
            exact ⟨Nat.le_of_eq number.symm, block, member, rfl⟩
          · obtain ⟨bound, inChain⟩ := inside id later
            exact ⟨by omega, inChain⟩
        · rw [List.map_cons, List.pairwise_cons]
          refine ⟨?_, increasing⟩
          intro num isNum
          obtain ⟨id, isIn, rfl⟩ := List.mem_map.mp isNum
          have bound := (inside id isIn).1
          rw [Block.id_num, number]
          omega
        · intro exactly
          obtain ⟨last, isLast, lastNum⟩ := ends exactly
          exact ⟨last, by simp [List.getLast?_cons, isLast], lastNum⟩
      · rw [if_neg more]
        refine
          ⟨[block.id], rfl, ?_, List.pairwise_singleton _ _,
            ⟨block.id, rfl, number⟩, ?_⟩
        · intro id isIn
          rw [List.mem_singleton.mp isIn]
          exact ⟨Nat.le_of_eq number.symm, block, member, rfl⟩
        · -- half of what is left and one more never jumps over the end
          intro exactly
          refine ⟨block.id, rfl, ?_⟩
          rw [Block.id_num, number]
          omega

theorem Linked.lastId_of_num {block : Block B} (linked : Linked chain)
    (member : block ∈ chain) (number : block.num = chain.length) :
    block.id = lastId chain := by
  cases chain with
  | nil => cases member
  | cons last older =>
      rcases List.mem_cons.mp member with same | deeper
      · rw [same]
        rfl
      · have bound := linked.2.num_le deeper
        rw [List.length_cons] at number
        omega

theorem synopsisOf_spec {after : Nat} (linked : Linked chain)
    (high : span.highBlockNum = chain.length) (someBlock : chain ≠ [])
    (low : span.lowBlockNum = min db.lastNonUndoableBlockNum chain.length)
    (fits : chain.length + after + 1 < 2 ^ 32)
    (reads :
      ∀ num, 1 ≤ num → num ≤ span.highBlockNum →
        ∃ block ∈ chain, block.num = num ∧
          synopsisId db span num = .ok block.id) :
    ∃ synopsis,
      synopsisOf db after span = .ok synopsis ∧
      IsSynopsis chain (lowestNum db chain) after synopsis := by
  have positive : 1 ≤ chain.length := List.length_pos_iff.mpr someBlock
  have lowest :
      (if span.lowBlockNum = 0 then 1 else span.lowBlockNum) =
        lowestNum db chain := by
    unfold lowestNum
    rw [low]
    split
    · omega
    · omega
  have atLeast : 1 ≤ lowestNum db chain := Nat.le_max_left _ _
  have atMost : lowestNum db chain ≤ chain.length := by
    unfold lowestNum
    omega
  have trueHigh : wrap (span.highBlockNum + after) = chain.length + after := by
    rw [high]
    exact wrap_of_lt (by omega)
  obtain ⟨ids, returns, inside, increasing, first, ends⟩ :=
    @synopsisFrom_spec B X db span chain (chain.length + after) reads
      (by omega) fits (span.highBlockNum + 1) (lowestNum db chain)
      atLeast (by omega) (by omega)
  refine ⟨ids, ?_, ?_⟩
  · simp only [synopsisOf, lowest, trueHigh]
    exact returns
  · refine
      { inChain := fun id member => (inside id member).2
        increasing := increasing
        first := first
        last := ?_ }
    intro none
    obtain ⟨last, isLast, lastNum⟩ := ends (by omega)
    obtain ⟨block, member, same⟩ :=
      (inside last (List.mem_of_getLast? isLast)).2
    rw [isLast, ← same, linked.lastId_of_num member ?_]
    rw [← Block.id_num, same, lastNum, high]

end Loop

section Main

variable {rules : Rules B X} {known : Set (Block B)}
  {db : ChainDatabase B X} {id : BlockId}

theorem getBlockIdForNum_main {block : Block B} (agrees : LogAgrees db)
    (member : block ∈ db.state.history) :
    getBlockIdForNum db block.num = .ok block.id := by
  simp only [getBlockIdForNum, agrees block member]

theorem OnMainChain.included (agrees : LogAgrees db)
    (isMain : OnMainChain db id) : isIncludedBlock db id = .ok true := by
  obtain ⟨block, member, rfl⟩ := isMain
  simp [isIncludedBlock, getBlockIdForNum_main agrees member]

theorem OnMainChain.num_le (ok : ObjectsOk known rules db.objects)
    (isMain : OnMainChain db id) : 1 ≤ id.num ∧ id.num ≤ db.headBlockNum := by
  obtain ⟨block, member, rfl⟩ := isMain
  rw [ok.headBlockNum_eq]
  exact ⟨block.num_pos, ok.current.linked.num_le member⟩

theorem not_included (ok : ObjectsOk known rules db.objects)
    (agrees : LogAgrees db) (notMain : ¬ OnMainChain db id)
    (positive : 1 ≤ id.num) (low : id.num ≤ db.headBlockNum) :
    isIncludedBlock db id = .ok false := by
  rw [ok.headBlockNum_eq] at low
  obtain ⟨block, member, number⟩ :=
    ok.current.linked.exists_num positive low
  have read : getBlockIdForNum db id.num = .ok block.id := by
    rw [← number]
    exact getBlockIdForNum_main agrees member
  have differs : id ≠ block.id :=
    fun same => notMain ⟨block, member, same.symm⟩
  simp [isIncludedBlock, read, differs]

theorem InOrder.known_num_le (order : InOrder db)
    (isKnown : isKnownBlock db id = true) : id.num ≤ db.headBlockNum := by
  rw [isKnownBlock, Bool.or_eq_true] at isKnown
  rcases isKnown with held | logged
  · obtain ⟨item, found⟩ := Option.isSome_iff_exists.mp held
    obtain ⟨inIndex, same⟩ := ForkDatabase.find_eq_some found
    rw [← same]
    exact order.items item (ForkDatabase.mem_items.mpr (Or.inr inIndex))
  · by_contra above
    have missing := order.logEnds id.num (Nat.lt_of_not_le above)
    simp [BlockLog.contains, missing] at logged

theorem OnMainChain.isKnownBlock (agrees : LogAgrees db)
    (isMain : OnMainChain db id) : isKnownBlock db id = true := by
  obtain ⟨block, member, rfl⟩ := isMain
  simp [Chain.isKnownBlock, BlockLog.contains, block.id_ne_zero,
    agrees block member]

/-- The search ends at the first block of the list that is on the main
chain. -/
theorem findLastKnown_spec (ok : ObjectsOk known rules db.objects)
    (order : InOrder db) {ids : List BlockId}
    (positive : ∀ id ∈ ids, 1 ≤ id.num)
    (someMain : ∃ id ∈ ids, OnMainChain db id) :
    ∃ later found earlier, ids = later ++ found :: earlier ∧
      findLastKnown db ids = .ok found ∧ OnMainChain db found ∧
      ∀ id ∈ later, ¬ OnMainChain db id := by
  induction ids with
  | nil =>
      obtain ⟨id, member, _⟩ := someMain
      cases member
  | cons id ids ih =>
      have notZero : id ≠ .zero := by
        intro same
        have number := positive id List.mem_cons_self
        rw [same] at number
        exact absurd number (by decide)
      by_cases isMain : OnMainChain db id
      · refine ⟨[], id, ids, rfl, ?_, isMain, by simp⟩
        simp only [findLastKnown, if_neg notZero,
          isMain.isKnownBlock order.log, if_true,
          isMain.included order.log]
      · have passes : findLastKnown db (id :: ids) = findLastKnown db ids := by
          simp only [findLastKnown, if_neg notZero]
          by_cases isKnown : isKnownBlock db id = true
          · rw [if_pos isKnown,
              not_included ok order.log isMain
                (positive id List.mem_cons_self)
                (order.known_num_le isKnown)]
          · rw [if_neg isKnown]
        obtain ⟨later, found, earlier, shape, returns, foundMain, others⟩ :=
          ih
            (fun other member =>
              positive other (List.mem_cons_of_mem id member))
            (by
              obtain ⟨other, member, otherMain⟩ := someMain
              rcases List.mem_cons.mp member with same | inside
              · exact absurd (same ▸ otherMain) isMain
              · exact ⟨other, inside, otherMain⟩)
        refine
          ⟨id :: later, found, earlier, by rw [shape]; rfl,
            passes.trans returns, foundMain, ?_⟩
        intro other member
        rcases List.mem_cons.mp member with same | inside
        · rw [same]
          exact isMain
        · exact others other inside

theorem blockIdsFrom_spec (ok : ObjectsOk known rules db.objects)
    (agrees : LogAgrees db) (numbers limit num : Nat)
    (positive : 1 ≤ num) (ends : num + numbers = db.headBlockNum + 1) :
    ∃ ids, blockIdsFrom db numbers limit num = .ok ids ∧
      ids.length = min limit numbers ∧
      ∀ index, index < ids.length →
        ∃ block, mainBlock db.state (num + index) = some block ∧
          ids[index]? = some block.id := by
  induction numbers generalizing limit num with
  | zero => exact ⟨[], rfl, by simp, by simp⟩
  | succ numbers ih =>
      by_cases noMore : limit = 0
      · exact ⟨[], by simp only [blockIdsFrom, if_pos noMore], by
          simp [noMore], by simp⟩
      · have low : num ≤ db.state.history.length := by
          rw [← ok.headBlockNum_eq]
          omega
        obtain ⟨block, member, number⟩ :=
          ok.current.linked.exists_num positive low
        have read : getBlockIdForNum db num = .ok block.id := by
          rw [← number]
          exact getBlockIdForNum_main agrees member
        obtain ⟨ids, returns, length, each⟩ :=
          ih (limit - 1) (num + 1) (by omega) (by omega)
        refine ⟨block.id :: ids, ?_, ?_, ?_⟩
        · have above : 0 < num := positive
          simp only [blockIdsFrom, if_neg noMore, if_pos above, read,
            returns]
        · rw [List.length_cons, length]
          omega
        · intro index inside
          cases index with
          | zero =>
              refine ⟨block, ?_, rfl⟩
              rw [Nat.add_zero, ← number]
              exact ok.current.linked.find_num_of_mem member
          | succ index =>
              rw [List.length_cons] at inside
              obtain ⟨other, isOther, found⟩ :=
                each index (by omega)
              refine ⟨other, ?_, by rw [List.getElem?_cons_succ, found]⟩
              rw [← isOther]
              congr 1
              omega

/-- What `get_block_ids` returns once the last known block is found; the zero
id stands for block 0. -/
theorem getBlockIds_of_start (ok : ObjectsOk known rules db.objects)
    (agrees : LogAgrees db) {synopsis : List BlockId} {start : BlockId}
    {limit : Nat} (asked : 0 < limit)
    (found : lastKnownBlockId db synopsis = .ok start)
    (low : start.num ≤ db.headBlockNum) :
    ∃ ids remaining,
      getBlockIds db synopsis limit = .ok (ids, remaining) ∧
      IsAnswer db (max 1 start.num) limit ids remaining := by
  by_cases empty : db.headBlockNum = 0
  · refine ⟨[], 0, by simp only [getBlockIds, if_pos empty], ?_⟩
    refine { length := ?_, consecutive := by simp, remaining := ?_ }
    · rw [empty, List.length_nil]
      omega
    · rw [empty, List.length_nil]
      omega
  · obtain ⟨ids, returns, length, each⟩ :=
      blockIdsFrom_spec ok agrees
        (db.headBlockNum + 1 - max 1 start.num) limit (max 1 start.num)
        (Nat.le_max_left _ _) (by omega)
    have collected :
        blockIdsFrom db (db.headBlockNum + 1 - start.num) limit start.num =
          .ok ids := by
      rw [← returns]
      by_cases atZero : start.num = 0
      · have rounds :
            db.headBlockNum + 1 - start.num = db.headBlockNum + 1 := by
          omega
        have fewer :
            db.headBlockNum + 1 - max 1 start.num = db.headBlockNum := by
          omega
        rw [rounds, fewer, atZero, blockIdsFrom,
          if_neg (Nat.ne_of_gt asked), if_neg (Nat.lt_irrefl 0)]
        rfl
      · have same : max 1 start.num = start.num := by omega
        rw [same]
    refine ⟨ids, remainingItemCount db ids, ?_, ?_⟩
    · simp only [getBlockIds, if_neg empty, found, collected]
    · refine { length := length, consecutive := each, remaining := ?_ }
      have positive : 0 < ids.length := by omega
      obtain ⟨block, isBlock, last⟩ :=
        each (ids.length - 1) (by omega)
      have number : block.id.num = max 1 start.num + (ids.length - 1) := by
        simpa using List.find?_some isBlock
      have lastIs : ids.getLast? = some block.id := by
        rw [List.getLast?_eq_getElem?, last]
      simp only [remainingItemCount, lastIs]
      by_cases more : block.id.num < db.headBlockNum
      · rw [if_pos more]
        omega
      · rw [if_neg more]
        omega

end Main

section Forks

variable {rules : Rules B X} {known : Set (Block B)}
  {db : ChainDatabase B X}

/-- Items in a row on top of a chain make a longer chain. -/
theorem Consecutive.linked {items : List (ForkItem B)} {older : List (Block B)}
    (consecutive : Consecutive items) (below : Linked older)
    (ends : ∀ last ∈ items.getLast?, last.block.previous = lastId older) :
    Linked (items.map ForkItem.block ++ older) := by
  induction items with
  | nil => exact below
  | cons item items ih =>
      cases items with
      | nil => exact ⟨ends item rfl, below⟩
      | cons next items =>
          refine ⟨consecutive.rel.symm, ?_⟩
          refine ih consecutive.tail ?_
          intro last isLast
          exact ends last (by simpa [List.getLast?_cons] using isLast)

/-- The branch above a chain, from its lowest block on. -/
theorem Linked.reverse_getElem {branch older : List (Block B)}
    (linked : Linked (branch ++ older)) {index : Nat}
    (inside : index < branch.length) :
    ∃ block, branch.reverse[index]? = some block ∧
      block.num = older.length + 1 + index := by
  induction branch with
  | nil => cases inside
  | cons top branch ih =>
      rw [List.length_cons] at inside
      rw [List.reverse_cons]
      by_cases isTop : index = branch.length
      · refine ⟨top, ?_, ?_⟩
        · rw [isTop, ← List.length_reverse]
          exact List.getElem?_concat_length
        · have number : top.num = (branch ++ older).length + 1 :=
            linked.head_num
          rw [number, List.length_append]
          omega
      · obtain ⟨block, found, number⟩ :=
          ih linked.2 (by omega)
        refine ⟨block, ?_, number⟩
        rw [List.getElem?_append_left (by rw [List.length_reverse]; omega)]
        exact found

theorem Linked.eq_of_num {chain : List (Block B)} {left right : Block B}
    (linked : Linked chain) (leftMember : left ∈ chain)
    (rightMember : right ∈ chain) (same : left.num = right.num) :
    left = right := by
  have found := linked.find_num_of_mem leftMember
  rw [same, linked.find_num_of_mem rightMember] at found
  exact (Option.some.inj found).symm

variable {headOfFork : BlockId}

/-- `fetch_branch_from` the head and a block elsewhere: the second branch is
one that leaves the main chain. -/
theorem fetchBranchFrom_forkBranch {first second : List (ForkItem B)}
    (free : CollisionFree known) (ok : DatabaseOk known rules db)
    (order : InOrder db) (notMain : ¬ OnMainChain db headOfFork)
    (found :
      db.forkDb.fetchBranchFrom db.headBlockId headOfFork =
        some (first, second)) :
    ∃ older firstLast,
      first.getLast? = some firstLast ∧
      firstLast.block.previous = lastId older ∧
      ForkBranch db headOfFork (second.map ForkItem.block) older := by
  obtain ⟨branches, ⟨top, topIn, topIs, topId⟩,
    ⟨head, headIn, headIs, headId⟩⟩ :=
    ForkDatabase.fetchBranchFrom_spec ok.items (List.Subset.refl _) found
  have linked := ok.objects.current.linked
  obtain ⟨tail, rfl⟩ : ∃ tail, first = top :: tail := by
    cases first with
    | nil => cases topIs
    | cons item tail => exact ⟨tail, by rw [Option.some.inj topIs]⟩
  obtain ⟨older, shape, firstEnds⟩ :=
    branches.firstChain.top_of_history free
      (fun item member => ok.items.known item (branches.firstIn member))
      linked ok.objects.current.known
      (topId.trans ok.objects.headBlockId_eq)
  have history :
      db.state.history = (top :: tail).map ForkItem.block ++ older := shape
  obtain ⟨firstLast, secondLast, firstLastIs, secondLastIs, meets⟩ :=
    branches.meets
  have below : older <:+ db.state.history := by
    rw [history]
    exact List.suffix_append _ _
  have lastFirst := firstEnds firstLast firstLastIs
  have lastSecond : ∀ last ∈ second.getLast?,
      last.block.previous = lastId older := by
    intro last isLast
    rw [secondLastIs, Option.mem_some] at isLast
    rw [← isLast, ← meets, lastFirst]
  have linkedOlder : Linked older := by
    rw [history] at linked
    exact linked.of_append
  have linkedBranch := branches.secondChain.linked linkedOlder lastSecond
  have firstNum : firstLast.num = older.length + 1 := by
    rw [ForkItem.num, Block.num, lastFirst, linkedOlder.lastId_num]
  have secondNum : secondLast.num = older.length + 1 := by
    rw [ForkItem.num, Block.num, lastSecond secondLast secondLastIs,
      linkedOlder.lastId_num]
  have headNotMain : head.block ∉ db.state.history := fun member =>
    notMain ⟨head.block, member, headId⟩
  refine ⟨older, firstLast, firstLastIs, lastFirst,
    { linked := linkedBranch, ends := ?_, held := ?_, leaves := ?_,
      below := below }⟩
  · cases second with
    | nil => cases headIs
    | cons item rest =>
        rw [← headId, ← Option.some.inj headIs]
        rfl
  · intro block member
    obtain ⟨item, inSecond, rfl⟩ := List.mem_map.mp member
    exact ⟨item, branches.secondIn inSecond, rfl⟩
  · refine ⟨secondLast.block, by simp [secondLastIs], ?_⟩
    intro isMain
    have firstMain : firstLast.block ∈ db.state.history := by
      rw [history]
      exact List.mem_append_left _
        (List.mem_map_of_mem (List.mem_of_getLast? firstLastIs))
    have sameLast : secondLast.block = firstLast.block :=
      linked.eq_of_num isMain firstMain (secondNum.trans firstNum.symm)
    obtain ⟨upper, rfl⟩ := List.getLast?_eq_some_iff.mp secondLastIs
    rcases List.eq_nil_or_concat upper with rfl | ⟨higher, right, rfl⟩
    · -- the block itself is not on the main chain
      have isHead : secondLast = head := by simpa using headIs
      exact headNotMain (isHead ▸ isMain)
    · -- one level up the two branches would have named the same block
      have pair : right.block.previous = secondLast.id := by
        have chain := branches.secondChain
        rw [List.concat_eq_append, List.append_assoc] at chain
        exact (List.isChain_append.mp chain).2.1.rel.symm
      have rightNum : right.num = older.length + 2 := by
        rw [ForkItem.num, Block.num, pair]
        exact congrArg (· + 1) secondNum
      have rightIn : right ∈ higher.concat right ++ [secondLast] := by simp
      have rightLow : right.num ≤ db.state.history.length := by
        have bound :=
          branches.secondChain.num_le_head headIs rightIn
        have headLow :=
          order.items head (ForkDatabase.mem_items.mpr (Or.inr headIn))
        rw [← ok.objects.headBlockNum_eq]
        exact Nat.le_trans bound headLow
      obtain ⟨leftBlock, leftMain, leftNum⟩ :=
        linked.exists_num (by omega) rightLow
      have leftShape : leftBlock ∈
          (top :: tail).map ForkItem.block ++ older := history ▸ leftMain
      rcases List.mem_append.mp leftShape with inFirst | inOlder
      · obtain ⟨left, leftIn, rfl⟩ := List.mem_map.mp inFirst
        refine branches.apart left leftIn right rightIn leftNum ?_ ?_
        · intro last isLast
          rw [secondLastIs, Option.mem_some] at isLast
          rw [← isLast]
          omega
        · have leftPrevious : left.block.previous = firstLast.block.id :=
            linked.previous_eq leftMain firstMain
              (by
                have number : firstLast.block.num = _ := firstNum
                omega)
          rw [leftPrevious, pair, ← sameLast]
          rfl
      · have bound := linkedOlder.num_le inOlder
        omega

/-- What `get_block_ids_on_fork` and the code after it do with a block that is
held elsewhere. -/
theorem forkSpan_cases
    (free : CollisionFree known) (ok : DatabaseOk known rules db)
    (order : InOrder db) (notMain : ¬ OnMainChain db headOfFork) :
    (∃ fault, forkSpan db headOfFork = .error fault ∧
      ForkRefused db headOfFork fault) ∨
    ∃ branch older,
      ForkBranch db headOfFork branch older ∧
      db.lastNonUndoableBlockNum ≤ older.length ∧
      forkSpan db headOfFork =
        .ok
          { lowBlockNum := db.lastNonUndoableBlockNum
            nonForkHighBlockNum := older.length
            highBlockNum := older.length + branch.length
            forkHistory := (branch.map Block.id).reverse } := by
  cases found :
      db.forkDb.fetchBranchFrom db.headBlockId headOfFork with
  | none =>
      refine Or.inl ⟨.branchNotFound, ?_, .unlinked found⟩
      simp only [forkSpan, getBlockIdsOnFork, found]
  | some branches =>
      obtain ⟨first, second⟩ := branches
      obtain ⟨older, firstLast, firstLastIs, previous, isBranch⟩ :=
        fetchBranchFrom_forkBranch free ok order notMain found
      have point :
          (if firstLast.block.previous = .zero then 0
            else firstLast.block.previous.num) = older.length := by
        rw [previous, isBranch.linked.of_append.lastId_num]
        split
        · rename_i isZero
          have number := isBranch.linked.of_append.lastId_num
          rw [isZero] at number
          exact number
        · rfl
      have ids :
          getBlockIdsOnFork db headOfFork =
            .ok (second.map ForkItem.id ++
              [firstLast.block.previous]) := by
        simp only [getBlockIdsOnFork, found, firstLastIs]
      have branchIds :
          (second.map ForkItem.block).map Block.id =
            second.map ForkItem.id := by
        rw [List.map_map]
        rfl
      by_cases short : older.length < db.lastNonUndoableBlockNum
      · refine Or.inl
          ⟨.blockOlderThanUndoHistory, ?_, .tooOld isBranch short⟩
        simp only [forkSpan, ids, List.getLastD_concat, point,
          if_pos short]
      · refine Or.inr
          ⟨second.map ForkItem.block, older, isBranch,
            Nat.le_of_not_lt short, ?_⟩
        simp only [forkSpan, ids, List.getLastD_concat, point,
          if_neg short, List.dropLast_concat, branchIds,
          List.length_reverse, List.length_map]

/-- The blocks that a synopsis may be asked up to: none, one of the main chain,
or one of the fork database. -/
def IsReference (db : ChainDatabase B X) (referencePoint : BlockId) :
    Prop :=
  referencePoint = .zero ∨ OnMainChain db referencePoint ∨
    (db.forkDb.find referencePoint).isSome

/-- The number of the last block to be summarised. -/
def highNum (db : ChainDatabase B X) (referencePoint : BlockId) : Nat :=
  if referencePoint = .zero then db.headBlockNum else referencePoint.num

theorem synopsisId_main {span : Span} {chain : List (Block B)}
    (agrees : LogAgrees db) (linked : Linked chain)
    (below : chain <:+ db.state.history)
    (nonFork : chain.length ≤ span.nonForkHighBlockNum) {num : Nat}
    (positive : 1 ≤ num) (low : num ≤ chain.length) :
    ∃ block ∈ chain, block.num = num ∧
      synopsisId db span num = .ok block.id := by
  obtain ⟨block, member, number⟩ := linked.exists_num positive low
  refine ⟨block, member, number, ?_⟩
  rw [synopsisId, if_pos (low.trans nonFork), ← number]
  exact getBlockIdForNum_main agrees (below.subset member)

theorem synopsisId_fork {low num : Nat} {branch older : List (Block B)}
    (agrees : LogAgrees db) (isBranch : ForkBranch db headOfFork branch older)
    (positive : 1 ≤ num) (bound : num ≤ older.length + branch.length) :
    ∃ block ∈ branch ++ older, block.num = num ∧
      synopsisId db
        { lowBlockNum := low
          nonForkHighBlockNum := older.length
          highBlockNum := older.length + branch.length
          forkHistory := (branch.map Block.id).reverse } num =
        .ok block.id := by
  by_cases onMain : num ≤ older.length
  · obtain ⟨block, member, number, read⟩ :=
      @synopsisId_main B X db
        { lowBlockNum := low
          nonForkHighBlockNum := older.length
          highBlockNum := older.length + branch.length
          forkHistory := (branch.map Block.id).reverse } older agrees
        isBranch.linked.of_append isBranch.below (Nat.le_refl _) num
        positive onMain
    exact ⟨block, List.mem_append_right _ member, number, read⟩
  · obtain ⟨block, found, number⟩ :=
      isBranch.linked.reverse_getElem
        (show num - older.length - 1 < branch.length by omega)
    refine ⟨block, ?_, by omega, ?_⟩
    · exact List.mem_append_left _
        (List.mem_reverse.mp (List.mem_of_getElem? found))
    · simp only [synopsisId, if_neg onMain, ← List.map_reverse,
        List.getElem?_map, found, Option.map_some]

/-- Every course of `get_blockchain_synopsis` in a node in order. -/
theorem getBlockchainSynopsis_spec {referencePoint : BlockId} {after : Nat}
    (free : CollisionFree known) (ok : DatabaseOk known rules db)
    (order : InOrder db) (isReference : IsReference db referencePoint)
    (fits : highNum db referencePoint + after + 1 < 2 ^ 32) :
    (∃ fault,
      getBlockchainSynopsis db referencePoint after = .error fault ∧
      ForkRefused db referencePoint fault) ∨
    (getBlockchainSynopsis db referencePoint after = .ok [] ∧
      referencePoint = .zero ∧ db.headBlockNum = 0) ∨
    ∃ chain synopsis,
      getBlockchainSynopsis db referencePoint after = .ok synopsis ∧
      Summarised db referencePoint chain ∧
      IsSynopsis chain (lowestNum db chain) after synopsis := by
  have linked := ok.objects.current.linked
  have headNum := ok.objects.headBlockNum_eq
  by_cases isZero : referencePoint = .zero
  · subst isZero
    by_cases empty : db.headBlockNum = 0
    · refine Or.inr (Or.inl ⟨?_, rfl, empty⟩)
      simp [getBlockchainSynopsis, empty]
    · -- all of the main chain
      rw [highNum, if_pos rfl, headNum] at fits
      have someBlock : db.state.history ≠ [] := by
        intro none
        rw [headNum, none] at empty
        exact empty rfl
      have low :
          (wholeSpan db).lowBlockNum =
            min db.lastNonUndoableBlockNum db.state.history.length := by
        rw [← headNum]
        simp only [wholeSpan, ChainDatabase.lastNonUndoableBlockNum]
        omega
      obtain ⟨synopsis, returns, isSynopsis⟩ :=
        synopsisOf_spec linked headNum someBlock low fits
          (fun num positive bound =>
            synopsisId_main order.log linked (List.suffix_refl _)
              (Nat.le_of_eq headNum.symm) positive
              (bound.trans (Nat.le_of_eq headNum)))
      refine Or.inr (Or.inr ⟨db.state.history, synopsis, ?_,
        .whole (Nat.pos_of_ne_zero empty), isSynopsis⟩)
      simpa [getBlockchainSynopsis, empty] using returns
  · rw [highNum, if_neg isZero] at fits
    by_cases isMain : OnMainChain db referencePoint
    · -- the main chain up to the block
      have included := isMain.included order.log
      obtain ⟨block, member, rfl⟩ := isMain
      obtain ⟨newer, older, history⟩ := List.append_of_mem member
      have below : block :: older <:+ db.state.history := by
        rw [history]
        exact List.suffix_append _ _
      have linkedPart : Linked (block :: older) := by
        rw [history] at linked
        exact linked.of_append
      have number : block.id.num = (block :: older).length :=
        linkedPart.head_num
      have low :
          (mainSpan db block.id).lowBlockNum =
            min db.lastNonUndoableBlockNum (block :: older).length := by
        rw [← number]
        simp only [mainSpan]
        split
        · omega
        · omega
      obtain ⟨synopsis, returns, isSynopsis⟩ :=
        synopsisOf_spec linkedPart number (List.cons_ne_nil _ _) low
          (number ▸ fits)
          (fun num positive bound =>
            synopsisId_main order.log linkedPart below
              (Nat.le_of_eq number.symm) positive
              (bound.trans (Nat.le_of_eq number)))
      refine Or.inr (Or.inr ⟨block :: older, synopsis, ?_, .main below,
        isSynopsis⟩)
      simpa [getBlockchainSynopsis, isZero, included] using returns
    · -- a block of the fork database
      have held : (db.forkDb.find referencePoint).isSome := by
        rcases isReference with zero | main | held
        · exact absurd zero isZero
        · exact absurd main isMain
        · exact held
      obtain ⟨item, found⟩ := Option.isSome_iff_exists.mp held
      obtain ⟨inIndex, same⟩ := ForkDatabase.find_eq_some found
      have lowNum : referencePoint.num ≤ db.headBlockNum := by
        rw [← same]
        exact order.items item
          (ForkDatabase.mem_items.mpr (Or.inr inIndex))
      have positive : 1 ≤ referencePoint.num := by
        rw [← same]
        exact item.block.num_pos
      have excluded :=
        not_included ok.objects order.log isMain positive lowNum
      rcases forkSpan_cases free ok order isMain with
        ⟨fault, throws, refused⟩ |
        ⟨branch, older, isBranch, reaches, spanIs⟩
      · refine Or.inl ⟨fault, ?_, refused⟩
        simp [getBlockchainSynopsis, isZero, excluded, throws]
      · have number :
            referencePoint.num = (branch ++ older).length := by
          rw [← isBranch.ends, isBranch.linked.lastId_num]
        have length :
            older.length + branch.length = (branch ++ older).length := by
          rw [List.length_append, Nat.add_comm]
        have someBlock : branch ++ older ≠ [] := by
          intro none
          rw [number, none] at positive
          exact absurd positive (Nat.not_succ_le_zero 0)
        obtain ⟨synopsis, returns, isSynopsis⟩ :=
          @synopsisOf_spec B X db
            { lowBlockNum := db.lastNonUndoableBlockNum
              nonForkHighBlockNum := older.length
              highBlockNum := older.length + branch.length
              forkHistory := (branch.map Block.id).reverse } _ after isBranch.linked length
            someBlock
            (show db.lastNonUndoableBlockNum = _ by
              rw [← length]
              omega)
            (number ▸ fits)
            (fun num positive bound =>
              synopsisId_fork order.log isBranch positive bound)
        refine Or.inr (Or.inr ⟨branch ++ older, synopsis, ?_,
          .fork isBranch reaches, isSynopsis⟩)
        simpa [getBlockchainSynopsis, isZero, excluded, spanIs] using
          returns

end Forks

end GxbCore.Chain
