import GxbCore.Chain.ForkSwitch

/-!
# Runs of pushed blocks

`PushCase` lists what one push can do: the fork database refuses the block, the
block waits on its branch, it extends the chain, or the chain switches to
another branch.  A `Run` is any sequence of pushes; between two of them pending
transactions come and go, of which only the snapshots that their sessions drop
from the far end of the undo stack remain.
-/

namespace GxbCore.Chain

variable {B X : Type} {rules : Rules B X} {known : Set (Block B)}

/-- The push finds a fork head that is higher than the head of the chain and
does not build on it. -/
structure Attempts (db : ChainDatabase B X) (newBlock : Block B)
    (fork : ForkDatabase B) (newHead : ForkItem B) : Prop where
  pushed : db.forkDb.pushBlock newBlock = .ok fork
  head : fork.head = some newHead
  elsewhere : newHead.block.previous ≠ db.headBlockId
  higher : db.headBlockNum < newHead.num

/-- The courses that `_push_block` can take. -/
inductive PushCase (rules : Rules B X) (skipForkDb : Bool)
    (newBlock : Block B) (db : ChainDatabase B X) :
    Outcome ChainFault (ChainDatabase B X) → Prop
  | skipped (isSkipped : skipForkDb = true) :
      PushCase rules skipForkDb newBlock db (pushLinear rules newBlock db)
  | refused (fault : ChainFault) (left : ForkDatabase B)
      (refuses : db.forkDb.pushBlock newBlock = .throw fault left) :
      PushCase rules skipForkDb newBlock db (.throw fault db)
  | kept (fork : ForkDatabase B) (newHead : ForkItem B)
      (pushed : db.forkDb.pushBlock newBlock = .ok fork)
      (head : fork.head = some newHead)
      (elsewhere : newHead.block.previous ≠ db.headBlockId)
      (notHigher : newHead.num ≤ db.headBlockNum) :
      PushCase rules skipForkDb newBlock db
        (.ok { db with forkDb := fork })
  | linear (fork : ForkDatabase B) (newHead : ForkItem B)
      (pushed : db.forkDb.pushBlock newBlock = .ok fork)
      (head : fork.head = some newHead)
      (builds : newHead.block.previous = db.headBlockId) :
      PushCase rules skipForkDb newBlock db
        (pushLinear rules newBlock { db with forkDb := fork })
  | switched (fork : ForkDatabase B) (newHead : ForkItem B)
      (notSkipped : skipForkDb = false)
      (attempts : Attempts db newBlock fork newHead) :
      PushCase rules skipForkDb newBlock db
        (switchForks rules newBlock newHead { db with forkDb := fork })

theorem ForkDatabase.pushBlock_head {fork pushed : ForkDatabase B}
    {block : Block B} (returns : fork.pushBlock block = .ok pushed) :
    ∃ head, pushed.head = some head := by
  obtain ⟨prev, rfl, _⟩ := ForkDatabase.pushBlock_inserted returns
  rw [ForkDatabase.insertItem_head]
  split
  · exact ⟨_, rfl⟩
  · split
    · exact ⟨_, rfl⟩
    · exact ⟨_, rfl⟩

theorem pushBlock_cases (rules : Rules B X) (skipForkDb : Bool)
    (newBlock : Block B) (db : ChainDatabase B X) :
    PushCase rules skipForkDb newBlock db
      (pushBlock rules skipForkDb newBlock db) := by
  unfold pushBlock
  split
  · rename_i isSkipped
    exact .skipped isSkipped
  · rename_i notSkipped
    cases pushed : db.forkDb.pushBlock newBlock with
    | throw fault left => exact .refused fault left pushed
    | ok fork =>
        obtain ⟨newHead, head⟩ := ForkDatabase.pushBlock_head pushed
        simp only [head]
        split
        · rename_i elsewhere
          split
          · rename_i higher
            exact .switched fork newHead
              (Bool.eq_false_iff.mpr notSkipped)
              ⟨pushed, head, elsewhere, higher⟩
          · rename_i notHigher
            exact .kept fork newHead pushed head elsewhere
              (Nat.le_of_not_lt notHigher)
        · rename_i builds
          exact .linear fork newHead pushed head (not_not.mp builds)

/-- A block that becomes the fork head and builds on the head of the chain
asks for no switch. -/
theorem not_attempts_of_builds {db : ChainDatabase B X}
    {newBlock : Block B} {fork : ForkDatabase B} {newHead : ForkItem B}
    (builds :
      (db.forkDb.pushBlock newBlock).state.head.map
        (fun item => item.block.previous) = some db.headBlockId) :
    ¬ Attempts db newBlock fork newHead := by
  intro attempts
  rw [attempts.pushed, Outcome.state_ok, attempts.head] at builds
  exact attempts.elsewhere (Option.some.inj builds)

variable {db : ChainDatabase B X} {newBlock : Block B}

theorem DatabaseOk.amid (ok : DatabaseOk known rules db) :
    Amid known rules db.forkDb.items db.forkDb.nextAddress
      db.state.history db :=
  { objects := ok.objects
    above := List.suffix_refl _
    items := List.Subset.refl _
    next := rfl }

theorem Amid.databaseOk {pool : List (ForkItem B)} {next : Nat}
    {older : List (Block B)} (amid : Amid known rules pool next older db)
    (ok : ItemsOk known next pool) : DatabaseOk known rules db :=
  { objects := amid.objects
    items := by
      rw [amid.next]
      exact ok.subset amid.items }

theorem DatabaseOk.push (ok : DatabaseOk known rules db)
    (isKnown : newBlock ∈ known) {fork : ForkDatabase B}
    (pushed : db.forkDb.pushBlock newBlock = .ok fork) :
    DatabaseOk known rules { db with forkDb := fork } :=
  { objects := ok.objects
    items := ForkDatabase.pushBlock_itemsOk ok.items isKnown pushed }

/-- The end of `_push_block` only ever adds a block. -/
theorem pushLinear_keeps (ok : DatabaseOk known rules db)
    (isKnown : newBlock ∈ known) :
    Amid known rules db.forkDb.items db.forkDb.nextAddress
      db.state.history (pushLinear rules newBlock db).state := by
  have stepped := ok.amid.applyAndStore newBlock.id isKnown
  unfold pushLinear
  split
  · rename_i after returns
    rw [returns] at stepped
    exact stepped
  · rename_i fault after throws
    rw [throws] at stepped
    exact
      { objects := stepped.objects
        above := stepped.above
        items := by
          refine List.Subset.trans
            (ForkDatabase.remove_items_subset newBlock.id) ?_
          rw [List.append_nil]
          exact stepped.items
        next :=
          (ForkDatabase.remove_nextAddress newBlock.id).trans
            stepped.next }

theorem pushBlock_databaseOk (free : CollisionFree known) (skipForkDb : Bool)
    (ok : DatabaseOk known rules db) (isKnown : newBlock ∈ known) :
    DatabaseOk known rules
      (pushBlock rules skipForkDb newBlock db).state := by
  have course := pushBlock_cases rules skipForkDb newBlock db
  generalize pushBlock rules skipForkDb newBlock db = outcome at course ⊢
  cases course with
  | skipped isSkipped =>
      exact (pushLinear_keeps ok isKnown).databaseOk ok.items
  | refused fault left refuses => exact ok
  | kept fork newHead pushed head elsewhere notHigher =>
      exact ok.push isKnown pushed
  | linear fork newHead pushed head builds =>
      have okPushed := ok.push isKnown pushed
      exact (pushLinear_keeps okPushed isKnown).databaseOk okPushed.items
  | switched fork newHead _ attempts =>
      have okPushed := ok.push isKnown attempts.pushed
      exact (switchForks_keeps newBlock free okPushed
        attempts.head).databaseOk okPushed.items

/-- The databases reached from `start` by pushes of known blocks that meet the
guard. -/
inductive Run (rules : Rules B X) (known : Set (Block B))
    (guard : ChainDatabase B X → Bool → Block B → Prop)
    (start : ChainDatabase B X) : ChainDatabase B X → Prop
  | refl : Run rules known guard start start
  | push {db : ChainDatabase B X} (skipForkDb : Bool)
      (block : Block B) (run : Run rules known guard start db)
      (isKnown : block ∈ known) (meets : guard db skipForkDb block) :
      Run rules known guard start
        (pushBlock rules skipForkDb block db).state
  | pending {db : ChainDatabase B X} (count : Nat)
      (run : Run rules known guard start db) :
      Run rules known guard start
        { db with
          objects :=
            ⟨db.state, db.objects.saved.take count, db.objects.limit⟩ }

/-- A database just opened: no undo history, and the fork database starts at
the head block, if there is one. -/
structure Opened (known : Set (Block B)) (db : ChainDatabase B X) :
    Prop where
  state : StateOk known db.state
  saved : db.objects.saved = []
  forkDb :
    db.forkDb =
      match db.state.history with
      | [] => .empty
      | block :: _ => ForkDatabase.startBlock block .empty

theorem Opened.itemsOk (opened : Opened known db) :
    ItemsOk known db.forkDb.nextAddress db.forkDb.items := by
  have emptyOk : ItemsOk known 0 ([] : List (ForkItem B)) :=
    { known := by simp
      sameAddress := by simp
      parent := by simp
      addressBelow := by simp
      prevBelow := by simp }
  rw [opened.forkDb]
  cases history : db.state.history with
  | nil => exact emptyOk
  | cons block older =>
      have isKnown : block ∈ known :=
        opened.state.known block (by simp [history])
      have started : ItemsOk known 1 [(⟨0, none, block⟩ : ForkItem B)] :=
        emptyOk.cons isKnown (by simp)
      exact started.subset
        (by simp [ForkDatabase.items, ForkDatabase.startBlock,
          ForkDatabase.empty])

theorem Opened.databaseOk (opened : Opened known db) :
    DatabaseOk known rules db :=
  { objects :=
      { current := opened.state
        saved := by simp [opened.saved]
        undoable := by simp [opened.saved, Undoable] }
    items := opened.itemsOk }

theorem Run.databaseOk {guard : ChainDatabase B X → Bool → Block B → Prop}
    {start : ChainDatabase B X} (free : CollisionFree known)
    (run : Run rules known guard start db) (ok : DatabaseOk known rules start) :
    DatabaseOk known rules db := by
  induction run with
  | refl => exact ok
  | push skipForkDb block _ isKnown _ ih =>
      exact pushBlock_databaseOk free skipForkDb ih isKnown
  | pending count _ ih =>
      exact
        { objects := ih.objects.take count _
          items := ih.items }

/-- A block is applied when its body says so. -/
def flagRules : Rules Bool Unit where
  evaluate := fun block _ => if block.body then .ok () else .error 1
  settle := fun _ state => .ok (state.activeWitnesses, ())
  skipUndoHistoryCheck := false

/-- The database after `init_genesis`, with one active witness. -/
def genesis : ChainDatabase Bool Unit where
  objects :=
    { current :=
        { headBlockNum := 0
          headBlockId := .zero
          lastIrreversibleBlockNum := 0
          activeWitnesses := [0]
          lastConfirmedBlockNum := fun _ => 0
          rest := ()
          history := [] }
      saved := []
      limit := 256 }
  forkDb := .empty
  blockLog := fun _ => none

theorem genesis_opened (known : Set (Block Bool)) : Opened known genesis :=
  { state :=
      { linked := trivial
        headId := rfl
        headNum := rfl
        known := by simp [ChainDatabase.state, genesis]
        irreversible := Nat.le_refl _
        confirmed := fun _ => Nat.le_refl _ }
    saved := rfl
    forkDb := rfl }

def blocksOf (blocks : List (Block Bool)) : Set (Block Bool) :=
  fun block => block ∈ blocks

/-- Push blocks one after the other, catching what they throw. -/
def pushAll (blocks : List (Block Bool)) : ChainDatabase Bool Unit :=
  blocks.foldl
    (fun db block => (pushBlock flagRules false block db).state) genesis

def validBlock (previous : BlockId) (hash : Nat) : Block Bool :=
  ⟨previous, hash, 0, true⟩

/-- A block whose transactions are not valid. -/
def invalidBlock (previous : BlockId) (hash : Nat) : Block Bool :=
  ⟨previous, hash, 0, false⟩

def blockA1 : Block Bool :=
  validBlock .zero 1

/-- Block 1 of another branch. -/
def blockB1 : Block Bool :=
  validBlock .zero 2

def blockB2 : Block Bool :=
  validBlock blockB1.id 3

def blockA2 : Block Bool :=
  validBlock blockA1.id 4

/-- A block on `A1` that does not apply. -/
def badA2 : Block Bool :=
  invalidBlock blockA1.id 5

/-- A block on `B1` that does not apply. -/
def badB2 : Block Bool :=
  invalidBlock blockB1.id 6

/-- A sibling of `A2`. -/
def blockC2 : Block Bool :=
  validBlock blockA1.id 7

/-- A block on `C2` that does not apply. -/
def badC3 : Block Bool :=
  invalidBlock blockC2.id 8

@[simp]
theorem mem_blocksOf {blocks : List (Block Bool)} {block : Block Bool} :
    block ∈ blocksOf blocks ↔ block ∈ blocks :=
  Iff.rfl

theorem collisionFree_blocksOf {blocks : List (Block Bool)}
    (distinct :
      ∀ left ∈ blocks, ∀ right ∈ blocks, left.id = right.id →
        left = right) : CollisionFree (blocksOf blocks) :=
  distinct

theorem pushAll_append_singleton (blocks : List (Block Bool))
    (block : Block Bool) :
    pushAll (blocks ++ [block]) =
      (pushBlock flagRules false block (pushAll blocks)).state := by
  simp [pushAll]

theorem run_pushAll {all later : List (Block Bool)}
    (blocks : List (Block Bool)) (inAll : ∀ block ∈ later, block ∈ all) :
    Run flagRules (blocksOf all) (fun _ _ _ => True) (pushAll blocks)
      (pushAll (blocks ++ later)) := by
  induction later using List.reverseRecOn with
  | nil =>
      rw [List.append_nil]
      exact .refl
  | append_singleton later block ih =>
      have run :=
        ih
          (fun other member => inAll other (by simp [member]))
      have isKnown : block ∈ blocksOf all := inAll block (by simp)
      rw [← List.append_assoc, pushAll_append_singleton]
      exact Run.push false block run isKnown trivial

end GxbCore.Chain
