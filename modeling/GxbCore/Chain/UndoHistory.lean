import GxbCore.Chain.Runs

/-!
# How far back the undo stack reaches

Every block leaves one state on the undo stack, and `start_undo_session` cuts
the stack to `max_size` before it pushes the state of the new session.  The size
is set once for every block, from the last irreversible block before it; but
sessions are also opened for the pending block, for every transaction pushed to
it and for every proposal that is executed, and a proposal may execute other
proposals.  Each of them takes a place on the stack.

The room left is enough for a pending transaction, and for a proposal in a
block.  Another proposal inside may push out the state of a reversible block, or
of a session that is still open.
-/

namespace GxbCore.Chain

/-- What a session was opened for.  A block is `counted` once
`update_global_dynamic_data` has made it the head. -/
inductive SessionKind where
  | block (counted : Bool)
  | pending
  | transaction
  | proposal
  deriving DecidableEq, Repr

/-- The object state with the undo stack, in the middle of anything.  `opened`
and `base` are not in the program: the sessions that are open, the innermost
one first, and the state after the last committed block. -/
structure SessionNode (B X : Type) where
  objects : Snapshots (ChainState B X)
  activeSessions : Nat
  opened : List SessionKind
  base : ChainState B X

/-- The calls that open and close sessions or change the head. -/
inductive Call (B X : Type) where
  | startBlock
  | startPending
  | startTransaction
  | startProposal
  | evaluate (rest : X)
  | updateGlobalDynamicData (block : Block B)
  | updateLastIrreversible (block : Block B)
  | settle (active : List WitnessId) (rest : X)
  | merge
  | undo
  | commitBlock
  | popBlock

section Machine

variable {B X : Type}

/-- The evaluators have done their work in steps of their own. -/
def evaluated (skipUndoHistoryCheck : Bool) : Rules B X where
  evaluate := fun _ state => .ok state.rest
  settle := fun _ state => .ok (state.activeWitnesses, state.rest)
  skipUndoHistoryCheck := skipUndoHistoryCheck

namespace SessionNode

abbrev state (node : SessionNode B X) : ChainState B X :=
  node.objects.current

/-- `size() - active_sessions()`: the states of committed blocks. -/
def committed (node : SessionNode B X) : Nat :=
  node.objects.saved.length - node.activeSessions

/-- `start_undo_session` -/
def start (kind : SessionKind) (node : SessionNode B X) :
    SessionNode B X :=
  { node with
    objects := node.objects.save
    activeSessions := node.activeSessions + 1
    opened := kind :: node.opened }

/-- A change of the object state. -/
def write (state : ChainState B X) (node : SessionNode B X) :
    SessionNode B X :=
  { node with objects := node.objects.write state }

/-- `session::merge` -/
def merge (outer : List SessionKind) (node : SessionNode B X) :
    Option (SessionNode B X) :=
  if node.activeSessions = 0 then
    none
  else if node.activeSessions = 1 ∧ node.objects.saved.length = 1 ∨
      2 ≤ node.objects.saved.length then
    some
      { node with
        objects := node.objects.merge
        activeSessions := node.activeSessions - 1
        opened := outer }
  else
    none

/-- `session::undo`, and the destructor of a session that is still open. -/
def undo (outer : List SessionKind) (node : SessionNode B X) :
    Option (SessionNode B X) :=
  if node.activeSessions = 0 then
    none
  else
    match node.objects.restore with
    | none => none
    | some objects =>
        some
          { node with
            objects := objects
            activeSessions := node.activeSessions - 1
            opened := outer }

/-- A call, where the code can make it; `none` when it throws. -/
def perform (skipUndoHistoryCheck : Bool) (call : Call B X)
    (node : SessionNode B X) : Option (SessionNode B X) :=
  match call, node.opened with
  | .startBlock, [] => some (node.start (.block false))
  | .startPending, [] => some (node.start .pending)
  -- `validate_transaction` does without a pending session
  | .startTransaction, [] => some (node.start .transaction)
  | .startTransaction, [.pending] => some (node.start .transaction)
  | .startProposal, .block _ :: _ => some (node.start .proposal)
  | .startProposal, .transaction :: _ => some (node.start .proposal)
  | .startProposal, .proposal :: _ => some (node.start .proposal)
  | .evaluate rest, _ :: _ =>
      some (node.write { node.state with rest := rest })
  | .updateGlobalDynamicData block, [.block false] =>
      match beginBlock (evaluated skipUndoHistoryCheck) block
          node.state with
      | .error _ => none
      | .ok begun =>
          some
            { node with
              objects :=
                (node.objects.write begun).setLimit
                  (begun.headBlockNum - begun.lastIrreversibleBlockNum +
                    1)
              opened := [.block true] }
  | .updateLastIrreversible block, [.block true] =>
      -- the block that is being applied
      if block.id = node.state.headBlockId then
        match finishBlock (evaluated skipUndoHistoryCheck) block
            node.state with
        | .error _ => none
        | .ok finished => some (node.write finished)
      else
        none
  | .settle active rest, [.block true] =>
      some
        (node.write
          { node.state with activeWitnesses := active, rest := rest })
  | .merge, .proposal :: outer => node.merge outer
  | .merge, .transaction :: .pending :: outer =>
      node.merge (.pending :: outer)
  | .undo, _ :: outer => node.undo outer
  | .commitBlock, [.block true] =>
      if node.activeSessions = 0 then
        none
      else
        some
          { node with
            activeSessions := node.activeSessions - 1
            opened := []
            base := node.state }
  | .popBlock, [] =>
      if node.activeSessions = 0 then
        match node.objects.restore with
        | none => none
        | some objects =>
            some { node with objects := objects, base := objects.current }
      else
        none
  | _, _ => none

end SessionNode

/-- The nodes reached by calls that meet the guard. -/
inductive SessionRun (skipUndoHistoryCheck : Bool)
    (guard : SessionNode B X → Call B X → Prop)
    (start : SessionNode B X) : SessionNode B X → Prop
  | refl : SessionRun skipUndoHistoryCheck guard start start
  | call {node after : SessionNode B X} (call : Call B X)
      (run : SessionRun skipUndoHistoryCheck guard start node)
      (meets : guard node call)
      (returns : node.perform skipUndoHistoryCheck call = some after) :
      SessionRun skipUndoHistoryCheck guard start after

/-- The blocks of a state that are not irreversible. -/
def reversible (state : ChainState B X) : Nat :=
  state.headBlockNum - state.lastIrreversibleBlockNum

/-- One while a block is applied that is already the head. -/
def inProgress (opened : List SessionKind) : Nat :=
  if .block true ∈ opened then 1 else 0

/-- A proposal is executed only while there is room for its session above the
states of the reversible blocks and of the sessions that are open.  A block is
popped only if that takes back no more of the last irreversible block than the
stack has spare states, and leaves room. -/
def KeepsHistory (node : SessionNode B X) : Call B X → Prop
  | .startProposal =>
      reversible node.base + node.activeSessions ≤ node.objects.limit
  | .popBlock =>
      ∀ last older, node.objects.saved = last :: older →
        node.state.lastIrreversibleBlockNum -
            last.lastIrreversibleBlockNum ≤
          node.committed - reversible node.state ∧
        reversible last < node.objects.limit
  | _ => True

end Machine

section Inversion

variable {B X : Type} {skipUndoHistoryCheck : Bool}
  {node after : SessionNode B X} {call : Call B X}

/-- Every way in which a call returns. -/
inductive Performed (skipUndoHistoryCheck : Bool)
    (node : SessionNode B X) : Call B X → SessionNode B X → Prop
  | start {call : Call B X} (kind : SessionKind)
      (notCounted : kind ≠ .block true)
      (few : call = .startProposal ∨ node.opened.length ≤ 1) :
      Performed skipUndoHistoryCheck node call (node.start kind)
  | write {call : Call B X} (active : List WitnessId) (rest : X) :
      Performed skipUndoHistoryCheck node call
        (node.write
          { node.state with activeWitnesses := active, rest := rest })
  | count (block : Block B) (begun : ChainState B X)
      (opened : node.opened = [.block false])
      (begins :
        beginBlock (evaluated skipUndoHistoryCheck) block node.state =
          .ok begun) :
      Performed skipUndoHistoryCheck node
        (.updateGlobalDynamicData block)
        { node with
          objects :=
            (node.objects.write begun).setLimit
              (begun.headBlockNum - begun.lastIrreversibleBlockNum + 1)
          opened := [.block true] }
  | confirm (block : Block B) (finished : ChainState B X)
      (opened : node.opened = [.block true])
      (isHead : block.id = node.state.headBlockId)
      (finishes :
        finishBlock (evaluated skipUndoHistoryCheck) block node.state =
          .ok finished) :
      Performed skipUndoHistoryCheck node
        (.updateLastIrreversible block) (node.write finished)
  | merge (kind : SessionKind) (outer : List SessionKind)
      (after : SessionNode B X) (notCounted : kind ≠ .block true)
      (opened : node.opened = kind :: outer)
      (returns : node.merge outer = some after) :
      Performed skipUndoHistoryCheck node .merge after
  | undo (kind : SessionKind) (outer : List SessionKind)
      (after : SessionNode B X) (opened : node.opened = kind :: outer)
      (returns : node.undo outer = some after) :
      Performed skipUndoHistoryCheck node .undo after
  | commit (opened : node.opened = [.block true]) :
      Performed skipUndoHistoryCheck node .commitBlock
        { node with
          activeSessions := node.activeSessions - 1
          opened := []
          base := node.state }
  | pop (objects : Snapshots (ChainState B X)) (opened : node.opened = [])
      (restores : node.objects.restore = some objects) :
      Performed skipUndoHistoryCheck node .popBlock
        { node with objects := objects, base := objects.current }

theorem perform_cases
    (returns : node.perform skipUndoHistoryCheck call = some after) :
    Performed skipUndoHistoryCheck node call after := by
  unfold SessionNode.perform at returns
  split at returns
  -- the calls that open a session
  case h_1 opened =>
    cases returns
    exact .start _ (by simp) (Or.inr (by simp [opened]))
  case h_2 opened =>
    cases returns
    exact .start _ (by simp) (Or.inr (by simp [opened]))
  case h_3 opened =>
    cases returns
    exact .start _ (by simp) (Or.inr (by simp [opened]))
  case h_4 opened =>
    cases returns
    exact .start _ (by simp) (Or.inr (by simp [opened]))
  case h_5 =>
    cases returns
    exact .start _ (by simp) (Or.inl rfl)
  case h_6 =>
    cases returns
    exact .start _ (by simp) (Or.inl rfl)
  case h_7 =>
    cases returns
    exact .start _ (by simp) (Or.inl rfl)
  case h_8 =>
    cases returns
    exact .write _ _
  case h_9 block opened =>
    split at returns
    · cases returns
    · rename_i begun begins
      cases returns
      exact .count block begun opened begins
  case h_10 block opened =>
    split at returns
    · rename_i isHead
      split at returns
      · cases returns
      · rename_i finished finishes
        cases returns
        exact .confirm block finished opened isHead finishes
    · cases returns
  case h_11 =>
    cases returns
    exact .write _ _
  case h_12 outer opened =>
    exact .merge .proposal outer after (by simp) opened returns
  case h_13 outer opened =>
    exact .merge .transaction (.pending :: outer) after (by simp) opened
      returns
  case h_14 kind outer opened =>
    exact .undo kind outer after opened returns
  case h_15 opened =>
    split at returns
    · cases returns
    · cases returns
      exact .commit opened
  case h_16 opened =>
    split at returns
    · split at returns
      · cases returns
      · rename_i objects restores
        cases returns
        exact .pop objects opened restores
    · cases returns
  case h_17 => cases returns

end Inversion

section Invariant

variable {B X : Type} {skipUndoHistoryCheck : Bool}
  {node after : SessionNode B X} {call : Call B X}

structure SameCounts (left right : ChainState B X) : Prop where
  head : left.headBlockNum = right.headBlockNum
  irreversible :
    left.lastIrreversibleBlockNum = right.lastIrreversibleBlockNum

/-- The snapshots of the open sessions lead from `base` to the present state:
only a counted block has changed the counts. -/
def Framed (base : ChainState B X) :
    List SessionKind → List (ChainState B X) → ChainState B X → Prop
  | [], [], current => SameCounts current base
  | kind :: outer, snapshot :: snapshots, current =>
      (if kind = .block true then
        outer = [] ∧
        current.headBlockNum = base.headBlockNum + 1 ∧
        base.lastIrreversibleBlockNum ≤ current.lastIrreversibleBlockNum
      else
        SameCounts current snapshot) ∧
      Framed base outer snapshots snapshot
  | _, _, _ => False

/-- Each snapshot of a committed block is one block below the next. -/
def Heights : ChainState B X → List (ChainState B X) → Prop
  | _, [] => True
  | state, last :: older =>
      last.headBlockNum + 1 = state.headBlockNum ∧ Heights last older

/-- The head has its number, and nothing that is counted is ahead of it. -/
structure CountsOk (state : ChainState B X) : Prop where
  numbered : state.headBlockId.num = state.headBlockNum
  irreversible : state.lastIrreversibleBlockNum ≤ state.headBlockNum
  confirmed :
    ∀ witness, state.lastConfirmedBlockNum witness ≤ state.headBlockNum

/-- The states of the open sessions are on the stack, below them those of the
reversible blocks, and there is room for a pending transaction. -/
structure HistoryOk (node : SessionNode B X) : Prop where
  counts :
    ∀ state ∈ node.base :: node.state :: node.objects.saved,
      CountsOk state
  active : node.activeSessions = node.opened.length
  stack :
    ∃ own below, node.objects.saved = own ++ below ∧
      Framed node.base node.opened own node.state ∧
      Heights node.base below ∧ reversible node.base ≤ below.length
  room :
    reversible node.base + inProgress node.opened < node.objects.limit

theorem SameCounts.reversible_eq {left right : ChainState B X}
    (same : SameCounts left right) : reversible left = reversible right := by
  rw [reversible, reversible, same.head, same.irreversible]

variable {opened : List SessionKind} {own : List (ChainState B X)}
  {kind : SessionKind} {block : Block B}

theorem Framed.length {base current : ChainState B X}
    (framed : Framed base opened own current) : own.length = opened.length := by
  induction opened generalizing own current with
  | nil =>
      cases own with
      | nil => rfl
      | cons snapshot snapshots => exact framed.elim
  | cons kind outer ih =>
      cases own with
      | nil => exact framed.elim
      | cons snapshot snapshots =>
          simp [ih framed.2]

/-- The invariant looks at the counts of the present state only. -/
theorem Framed.congr {base current current' : ChainState B X}
    (framed : Framed base opened own current)
    (same : SameCounts current' current) : Framed base opened own current' := by
  cases opened with
  | nil =>
      cases own with
      | nil =>
          exact
            ⟨same.head.trans framed.head,
              same.irreversible.trans framed.irreversible⟩
      | cons snapshot snapshots => exact framed.elim
  | cons kind outer =>
      cases own with
      | nil => exact framed.elim
      | cons snapshot snapshots =>
          refine ⟨?_, framed.2⟩
          have top := framed.1
          split at top
          · rw [if_pos ‹_›, same.head, same.irreversible]
            exact top
          · rw [if_neg ‹_›]
            exact
              ⟨same.head.trans top.head,
                same.irreversible.trans top.irreversible⟩

/-- What the present state counts, against the last committed block. -/
theorem Framed.reversible_le {base current : ChainState B X}
    (framed : Framed base opened own current) :
    reversible current ≤ reversible base + inProgress opened := by
  induction opened generalizing own current with
  | nil =>
      cases own with
      | nil =>
          have same : SameCounts current base := framed
          rw [same.reversible_eq]
          exact Nat.le_add_right _ _
      | cons snapshot snapshots => exact framed.elim
  | cons kind outer ih =>
      cases own with
      | nil => exact framed.elim
      | cons snapshot snapshots =>
          have rest := ih framed.2
          have top := framed.1
          split at top
          · rename_i isCounted
            obtain ⟨_, head, irreversible⟩ := top
            have one : inProgress (kind :: outer) = 1 := by
              simp [inProgress, isCounted]
            rw [one]
            simp only [reversible]
            omega
          · rename_i notCounted
            have same : inProgress (kind :: outer) = inProgress outer := by
              simp only [inProgress, List.mem_cons]
              congr 1
              simp [Ne.symm notCounted]
            rw [same, top.reversible_eq]
            exact rest

theorem Heights.take {state : ChainState B X} {saved : List (ChainState B X)}
    (heights : Heights state saved) (count : Nat) :
    Heights state (saved.take count) := by
  induction count generalizing state saved with
  | zero => simp [Heights]
  | succ count ih =>
      cases saved with
      | nil => simp [Heights]
      | cons last older =>
          exact ⟨heights.1, ih heights.2⟩

theorem Heights.congr {state state' : ChainState B X}
    {saved : List (ChainState B X)} (heights : Heights state saved)
    (same : SameCounts state state') : Heights state' saved := by
  cases saved with
  | nil => trivial
  | cons last older => exact ⟨heights.1.trans same.head, heights.2⟩

theorem inProgress_start (notCounted : kind ≠ .block true) :
    inProgress (kind :: opened) = inProgress opened := by
  simp only [inProgress, List.mem_cons]
  congr 1
  simp [Ne.symm notCounted]

theorem HistoryOk.start {kind : SessionKind} (ok : HistoryOk node)
    (notCounted : kind ≠ .block true)
    (fits : reversible node.base + node.activeSessions ≤ node.objects.limit) :
    HistoryOk (node.start kind) := by
  obtain ⟨own, below, saved, framed, heights, reaches⟩ := ok.stack
  have ownLength : own.length = node.activeSessions := by
    rw [framed.length, ok.active]
  refine
    { counts := ?_
      active := by simp [SessionNode.start, ok.active]
      stack :=
        ⟨node.state :: own,
          below.take (node.objects.limit - own.length), ?_, ?_,
          heights.take _, ?_⟩
      room := by
        have kept := ok.room
        simp only [SessionNode.start]
        rw [inProgress_start notCounted]
        exact kept }
  · intro state member
    apply ok.counts
    simp only [SessionNode.start, Snapshots.save, List.mem_cons]
      at member ⊢
    rcases member with isBase | isCurrent | isCurrent | isSaved
    · exact Or.inl isBase
    · exact Or.inr (Or.inl isCurrent)
    · exact Or.inr (Or.inl isCurrent)
    · exact Or.inr (Or.inr (List.mem_of_mem_take isSaved))
  · have cut :
        (own ++ below).take node.objects.limit =
          own ++ below.take (node.objects.limit - own.length) := by
      rw [List.take_append]
      congr 1
      exact List.take_of_length_le (by omega)
    simp only [SessionNode.start, Snapshots.save, saved, cut,
      List.cons_append]
  · refine ⟨?_, framed⟩
    rw [if_neg notCounted]
    exact ⟨rfl, rfl⟩
  · simp only [SessionNode.start, List.length_take]
    omega

theorem HistoryOk.counts_write {state : ChainState B X}
    (ok : HistoryOk node) (stateOk : CountsOk state) :
    ∀ other ∈ node.base :: state :: node.objects.saved,
      CountsOk other := by
  intro other member
  rcases List.mem_cons.mp member with isBase | rest
  · exact ok.counts other (by simp [isBase])
  · rcases List.mem_cons.mp rest with isState | isSaved
    · exact isState ▸ stateOk
    · exact ok.counts other (by simp [isSaved])

theorem HistoryOk.write (active : List WitnessId) (rest : X)
    (ok : HistoryOk node) :
    HistoryOk
      (node.write
        { node.state with activeWitnesses := active, rest := rest }) := by
  obtain ⟨own, below, saved, framed, reaches⟩ := ok.stack
  have stateOk : CountsOk node.state := ok.counts _ (by simp)
  exact
    { counts :=
        ok.counts_write
          ⟨stateOk.numbered, stateOk.irreversible, stateOk.confirmed⟩
      active := ok.active
      stack := ⟨own, below, saved, framed.congr ⟨rfl, rfl⟩, reaches⟩
      room := ok.room }

theorem HistoryOk.uncons {outer : List SessionKind}
    (ok : HistoryOk node) (opened : node.opened = kind :: outer) :
    ∃ snapshot own below,
      node.objects.saved = snapshot :: (own ++ below) ∧
      Framed node.base (kind :: outer) (snapshot :: own) node.state ∧
      Heights node.base below ∧ reversible node.base ≤ below.length := by
  obtain ⟨own, below, saved, framed, rest⟩ := ok.stack
  rw [opened] at framed
  cases own with
  | nil => exact framed.elim
  | cons snapshot own =>
      exact ⟨snapshot, own, below, by rw [saved]; rfl, framed, rest⟩

theorem inProgress_le_cons (kind : SessionKind) (outer : List SessionKind) :
    inProgress outer ≤ inProgress (kind :: outer) := by
  unfold inProgress
  split
  · rename_i inside
    rw [if_pos (List.mem_cons_of_mem kind inside)]
  · exact Nat.zero_le _

theorem HistoryOk.merge {kind : SessionKind} {outer : List SessionKind}
    (ok : HistoryOk node) (notCounted : kind ≠ .block true)
    (opened : node.opened = kind :: outer)
    (returns : node.merge outer = some after) : HistoryOk after := by
  obtain ⟨snapshot, own, below, saved, framed, rest⟩ := ok.uncons opened
  have top := framed.1
  rw [if_neg notCounted] at top
  have shape :
      after =
        { node with
          objects := node.objects.merge
          activeSessions := node.activeSessions - 1
          opened := outer } := by
    unfold SessionNode.merge at returns
    split at returns
    · cases returns
    · split at returns
      · exact (Option.some.inj returns).symm
      · cases returns
  subst shape
  exact
    { counts := by
        intro state member
        apply ok.counts
        simp only [Snapshots.merge, List.mem_cons] at member ⊢
        rcases member with isBase | isCurrent | isSaved
        · exact Or.inl isBase
        · exact Or.inr (Or.inl isCurrent)
        · exact Or.inr (Or.inr (List.mem_of_mem_tail isSaved))
      active := by simp [ok.active, opened]
      stack :=
        ⟨own, below, by simp [Snapshots.merge, saved],
          framed.2.congr top, rest⟩
      room := by
        have kept := ok.room
        rw [opened] at kept
        exact Nat.lt_of_le_of_lt
          (Nat.add_le_add_left (inProgress_le_cons kind outer) _) kept }

theorem HistoryOk.undo {outer : List SessionKind}
    (ok : HistoryOk node) (opened : node.opened = kind :: outer)
    (returns : node.undo outer = some after) : HistoryOk after := by
  obtain ⟨snapshot, own, below, saved, framed, rest⟩ := ok.uncons opened
  have shape :
      after =
        { node with
          objects :=
            { node.objects with
              current := snapshot
              saved := own ++ below }
          activeSessions := node.activeSessions - 1
          opened := outer } := by
    unfold SessionNode.undo at returns
    rw [Snapshots.restore_of_cons saved] at returns
    split at returns
    · cases returns
    · exact (Option.some.inj returns).symm
  subst shape
  exact
    { counts := by
        intro state member
        apply ok.counts
        rw [saved]
        simp only [List.mem_cons] at member ⊢
        rcases member with isBase | isSnapshot | isSaved
        · exact Or.inl isBase
        · exact Or.inr (Or.inr (Or.inl isSnapshot))
        · exact Or.inr (Or.inr (Or.inr isSaved))
      active := by simp [ok.active, opened]
      stack := ⟨own, below, rfl, framed.2, rest⟩
      room := by
        have kept := ok.room
        rw [opened] at kept
        exact Nat.lt_of_le_of_lt
          (Nat.add_le_add_left (inProgress_le_cons kind outer) _) kept }

/-- The parts of a state in which only one session, of a block, is open. -/
theorem HistoryOk.in_block {counted : Bool} (ok : HistoryOk node)
    (opened : node.opened = [.block counted]) :
    ∃ snapshot below,
      node.objects.saved = snapshot :: below ∧
      SameCounts snapshot node.base ∧
      (if counted then
        node.state.headBlockNum = node.base.headBlockNum + 1 ∧
        node.base.lastIrreversibleBlockNum ≤
          node.state.lastIrreversibleBlockNum
      else
        SameCounts node.state snapshot) ∧
      Heights node.base below ∧ reversible node.base ≤ below.length := by
  obtain ⟨snapshot, own, below, saved, framed, rest⟩ := ok.uncons opened
  cases own with
  | cons other own => exact framed.2.elim
  | nil =>
      refine ⟨snapshot, below, saved, framed.2, ?_, rest⟩
      have top := framed.1
      cases counted with
      | true =>
          rw [if_pos rfl] at top
          exact top.2
      | false =>
          rw [if_neg (by simp)] at top
          exact top

/-- The block becomes the head, and the size is set. -/
theorem HistoryOk.count {begun : ChainState B X}
    (ok : HistoryOk node) (opened : node.opened = [.block false])
    (begins :
      beginBlock (evaluated skipUndoHistoryCheck) block node.state =
        .ok begun) :
    HistoryOk
      { node with
        objects :=
          (node.objects.write begun).setLimit
            (begun.headBlockNum - begun.lastIrreversibleBlockNum + 1)
        opened := [.block true] } := by
  obtain ⟨snapshot, below, saved, base, counts, heights, reaches⟩ :=
    ok.in_block opened
  obtain ⟨previous, rest, rfl⟩ := beginBlock_eq_ok begins
  have stateOk : CountsOk node.state := ok.counts _ (by simp)
  have baseOk : CountsOk node.base := ok.counts _ (by simp)
  have numbered : block.num = node.state.headBlockNum + 1 := by
    rw [Block.num, ← previous, stateOk.numbered]
  have counts : SameCounts node.state snapshot := counts
  have head : node.state.headBlockNum = node.base.headBlockNum :=
    counts.head.trans base.head
  have irreversible :
      node.state.lastIrreversibleBlockNum =
        node.base.lastIrreversibleBlockNum :=
    counts.irreversible.trans base.irreversible
  refine
    { counts := ok.counts_write ?_
      active := by simp [ok.active, opened]
      stack := ⟨[snapshot], below, saved, ⟨?_, base⟩, heights, reaches⟩
      room := ?_ }
  · exact
      { numbered := rfl
        irreversible := by
          show node.state.lastIrreversibleBlockNum ≤ block.num
          have low := stateOk.irreversible
          omega
        confirmed := fun witness => by
          show node.state.lastConfirmedBlockNum witness ≤ block.num
          have low := stateOk.confirmed witness
          omega }
  · rw [if_pos rfl]
    refine ⟨rfl, ?_, ?_⟩
    · show block.num = _
      rw [numbered, head]
    · exact Nat.le_of_eq irreversible.symm
  · have low := baseOk.irreversible
    simp only [inProgress, List.mem_singleton, if_true, reversible,
      Snapshots.setLimit]
    omega

theorem finishBlock_counts {rules : Rules B X} {begun finished : ChainState B X}
    (finishes : finishBlock rules block begun = .ok finished)
    (low : block.num ≤ begun.headBlockNum) (ok : CountsOk begun) :
    CountsOk finished ∧
      finished.headBlockNum = begun.headBlockNum ∧
      begun.lastIrreversibleBlockNum ≤
        finished.lastIrreversibleBlockNum := by
  obtain ⟨active, rest, rfl⟩ := finishBlock_eq_ok finishes
  have confirmed :
      ∀ witness,
        (updateSigningWitness block begun).lastConfirmedBlockNum
          witness ≤ begun.headBlockNum := by
    intro witness
    simp only [updateSigningWitness]
    split
    · exact low
    · exact ok.confirmed witness
  have candidate := irreversibleCandidate_le confirmed
  unfold updateLastIrreversibleBlock
  split
  · rename_i higher
    exact
      ⟨⟨ok.numbered, candidate, confirmed⟩, rfl, Nat.le_of_lt higher⟩
  · exact
      ⟨⟨ok.numbered, ok.irreversible, confirmed⟩, rfl, Nat.le_refl _⟩

theorem HistoryOk.confirm {finished : ChainState B X}
    (ok : HistoryOk node) (opened : node.opened = [.block true])
    (isHead : block.id = node.state.headBlockId)
    (finishes :
      finishBlock (evaluated skipUndoHistoryCheck) block node.state =
        .ok finished) : HistoryOk (node.write finished) := by
  obtain ⟨snapshot, below, saved, base, counts, heights, reaches⟩ :=
    ok.in_block opened
  obtain ⟨head, irreversible⟩ := counts
  have stateOk : CountsOk node.state := ok.counts _ (by simp)
  have number : block.num = node.state.headBlockNum := by
    rw [← block.id_num, isHead, stateOk.numbered]
  obtain ⟨finishedOk, sameHead, moves⟩ :=
    finishBlock_counts finishes (Nat.le_of_eq number) stateOk
  refine
    { counts := ok.counts_write finishedOk
      active := ok.active
      stack := ⟨[snapshot], below, saved, ?_, heights, reaches⟩
      room := ok.room }
  simp only [SessionNode.write, opened]
  refine ⟨?_, base⟩
  rw [if_pos rfl]
  exact ⟨rfl, sameHead.trans head, Nat.le_trans irreversible moves⟩

theorem HistoryOk.commit (ok : HistoryOk node)
    (opened : node.opened = [.block true]) :
    HistoryOk
      { node with
        activeSessions := node.activeSessions - 1
        opened := []
        base := node.state } := by
  obtain ⟨snapshot, below, saved, base, counts, heights, reaches⟩ :=
    ok.in_block opened
  obtain ⟨head, irreversible⟩ := counts
  have room := ok.room
  simp only [opened, inProgress, List.mem_singleton, if_true] at room
  refine
    { counts := by
        intro state member
        apply ok.counts
        simp only [List.mem_cons] at member ⊢
        rcases member with isState | isState | isSaved
        · exact Or.inr (Or.inl isState)
        · exact Or.inr (Or.inl isState)
        · exact Or.inr (Or.inr isSaved)
      active := by simp [ok.active, opened]
      stack :=
        ⟨[], snapshot :: below, saved, ⟨rfl, rfl⟩,
          ⟨by rw [base.head, head], heights.congr ?_⟩, ?_⟩
      room := ?_ }
  · exact ⟨base.head.symm, base.irreversible.symm⟩
  · simp only [reversible, List.length_cons] at reaches ⊢
    omega
  · simp only [inProgress, List.not_mem_nil, if_false, reversible]
      at room ⊢
    omega

theorem HistoryOk.pop {objects : Snapshots (ChainState B X)}
    (ok : HistoryOk node) (opened : node.opened = [])
    (keeps : KeepsHistory node .popBlock)
    (restores : node.objects.restore = some objects) :
    HistoryOk { node with objects := objects, base := objects.current } := by
  obtain ⟨own, below, saved, framed, heights, reaches⟩ := ok.stack
  rw [opened] at framed
  cases own with
  | cons snapshot own => exact framed.elim
  | nil =>
      have same : SameCounts node.state node.base := framed
      rw [List.nil_append] at saved
      cases below with
      | nil =>
          rw [Snapshots.restore_of_nil saved] at restores
          cases restores
      | cons last older =>
          rw [Snapshots.restore_of_cons saved,
            Option.some.injEq] at restores
          subst restores
          obtain ⟨spare, room⟩ := keeps last older saved
          have active : node.activeSessions = 0 := by
            rw [ok.active, opened]
            rfl
          have head := heights.1
          simp only [SessionNode.committed, saved, active,
            List.length_cons, Nat.sub_zero, same.reversible_eq,
            same.irreversible] at spare
          refine
            { counts := by
                intro state member
                apply ok.counts
                rw [saved]
                simp only [List.mem_cons] at member ⊢
                rcases member with isLast | isLast | isSaved
                · exact Or.inr (Or.inr (Or.inl isLast))
                · exact Or.inr (Or.inr (Or.inl isLast))
                · exact Or.inr (Or.inr (Or.inr isSaved))
              active := ok.active
              stack :=
                ⟨[], older, rfl, by rw [opened]; exact ⟨rfl, rfl⟩,
                  heights.2, ?_⟩
              room := by
                simp only [opened, inProgress, List.not_mem_nil, if_false]
                exact room }
          simp only [reversible, List.length_cons] at spare reaches ⊢
          omega

theorem HistoryOk.perform (ok : HistoryOk node) (keeps : KeepsHistory node call)
    (returns : node.perform skipUndoHistoryCheck call = some after) :
    HistoryOk after := by
  cases perform_cases returns with
  | start kind notCounted few =>
      refine ok.start notCounted ?_
      rcases few with isProposal | few
      · subst isProposal
        exact keeps
      · have room := ok.room
        rw [ok.active]
        omega
  | write active rest => exact ok.write active rest
  | count block begun opened begins => exact ok.count opened begins
  | confirm block finished opened isHead finishes =>
      exact ok.confirm opened isHead finishes
  | merge kind outer after notCounted opened merges =>
      exact ok.merge notCounted opened merges
  | undo kind outer after opened undoes => exact ok.undo opened undoes
  | commit opened => exact ok.commit opened
  | pop objects opened restores => exact ok.pop opened keeps restores

/-- No session is open, no block is reversible, and the stack is empty. -/
structure Started (node : SessionNode B X) : Prop where
  opened : node.opened = []
  active : node.activeSessions = 0
  base : node.base = node.state
  counts : CountsOk node.state
  irreversible : reversible node.state = 0
  saved : node.objects.saved = []
  limit : 0 < node.objects.limit

theorem Started.historyOk (started : Started node) : HistoryOk node :=
  { counts := by
      rw [started.saved, started.base]
      simpa using started.counts
    active := by rw [started.opened, started.active]; rfl
    stack :=
      ⟨[], [], started.saved, by rw [started.opened, started.base]; exact
        ⟨rfl, rfl⟩, trivial, by
        rw [started.base, started.irreversible]; exact Nat.le_refl _⟩
    room := by
      rw [started.base, started.irreversible, started.opened]
      exact started.limit }

theorem SessionRun.historyOk {origin : SessionNode B X}
    (run : SessionRun skipUndoHistoryCheck KeepsHistory origin node)
    (ok : HistoryOk origin) : HistoryOk node := by
  induction run with
  | refl => exact ok
  | call call _ keeps returns ih =>
      exact ih.perform keeps returns

end Invariant

/-- The database after `init_genesis`. -/
def genesisNode : SessionNode Bool Unit where
  objects :=
    { current :=
        { genesis.state with activeWitnesses := [0, 1, 2] }
      saved := []
      limit := 10 }
  activeSessions := 0
  opened := []
  base := { genesis.state with activeWitnesses := [0, 1, 2] }

theorem genesisNode_started : Started genesisNode :=
  { opened := rfl
    active := rfl
    base := rfl
    counts := ⟨rfl, Nat.le_refl _, fun _ => Nat.le_refl _⟩
    irreversible := rfl
    saved := rfl
    limit := by decide }

/-- Make calls one after the other. -/
def performAll (calls : List (Call Bool Unit))
    (node : SessionNode Bool Unit) : Option (SessionNode Bool Unit) :=
  calls.foldl
    (fun node call => node.bind (SessionNode.perform false call))
    (some node)

theorem sessionRun_performAll
    {guard : SessionNode Bool Unit → Call Bool Unit → Prop}
    {calls : List (Call Bool Unit)} {origin node : SessionNode Bool Unit}
    (meets : ∀ call ∈ calls, ∀ before, guard before call)
    (returns : performAll calls origin = some node) :
    SessionRun false guard origin node := by
  induction calls using List.reverseRecOn generalizing node with
  | nil =>
      cases returns
      exact .refl
  | append_singleton calls call ih =>
      simp only [performAll, List.foldl_append, List.foldl_cons,
        List.foldl_nil, Option.bind_eq_some_iff] at returns
      obtain ⟨before, earlier, last⟩ := returns
      exact .call call
        (ih
          (fun other member => meets other (by simp [member])) earlier)
        (meets call (by simp) before) last

/-- Block `A1`, applied and committed. -/
def firstBlock : List (Call Bool Unit) :=
  [.startBlock, .updateGlobalDynamicData blockA1,
    .updateLastIrreversible blockA1, .commitBlock]

end GxbCore.Chain
