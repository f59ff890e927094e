import Mathlib.Algebra.Order.BigOperators.Group.List
import Mathlib.Algebra.Order.Ring.Nat
import Mathlib.Logic.Function.Iterate
import GxbCore.Lib.Wire

/-!
# Inline actions between contracts

A contract that runs may send inline actions.  They are queued in its apply
context and dispatched when its run is over, each in a context of its own,
before the context that sent it goes on with its queue.  The stack of the
contexts is explicit here, and a step goes on with the context on top.
-/

namespace GxbCore.Contract.InlineCalls

structure ContractAsset where
  amount : Int
  assetId : Nat
  deriving DecidableEq

structure Action where
  sender : Nat
  contractId : Nat
  amount : ContractAsset
  methodName : Nat
  data : Bytes
  deriving DecidableEq

/-- `inter_contract_call_operation`, without its fee, which is zero. -/
structure InterContractCall where
  amount : Option ContractAsset
  contractId : Nat
  data : Bytes
  methodName : Nat
  senderContract : Nat
  deriving DecidableEq

/-- The action of `inter_contract_call_evaluator::do_apply` -/
def InterContractCall.action (op : InterContractCall) : Action where
  sender := op.senderContract
  contractId := op.contractId
  amount := op.amount.getD ⟨0, 0⟩
  methodName := op.methodName
  data := op.data

structure ActionDef where
  name : Nat
  payable : Bool

/-- What is read of the account of a contract. -/
structure ContractObject where
  code : Bytes
  actions : List ActionDef

/-- What a run of a contract does next: it sends inline data, returns or throws,
and has changed the database before. -/
inductive Event (Db : Type) where
  | sendInline (db : Db) (data : Bytes)
  | returns (db : Db)
  | throws (text : String)

/-- The contracts and what is around them.  `start` is what happens to an
operation before the code of its contract runs, and `run` is the event after so
many inline actions. -/
structure Contracts (Db : Type) where
  account : Db → Nat → Option ContractObject
  unpackAction : Bytes → Except String Action
  start : Db → Action → Except String Db
  run : Db → Action → Nat → Event Db

/-- The parameters of the chain and its time. -/
structure Environment where
  headBlockTime : Nat
  hardfork1016Time : Nat
  maxInterContractDepth : Nat
  maxInlineActionSize : Nat

/-- The condition that `check_inter_contract_depth` asserts. -/
def checkInterContractDepth (env : Environment) (count : Nat) : Bool :=
  decide (count ≤ env.maxInterContractDepth)

/-- No condition on the number of calls. -/
def unchecked (_ : Nat) : Bool :=
  true

/-- An apply context on the stack: in `exec_one`, after `sent` inline actions,
or in the loop of `exec` that dispatches the rest of the queue. -/
inductive Frame (Db : Type) where
  | execOne (run : Nat → Event Db) (receiver sent : Nat)
      (inlineOperations : List InterContractCall)
  | dispatch (inlineOperations : List InterContractCall)

/-- A `contract_call` on its way: `interContractCallingCount` of the transaction
context, the calls whose contracts have begun to run, and the contexts, the
inner ones first. -/
structure Machine (Db : Type) where
  db : Db
  interContractCallingCount : Nat
  executed : List InterContractCall
  frames : List (Frame Db)
  thrown : Option String

section Steps

variable {Db : Type} (env : Environment) (contracts : Contracts Db)
  (checkDepth : Nat → Bool)

/-- `send_inline`, up to the queue. -/
def sendInline (db : Db) (receiver count : Nat) (data : Bytes) :
    Except String InterContractCall := do
  require (env.headBlockTime > env.hardfork1016Time)
    "cross-contract calling can not serve before timestamp:${t}"
  require (data.length ≤ env.maxInlineActionSize)
    "inline action too big, max size=${s} bytes"
  require (checkDepth count = true)
    "max cross contract calling can not exceed ${m}"
  let act ← contracts.unpackAction data
  require (act.sender = receiver)
    "the sender must be current contract"
  require (act.amount.amount ≥ 0) "action amount must >= 0"
  let contractObj ←
    orThrow (contracts.account db act.contractId) "unable to find object"
  require (contractObj.code.length > 0)
    "inline action's code account ${account} does not exist"
  let actDef ←
    orThrow
      (contractObj.actions.find? fun actDef => actDef.name == act.methodName)
      "method_name ${m} not found in abi"
  require (act.amount.amount > 0 → actDef.payable = true)
    "method_name ${m} not payable"
  return {
    amount := if act.amount.amount > 0 then some act.amount else none
    contractId := act.contractId
    data := act.data
    methodName := act.methodName
    senderContract := receiver }

/-- What the context on top does next. -/
def step (machine : Machine Db) : Machine Db :=
  match machine.thrown, machine.frames with
  | some _, _ => machine
  | none, [] => machine
  | none, .execOne run receiver sent queue :: frames =>
      match run sent with
      | .throws text => { machine with thrown := some text }
      | .returns db =>
          { machine with db := db, frames := .dispatch queue :: frames }
      | .sendInline db data =>
          match sendInline env contracts checkDepth db receiver
              machine.interContractCallingCount data with
          | .error text => { machine with thrown := some text }
          | .ok op =>
              { machine with
                db := db
                interContractCallingCount :=
                  machine.interContractCallingCount + 1
                frames :=
                  .execOne run receiver (sent + 1) (queue ++ [op]) ::
                    frames }
  | none, .dispatch [] :: frames => { machine with frames := frames }
  | none, .dispatch (op :: queue) :: frames =>
      match contracts.start machine.db op.action with
      | .error text => { machine with thrown := some text }
      | .ok db =>
          { machine with
            db := db
            executed := machine.executed ++ [op]
            frames :=
              .execOne (contracts.run db op.action) op.contractId 0 [] ::
                .dispatch queue :: frames }

/-- The `contract_call` when the code of its contract begins to run. -/
def contractCall (db : Db) (act : Action) : Machine Db where
  db := db
  interContractCallingCount := 0
  executed := []
  frames := [.execOne (contracts.run db act) act.contractId 0 []]
  thrown := none

/-- The first steps of a `contract_call`. -/
def runCall (db : Db) (act : Action) (steps : Nat) : Machine Db :=
  (step env contracts checkDepth)^[steps] (contractCall contracts db act)

end Steps

/-- The call has returned or thrown. -/
def Machine.Ended {Db : Type} (machine : Machine Db) : Prop :=
  machine.frames = [] ∨ machine.thrown.isSome

section Counting

variable {Db : Type} {env : Environment} {contracts : Contracts Db}
  {checkDepth : Nat → Bool} {machine : Machine Db}

/-- The check is one of the conditions of `send_inline`. -/
theorem sendInline_eq_ok_iff {db : Db} {receiver count : Nat} {data : Bytes}
    {op : InterContractCall} :
    sendInline env contracts checkDepth db receiver count data = .ok op ↔
      checkDepth count = true ∧
        sendInline env contracts unchecked db receiver count data =
          .ok op := by
  simp only [sendInline, bind_eq_ok, require_eq_ok, unchecked]
  constructor
  · rintro ⟨_, late, _, small, _, allowed, rest⟩
    exact ⟨allowed, ⟨⟩, late, ⟨⟩, small, ⟨⟩, trivial, rest⟩
  · rintro ⟨allowed, _, late, _, small, _, _, rest⟩
    exact ⟨⟨⟩, late, ⟨⟩, small, ⟨⟩, allowed, rest⟩

/-- The queued calls of a context. -/
def Frame.queued : Frame Db → Nat
  | .execOne _ _ _ queue => queue.length
  | .dispatch queue => queue.length

/-- The calls that are queued. -/
def Machine.pending (machine : Machine Db) : Nat :=
  (machine.frames.map Frame.queued).sum

/-- What each step does to a call that has not ended. -/
inductive Stepped (checkDepth : Nat → Bool) (machine : Machine Db) :
    Machine Db → Prop
  | throws {text : String} :
      Stepped checkDepth machine { machine with thrown := some text }
  | sends {db : Db} {run : Nat → Event Db} {receiver sent : Nat}
      {queue : List InterContractCall} {op : InterContractCall}
      {frames : List (Frame Db)}
      (isFrames : machine.frames = .execOne run receiver sent queue :: frames)
      (allowed : checkDepth machine.interContractCallingCount = true) :
      Stepped checkDepth machine
        { machine with
          db := db
          interContractCallingCount := machine.interContractCallingCount + 1
          frames := .execOne run receiver (sent + 1) (queue ++ [op]) :: frames }
  | returns {db : Db} {run : Nat → Event Db} {receiver sent : Nat}
      {queue : List InterContractCall} {frames : List (Frame Db)}
      (isFrames : machine.frames = .execOne run receiver sent queue :: frames) :
      Stepped checkDepth machine
        { machine with db := db, frames := .dispatch queue :: frames }
  | leaves {frames : List (Frame Db)}
      (isFrames : machine.frames = .dispatch [] :: frames) :
      Stepped checkDepth machine { machine with frames := frames }
  | dispatches {db : Db} {run : Nat → Event Db} {op : InterContractCall}
      {queue : List InterContractCall} {frames : List (Frame Db)}
      (isFrames : machine.frames = .dispatch (op :: queue) :: frames) :
      Stepped checkDepth machine
        { machine with
          db := db
          executed := machine.executed ++ [op]
          frames :=
            .execOne run op.contractId 0 [] :: .dispatch queue :: frames }

theorem step_of_ended (ended : machine.Ended) :
    step env contracts checkDepth machine = machine := by
  rw [step]
  rcases ended with none | thrown
  · rw [none]
    cases machine.thrown with
    | none => rfl
    | some text => rfl
  · obtain ⟨text, isThrown⟩ := Option.isSome_iff_exists.mp thrown
    rw [isThrown]

theorem step_cases (goesOn : ¬ machine.Ended) :
    Stepped checkDepth machine
      (step env contracts checkDepth machine) := by
  obtain ⟨db, count, executed, frames, thrown⟩ := machine
  cases thrown with
  | some text => exact absurd (.inr rfl) goesOn
  | none =>
      cases frames with
      | nil => exact absurd (.inl rfl) goesOn
      | cons frame frames =>
          cases frame with
          | execOne run receiver sent queue =>
              simp only [step]
              split
              · exact .throws
              · exact .returns rfl
              · split
                · exact .throws
                · next sends =>
                    exact .sends rfl (sendInline_eq_ok_iff.mp sends).1
          | dispatch queue =>
              cases queue with
              | nil => exact .leaves rfl
              | cons op queue =>
                  simp only [step]
                  split
                  · exact .throws
                  · exact .dispatches rfl

/-- The calls that were counted have begun or are queued. -/
def Machine.Counted (machine : Machine Db) : Prop :=
  machine.executed.length + machine.pending =
    machine.interContractCallingCount

variable {after : Machine Db}

theorem Stepped.counted (counted : machine.Counted)
    (stepped : Stepped checkDepth machine after) : after.Counted := by
  unfold Machine.Counted Machine.pending at counted ⊢
  cases stepped with
  | throws => exact counted
  | sends isFrames _ =>
      rw [isFrames] at counted
      simp only [List.map_cons, List.sum_cons, Frame.queued,
        List.length_append, List.length_singleton] at counted ⊢
      omega
  | returns isFrames =>
      rw [isFrames] at counted
      exact counted
  | leaves isFrames =>
      rw [isFrames] at counted
      simpa [Frame.queued] using counted
  | dispatches isFrames =>
      rw [isFrames] at counted
      simp only [List.map_cons, List.sum_cons, Frame.queued,
        List.length_append, List.length_cons, List.length_nil] at counted ⊢
      omega

theorem Stepped.count_cases (stepped : Stepped checkDepth machine after) :
    after.interContractCallingCount = machine.interContractCallingCount ∨
      (checkDepth machine.interContractCallingCount = true ∧
        after.interContractCallingCount =
          machine.interContractCallingCount + 1) := by
  cases stepped with
  | throws => exact .inl rfl
  | sends _ allowed => exact .inr ⟨allowed, rfl⟩
  | returns => exact .inl rfl
  | leaves => exact .inl rfl
  | dispatches => exact .inl rfl

theorem runCall_keeps {keeps : Machine Db → Prop} {db : Db} {act : Action}
    (start : keeps (contractCall contracts db act))
    (stepKeeps :
      ∀ before after, keeps before → Stepped checkDepth before after →
        keeps after)
    (steps : Nat) : keeps (runCall env contracts checkDepth db act steps) := by
  induction steps with
  | zero => exact start
  | succ steps ih =>
      rw [runCall, Function.iterate_succ_apply']
      by_cases ended :
          (runCall env contracts checkDepth db act steps).Ended
      · rw [runCall] at ended ih
        rw [step_of_ended ended]
        exact ih
      · exact stepKeeps _ _ ih (step_cases ended)

theorem runCall_counted (db : Db) (act : Action) (steps : Nat) :
    (runCall env contracts checkDepth db act steps).Counted :=
  runCall_keeps (by rfl) (fun _ _ counted stepped => stepped.counted counted)
    steps

/-- The counter is at most one more than the maximum. -/
theorem count_le (db : Db) (act : Action) (steps : Nat) :
    (runCall env contracts (checkInterContractDepth env) db act
        steps).interContractCallingCount ≤ env.maxInterContractDepth + 1 := by
  refine @runCall_keeps _ env contracts _
    (fun machine => machine.interContractCallingCount ≤
      env.maxInterContractDepth + 1) db act (Nat.zero_le _) ?_ steps
  intro before after bound stepped
  rcases stepped.count_cases with same | ⟨allowed, more⟩
  · rw [same]
    exact bound
  · rw [more]
    exact Nat.succ_le_succ (of_decide_eq_true allowed)

/-- At most one call more than the maximum is executed. -/
theorem executed_le (db : Db) (act : Action) (steps : Nat) :
    (runCall env contracts (checkInterContractDepth env) db act
        steps).executed.length ≤ env.maxInterContractDepth + 1 := by
  have counted := @runCall_counted _ env contracts
    (checkInterContractDepth env) db act steps
  have bound := @count_le _ env contracts db act steps
  unfold Machine.Counted at counted
  omega

/-- The steps that a context still takes, without those of its queue. -/
def Frame.weight : Frame Db → Nat
  | .execOne _ _ _ _ => 2
  | .dispatch _ => 1

/-- A bound of the steps that are left: four for each call that can still be
counted, three for each call that is queued. -/
def Machine.stepsLeft (most : Nat) (machine : Machine Db) : Nat :=
  4 * (most - machine.interContractCallingCount) + 3 * machine.pending +
    (machine.frames.map Frame.weight).sum

theorem Stepped.stepsLeft_lt {most : Nat}
    (room :
      checkDepth machine.interContractCallingCount = true →
        machine.interContractCallingCount < most)
    (stepped : Stepped checkDepth machine after) :
    after.thrown.isSome ∨ after.stepsLeft most < machine.stepsLeft most := by
  unfold Machine.stepsLeft Machine.pending
  cases stepped with
  | throws => exact .inl rfl
  | sends isFrames allowed =>
      have more := room allowed
      rw [isFrames]
      simp only [List.map_cons, List.sum_cons, Frame.queued, Frame.weight,
        List.length_append, List.length_singleton]
      omega
  | returns isFrames =>
      rw [isFrames]
      simp only [List.map_cons, List.sum_cons, Frame.queued, Frame.weight]
      omega
  | leaves isFrames =>
      rw [isFrames]
      simp only [List.map_cons, List.sum_cons, Frame.queued, Frame.weight,
        List.length_nil]
      omega
  | dispatches isFrames =>
      rw [isFrames]
      simp only [List.map_cons, List.sum_cons, Frame.queued, Frame.weight,
        List.length_cons, List.length_nil]
      omega

theorem exists_ended (most : Nat)
    (room : ∀ count, checkDepth count = true → count < most)
    (machine : Machine Db) :
    ∃ steps, ((step env contracts checkDepth)^[steps] machine).Ended := by
  induction bound : machine.stepsLeft most using Nat.strongRecOn
      generalizing machine with
  | ind left ih =>
      by_cases ended : machine.Ended
      · exact ⟨0, ended⟩
      · rcases (@step_cases _ env contracts checkDepth machine
            ended).stepsLeft_lt (room _) with thrown | less
        · exact ⟨1, .inr thrown⟩
        · obtain ⟨steps, ends⟩ :=
            ih _ (bound ▸ less) _ rfl
          exact ⟨steps + 1, ends⟩

/-- The same state, up to the text of the exception. -/
structure Same (machine other : Machine Db) : Prop where
  db : machine.db = other.db
  count :
    machine.interContractCallingCount = other.interContractCallingCount
  executed : machine.executed = other.executed
  frames : machine.frames = other.frames
  thrown : machine.thrown.isSome = other.thrown.isSome

/-- The check makes no difference to a step, or it throws. -/
theorem step_same {machine other : Machine Db} (same : Same machine other) :
    Same (step env contracts (checkInterContractDepth env) machine)
        (step env contracts unchecked other) ∨
      ((step env contracts (checkInterContractDepth env)
          machine).thrown.isSome ∧
        (step env contracts (checkInterContractDepth env) machine).executed =
          other.executed ∧
        env.maxInterContractDepth + 1 <
          (step env contracts unchecked other).interContractCallingCount) := by
  obtain ⟨db, count, executed, frames, thrown⟩ := machine
  obtain ⟨db', count', executed', frames', thrown'⟩ := other
  obtain ⟨sameDb, sameCount, sameExecuted, sameFrames, sameThrown⟩ := same
  dsimp only at sameDb sameCount sameExecuted sameFrames sameThrown
  subst sameDb sameCount sameExecuted sameFrames
  cases thrown' with
  | some text' =>
      obtain ⟨text, rfl⟩ := Option.isSome_iff_exists.mp sameThrown
      exact .inl ⟨rfl, rfl, rfl, rfl, rfl⟩
  | none =>
      obtain rfl : thrown = none := by simpa using sameThrown
      cases frames with
      | nil => exact .inl ⟨rfl, rfl, rfl, rfl, rfl⟩
      | cons frame frames =>
          cases frame with
          | dispatch queue =>
              cases queue with
              | nil => exact .inl ⟨rfl, rfl, rfl, rfl, rfl⟩
              | cons op queue =>
                  simp only [step]
                  split
                  · exact .inl ⟨rfl, rfl, rfl, rfl, rfl⟩
                  · exact .inl ⟨rfl, rfl, rfl, rfl, rfl⟩
          | execOne run receiver sent queue =>
              simp only [step]
              cases run sent with
              | throws text => exact .inl ⟨rfl, rfl, rfl, rfl, rfl⟩
              | returns db => exact .inl ⟨rfl, rfl, rfl, rfl, rfl⟩
              | sendInline db data =>
                  simp only
                  cases checked :
                      sendInline env contracts (checkInterContractDepth env)
                        db receiver count data with
                  | ok op =>
                      rw [(sendInline_eq_ok_iff.mp checked).2]
                      exact .inl ⟨rfl, rfl, rfl, rfl, rfl⟩
                  | error text =>
                      cases sends :
                          sendInline env contracts unchecked db receiver count
                            data with
                      | error other => exact .inl ⟨rfl, rfl, rfl, rfl, rfl⟩
                      | ok op =>
                          refine .inr ⟨rfl, rfl, ?_⟩
                          by_contra low
                          have allowed :
                              checkInterContractDepth env count = true :=
                            decide_eq_true
                              (Nat.le_of_succ_le_succ (Nat.not_lt.mp low))
                          have accepted :=
                            sendInline_eq_ok_iff.mpr ⟨allowed, sends⟩
                          rw [checked] at accepted
                          cases accepted

variable (env contracts) in
/-- The run of the contracts without the check. -/
abbrev uncheckedRun (db : Db) (act : Action) (steps : Nat) : Machine Db :=
  runCall env contracts unchecked db act steps

variable (env contracts) in
abbrev checkedRun (db : Db) (act : Action) (steps : Nat) : Machine Db :=
  runCall env contracts (checkInterContractDepth env) db act steps

theorem runCall_succ (db : Db) (act : Action) (steps : Nat) :
    runCall env contracts checkDepth db act (steps + 1) =
      step env contracts checkDepth
        (runCall env contracts checkDepth db act steps) := by
  rw [runCall, Function.iterate_succ_apply']
  rfl

theorem step_count (machine : Machine Db) :
    machine.interContractCallingCount ≤
        (step env contracts checkDepth machine).interContractCallingCount ∧
      (step env contracts checkDepth machine).interContractCallingCount ≤
        machine.interContractCallingCount + 1 := by
  by_cases ended : machine.Ended
  · rw [step_of_ended ended]
    omega
  · have cases := (@step_cases _ env contracts checkDepth machine
      ended).count_cases
    omega

/-- Up to one call more than the maximum both runs are the same; after that
the run with the check has thrown. -/
theorem runs_same (db : Db) (act : Action) (steps : Nat) :
    ((uncheckedRun env contracts db act steps).interContractCallingCount ≤
          env.maxInterContractDepth + 1 ∧
        Same (checkedRun env contracts db act steps)
          (uncheckedRun env contracts db act steps)) ∨
      (env.maxInterContractDepth + 1 <
          (uncheckedRun env contracts db act
            steps).interContractCallingCount ∧
        (checkedRun env contracts db act steps).thrown.isSome ∧
        ∃ before,
          (uncheckedRun env contracts db act
              before).interContractCallingCount ≤
            env.maxInterContractDepth + 1 ∧
          (checkedRun env contracts db act steps).executed =
            (uncheckedRun env contracts db act before).executed) := by
  induction steps with
  | zero => exact .inl ⟨Nat.zero_le _, rfl, rfl, rfl, rfl, rfl⟩
  | succ steps ih =>
      rw [checkedRun, uncheckedRun, runCall_succ, runCall_succ]
      have grows :=
        (@step_count _ env contracts unchecked
          (uncheckedRun env contracts db act steps)).1
      rcases ih with
        ⟨low, same⟩ | ⟨high, thrown, before, lowBefore, executed⟩
      · rcases step_same same with sameNext | ⟨thrown, executed, high⟩
        · by_cases high :
              env.maxInterContractDepth + 1 <
                (step env contracts unchecked
                  (uncheckedRun env contracts db act
                    steps)).interContractCallingCount
          · -- a call that is counted passed the check
            have bound := @count_le _ env contracts db act (steps + 1)
            rw [runCall_succ, sameNext.count] at bound
            exact absurd high (Nat.not_lt.mpr bound)
          · exact .inl ⟨Nat.not_lt.mp high, sameNext⟩
        · exact .inr ⟨high, thrown, steps, low, executed⟩
      · rw [step_of_ended (.inr thrown)]
        exact .inr ⟨Nat.lt_of_lt_of_le high grows, thrown, before, lowBefore,
          executed⟩

end Counting

def defaultEnvironment : Environment where
  headBlockTime := 1
  hardfork1016Time := 0
  maxInterContractDepth := 3
  maxInlineActionSize := 1024 * 64

/-- The first contract sends four actions to the second, which does nothing. -/
def fourActions : Contracts Unit where
  account _ _ := some { code := [0], actions := [⟨0, false⟩] }
  unpackAction data := .ok
    { sender := 1, contractId := 2, amount := ⟨0, 0⟩, methodName := 0,
      data := data }
  start db _ := .ok db
  run db act sent :=
    if act.contractId = 1 ∧ sent < 4 then .sendInline db [] else .returns db

end GxbCore.Contract.InlineCalls
