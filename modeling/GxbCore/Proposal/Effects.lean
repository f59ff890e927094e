import GxbCore.Proposal.Proposals

/-!
# What an operation does to the proposals

An operation that is not an update adds one proposal, removes one, or leaves
them alone, whether it returns or throws.  No proposal contains an update: the
update asks for an authority of its own, even over no keys, and `proposal_create`
refuses operations that do.  So the execution of a proposal consists of such
steps, and what they keep, and the undo of them keeps, the execution keeps.
-/

namespace GxbCore.Proposal

open GxbCore.Protocol
open GxbCore.Ledger (Asset Time)

section Operations

variable {K X : Type}

def Operation.isUpdate : Operation K X → Bool
  | .proposalUpdate _ => true
  | _ => false

def Operation.deletes (id : ProposalId) : Operation K X → Bool
  | .proposalDelete o => o.proposal == id
  | _ => false

end Operations

section Required

variable {K X W : Type}

theorem getRequiredAuthorities_other {Op : Type} (requires : Op → Required K)
    (ops : List Op) :
    (getRequiredAuthorities requires ops).other =
      ops.flatMap fun op => (requires op).other := by
  have fromAny :
      ∀ required : Required K,
        (ops.foldl (fun required op => required.add (requires op))
          required).other =
          required.other ++ ops.flatMap fun op => (requires op).other := by
    induction ops with
    | nil => simp
    | cons op rest ih =>
        intro required
        rw [List.foldl_cons, ih]
        simp [Required.add]
  exact fromAny ⟨[], [], []⟩

theorem not_isUpdate_of_other [DecidableEq K] {rules : Rules K X W}
    {ops : List (Operation K X)}
    (nothing :
      (getRequiredAuthorities (Operation.requires rules) ops).other.length =
        0) : ∀ op ∈ ops, op.isUpdate = false := by
  rw [getRequiredAuthorities_other, List.length_eq_zero_iff,
    List.flatMap_eq_nil_iff] at nothing
  intro op member
  cases op with
  | proposalUpdate o => exact absurd (nothing _ member) (List.cons_ne_nil _ _)
  | proposalCreate => rfl
  | proposalDelete => rfl
  | other => rfl

end Required

section Effect

variable {K X W : Type}

def State.without (state : State K X W) (id : ProposalId) : State K X W :=
  { state with
    proposals := state.proposals.filter fun p => p.id ≠ id }.note (.removed id)

/-- What an operation that is not an update can do. -/
inductive Effect [DecidableEq K] (rules : Rules K X W) (op : Operation K X)
    (state : State K X W) : State K X W → Prop
  | world (world : W) : Effect rules op state { state with world := world }
  | created (world : W) (fee : Asset) (payer : AccountId)
      (proposedOps : List (Operation K X)) (expirationTime : Time)
      (reviewPeriodSeconds : Option UInt32)
      (isCreate :
        op = .proposalCreate fee payer proposedOps expirationTime
          reviewPeriodSeconds)
      (evaluated :
        evaluateCreate rules state proposedOps expirationTime
          reviewPeriodSeconds = .ok ()) :
      Effect rules op state
        { applyCreate rules (rules.committeeProposalReviewPeriod state.world)
            proposedOps expirationTime reviewPeriodSeconds state with
          world := world }
  | removed (world : W) (o : ProposalDeleteOperation)
      (p : ProposalObject K X) (isDelete : op = .proposalDelete o)
      (found : state.find o.proposal = some p) :
      Effect rules op state { state.without p.id with world := world }

/-- The two ways an evaluation ends without the use of a freed object. -/
def Ends (outcome : Outcome Fault (State K X W)) (state : State K X W) :
    Prop :=
  outcome = .ok state ∨ ∃ message, outcome = .throw (.exception message) state

theorem orRaise_cases {α : Type} (call : Except String α)
    (state : State K X W) (next : α → Outcome Fault (State K X W)) :
    (∃ message, orRaise call state next = .throw (.exception message) state) ∨
      ∃ value, call = .ok value ∧ orRaise call state next = next value := by
  cases call with
  | ok value => exact .inr ⟨value, rfl, rfl⟩
  | error message => exact .inl ⟨message, rfl⟩

/-- The frame of an evaluator ends before `do_apply`, or as `do_apply` does, or
after it. -/
theorem withFee_cases {α : Type} (rules : Rules K X W) (payer : AccountId)
    (fee : Asset) (doEvaluate : Except String α)
    (doApply : α → State K X W → Outcome Fault (State K X W))
    (state : State K X W) :
    (∃ message,
      withFee rules payer fee doEvaluate doApply state =
        .throw (.exception message) state) ∨
      ∃ value world, doEvaluate = .ok value ∧
        ((∃ error after,
          doApply value { state with world := world } = .throw error after ∧
            withFee rules payer fee doEvaluate doApply state =
              .throw error after) ∨
          ∃ applied after,
            doApply value { state with world := world } = .ok applied ∧
              (∃ later, after = { applied with world := later }) ∧
              Ends (withFee rules payer fee doEvaluate doApply state)
                after) := by
  unfold withFee
  rcases orRaise_cases
    (rules.prepareFee payer fee state.headBlockTime state.world) state _ with
    ⟨message, thrown⟩ | ⟨_, _, goes⟩
  · exact .inl ⟨message, thrown⟩
  rw [goes]
  rcases orRaise_cases doEvaluate state _ with
    ⟨message, thrown⟩ | ⟨value, evaluated, goes⟩
  · exact .inl ⟨message, thrown⟩
  rw [goes]
  rcases orRaise_cases
    (rules.payFee payer fee state.headBlockTime state.world) state _ with
    ⟨message, thrown⟩ | ⟨world, _, goes⟩
  · exact .inl ⟨message, thrown⟩
  rw [goes]
  refine .inr ⟨value, world, evaluated, ?_⟩
  cases applies : doApply value { state with world := world } with
  | throw error after => exact .inl ⟨error, after, rfl, rfl⟩
  | ok applied =>
      refine .inr ?_
      rw [Outcome.bind_ok]
      rcases orRaise_cases (rules.takeFee payer fee applied.world) applied _
        with ⟨message, thrown⟩ | ⟨taken, _, goes⟩
      · exact ⟨applied, applied, rfl, ⟨applied.world, rfl⟩,
          .inr ⟨message, thrown⟩⟩
      · exact ⟨applied, _, rfl, ⟨taken, rfl⟩, .inl goes⟩

variable {p : ProposalObject K X} {state : State K X W}

theorem holds_of_mem (member : p ∈ state.proposals) : state.holds p = true := by
  refine List.any_eq_true.mpr ⟨p, member, ?_⟩
  simp

theorem mem_of_find {id : ProposalId} (found : state.find id = some p) :
    p ∈ state.proposals ∧ p.id = id :=
  ⟨List.mem_of_find?_eq_some found, by simpa using List.find?_some found⟩

theorem evaluateDelete_eq_ok {o : ProposalDeleteOperation}
    (evaluated : evaluateDelete state o = .ok p) :
    state.find o.proposal = some p := by
  simp only [evaluateDelete, bind_eq_ok, orThrow_eq_ok] at evaluated
  obtain ⟨q, found, _, _, returns⟩ := evaluated
  cases returns
  exact found

theorem evaluate_effect [DecidableEq K] (rules : Rules K X W)
    (apply : Operation K X → State K X W → Outcome Fault (State K X W))
    {op : Operation K X} (notUpdate : op.isUpdate = false)
    (state : State K X W) :
    ∃ after, Effect rules op state after ∧
      Ends (evaluate rules apply op state) after := by
  cases op with
  | proposalUpdate o => exact absurd notUpdate (by simp [Operation.isUpdate])
  | other op =>
      rcases orRaise_cases (rules.apply op state.headBlockTime state.world)
        state (fun world => .ok { state with world := world }) with
        ⟨message, thrown⟩ | ⟨world, _, goes⟩
      · exact ⟨state, .world state.world, .inr ⟨message, thrown⟩⟩
      · exact ⟨_, .world world, .inl goes⟩
  | proposalCreate fee payer proposedOps expirationTime review =>
      rcases withFee_cases rules payer fee
        (evaluateCreate rules state proposedOps expirationTime review)
        (fun _ paid => .ok
          (applyCreate rules
            (rules.committeeProposalReviewPeriod state.world) proposedOps
            expirationTime review paid))
        state with
        ⟨message, thrown⟩ |
          ⟨_, world, evaluated, ⟨_, _, throws, _⟩ |
            ⟨applied, after, applies, ⟨later, same⟩, ends⟩⟩
      · exact ⟨state, .world state.world, .inr ⟨message, thrown⟩⟩
      · cases throws
      · cases applies
        rw [same] at ends
        exact ⟨_, .created later fee payer proposedOps expirationTime review
          rfl evaluated, ends⟩
  | proposalDelete o =>
      rcases withFee_cases rules o.feePayingAccount o.fee
        (evaluateDelete state o) (fun p paid => paid.remove p) state with
        ⟨message, thrown⟩ |
          ⟨p, world, evaluated, ⟨_, _, throws, _⟩ |
            ⟨applied, after, applies, ⟨later, same⟩, ends⟩⟩
      · exact ⟨state, .world state.world, .inr ⟨message, thrown⟩⟩
      · have found := evaluateDelete_eq_ok evaluated
        have held : ({ state with world := world } : State K X W).holds p :=
          holds_of_mem (mem_of_find found).1
        simp [State.remove, held] at throws
      · have found := evaluateDelete_eq_ok evaluated
        have held : ({ state with world := world } : State K X W).holds p :=
          holds_of_mem (mem_of_find found).1
        simp only [State.remove, held, if_true, Outcome.ok.injEq] at applies
        rw [same, ← applies] at ends
        exact ⟨_, .removed later o p rfl found, ends⟩

end Effect

end GxbCore.Proposal
