import Mathlib.Data.List.Basic

/-!
# Calls that return or throw

Code that runs inside an undo session leaves nothing behind when it throws, so a
call is an `Except`: a value, or the exception.  A returned sequence is taken
apart into the calls it is made of, and a loop keeps what each round keeps.
-/

namespace GxbCore

universe u v w

variable {ε : Type u} {α β : Type v} {σ : Type v} {ι : Type w}

/-- Throw unless the condition holds. -/
def require (condition : Prop) [Decidable condition] (error : ε) :
    Except ε PUnit.{v + 1} :=
  if condition then .ok ⟨⟩ else .error error

/-- The value, or the exception when there is none. -/
def orThrow (value : Option α) (error : ε) : Except ε α :=
  match value with
  | some found => .ok found
  | none => .error error

theorem bind_eq_ok {call : Except ε α} {next : α → Except ε β} {final : β} :
    (call >>= next) = .ok final ↔
      ∃ middle, call = .ok middle ∧ next middle = .ok final := by
  cases call with
  | ok middle => simp [bind, Except.bind]
  | error thrown => simp [bind, Except.bind]

theorem require_eq_ok
    {condition : Prop} [Decidable condition] {error : ε} {done : PUnit} :
    require condition error = .ok done ↔ condition := by
  by_cases holds : condition
  · simp [require, holds]
  · simp [require, holds]

theorem orThrow_eq_ok {value : Option α} {error : ε} {found : α} :
    orThrow value error = .ok found ↔ value = some found := by
  cases value with
  | none => simp [orThrow]
  | some other => simp [orThrow]

/-- A loop of checks returns when each of them does. -/
theorem forM_eq_ok
    {check : ι → Except ε PUnit} {items : List ι} {done : PUnit} :
    items.forM check = .ok done ↔ ∀ item ∈ items, check item = .ok () := by
  induction items with
  | nil => simp [pure, Except.pure]
  | cons item rest ih =>
      rw [List.forM_eq_forM] at ih
      rw [List.forM_eq_forM, List.forM_cons, bind_eq_ok, List.forall_mem_cons,
        ← ih]
      constructor
      · rintro ⟨_, first, later⟩
        exact ⟨first, later⟩
      · rintro ⟨first, later⟩
        exact ⟨(), first, later⟩

/-- The loop rule: what one round keeps, the loop keeps. -/
theorem foldlM_keeps {body : σ → ι → Except ε σ} {keeps : σ → Prop}
    {items : List ι} {start final : σ}
    (round :
      ∀ item ∈ items, ∀ before after, keeps before →
        body before item = .ok after → keeps after)
    (holds : keeps start) (returns : items.foldlM body start = .ok final) :
    keeps final := by
  induction items generalizing start with
  | nil =>
      cases returns
      exact holds
  | cons item rest ih =>
      rw [List.foldlM_cons] at returns
      obtain ⟨middle, first, later⟩ := bind_eq_ok.mp returns
      refine ih ?_ ?_ later
      · intro other member
        exact round other (List.mem_cons_of_mem item member)
      · exact round item List.mem_cons_self start middle holds first

structure FailsOnly (expected : ε → Prop) (call : Except ε α) : Prop where
  thrown : ∀ error, call = .error error → expected error

section Failures

variable {expected : ε → Prop}

theorem failsOnly_ok (value : α) :
    FailsOnly expected (.ok value : Except ε α) := by
  constructor
  intro error isError
  cases isError

theorem failsOnly_error {fault : ε} (isExpected : expected fault) :
    FailsOnly expected (.error fault : Except ε α) := by
  constructor
  intro thrown isThrown
  cases isThrown
  exact isExpected

theorem failsOnly_bind {call : Except ε α} {next : α → Except ε β}
    (first : FailsOnly expected call)
    (later : ∀ middle, call = .ok middle → FailsOnly expected (next middle)) :
    FailsOnly expected (call >>= next) := by
  cases called : call with
  | ok middle => exact later middle called
  | error thrown =>
      constructor
      intro error isError
      cases isError
      exact first.thrown thrown called

theorem failsOnly_orThrow
    (value : Option α) {error : ε} (isExpected : expected error) :
    FailsOnly expected (orThrow value error) := by
  cases value with
  | some found => exact failsOnly_ok found
  | none =>
      constructor
      intro thrown isThrown
      cases isThrown
      exact isExpected

/-- A loop fails as its rounds do. -/
theorem failsOnly_foldlM {body : σ → ι → Except ε σ} {keeps : σ → Prop}
    {items : List ι} {start : σ}
    (fails :
      ∀ item ∈ items, ∀ before, keeps before →
        FailsOnly expected (body before item))
    (round :
      ∀ item ∈ items, ∀ before after, keeps before →
        body before item = .ok after → keeps after)
    (holds : keeps start) : FailsOnly expected (items.foldlM body start) := by
  induction items generalizing start with
  | nil => exact failsOnly_ok start
  | cons item rest ih =>
      rw [List.foldlM_cons]
      apply failsOnly_bind (fails item List.mem_cons_self start holds)
      intro middle first
      apply ih
      · intro other member
        exact fails other (List.mem_cons_of_mem item member)
      · intro other member
        exact round other (List.mem_cons_of_mem item member)
      · exact round item List.mem_cons_self start middle holds first

end Failures

end GxbCore
