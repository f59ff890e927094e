import Mathlib.Data.List.Basic

/-!
# Calls that may throw after changing the state

A call of an imperative program either returns or throws, and in both cases
leaves a state behind.  `Outcome` keeps that state on both branches, so that a
caller which catches the exception goes on from what the callee left, not from
the state before the call.

`forEach` is the loop that runs a body over a list and stops at the first
exception.
-/

namespace GxbCore

universe u v w

/-- What a call leaves: a state after a normal return, or an exception and the
state at the moment it was thrown. -/
inductive Outcome (ε : Type u) (σ : Type v) where
  | ok (state : σ)
  | throw (error : ε) (state : σ)
  deriving DecidableEq, Repr

namespace Outcome

variable {ε : Type u} {σ : Type v} {α : Type w}

/-- Sequencing: go on from the state of a normal return. -/
def bind (first : Outcome ε σ) (next : σ → Outcome ε σ) : Outcome ε σ :=
  match first with
  | ok state => next state
  | throw error state => throw error state

/-- The state left behind, by a return or by an exception. -/
def state : Outcome ε σ → σ
  | ok left => left
  | throw _ left => left

/-- Did the call return normally? -/
def returned : Outcome ε σ → Bool
  | ok _ => true
  | throw _ _ => false

@[simp]
theorem bind_ok (start : σ) (next : σ → Outcome ε σ) :
    (ok start : Outcome ε σ).bind next = next start :=
  rfl

@[simp]
theorem bind_throw (error : ε) (start : σ) (next : σ → Outcome ε σ) :
    (throw error start : Outcome ε σ).bind next = throw error start :=
  rfl

theorem bind_assoc (first : Outcome ε σ) (next last : σ → Outcome ε σ) :
    (first.bind next).bind last =
      first.bind fun state => (next state).bind last := by
  cases first with
  | ok state => rfl
  | throw error state => rfl

@[simp]
theorem state_ok (left : σ) : (ok left : Outcome ε σ).state = left :=
  rfl

@[simp]
theorem state_throw (error : ε) (left : σ) :
    (throw error left : Outcome ε σ).state = left :=
  rfl

@[simp]
theorem returned_ok (left : σ) : (ok left : Outcome ε σ).returned = true :=
  rfl

@[simp]
theorem returned_throw (error : ε) (left : σ) :
    (throw error left : Outcome ε σ).returned = false :=
  rfl

/-- A call that returned is the return of its state. -/
theorem eq_ok_of_returned {outcome : Outcome ε σ}
    (returns : outcome.returned = true) : outcome = ok outcome.state := by
  cases outcome with
  | ok left => rfl
  | throw error left => cases returns

/-- A sequence returns exactly when both of its calls do. -/
theorem bind_eq_ok {first : Outcome ε σ} {next : σ → Outcome ε σ} {final : σ} :
    first.bind next = ok final ↔
      ∃ middle, first = ok middle ∧ next middle = ok final := by
  cases first with
  | ok middle =>
      simp
  | throw error middle =>
      simp

/-- What the first call leaves, returning or throwing, and what the second makes
of it. -/
theorem bind_state_keeps {keeps : σ → Prop} {first : Outcome ε σ}
    {next : σ → Outcome ε σ} (holds : keeps first.state)
    (step :
      ∀ middle, first = ok middle → keeps middle →
        keeps (next middle).state) : keeps (first.bind next).state := by
  cases first with
  | ok middle => exact step middle rfl holds
  | throw error middle => exact holds

end Outcome

variable {ε : Type u} {σ : Type v} {α : Type w}

/-- Run `body` on every item in turn; an exception ends the loop. -/
def forEach (body : α → σ → Outcome ε σ) :
    List α → σ → Outcome ε σ
  | [], start => .ok start
  | item :: rest, start =>
      (body item start).bind (forEach body rest)

@[simp]
theorem forEach_nil (body : α → σ → Outcome ε σ) (start : σ) :
    forEach body [] start = .ok start :=
  rfl

@[simp]
theorem forEach_cons (body : α → σ → Outcome ε σ) (item : α) (rest : List α)
    (start : σ) :
    forEach body (item :: rest) start =
      (body item start).bind (forEach body rest) :=
  rfl

/-- The loop rule: what one round of the body keeps, returning or throwing, the
loop keeps. -/
theorem forEach_state_keeps {body : α → σ → Outcome ε σ} {keeps : σ → Prop}
    {items : List α} {start : σ}
    (round :
      ∀ item ∈ items, ∀ before, keeps before →
        keeps (body item before).state)
    (holds : keeps start) : keeps (forEach body items start).state := by
  induction items generalizing start with
  | nil => exact holds
  | cons item rest ih =>
      refine Outcome.bind_state_keeps
        (round item List.mem_cons_self start holds) ?_
      intro middle _ holdsMiddle
      exact ih
        (fun later member =>
          round later (List.mem_cons_of_mem item member))
        holdsMiddle

/-- A loop that returns has returned from every round. -/
theorem forEach_ok_all {body : α → σ → Outcome ε σ} {keeps : σ → Prop}
    {holdsOf : α → Prop} {items : List α} {start final : σ}
    (round :
      ∀ item ∈ items, ∀ before after, keeps before →
        body item before = .ok after → keeps after ∧ holdsOf item)
    (holds : keeps start) (returns : forEach body items start = .ok final) :
    keeps final ∧ ∀ item ∈ items, holdsOf item := by
  induction items generalizing start with
  | nil =>
      cases returns
      exact ⟨holds, by simp⟩
  | cons item rest ih =>
      obtain ⟨middle, first, later⟩ := Outcome.bind_eq_ok.mp returns
      obtain ⟨holdsMiddle, isFirst⟩ :=
        round item List.mem_cons_self start middle holds first
      obtain ⟨holdsFinal, areLater⟩ :=
        ih
          (fun other member =>
            round other (List.mem_cons_of_mem item member))
          holdsMiddle later
      refine ⟨holdsFinal, ?_⟩
      intro other member
      rcases List.mem_cons.mp member with same | inRest
      · exact same ▸ isFirst
      · exact areLater other inRest

/-- A loop whose rounds all return returns. -/
theorem forEach_returns {body : α → σ → Outcome ε σ} {keeps : σ → Prop}
    {items : List α} {start : σ}
    (round :
      ∀ item ∈ items, ∀ before, keeps before →
        ∃ after, body item before = .ok after ∧ keeps after)
    (holds : keeps start) :
    ∃ final, forEach body items start = .ok final ∧ keeps final := by
  induction items generalizing start with
  | nil => exact ⟨start, rfl, holds⟩
  | cons item rest ih =>
      obtain ⟨middle, first, holdsMiddle⟩ :=
        round item List.mem_cons_self start holds
      obtain ⟨final, later, holdsFinal⟩ :=
        ih
          (fun other member =>
            round other (List.mem_cons_of_mem item member))
          holdsMiddle
      refine ⟨final, ?_, holdsFinal⟩
      rw [forEach_cons, first, Outcome.bind_ok, later]

/-- A loop over rounds that return is a fold. -/
theorem forEach_eq_foldl {body : α → σ → Outcome ε σ} {step : σ → α → σ}
    {keeps : σ → Prop} {items : List α} {start : σ}
    (round :
      ∀ item ∈ items, ∀ state, keeps state →
        body item state = .ok (step state item) ∧ keeps (step state item))
    (kept : keeps start) :
    forEach body items start = .ok (items.foldl step start) := by
  induction items generalizing start with
  | nil => rfl
  | cons item rest ih =>
      obtain ⟨returns, keptNext⟩ :=
        round item List.mem_cons_self start kept
      rw [forEach_cons, returns, Outcome.bind_ok, List.foldl_cons]
      exact ih
        (fun other member => round other (List.mem_cons_of_mem _ member))
        keptNext

/-- The same call, seen on another state. -/
def Outcome.map {τ : Type w} (view : σ → τ) : Outcome ε σ → Outcome ε τ
  | .ok left => .ok (view left)
  | .throw error left => .throw error (view left)

theorem Outcome.map_state {τ : Type w} (view : σ → τ) (outcome : Outcome ε σ) :
    (outcome.map view).state = view outcome.state := by
  cases outcome with
  | ok left => rfl
  | throw error left => rfl

theorem Outcome.map_bind {τ : Type w} {view : σ → τ} {first : Outcome ε σ}
    {next : σ → Outcome ε σ} {seenFirst : Outcome ε τ}
    {seenNext : τ → Outcome ε τ} (seen : first.map view = seenFirst)
    (seenLater : ∀ middle, (next middle).map view = seenNext (view middle)) :
    (first.bind next).map view = seenFirst.bind seenNext := by
  rw [← seen]
  cases first with
  | ok middle => exact seenLater middle
  | throw error middle => rfl

theorem forEach_map {τ : Type w} {β : Type u} {view : σ → τ}
    {body : β → σ → Outcome ε σ} {seenBody : β → τ → Outcome ε τ}
    (seen :
      ∀ item before, (body item before).map view =
        seenBody item (view before))
    (items : List β) (start : σ) :
    (forEach body items start).map view =
      forEach seenBody items (view start) := by
  induction items generalizing start with
  | nil => rfl
  | cons item rest ih =>
      exact Outcome.map_bind (seen item start) ih

/-- Both calls return, in related states, or both throw the same. -/
inductive Outcome.Related (related : σ → σ → Prop) :
    Outcome ε σ → Outcome ε σ → Prop
  | ok {left right : σ} (states : related left right) :
      Related related (.ok left) (.ok right)
  | throw (error : ε) (left right : σ) :
      Related related (.throw error left) (.throw error right)

variable {left right : Outcome ε σ}

theorem Outcome.Related.bind {before after : σ → σ → Prop}
    {leftNext rightNext : σ → Outcome ε σ} (first : Related before left right)
    (next :
      ∀ leftState rightState, before leftState rightState →
        Related after (leftNext leftState) (rightNext rightState)) :
    Related after (left.bind leftNext) (right.bind rightNext) := by
  cases first with
  | ok states => exact next _ _ states
  | throw error leftState rightState => exact .throw error leftState rightState

theorem Outcome.Related.mono {before after : σ → σ → Prop}
    (states : Related before left right)
    (weaker :
      ∀ leftState rightState, before leftState rightState →
        after leftState rightState) : Related after left right := by
  cases states with
  | ok states => exact .ok (weaker _ _ states)
  | throw error leftState rightState => exact .throw error leftState rightState

/-- What the left call is known to return. -/
theorem Outcome.Related.and_left {related : σ → σ → Prop} {holdsOf : σ → Prop}
    (states : Related related left right)
    (returns : ∀ state, left = .ok state → holdsOf state) :
    Related
      (fun leftState rightState =>
        related leftState rightState ∧ holdsOf leftState)
      left right := by
  cases states with
  | ok states => exact .ok ⟨states, returns _ rfl⟩
  | throw error leftState rightState => exact .throw error leftState rightState

/-- Two loops over the same items whose rounds keep the relation. -/
theorem forEach_related {body : α → σ → Outcome ε σ} {related : σ → σ → Prop}
    {items : List α} {left right : σ}
    (round :
      ∀ item ∈ items, ∀ leftState rightState,
        related leftState rightState →
          Outcome.Related related (body item leftState)
            (body item rightState))
    (start : related left right) :
    Outcome.Related related (forEach body items left)
      (forEach body items right) := by
  induction items generalizing left right with
  | nil => exact .ok start
  | cons item rest ih =>
      refine (round item List.mem_cons_self left right start).bind ?_
      intro leftState rightState states
      exact ih
        (fun other member =>
          round other (List.mem_cons_of_mem item member))
        states

end GxbCore
