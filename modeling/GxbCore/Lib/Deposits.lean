import Mathlib.Data.List.Nodup
import GxbCore.Lib.Rows

/-!
# Deposits

A deposit is opened under the next number, is held for some time, and is closed.
In every run a deposit is closed at most once, after it was opened, and what is
not closed is held.
-/

namespace GxbCore

inductive DepositEvent (δ : Type) where
  | opened (deposit : δ) (time : Nat)
  | closed (deposit : δ) (time : Nat)
  deriving DecidableEq, Repr

namespace Deposits

variable {δ : Type}

/-- The deposits that were opened, with the time. -/
def openings (trace : List (DepositEvent δ)) : List (δ × Nat) :=
  trace.filterMap fun event =>
    match event with
    | .opened deposit time => some (deposit, time)
    | .closed _ _ => none

/-- The deposits that were closed, with the time. -/
def closings (trace : List (DepositEvent δ)) : List (δ × Nat) :=
  trace.filterMap fun event =>
    match event with
    | .opened _ _ => none
    | .closed deposit time => some (deposit, time)

/-- The runs of a holder of deposits: the time, the next number, what is held
and what has happened, the latest first.  A deposit is opened when it is
admitted, and closed when it is released. -/
inductive Run (key : δ → Nat) (admits releases : δ → Nat → Prop) :
    Nat → Nat → List δ → List (DepositEvent δ) → Prop
  | start (now next : Nat) : Run key admits releases now next [] []
  | wait {now later next : Nat} {held : List δ}
      {trace : List (DepositEvent δ)}
      (run : Run key admits releases now next held trace)
      (passes : now ≤ later) :
      Run key admits releases later next held trace
  | opens {now next : Nat} {held : List δ} {trace : List (DepositEvent δ)}
      (run : Run key admits releases now next held trace) (deposit : δ)
      (isNext : key deposit = next) (admitted : admits deposit now) :
      Run key admits releases now (next + 1) (held ++ [deposit])
        (.opened deposit now :: trace)
  | closes {now next : Nat} {held : List δ} {trace : List (DepositEvent δ)}
      (run : Run key admits releases now next held trace) {wanted : Nat}
      {deposit : δ}
      (found : held.find? (fun other => key other == wanted) = some deposit)
      (released : releases deposit now) :
      Run key admits releases now next
        (held.eraseP fun other => key other == wanted)
        (.closed deposit now :: trace)

section Traces

variable {trace : List (DepositEvent δ)} {deposit : δ} {time : Nat}

@[simp]
theorem openings_opened :
    openings (.opened deposit time :: trace) =
      (deposit, time) :: openings trace :=
  rfl

@[simp]
theorem closings_closed :
    closings (.closed deposit time :: trace) =
      (deposit, time) :: closings trace :=
  rfl

theorem mem_openings :
    (deposit, time) ∈ openings trace ↔ .opened deposit time ∈ trace := by
  simp only [openings, List.mem_filterMap]
  constructor
  · rintro ⟨event, member, shown⟩
    cases event with
    | opened other moment =>
        simp only [Option.some.injEq, Prod.mk.injEq] at shown
        exact shown.1 ▸ shown.2 ▸ member
    | closed other moment => cases shown
  · exact fun member => ⟨_, member, rfl⟩

theorem mem_closings :
    (deposit, time) ∈ closings trace ↔ .closed deposit time ∈ trace := by
  simp only [closings, List.mem_filterMap]
  constructor
  · rintro ⟨event, member, shown⟩
    cases event with
    | opened other moment => cases shown
    | closed other moment =>
        simp only [Option.some.injEq, Prod.mk.injEq] at shown
        exact shown.1 ▸ shown.2 ▸ member
  · exact fun member => ⟨_, member, rfl⟩

end Traces

section Accounted

variable {key : δ → Nat} {admits releases : δ → Nat → Prop}
  {now next : Nat} {held : List δ} {trace : List (DepositEvent δ)}

/-- The books of the holder. -/
structure Accounted (key : δ → Nat) (admits releases : δ → Nat → Prop)
    (now next : Nat) (held : List δ) (trace : List (DepositEvent δ)) :
    Prop where
  numbered : ((openings trace).map (key ·.1)).Nodup
  earlier : ∀ o ∈ openings trace, key o.1 < next ∧ o.2 ≤ now
  admitted : ∀ o ∈ openings trace, admits o.1 o.2
  released : ∀ c ∈ closings trace, releases c.1 c.2
  heldUnique : (held.map key).Nodup
  heldOpened : ∀ d ∈ held, ∃ time, (d, time) ∈ openings trace
  closedUnique : ((closings trace).map (key ·.1)).Nodup
  closedOpened :
    ∀ c ∈ closings trace, ∃ time ≤ c.2, (c.1, time) ∈ openings trace
  closedGone : ∀ c ∈ closings trace, ∀ d ∈ held, key d ≠ key c.1
  kept :
    ∀ o ∈ openings trace,
      o.1 ∈ held ∨ ∃ time, (o.1, time) ∈ closings trace

namespace Accounted

theorem start (now next : Nat) :
    Accounted key admits releases now next [] [] := by
  constructor <;> simp [openings, closings]

theorem wait {later : Nat}
    (accounted : Accounted key admits releases now next held trace)
    (passes : now ≤ later) :
    Accounted key admits releases later next held trace :=
  { accounted with
    earlier := fun o member =>
      ⟨(accounted.earlier o member).1,
        Nat.le_trans (accounted.earlier o member).2 passes⟩ }

/-- What is held has a number that was given. -/
theorem held_lt (accounted : Accounted key admits releases now next held trace)
    {deposit : δ} (member : deposit ∈ held) : key deposit < next := by
  obtain ⟨time, opened⟩ := accounted.heldOpened deposit member
  exact (accounted.earlier _ opened).1

theorem opens (accounted : Accounted key admits releases now next held trace)
    {deposit : δ} (isNext : key deposit = next)
    (admitted : admits deposit now) :
    Accounted key admits releases now (next + 1) (held ++ [deposit])
      (.opened deposit now :: trace) where
  numbered := by
    rw [openings_opened, List.map_cons, List.nodup_cons]
    refine ⟨?_, accounted.numbered⟩
    intro again
    obtain ⟨o, member, same⟩ := List.mem_map.mp again
    have less := (accounted.earlier o member).1
    rw [same, isNext] at less
    exact Nat.lt_irrefl next less
  earlier := by
    rw [openings_opened, List.forall_mem_cons]
    refine ⟨⟨isNext ▸ Nat.lt_succ_self _, Nat.le_refl now⟩, ?_⟩
    intro o member
    exact ⟨Nat.lt_succ_of_lt (accounted.earlier o member).1,
      (accounted.earlier o member).2⟩
  admitted := by
    rw [openings_opened, List.forall_mem_cons]
    exact ⟨admitted, accounted.admitted⟩
  released := accounted.released
  heldUnique := by
    refine nodup_map_concat accounted.heldUnique ?_
    intro other member same
    have less := accounted.held_lt member
    rw [same, isNext] at less
    exact Nat.lt_irrefl next less
  heldOpened := by
    refine forall_concat ?_ ⟨now, List.mem_cons_self⟩
    intro d member
    obtain ⟨time, opened⟩ := accounted.heldOpened d member
    exact ⟨time, List.mem_cons_of_mem _ opened⟩
  closedUnique := accounted.closedUnique
  closedOpened := by
    intro c member
    obtain ⟨time, before, opened⟩ := accounted.closedOpened c member
    exact ⟨time, before, List.mem_cons_of_mem _ opened⟩
  closedGone := by
    intro c member
    refine forall_concat (accounted.closedGone c member) ?_
    intro same
    obtain ⟨time, _, opened⟩ := accounted.closedOpened c member
    have less := (accounted.earlier _ opened).1
    rw [← same, isNext] at less
    exact Nat.lt_irrefl next less
  kept := by
    rw [openings_opened, List.forall_mem_cons]
    refine ⟨.inl (List.mem_append_right _ List.mem_cons_self), ?_⟩
    intro o member
    exact (accounted.kept o member).imp_left (List.mem_append_left _)

theorem closes (accounted : Accounted key admits releases now next held trace)
    {wanted : Nat} {deposit : δ}
    (found : held.find? (fun other => key other == wanted) = some deposit)
    (released : releases deposit now) :
    Accounted key admits releases now next
      (held.eraseP fun other => key other == wanted)
      (.closed deposit now :: trace) := by
  have member := List.mem_of_find?_eq_some found
  have isWanted : key deposit = wanted := by
    simpa using List.find?_some found
  obtain ⟨time, opened⟩ := accounted.heldOpened deposit member
  refine
    { numbered := accounted.numbered
      earlier := accounted.earlier
      admitted := accounted.admitted
      released := ?_
      heldUnique := nodup_map_eraseP accounted.heldUnique _
      heldOpened := forall_eraseP accounted.heldOpened
      closedUnique := ?_
      closedOpened := ?_
      closedGone := ?_
      kept := ?_ }
  · rw [closings_closed, List.forall_mem_cons]
    exact ⟨released, accounted.released⟩
  · rw [closings_closed, List.map_cons, List.nodup_cons]
    refine ⟨?_, accounted.closedUnique⟩
    intro again
    obtain ⟨c, wasClosed, same⟩ := List.mem_map.mp again
    exact accounted.closedGone c wasClosed deposit member same.symm
  · rw [closings_closed, List.forall_mem_cons]
    exact ⟨⟨time, (accounted.earlier _ opened).2, opened⟩,
      accounted.closedOpened⟩
  · rw [closings_closed, List.forall_mem_cons]
    refine ⟨?_, fun c wasClosed =>
      forall_eraseP (accounted.closedGone c wasClosed)⟩
    intro d left
    rw [isWanted]
    exact key_ne_of_mem_eraseP accounted.heldUnique left
  · intro o wasOpened
    rcases accounted.kept o wasOpened with stays | ⟨moment, wasClosed⟩
    · by_cases same : key o.1 = wanted
      · have isDeposit : o.1 = deposit :=
          List.inj_on_of_nodup_map accounted.heldUnique stays member
            (same.trans isWanted.symm)
        exact .inr ⟨now, isDeposit ▸ List.mem_cons_self⟩
      · exact .inl (mem_eraseP_of_key_ne stays same)
    · exact .inr ⟨moment, List.mem_cons_of_mem _ wasClosed⟩

end Accounted

theorem Run.accounted (run : Run key admits releases now next held trace) :
    Accounted key admits releases now next held trace := by
  induction run with
  | start now next => exact .start now next
  | wait _ passes ih =>
      exact ih.wait passes
  | opens _ deposit isNext admitted ih =>
      exact ih.opens isNext admitted
  | closes _ found released ih =>
      exact ih.closes found released

def timesClosed (key : δ → Nat) (trace : List (DepositEvent δ))
    (number : Nat) : Nat :=
  ((closings trace).map (key ·.1)).count number

/-- A deposit is held and was never closed, or it was closed exactly once and
is gone. -/
theorem Accounted.once
    (accounted : Accounted key admits releases now next held trace)
    {deposit : δ} {time : Nat} (opened : .opened deposit time ∈ trace) :
    (deposit ∈ held ∧ timesClosed key trace (key deposit) = 0) ∨
      ((∀ other ∈ held, key other ≠ key deposit) ∧
        timesClosed key trace (key deposit) = 1) := by
  rcases accounted.kept _ (mem_openings.mpr opened) with
    stays | ⟨moment, wasClosed⟩
  · refine .inl ⟨stays, List.count_eq_zero_of_not_mem ?_⟩
    intro again
    obtain ⟨c, member, same⟩ := List.mem_map.mp again
    exact accounted.closedGone c member deposit stays same.symm
  · refine .inr ⟨accounted.closedGone _ wasClosed, ?_⟩
    exact List.count_eq_one_of_mem accounted.closedUnique
      (List.mem_map.mpr ⟨_, wasClosed, rfl⟩)

/-- What is closed was opened under its conditions, not later. -/
theorem Accounted.term
    (accounted : Accounted key admits releases now next held trace)
    {deposit : δ} {time : Nat} (closed : .closed deposit time ∈ trace) :
    ∃ since, .opened deposit since ∈ trace ∧ since ≤ time ∧
      admits deposit since ∧ releases deposit time := by
  have member := mem_closings.mpr closed
  obtain ⟨since, before, opened⟩ := accounted.closedOpened _ member
  exact ⟨since, mem_openings.mp opened, before, accounted.admitted _ opened,
    accounted.released _ member⟩

end Accounted

end Deposits

end GxbCore
