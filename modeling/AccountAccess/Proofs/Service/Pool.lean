import AccountAccess.Service.InProcess
import Mathlib.Logic.Function.Basic

/-!
# Procedures that take turns

Several procedures share their surroundings.  A *pool* holds what each of them has still to
do; in a turn one of them has its next call answered, or time passes.  A schedule says who
comes when, and a call is the least that it can separate: between two calls of one task any
number of calls of the others may be answered.

The calls are noted with the task that made them and the time they were made, so that a
statement can speak of the order in which things happened.

A schedule may name tasks that are over, and then nothing happens.  So every list of turns is a
schedule, and a statement about all of them needs no hypothesis about who is still under way.

## Main definitions and results

* `Made`: a call, who made it, and when.
* `Pool`, `Pool.turn`, `Pool.play`: procedures in shared surroundings, one turn, and a schedule.
* `turn_call_cases`: what a turn of a task can be.
* `tasks_turn_of_ne`: the turn of a task leaves the other tasks alone.
* `play_induction`: what every turn keeps, every schedule keeps.
* `clock_play`: time passes by as much as the turns of the schedule say.
-/

namespace AccountAccess

/-- Two tasks are told apart by numerals, which are read with this instance everywhere. -/
instance neZero_two : @NeZero Nat (@Zero.ofOfNat0 Nat (instOfNatNat 0)) 2 :=
  ⟨Nat.succ_ne_zero 1⟩

/-- A call takes no time. -/
theorem World.clock_answer (call : ServiceCall) (world : World) :
    (World.answer call world).2.clock = world.clock := by
  have hstrike : ∀ (w : World) (kind : CallKind), (w.strike kind).2.clock = w.clock := by
    intro w kind
    rw [World.strike]
    split
    · rfl
    · rfl
    · rfl
  cases call with
  | cache call =>
    have hclock := hstrike (world.noted (.cache call)) call.kind
    simp only [World.answer, World.answerCache]
    split
    · rename_i hstruck
      rwa [hstruck] at hclock
    · rename_i hstruck
      rw [hstruck] at hclock
      split
      · exact hclock
      · exact hclock
  | store call =>
    have hclock := hstrike (world.noted (.store call)) call.kind
    simp only [World.answer, World.answerStore]
    split
    · rename_i hstruck
      rwa [hstruck] at hclock
    · rename_i hstruck
      rw [hstruck] at hclock
      exact hclock
  | _ => rfl

/-! ## Pools -/

/-- A call, who made it, and when. -/
structure Made (ι : Type) where
  task : ι
  time : Nat
  call : ServiceCall

/-- What happens in a turn: the next call of a task is answered, or time passes. -/
inductive Turn (ι : Type) where
  | call (task : ι)
  | elapse (milliseconds : Nat)
  deriving DecidableEq, Repr

/-- How long a turn takes. -/
def Turn.duration {ι : Type} : Turn ι → Nat
  | call _ => 0
  | elapse milliseconds => milliseconds

/-- Procedures in shared surroundings. -/
structure Pool (ι α : Type) where
  world : World
  /-- What each task has still to do. -/
  tasks : ι → Procedure α
  /-- The calls so far, the last one first. -/
  made : List (Made ι) := []

namespace Pool

variable {ι α : Type} [DecidableEq ι]

/-- The pool after a turn.  A task that has ended stays as it is; a call that is not
answered ends its task. -/
def turn (pool : Pool ι α) : Turn ι → Pool ι α
  | .elapse milliseconds => { pool with world := pool.world.advance milliseconds }
  | .call i =>
    match pool.tasks i with
    | .ask call next =>
      match World.answer call pool.world with
      | (.finished answer, world) =>
        ⟨world, Function.update pool.tasks i (next answer),
          ⟨i, pool.world.clock, call⟩ :: pool.made⟩
      | (.aborted, world) =>
        ⟨world, Function.update pool.tasks i .abort, ⟨i, pool.world.clock, call⟩ :: pool.made⟩
    | _ => pool

/-- The pool after the turns of a schedule. -/
def play (pool : Pool ι α) (schedule : List (Turn ι)) : Pool ι α :=
  schedule.foldl turn pool

/-- How long the turns of a schedule take. -/
def duration : List (Turn ι) → Nat
  | [] => 0
  | turn :: schedule => turn.duration + duration schedule

variable {pool : Pool ι α} {i : ι}

/-! ## Turns -/

theorem turn_of_finished {call : ServiceCall} {next : call.Answer → Procedure α}
    {answer : call.Answer} {after : World} (htask : pool.tasks i = .ask call next)
    (hanswer : World.answer call pool.world = (.finished answer, after)) :
    pool.turn (.call i) = ⟨after, Function.update pool.tasks i (next answer),
      ⟨i, pool.world.clock, call⟩ :: pool.made⟩ := by
  simp only [turn, htask, hanswer]

theorem tasks_turn_of_finished {call : ServiceCall} {next : call.Answer → Procedure α}
    {answer : call.Answer} {after : World} (htask : pool.tasks i = .ask call next)
    (hanswer : World.answer call pool.world = (.finished answer, after)) :
    (pool.turn (.call i)).tasks i = next answer := by
  rw [turn_of_finished htask hanswer]
  exact Function.update_self i _ pool.tasks

/-- **A turn of a task.**  Its next call is made, and it goes on with an answer or is given
up; a task that has nothing left to do leaves the pool as it is. -/
theorem turn_call_cases (pool : Pool ι α) (i : ι) :
    ((∀ call next, pool.tasks i ≠ .ask call next) ∧ pool.turn (.call i) = pool) ∨
      ∃ call next rest, pool.tasks i = .ask call next ∧
        (rest = .abort ∨ ∃ answer, rest = next answer) ∧
        pool.turn (.call i) = ⟨(World.answer call pool.world).2,
          Function.update pool.tasks i rest, ⟨i, pool.world.clock, call⟩ :: pool.made⟩ := by
  cases htask : pool.tasks i with
  | done result =>
    refine Or.inl ⟨fun call next h => absurd h (by simp), ?_⟩
    simp only [turn, htask]
  | abort =>
    refine Or.inl ⟨fun call next h => absurd h (by simp), ?_⟩
    simp only [turn, htask]
  | ask call next =>
    refine Or.inr ?_
    rcases hanswer : World.answer call pool.world with ⟨answer | _, after⟩
    · refine ⟨call, next, next answer, rfl, Or.inr ⟨answer, rfl⟩, ?_⟩
      rw [turn_of_finished htask hanswer, hanswer]
    · refine ⟨call, next, .abort, rfl, Or.inl rfl, ?_⟩
      simp only [turn, htask, hanswer]

theorem tasks_turn_of_ne {j : ι} (h : j ≠ i) : (pool.turn (.call i)).tasks j = pool.tasks j := by
  rcases pool.turn_call_cases i with ⟨-, hsame⟩ | ⟨call, next, rest, -, -, hturn⟩
  · rw [hsame]
  · rw [hturn]
    exact Function.update_of_ne h rest pool.tasks

theorem tasks_turn_of_aborted {call : ServiceCall} {next : call.Answer → Procedure α}
    {after : World} (htask : pool.tasks i = .ask call next)
    (hanswer : World.answer call pool.world = (.aborted, after)) :
    (pool.turn (.call i)).tasks i = .abort := by
  simp only [turn, htask, hanswer, Function.update_self]

theorem turn_of_done {result : α} (htask : pool.tasks i = .done result) :
    pool.turn (.call i) = pool := by
  simp only [turn, htask]

/-- A task that was given up stays given up. -/
theorem tasks_turn_of_abort (htask : pool.tasks i = .abort) (turn : Turn ι) :
    (pool.turn turn).tasks i = .abort := by
  cases turn with
  | elapse milliseconds => exact htask
  | call j =>
    rw [Pool.turn]
    split
    · rename_i call next hj
      have hne : i ≠ j := by
        rintro rfl
        rw [htask] at hj
        exact absurd hj (by simp)
      split
      · exact (Function.update_of_ne hne _ _).trans htask
      · exact (Function.update_of_ne hne _ _).trans htask
    · exact htask

/-! ## Schedules -/

/-- Only the passing of time moves the clock. -/
theorem clock_turn (pool : Pool ι α) (turn : Turn ι) :
    (pool.turn turn).world.clock = pool.world.clock + turn.duration := by
  cases turn with
  | elapse milliseconds => rfl
  | call i =>
    rw [Pool.turn]
    split
    · rename_i call next _
      have hclock := World.clock_answer call pool.world
      split
      · rename_i hanswer
        rwa [hanswer] at hclock
      · rename_i hanswer
        rwa [hanswer] at hclock
    · rfl

theorem clock_play (pool : Pool ι α) (schedule : List (Turn ι)) :
    (pool.play schedule).world.clock = pool.world.clock + duration schedule := by
  induction schedule generalizing pool with
  | nil => rfl
  | cons turn schedule ih =>
    have hplay : pool.play (turn :: schedule) = (pool.turn turn).play schedule := rfl
    rw [hplay, ih, clock_turn, duration, Nat.add_assoc]

/-- **What every turn keeps, every schedule keeps.** -/
theorem play_induction {motive : Pool ι α → Prop} (hturn : ∀ pool turn, motive pool →
    motive (pool.turn turn)) (h : motive pool) (schedule : List (Turn ι)) :
    motive (pool.play schedule) := by
  induction schedule generalizing pool with
  | nil => exact h
  | cons turn schedule ih => exact ih (hturn pool turn h)

theorem tasks_play_of_abort (htask : pool.tasks i = .abort) (schedule : List (Turn ι)) :
    (pool.play schedule).tasks i = .abort :=
  play_induction (motive := fun pool => pool.tasks i = .abort)
    (fun _ turn h => tasks_turn_of_abort h turn) htask schedule

end Pool
end AccountAccess
