import AccountAccess.Proofs.Service.Naming

/-!
# Surroundings in which time passes

`World.run` plays a procedure in one moment.  Here some time passes before every call, as much as
is given for it, on the clock of the cache and on the wall alike.

The two clocks show different things but go together.  `onWall` says what the wall shows when the
clock of the cache shows a given time; neither a call nor the passing of time changes it, so a
deadline of the cache is one and the same moment on the wall throughout a run.

## Main definitions and results

* `World.elapse`: time passes on both clocks.
* `Passing`, `Passing.run`: surroundings with the delays to come, and playing a procedure in them.
* `run_instantly`: where no time passes, a procedure plays as in one moment.
* `keeps`, `keeps_always`: what neither a call nor the passing of time breaks, holds after a run.
* `onWall_run`, `wall_le_run`, `entry_run`: deadlines stay, the wall is never set back, and what is
  not named stands as it did.
-/

namespace AccountAccess

namespace Timestamp

/-! ## The wall and the clock -/

/-- The time some milliseconds later. -/
def later (t : Timestamp) (milliseconds : Nat) : Timestamp :=
  ⟨t.seconds + ((t.nanos + 1000000 * milliseconds) / 1000000000 : Nat),
    (t.nanos + 1000000 * milliseconds) % 1000000000⟩

theorem totalNanos_later (t : Timestamp) (milliseconds : Nat) :
    (t.later milliseconds).totalNanos = t.totalNanos + 1000000 * milliseconds := by
  unfold totalNanos later
  dsimp only
  omega

theorem totalNanos_le_later (t : Timestamp) (milliseconds : Nat) :
    t.totalNanos ≤ (t.later milliseconds).totalNanos := by
  rw [totalNanos_later]
  omega

theorem seconds_le_later (t : Timestamp) (milliseconds : Nat) :
    t.seconds ≤ (t.later milliseconds).seconds := by
  unfold later
  dsimp only
  omega

theorem later_zero {t : Timestamp} (h : t.nanos < 1000000000) : t.later 0 = t := by
  cases t with
  | mk seconds nanos =>
    have hnanos : nanos < 1000000000 := h
    unfold later
    rw [mk.injEq]
    dsimp only
    constructor
    · omega
    · omega

end Timestamp

namespace World

/-- Time passes, on the clock of the cache and on the wall. -/
def elapse (world : World) (milliseconds : Nat) : World :=
  { world.advance milliseconds with wall := world.wall.later milliseconds }

/-- What the wall shows, in nanoseconds, when the clock of the cache shows a time. -/
def onWall (world : World) (time : Nat) : Int :=
  world.wall.totalNanos + 1000000 * ((time : Int) - world.clock)

theorem elapse_zero {world : World} (h : world.wall.nanos < 1000000000) :
    world.elapse 0 = world := by
  rw [elapse, Timestamp.later_zero h]
  rfl

theorem onWall_elapse (world : World) (milliseconds time : Nat) :
    (world.elapse milliseconds).onWall time = world.onWall time := by
  unfold onWall elapse advance
  dsimp only
  rw [Timestamp.totalNanos_later]
  omega

/-- No call moves the clock on the wall. -/
theorem wall_answer (call : ServiceCall) (world : World) :
    (World.answer call world).2.wall = world.wall := by
  cases call with
  | cache call =>
    obtain ⟨faults, cache, hworld, -⟩ := answer_cache_world world call
    rw [hworld]
    rfl
  | store call =>
    obtain ⟨faults, store, hworld, -⟩ := answer_store_world world call
    rw [hworld]
    rfl
  | _ => rfl

theorem onWall_answer (call : ServiceCall) (world : World) (time : Nat) :
    (World.answer call world).2.onWall time = world.onWall time := by
  rw [onWall, onWall, wall_answer, clock_answer]

theorem log_answerStore (world : World) (call : StoreCall) :
    (world.answerStore call).2.log = .store call :: world.log := by
  obtain ⟨faults, store, hworld, -⟩ := answer_store_world world call
  exact congrArg World.log hworld

end World

/-! ## Playing a procedure while time passes -/

/-- Surroundings with the time that passes before each of the calls to come, in milliseconds. -/
structure Passing where
  world : World
  delays : Nat → Nat

namespace Passing

/-- The surroundings when the next call is answered. -/
def moment (s : Passing) : World :=
  s.world.elapse (s.delays 0)

/-- The surroundings after that call, if the world is then as given. -/
def next (s : Passing) (world : World) : Passing :=
  ⟨world, fun n => s.delays (n + 1)⟩

/-- Time passes, and then a call is answered. -/
def answer : Handler serviceInterface Passing := fun call s =>
  ((World.answer call s.moment).1, s.next (World.answer call s.moment).2)

/-- Plays a procedure while time passes. -/
def run {α : Type} (s : Passing) (procedure : Procedure α) : Outcome α × Passing :=
  Dialogue.run answer procedure s

variable {α β : Type} {s t : Passing}

/-- **Where no time passes, a procedure plays as in one moment.** -/
theorem run_instantly {world : World} (h : world.wall.nanos < 1000000000)
    (procedure : Procedure α) : run ⟨world, fun _ => 0⟩ procedure =
      ((world.run procedure).1, ⟨(world.run procedure).2, fun _ => 0⟩) := by
  induction procedure generalizing world with
  | done a => rfl
  | abort => rfl
  | ask call rest ih =>
    have hwall : (World.answer call world).2.wall.nanos < 1000000000 := by
      rw [World.wall_answer]
      exact h
    have hanswer : answer call ⟨world, fun _ => 0⟩ =
        ((World.answer call world).1, ⟨(World.answer call world).2, fun _ => 0⟩) := by
      rw [answer, show moment ⟨world, fun _ => 0⟩ = world from World.elapse_zero h]
      rfl
    rw [run, World.run, Dialogue.run, Dialogue.run, hanswer]
    rcases hcall : World.answer call world with ⟨result | _, after⟩
    · rw [hcall] at hwall
      exact ih result hwall
    · rfl

theorem run_ask_eq_finished {call : ServiceCall} {next : call.Answer → Procedure α} {a : α} :
    s.run (.ask call next) = (.finished a, t) ↔
      ∃ answer, (World.answer call s.moment).1 = .finished answer ∧
        (s.next (World.answer call s.moment).2).run (next answer) = (.finished a, t) := by
  have hanswer : answer call s =
    ((World.answer call s.moment).1, s.next (World.answer call s.moment).2) := rfl
  rw [run, Dialogue.run, hanswer]
  rcases (World.answer call s.moment).1 with answer | _
  · simp [run]
  · simp

theorem run_bind_eq_finished {procedure : Procedure α} {rest : α → Procedure β} {b : β} :
    s.run (procedure >>= rest) = (.finished b, t) ↔
      ∃ a between, s.run procedure = (.finished a, between) ∧
        between.run (rest a) = (.finished b, t) := by
  unfold run
  rw [Dialogue.run_bind]
  rcases Dialogue.run answer procedure s with ⟨a | _, between⟩
  · simp
  · simp

theorem run_bind {procedure : Procedure α} {a : α} (h : s.run procedure = (.finished a, t))
    (rest : α → Procedure β) : s.run (procedure >>= rest) = t.run (rest a) := by
  unfold run at h ⊢
  rw [Dialogue.run_bind, h]

theorem run_now (s : Passing) (rest : Timestamp → Procedure α) :
    s.run (Procedure.now >>= rest) = (s.next s.moment).run (rest s.moment.wall) := rfl

theorem run_store (s : Passing) (call : StoreCall)
    (rest : Except StoreError call.Result → Procedure α) :
    s.run (Procedure.store call >>= rest) =
      (s.next (s.moment.answerStore call).2).run (rest (s.moment.answerStore call).1) := rfl

/-! ## What a run keeps -/

section Keeps

variable (inv : World → Prop)
  (helapse : ∀ world milliseconds, inv world → inv (world.elapse milliseconds))
include helapse

/-- **What neither a call of a kind nor the passing of time breaks, holds after a run** of such
calls. -/
theorem keeps {P : ServiceCall → Prop} {Q : α → Prop}
    (hanswer : ∀ call world, P call → inv world → inv (World.answer call world).2)
    {procedure : Procedure α} (h : procedure.Every P Q) (hs : inv s.world) :
    inv (s.run procedure).2.world :=
  h.keeps (fun s : Passing => inv s.world)
    (fun call _ hcall hinv => hanswer call _ hcall (helapse _ _ hinv)) hs

theorem keeps_always
    (hanswer : ∀ call world, inv world → inv (World.answer call world).2)
    (procedure : Procedure α) (hs : inv s.world) : inv (s.run procedure).2.world :=
  Dialogue.run_keeps (fun s : Passing => inv s.world)
    (fun call _ hinv => hanswer call _ (helapse _ _ hinv)) procedure hs

end Keeps

variable (s) (procedure : Procedure α)

theorem onWall_run (time : Nat) :
    (s.run procedure).2.world.onWall time = s.world.onWall time := by
  refine keeps_always (fun world => world.onWall time = s.world.onWall time)
    (fun world milliseconds h => ?_) (fun call world h => ?_) procedure rfl
  · rwa [World.onWall_elapse]
  · rwa [World.onWall_answer]

theorem wall_le_run :
    s.world.wall.seconds ≤ (s.run procedure).2.world.wall.seconds ∧
      s.world.wall.totalNanos ≤ (s.run procedure).2.world.wall.totalNanos := by
  refine keeps_always (fun world => s.world.wall.seconds ≤ world.wall.seconds ∧
      s.world.wall.totalNanos ≤ world.wall.totalNanos)
    (fun world milliseconds h => ?_) (fun call world h => ?_) procedure
    ⟨Int.le_refl _, Int.le_refl _⟩
  · exact ⟨Int.le_trans h.1 (Timestamp.seconds_le_later ..),
      Int.le_trans h.2 (Timestamp.totalNanos_le_later ..)⟩
  · rwa [World.wall_answer]

variable {kind : CacheKey → Prop} {procedure}

theorem entry_run (h : procedure.Names kind) {key : CacheKey} (hkey : ¬kind key) :
    (s.run procedure).2.world.entry key.text = s.world.entry key.text := by
  refine keeps (fun world => world.entry key.text = s.world.entry key.text)
    (fun world milliseconds hentry => hentry) (fun call world hnames hentry => ?_) h.every rfl
  exact (World.entry_answer world call (hnames.notMem hkey)).trans hentry

end Passing
end AccountAccess
