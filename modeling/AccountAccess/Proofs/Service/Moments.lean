import AccountAccess.Service.InProcess
import Mathlib.Data.Nat.Init
import Mathlib.Data.Nat.Notation
import Mathlib.Data.List.Basic

/-!
# The moments of a run

A run is a list of events that happen one after the other, and each of them takes some surroundings
to the next.  What the events are differs from theorem to theorem: requests and edits of the store
here, look-ups and nothing else there.  So a run is described by the function `play`, which says
what one event does, and by its list of events, and the `n`-th *moment* of it is what the
surroundings are after the first `n` events.

## Main definitions

* `moment`: the surroundings after the first events of a run.

## Main results

* `moment_succ`: an event takes one moment to the next.
* `moment_keeps`: what holds at a moment and is kept by every event from there on holds at every
  later moment.  A hypothesis about an event may use which one it is and where it stands, so that
  facts such as "no event between the two moments writes this entry" can be made use of.
* `clock_moment_le`: if no event turns the clock back, no run does.

Moments are counted beyond the end of the list as well; nothing happens there any more.  This keeps
the bound `n ≤ events.length` out of everything that does not look at the event itself.
-/

namespace AccountAccess

variable {Event : Type} {play : World → Event → World} {start : World} {events : List Event}
  {event : Event} {m n : ℕ}

/-- The surroundings after the first events of a run. -/
def moment (play : World → Event → World) (start : World) (events : List Event) (n : ℕ) : World :=
  (events.take n).foldl play start

/-- **An event takes one moment to the next.** -/
theorem moment_succ (play : World → Event → World) (start : World) (h : events[n]? = some event) :
    moment play start events (n + 1) = play (moment play start events n) event := by
  rw [moment, moment, List.take_add_one, h, Option.toList_some, List.foldl_append]
  rfl

theorem moment_succ_of_none (play : World → Event → World) (start : World)
    (h : events[n]? = none) : moment play start events (n + 1) = moment play start events n := by
  rw [moment, moment, List.take_add_one, h, Option.toList_none, List.append_nil]

/-- **What the events from one moment to another keep.** -/
theorem moment_keeps (P : World → Prop) (hmn : m ≤ n) (hm : P (moment play start events m))
    (hkeep : ∀ j event, m ≤ j → j < n → events[j]? = some event →
      P (moment play start events j) → P (play (moment play start events j) event)) :
    P (moment play start events n) := by
  induction n, hmn using Nat.le_induction with
  | base => exact hm
  | succ n hmn ih =>
    have hbefore := ih fun j event hmj hjn => hkeep j event hmj (Nat.lt_succ_of_lt hjn)
    cases hevent : events[n]? with
    | none => rwa [moment_succ_of_none play start hevent]
    | some event =>
      rw [moment_succ play start hevent]
      exact hkeep n event hmn (Nat.lt_succ_self n) hevent hbefore

/-- Time does not run backwards in a run if it does not in any event. -/
theorem clock_moment_le (hclock : ∀ world event, world.clock ≤ (play world event).clock)
    (start : World) (events : List Event) (hmn : m ≤ n) :
    (moment play start events m).clock ≤ (moment play start events n).clock :=
  moment_keeps (fun world => (moment play start events m).clock ≤ world.clock) hmn (Nat.le_refl _)
    fun _ event _ _ _ hle => Nat.le_trans hle (hclock _ event)

end AccountAccess
