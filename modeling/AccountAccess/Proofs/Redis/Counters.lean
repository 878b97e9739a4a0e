import AccountAccess.Proofs.Redis.Carry
import Mathlib.Data.List.Induction

/-!
# Counters that never expire

A counter is raised with one command and given its window with a second one, and only the call
that finds the counter new sends the second one.  Each request may come to nothing: it is
refused, or the call times out before it is executed.  If that happens to the second command of
the call that opened the counter, then the counter stands without an expiry time, and no later
call gives it one: for every later call the counter is not new.

So a counter never expires exactly if such a call is among those that were made.  All other
failures do no harm.

## The shape of the argument

A count does one of four things to the entries, whatever becomes of its requests, and `Counted` has
a constructor for each.  Every invariant of a run is a short case analysis of it: other keys are
left alone, counters stay counters, a counter without an expiry time comes from a count that was
*cut*, and expiry times are not further off than windows are long.  The run is then taken from its
end, so that what is cut is said of the moment at which it happens.

## Main results

* `Fate`, `answerUnder`: what becomes of a request, and the server as it is reached then.
* `counted`: a count does one of four things.
* `Counted.never_iff`: a counter without an expiry time had none before, or the count was cut.
* `step`, `run`: a counter stands without an expiry time exactly if some count was cut.
* `within_afterAll`: no other expiry time is further off than the windows are long.
-/

namespace AccountAccess
namespace Redis

/-! ## Requests that come to nothing -/

/-- What becomes of a request. -/
inductive Fate where
  | executed
  /-- It is answered with an error and changes nothing. -/
  | refused (text : String)
  /-- It is not executed before the call times out. -/
  | timedOut
  deriving DecidableEq, Repr

/-- An error in the place of an answer. -/
def Request.refusal (text : String) : (request : Request) → request.Answer
  | .connect => .error .server
  | .command _ | .transaction _ => .ok (.error text)

/-- No answer in time. -/
def Request.silence : (request : Request) → request.Answer
  | .connect | .command _ | .transaction _ => .error .timedOut

namespace Server

/-- Answers each request as its fate has it. -/
def answerUnder (server : Server) (now : Nat) (fates : Request → Fate) :
    Handler interface server.State := fun request s =>
  match fates request with
  | .executed => server.answer now request s
  | .refused text => (.finished (request.refusal text), s)
  | .timedOut => (.finished request.silence, s)

end Server

/-! ## The two commands of a count -/

/-- The command that raises a counter. -/
def raising (key : String) : Request :=
  .command ["INCRBY", key, "1"]

/-- The command that gives a counter its window. -/
def expiring (key : String) (window : UInt64) : Request :=
  .command ["EXPIRE", key, Text.decimal window.toInt64]

/-- The counter is raised: the server is reached, and the command is executed. -/
def Raises (fates : Request → Fate) (key : String) : Prop :=
  fates .connect = .executed ∧ fates (raising key) = .executed

/-- The counter is given its window: the command is executed, and the clock can show the time. -/
def GivesWindow (now : Nat) (fates : Request → Fate) (key : String) (window : UInt64) : Prop :=
  fates (expiring key window) = .executed ∧ now + 1000 * window.toNat < Server.clockEnd

instance (now : Nat) (fates : Request → Fate) (key : String) (window : UInt64) :
    Decidable (GivesWindow now fates key window) :=
  inferInstanceAs (Decidable (_ ∧ _))

/-- A window of at least a second that is written as a positive integer. -/
def IsWindow (window : UInt64) : Prop :=
  0 < window.toNat ∧ window.toNat < Server.clockEnd

variable {server : Server} {now : Nat} {s : server.State} {key : String} {window : UInt64}
  {fates : Request → Fate}

/-- **What a count does to the entries**, whatever becomes of its requests. -/
inductive Counted (server : Server) (now : Nat) (s : server.State) (key : String)
    (window : UInt64) (fates : Request → Fate) : Keyspace → Prop where
  | untouched (hidle : server.keyspace now s key = none → ¬Raises fates key) :
      Counted server now s key window fates (server.keyspace now s)
  | opened (hnew : server.keyspace now s key = none) (hgives : GivesWindow now fates key window) :
      Counted server now s key window fates (Function.update (server.keyspace now s) key
        (some ⟨.text (Text.decimal 1), some (now + 1000 * window.toNat)⟩))
  | cut (hnew : server.keyspace now s key = none) (hraises : Raises fates key)
      (hnot : ¬GivesWindow now fates key window) :
      Counted server now s key window fates (Function.update (server.keyspace now s) key
        (some ⟨.text (Text.decimal 1), none⟩))
  | raised {n : Int64} {expiresAt : Option Nat}
      (hkey : server.keyspace now s key = some ⟨.text (Text.decimal n), expiresAt⟩)
      (hn : n ≠ Int64.maxValue) :
      Counted server now s key window fates (Function.update (server.keyspace now s) key
        (some ⟨.text (Text.decimal (n + 1)), expiresAt⟩))

theorem toInt_add_one {n : Int64} (hn : n ≠ Int64.maxValue) : (n + 1).toInt = n.toInt + 1 := by
  have hne : n.toInt ≠ Int64.maxValue.toInt := fun h => hn (Int64.toInt_inj.1 h)
  have hmax : Int64.maxValue.toInt = 2 ^ 63 - 1 := by decide
  have hmin : Int64.minValue.toInt = -2 ^ 63 := by decide
  have hlow := n.minValue_le_toInt
  have hhigh := n.toInt_le
  rw [Int64.toInt_add, Int64.toInt_one]
  exact Int.bmod_eq_of_le (by omega) (by omega)

theorem add_one_ne_one {n : Int64} (hgreatest : n ≠ Int64.maxValue) (hn : 1 ≤ n.toInt) :
    n + 1 ≠ 1 := by
  intro h
  have hnext := toInt_add_one hgreatest
  rw [h, Int64.toInt_one] at hnext
  omega

/-- A counter stands at a key, at one or more, or nothing does. -/
def CountsFromOne (entries : Keyspace) (key : String) : Prop :=
  ∀ entry, entries key = some entry →
    ∃ n : Int64, 1 ≤ n.toInt ∧ entry.value = .text (Text.decimal n)

/-! ## Exchanges under fates -/

theorem answerUnder_executed (now : Nat) {request : Request} (h : fates request = .executed)
    (s : server.State) : server.answerUnder now fates request s = server.answer now request s := by
  rw [Server.answerUnder, h]

theorem run_command_of_ne_executed {command : Command} {α : Type}
    (h : fates (.command command) ≠ .executed) (next : Except CacheError Reply → Exchange α) :
    ∃ answer, (∃ e, read Reply.integer? answer = .error e) ∧ (∃ e, acknowledged answer = .error e) ∧
      (ask (.command command) >>= next).run (server.answerUnder now fates) s =
        (next answer).run (server.answerUnder now fates) s := by
  rw [ask_bind, Dialogue.run, Server.answerUnder]
  cases hfate : fates (.command command) with
  | executed => exact absurd hfate h
  | refused text => exact ⟨_, ⟨_, read_error _ text⟩, ⟨_, read_error _ text⟩, rfl⟩
  | timedOut => exact ⟨_, ⟨_, rfl⟩, ⟨_, rfl⟩, rfl⟩

theorem run_connected_of_ne_executed {α : Type} (h : fates .connect ≠ .executed)
    (next : Exchange (Except CacheError α)) :
    ((connected next).run (server.answerUnder now fates) s).2 = s := by
  rw [connected_eq, Dialogue.run, Server.answerUnder]
  cases hfate : fates .connect with
  | executed => exact absurd hfate h
  | refused text => rfl
  | timedOut => rfl

theorem run_connected_of_executed {α : Type} (h : fates .connect = .executed)
    (next : Exchange (Except CacheError α)) :
    (connected next).run (server.answerUnder now fates) s =
      next.run (server.answerUnder now fates) s := by
  rw [connected_eq, Dialogue.run, answerUnder_executed now h]
  rfl

/-- What a count leaves behind. -/
def countUnder (server : Server) (now : Nat) (fates : Request → Fate) (key : String)
    (window : UInt64) (s : server.State) : server.State :=
  ((carry (.count key window)).run (server.answerUnder now fates) s).2

theorem countedOn_error {answer : Except CacheError Reply}
    (h : ∃ e, read Reply.integer? answer = .error e) (key : String) (window : UInt64) :
    ∃ e, countedOn key window answer = pure (.error e) := by
  obtain ⟨e, he⟩ := h
  exact ⟨e, by rw [countedOn, he]⟩

/-- **The second command** of a new counter gives it its window, or leaves it as it is. -/
theorem keyspace_expiring (hserver : server.Documented) (hwindow : IsWindow window)
    (hkey : server.keyspace now s key = some ⟨.text (Text.decimal 1), none⟩) :
    server.keyspace now ((countedOn key window (.ok (.integer 1))).run
        (server.answerUnder now fates) s).2 =
      if GivesWindow now fates key window then
        Function.update (server.keyspace now s) key
          (some ⟨.text (Text.decimal 1), some (now + 1000 * window.toNat)⟩)
      else server.keyspace now s := by
  rw [countedOn_integer, if_pos rfl]
  by_cases hexpire : fates (expiring key window) = .executed
  · have hexecuted := answerUnder_executed now hexpire s
    by_cases hend : now + 1000 * window.toNat < Server.clockEnd
    · rw [if_pos ⟨hexpire, hend⟩]
      have hdoes := hserver.expire hkey hwindow.1 hend
      rw [← decimal_toInt64 hwindow.2] at hdoes
      obtain ⟨after, hrun, hafter⟩ := hdoes.run_of_executed hexecuted fun reply =>
        pure ((acknowledged reply).map fun () => (1 : Int64))
      rw [hrun]
      exact hafter
    · rw [if_neg fun hgives => hend hgives.2]
      obtain ⟨text, hdoes⟩ := hserver.expire_beyond hkey hwindow.1 hwindow.2 (Nat.not_lt.1 hend)
      rw [← decimal_toInt64 hwindow.2] at hdoes
      obtain ⟨after, hrun, hafter⟩ := hdoes.run_of_executed hexecuted fun reply =>
        pure ((acknowledged reply).map fun () => (1 : Int64))
      rw [hrun]
      exact hafter
  · rw [if_neg fun hgives => hexpire hgives.1]
    obtain ⟨answer, -, -, hrun⟩ := run_command_of_ne_executed hexpire fun reply =>
      pure ((acknowledged reply).map fun () => (1 : Int64))
    rw [hrun]
    rfl

/-- **A count** does one of four things. -/
theorem counted (hserver : server.Documented) (hwindow : IsWindow window)
    (hcounts : CountsFromOne (server.keyspace now s) key) :
    Counted server now s key window fates
      (server.keyspace now (countUnder server now fates key window s)) := by
  rw [countUnder, carry_count]
  by_cases hconnect : fates .connect = .executed
  case neg =>
    rw [run_connected_of_ne_executed hconnect]
    exact .untouched fun _ hraises => hconnect hraises.1
  rw [run_connected_of_executed hconnect]
  by_cases hraise : fates (raising key) = .executed
  case neg =>
    obtain ⟨answer, hanswer, -, hrun⟩ :=
      run_command_of_ne_executed hraise (countedOn key window)
    obtain ⟨e, hcounted⟩ := countedOn_error hanswer key window
    rw [hrun, hcounted]
    exact .untouched fun _ hraises => hraise hraises.2
  have hexecuted := answerUnder_executed now hraise s
  cases hkey : server.keyspace now s key with
  | none =>
    obtain ⟨after, hrun, hafter⟩ :=
      (hserver.incrby_none hkey).run_of_executed hexecuted (countedOn key window)
    have hone : server.keyspace now after key = some ⟨.text (Text.decimal 1), none⟩ := by
      rw [hafter, Function.update_self]
    rw [hrun, keyspace_expiring hserver hwindow hone, hafter]
    by_cases hgives : GivesWindow now fates key window
    · rw [if_pos hgives, Function.update_idem]
      exact .opened hkey hgives
    · rw [if_neg hgives]
      exact .cut hkey ⟨hconnect, hraise⟩ hgives
  | some entry =>
    obtain ⟨n, hn, hvalue⟩ := hcounts entry hkey
    obtain ⟨value, expiresAt⟩ := entry
    obtain rfl : value = .text (Text.decimal n) := hvalue
    by_cases hgreatest : n = Int64.maxValue
    · subst hgreatest
      obtain ⟨text, hdoes⟩ := hserver.incrby_greatest hkey
      obtain ⟨after, hrun, hafter⟩ :=
        hdoes.run_of_executed hexecuted (countedOn key window)
      obtain ⟨e, hcounted⟩ :=
        countedOn_error ⟨_, read_error Reply.integer? text⟩ key window
      rw [hrun, hcounted]
      show Counted server now s key window fates (server.keyspace now after)
      rw [hafter]
      exact .untouched fun hnone => absurd (hkey.symm.trans hnone) (by simp)
    · obtain ⟨after, hrun, hafter⟩ :=
        (hserver.incrby_counter hkey hgreatest).run_of_executed hexecuted
          (countedOn key window)
      rw [hrun, countedOn_integer, if_neg (add_one_ne_one hgreatest hn)]
      show Counted server now s key window fates (server.keyspace now after)
      rw [hafter]
      exact .raised hkey hgreatest

/-! ## What a count keeps -/

section Counted

variable {entries : Keyspace}

theorem Counted.of_ne (h : Counted server now s key window fates entries) {other : String}
    (hother : other ≠ key) : entries other = server.keyspace now s other := by
  cases h with
  | untouched hidle => rfl
  | opened hnew hgives => exact Function.update_of_ne hother _ _
  | cut hnew hraises hnot => exact Function.update_of_ne hother _ _
  | raised hkey hn => exact Function.update_of_ne hother _ _

/-- Counters stay counters. -/
theorem Counted.countsFromOne (h : Counted server now s key window fates entries)
    (hcounts : ∀ other, CountsFromOne (server.keyspace now s) other) (other : String) :
    CountsFromOne entries other := by
  by_cases hother : other = key
  case neg =>
    intro entry hentry
    exact hcounts other entry (h.of_ne hother ▸ hentry)
  subst hother
  have hone := Int64.toInt_one
  cases h with
  | untouched hidle => exact hcounts other
  | opened hnew hgives =>
    intro entry hentry
    rw [Function.update_self, Option.some.injEq] at hentry
    subst hentry
    exact ⟨1, by omega, rfl⟩
  | cut hnew hraises hnot =>
    intro entry hentry
    rw [Function.update_self, Option.some.injEq] at hentry
    subst hentry
    exact ⟨1, by omega, rfl⟩
  | @raised n expiresAt hkey hn =>
    intro entry hentry
    rw [Function.update_self, Option.some.injEq] at hentry
    subst hentry
    obtain ⟨m, hm, hvalue⟩ := hcounts other _ hkey
    obtain rfl : n = m := Text.decimal_injective (Value.text.inj hvalue)
    exact ⟨n + 1, by rw [toInt_add_one hn]; omega, rfl⟩

/-- **A counter without an expiry time** had none before, or the count was cut. -/
theorem Counted.never_iff (h : Counted server now s key window fates entries) (other : String) :
    (∃ value, entries other = some ⟨value, none⟩) ↔
      (∃ value, server.keyspace now s other = some ⟨value, none⟩) ∨
        (key = other ∧ server.keyspace now s other = none ∧ Raises fates other ∧
          ¬GivesWindow now fates other window) := by
  by_cases hother : other = key
  case neg =>
    rw [h.of_ne hother, or_iff_left]
    exact fun hcut => hother hcut.1.symm
  subst hother
  cases h with
  | untouched hidle =>
    rw [or_iff_left]
    rintro ⟨-, hnew, hraises, -⟩
    exact hidle hnew hraises
  | opened hnew hgives =>
    simp [hnew, hgives]
  | cut hnew hraises hnot =>
    simp [hraises, hnew, hnot]
  | raised hkey hn =>
    simp [hkey]

/-- Expiry times are not further off than the windows are long. -/
theorem Counted.within (h : Counted server now s key window fates entries) {other : String}
    {seconds : Nat} (hwindow : key = other → window.toNat ≤ seconds)
    (hbefore : ∀ value at_, server.keyspace now s other = some ⟨value, some at_⟩ →
      at_ ≤ now + 1000 * seconds) {value : Value} {at_ : Nat}
    (hentry : entries other = some ⟨value, some at_⟩) : at_ ≤ now + 1000 * seconds := by
  by_cases hother : other = key
  case neg =>
    exact hbefore value at_ (h.of_ne hother ▸ hentry)
  subst hother
  have hlength := hwindow rfl
  cases h with
  | untouched hidle => exact hbefore value at_ hentry
  | opened hnew hgives =>
    rw [Function.update_self, Option.some.injEq, Entry.mk.injEq] at hentry
    have hat := Option.some.inj hentry.2
    omega
  | cut hnew hraises hnot =>
    rw [Function.update_self, Option.some.injEq, Entry.mk.injEq] at hentry
    exact absurd hentry.2 (by simp)
  | raised hkey hn =>
    rw [Function.update_self, Option.some.injEq, Entry.mk.injEq] at hentry
    rw [hentry.2] at hkey
    exact hbefore _ at_ hkey

end Counted

/-! ## Runs -/

/-- What happens in a run: time passes, or a count is tried, whatever becomes of its requests. -/
inductive Attempt where
  | elapse (milliseconds : Nat)
  | count (key : String) (window : UInt64) (fates : Request → Fate)

/-- A count is tried with a window that can be written. -/
def Attempt.IsWindowed : Attempt → Prop
  | .elapse _ => True
  | .count _ window _ => IsWindow window

/-- The windows of a key are not longer than some seconds. -/
def Attempt.IsWithin (key : String) (seconds : Nat) : Attempt → Prop
  | .elapse _ => True
  | .count other window _ => other = key → window.toNat ≤ seconds

/-- A server at a time. -/
structure Moment (server : Server) where
  now : Nat
  state : server.State

namespace Moment

variable {moment start : Moment server} {attempt : Attempt} {attempts : List Attempt}
  {seconds : Nat}

/-- The entries that count then. -/
def keyspace (moment : Moment server) : Keyspace :=
  server.keyspace moment.now moment.state

/-- The moment after what happens. -/
def after (moment : Moment server) : Attempt → Moment server
  | .elapse milliseconds => ⟨moment.now + milliseconds, moment.state⟩
  | .count key window fates =>
    ⟨moment.now, countUnder server moment.now fates key window moment.state⟩

/-- The moment after all that happens. -/
def afterAll (moment : Moment server) (attempts : List Attempt) : Moment server :=
  attempts.foldl after moment

theorem afterAll_concat (moment : Moment server) (attempts : List Attempt) (attempt : Attempt) :
    moment.afterAll (attempts ++ [attempt]) = (moment.afterAll attempts).after attempt :=
  List.foldl_append

/-- A counter stands at a key and has no expiry time. -/
def NeverExpires (moment : Moment server) (key : String) : Prop :=
  ∃ value, moment.keyspace key = some ⟨value, none⟩

/-- **A count is cut**: it opens a counter but does not give it its window. -/
def Cuts (moment : Moment server) (key : String) : Attempt → Prop
  | .elapse _ => False
  | .count other window fates => other = key ∧ moment.keyspace key = none ∧ Raises fates key ∧
      ¬GivesWindow moment.now fates key window

theorem keyspace_elapse (hserver : server.Documented) (moment : Moment server)
    (milliseconds : Nat) (key : String) :
    (moment.after (.elapse milliseconds)).keyspace key =
      (moment.keyspace key).filter (·.isLive (moment.now + milliseconds)) :=
  hserver.later moment.state key (Nat.le_add_right moment.now milliseconds)

theorem countsFromOne_elapse (hserver : server.Documented) (milliseconds : Nat)
    (hcounts : CountsFromOne moment.keyspace key) :
    CountsFromOne (moment.after (.elapse milliseconds)).keyspace key := by
  intro entry hentry
  rw [keyspace_elapse hserver] at hentry
  exact hcounts entry (Option.filter_eq_some_iff.1 hentry).1

theorem neverExpires_elapse (hserver : server.Documented) (milliseconds : Nat) :
    NeverExpires (moment.after (.elapse milliseconds)) key ↔ NeverExpires moment key := by
  simp only [NeverExpires, keyspace_elapse hserver, Option.filter_eq_some_iff]
  exact exists_congr fun value => and_iff_left rfl

theorem counted_after (hserver : server.Documented)
    (hcounts : ∀ key, CountsFromOne moment.keyspace key) {other : String} {window : UInt64}
    (fates : Request → Fate) (hwindow : IsWindow window) :
    Counted server moment.now moment.state other window fates
      (moment.after (.count other window fates)).keyspace :=
  counted hserver hwindow (hcounts other)

/-- **One event** keeps counters, and a counter gets to stand without an expiry time only by a
count that is cut. -/
theorem step (hserver : server.Documented) (hwindowed : attempt.IsWindowed)
    (hcounts : ∀ key, CountsFromOne moment.keyspace key) (key : String) :
    CountsFromOne (moment.after attempt).keyspace key ∧
      (NeverExpires (moment.after attempt) key ↔
        NeverExpires moment key ∨ Cuts moment key attempt) := by
  cases attempt with
  | elapse milliseconds =>
    refine ⟨countsFromOne_elapse hserver milliseconds (hcounts key), ?_⟩
    rw [neverExpires_elapse hserver, Cuts, or_false]
  | count other window fates =>
    have hcounted : Counted server moment.now moment.state other window fates
        (moment.after (.count other window fates)).keyspace :=
      counted_after hserver hcounts fates hwindowed
    exact ⟨hcounted.countsFromOne hcounts key, hcounted.never_iff key⟩

/-- **A run** keeps counters, and a counter stands without an expiry time exactly if some count
was cut. -/
theorem run (hserver : server.Documented) (hempty : ∀ key, start.keyspace key = none)
    (hwindowed : ∀ attempt ∈ attempts, attempt.IsWindowed) :
    (∀ key, CountsFromOne (start.afterAll attempts).keyspace key) ∧
      ∀ key, NeverExpires (start.afterAll attempts) key ↔ ∃ before attempt later,
        attempts = before ++ attempt :: later ∧ Cuts (start.afterAll before) key attempt := by
  induction attempts using List.reverseRecOn with
  | nil =>
    refine ⟨fun key entry hentry => ?_, fun key => iff_of_false ?_ ?_⟩
    · exact absurd ((hempty key).symm.trans hentry) (by simp)
    · rintro ⟨value, hvalue⟩
      exact absurd ((hempty key).symm.trans hvalue) (by simp)
    · rintro ⟨before, attempt, later, hattempts, -⟩
      exact absurd hattempts (by simp)
  | append_singleton attempts attempt ih =>
    obtain ⟨hcounts, hnever⟩ := ih fun other hother =>
      hwindowed other (List.mem_append_left _ hother)
    have hstep := step hserver (hwindowed attempt (by simp)) hcounts
    rw [afterAll_concat]
    refine ⟨fun key => (hstep key).1, fun key => ?_⟩
    rw [(hstep key).2, hnever key]
    constructor
    · rintro (⟨before, cut, later, rfl, hcut⟩ | hcut)
      · exact ⟨before, cut, later ++ [attempt], by simp, hcut⟩
      · exact ⟨attempts, attempt, [], rfl, hcut⟩
    · rintro ⟨before, cut, later, hattempts, hcut⟩
      rcases List.eq_nil_or_concat later with rfl | ⟨later, last, rfl⟩
      · obtain ⟨rfl, hlast⟩ := List.append_inj' hattempts rfl
        obtain rfl : attempt = cut := (List.cons.inj hlast).1
        exact Or.inr hcut
      · rw [List.concat_eq_append, ← List.cons_append, ← List.append_assoc] at hattempts
        obtain ⟨rfl, -⟩ := List.append_inj' hattempts rfl
        exact Or.inl ⟨before, cut, later, rfl, hcut⟩

/-- In a run no expiry time is further off than the windows are long. -/
theorem within_afterAll (hserver : server.Documented) (hempty : ∀ key, start.keyspace key = none)
    (hwindowed : ∀ attempt ∈ attempts, attempt.IsWindowed)
    (hwithin : ∀ attempt ∈ attempts, attempt.IsWithin key seconds) {value : Value} {at_ : Nat}
    (hentry : (start.afterAll attempts).keyspace key = some ⟨value, some at_⟩) :
    at_ ≤ (start.afterAll attempts).now + 1000 * seconds := by
  induction attempts using List.reverseRecOn generalizing value at_ with
  | nil => exact absurd ((hempty key).symm.trans hentry) (by simp)
  | append_singleton attempts attempt ih =>
    have hwindowed' : ∀ other ∈ attempts, other.IsWindowed :=
      fun other hother => hwindowed other (List.mem_append_left _ hother)
    have hbefore : ∀ value at_, (start.afterAll attempts).keyspace key = some ⟨value, some at_⟩ →
        at_ ≤ (start.afterAll attempts).now + 1000 * seconds :=
      fun value at_ => ih hwindowed' fun other hother =>
        hwithin other (List.mem_append_left _ hother)
    have hlast := hwithin attempt (by simp)
    have hlastWindowed := hwindowed attempt (by simp)
    rw [afterAll_concat] at hentry ⊢
    cases attempt with
    | elapse milliseconds =>
      rw [keyspace_elapse hserver] at hentry
      have hat := hbefore value at_ (Option.filter_eq_some_iff.1 hentry).1
      show at_ ≤ (start.afterAll attempts).now + milliseconds + 1000 * seconds
      omega
    | count other window fates =>
      have hcounts := (run hserver hempty hwindowed').1
      exact (counted_after hserver hcounts fates hlastWindowed).within hlast hbefore hentry

end Moment

end Redis
end AccountAccess
