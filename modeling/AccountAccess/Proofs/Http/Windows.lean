import Mathlib.Data.Finset.Card
import Mathlib.Tactic.SplitIfs

/-!
# Windows of fixed length

The times at which something happens are cut greedily into windows: the first window opens at the
first time, and each next one at the first time that is no longer in the window before.  Only the
first few of a window pass.

What passes is bounded in any stretch of time, wherever it begins.  Two windows open at least the
length of a window apart.  So in a stretch of that length the times that belong to windows which
opened before it belong to one window, and so do the others; the bound is twice that of a window.

A timeline has events that may have no time at all, because what happens there is not counted.  The
events of a timeline are numbered by all of them, so that it can be said of the same number what
happens to one client and what to another.

## Main results

* `ofTimes`, `windowBefore`: the greedy cut of some times, and the window before an event.
* `exists_follows`: a window changes only into one that follows it.
* `card_le_of_near`: one window lets as many pass as the limit says.
* `card_le_two_mul`: a stretch of the length of a window lets twice as many pass at most.
* `windowBefore_of_passing`: what does not pass moves no window.
-/

namespace AccountAccess
namespace Http

/-! ## The greedy cut -/

/-- A window: when it opened, and how many times it holds so far. -/
structure Window where
  opened : ℕ
  number : ℕ
  deriving DecidableEq, Inhabited, Repr

namespace Window

/-- The window without the times beyond a limit. -/
def capped (limit : ℕ) (window : Window) : Window :=
  { window with number := min window.number limit }

/-- The window of a time, after the window of the time before. -/
def next (length : ℕ) (window : Option Window) (time : ℕ) : Window :=
  match window with
  | some ⟨opened, number⟩ =>
    if time < opened + length then ⟨opened, number + 1⟩ else ⟨time, 1⟩
  | none => ⟨time, 1⟩

theorem next_of_open {length time : ℕ} {window : Window} (h : time < window.opened + length) :
    next length (some window) time = ⟨window.opened, window.number + 1⟩ :=
  if_pos h

theorem next_of_closed {length time : ℕ} {window : Window} (h : ¬time < window.opened + length) :
    next length (some window) time = ⟨time, 1⟩ :=
  if_neg h

/-- **The greedy cut**: the window of the last of some times, if there are any. -/
def ofTimes (length : ℕ) (times : List ℕ) : Option Window :=
  times.foldl (fun window time => some (next length window time)) none

theorem ofTimes_append (length : ℕ) (times : List ℕ) (time : ℕ) :
    ofTimes length (times ++ [time]) = some (next length (ofTimes length times) time) := by
  rw [ofTimes, List.foldl_append]
  rfl

variable {length limit time : ℕ} {times : List ℕ} {window later : Window}

/-- A time is in its window, and its window holds it. -/
theorem next_spec {window : Option Window} (hlength : 1 ≤ length)
    (hopened : ∀ w, window = some w → w.opened ≤ time) :
    (next length window time).opened ≤ time ∧ time < (next length window time).opened + length ∧
      1 ≤ (next length window time).number := by
  have hnew : time < time + length := Nat.lt_add_of_pos_right hlength
  rcases window with _ | ⟨opened, number⟩
  · exact ⟨Nat.le_refl _, hnew, Nat.le_refl _⟩
  · have hle : opened ≤ time := hopened _ rfl
    simp only [next]
    split_ifs with hin
    · exact ⟨hle, hin, Nat.le_add_left _ _⟩
    · exact ⟨Nat.le_refl _, hnew, Nat.le_refl _⟩

theorem next_capped_of_le {window : Option Window}
    (h : (next length window time).number ≤ limit) :
    next length (window.map (capped limit)) time = (next length window time).capped limit := by
  rcases window with _ | ⟨opened, number⟩
  · exact congrArg (mk time) (Nat.min_eq_left h).symm
  · simp only [Option.map_some, next, capped] at h ⊢
    split_ifs at h ⊢ with hin
    · rw [Nat.min_eq_left h, Nat.min_eq_left (Nat.le_of_succ_le h)]
    · rw [Nat.min_eq_left h]

theorem capped_next_of_lt {window : Option Window} (hlimit : 1 ≤ limit)
    (h : limit < (next length window time).number) :
    window.map (capped limit) = some ((next length window time).capped limit) := by
  rcases window with _ | ⟨opened, number⟩
  · exact absurd h (Nat.not_lt.2 hlimit)
  · simp only [Option.map_some, next, capped] at h ⊢
    split_ifs at h ⊢ with hin
    · rw [Nat.min_eq_right (Nat.le_of_lt_succ h), Nat.min_eq_right (Nat.le_of_lt h)]
    · exact absurd h (Nat.not_lt.2 hlimit)

/-! ## One window after another -/

/-- A window is a later state of another, or opened after the end of it. -/
def Follows (length : ℕ) (window later : Window) : Prop :=
  (later.opened = window.opened ∧ window.number < later.number) ∨
    window.opened + length ≤ later.opened

theorem Follows.trans {last : Window} (h : Follows length window later)
    (h' : Follows length later last) : Follows length window last := by
  unfold Follows at *
  omega

theorem follows_next (length : ℕ) (window : Window) (time : ℕ) :
    Follows length window (next length (some window) time) := by
  obtain ⟨opened, number⟩ := window
  simp only [next]
  split_ifs with hin
  · exact Or.inl ⟨rfl, Nat.lt_succ_self number⟩
  · exact Or.inr (Nat.not_lt.1 hin)

end Window

/-! ## A timeline -/

/-- The times of the first events of a timeline, which need not have a time each. -/
def timesBefore (arrival : ℕ → Option ℕ) (n : ℕ) : List ℕ :=
  (List.range n).filterMap arrival

/-- The window that is open after the first events of a timeline. -/
def windowBefore (length : ℕ) (arrival : ℕ → Option ℕ) (n : ℕ) : Option Window :=
  Window.ofTimes length (timesBefore arrival n)

section Timeline

variable {length limit : ℕ} {arrival : ℕ → Option ℕ} {m n time : ℕ} {window later : Window}

theorem timesBefore_succ (arrival : ℕ → Option ℕ) (n : ℕ) :
    timesBefore arrival (n + 1) = timesBefore arrival n ++ (arrival n).toList := by
  rw [timesBefore, List.range_succ, List.filterMap_append]
  rcases harrival : arrival n with _ | time
  · simp [timesBefore, harrival]
  · simp [timesBefore, harrival]

theorem windowBefore_succ_of_none (h : arrival n = none) :
    windowBefore length arrival (n + 1) = windowBefore length arrival n := by
  rw [windowBefore, timesBefore_succ, h, Option.toList_none, List.append_nil]
  rfl

theorem windowBefore_succ_of_some (h : arrival n = some time) :
    windowBefore length arrival (n + 1) =
      some (Window.next length (windowBefore length arrival n) time) := by
  rw [windowBefore, timesBefore_succ, h, Option.toList_some, Window.ofTimes_append]
  rfl

/-- **A window changes only into one that follows it.** -/
theorem exists_follows (hmn : m ≤ n) (h : windowBefore length arrival m = some window) :
    ∃ later, windowBefore length arrival n = some later ∧
      (later = window ∨ Window.Follows length window later) := by
  induction n, hmn using Nat.le_induction with
  | base => exact ⟨window, h, Or.inl rfl⟩
  | succ n hmn ih =>
    obtain ⟨later, hlater, hfollows⟩ := ih
    rcases harrival : arrival n with _ | time
    · exact ⟨later, by rw [windowBefore_succ_of_none harrival, hlater], hfollows⟩
    · refine ⟨_, windowBefore_succ_of_some harrival, Or.inr ?_⟩
      have hnext := Window.follows_next length later time
      rw [← hlater] at hnext
      rcases hfollows with rfl | hfollows
      · exact hnext
      · exact hfollows.trans hnext

/-- Times do not run backwards. -/
def IsOrdered (arrival : ℕ → Option ℕ) : Prop :=
  ∀ {m n time time'}, m ≤ n → arrival m = some time → arrival n = some time' → time ≤ time'

/-- A window opened at a time of an event before. -/
theorem exists_opened (h : windowBefore length arrival n = some window) :
    ∃ j < n, arrival j = some window.opened := by
  induction n generalizing window with
  | zero => exact absurd h (by simp [windowBefore, timesBefore, Window.ofTimes])
  | succ n ih =>
    rcases harrival : arrival n with _ | time
    · rw [windowBefore_succ_of_none harrival] at h
      obtain ⟨j, hj, hopened⟩ := ih h
      exact ⟨j, Nat.lt_succ_of_lt hj, hopened⟩
    · rw [windowBefore_succ_of_some harrival, Option.some.injEq] at h
      subst h
      rcases hbefore : windowBefore length arrival n with _ | ⟨opened, number⟩
      · exact ⟨n, Nat.lt_succ_self n, harrival⟩
      · simp only [Window.next]
        split_ifs with hin
        · obtain ⟨j, hj, hopened⟩ := ih hbefore
          exact ⟨j, Nat.lt_succ_of_lt hj, hopened⟩
        · exact ⟨n, Nat.lt_succ_self n, harrival⟩

/-- A window holds no more times than there are events. -/
theorem number_le {count : ℕ} (hcount : ∀ m time, arrival m = some time → m < count)
    (h : windowBefore length arrival n = some window) :
    window.number ≤ n ∧ window.number ≤ count := by
  induction n generalizing window with
  | zero => exact absurd h (by simp [windowBefore, timesBefore, Window.ofTimes])
  | succ n ih =>
    rcases harrival : arrival n with _ | time
    · rw [windowBefore_succ_of_none harrival] at h
      obtain ⟨hn, hnumber⟩ := ih h
      exact ⟨Nat.le_succ_of_le hn, hnumber⟩
    · have hless : n < count := hcount n time harrival
      rw [windowBefore_succ_of_some harrival, Option.some.injEq] at h
      subst h
      rcases hbefore : windowBefore length arrival n with _ | ⟨opened, number⟩
      · exact ⟨Nat.le_add_left 1 n, Nat.lt_of_le_of_lt (Nat.zero_le n) hless⟩
      · have hnumber : number ≤ n := (ih hbefore).1
        simp only [Window.next]
        split_ifs with hin
        · exact ⟨Nat.succ_le_succ hnumber, Nat.lt_of_le_of_lt hnumber hless⟩
        · exact ⟨Nat.le_add_left 1 n, Nat.lt_of_le_of_lt (Nat.zero_le n) hless⟩

/-- The window in which an event happens. -/
structure HappensIn (length : ℕ) (arrival : ℕ → Option ℕ) (n time : ℕ) (window : Window) :
    Prop where
  arrives : arrival n = some time
  eq_next : window = Window.next length (windowBefore length arrival n) time

namespace HappensIn

theorem windowBefore_succ (h : HappensIn length arrival n time window) :
    windowBefore length arrival (n + 1) = some window := by
  rw [windowBefore_succ_of_some h.arrives, h.eq_next]

theorem spec (h : HappensIn length arrival n time window) (hlength : 1 ≤ length)
    (hordered : IsOrdered arrival) :
    window.opened ≤ time ∧ time < window.opened + length ∧ 1 ≤ window.number := by
  rw [h.eq_next]
  refine Window.next_spec hlength fun w hw => ?_
  obtain ⟨j, hj, hopened⟩ := exists_opened hw
  exact hordered (Nat.le_of_lt hj) hopened h.arrives

theorem follows {time' : ℕ} (h : HappensIn length arrival m time window)
    (h' : HappensIn length arrival n time' later) (hmn : m < n) :
    Window.Follows length window later := by
  obtain ⟨between, hbetween, hfollows⟩ := exists_follows hmn h.windowBefore_succ
  have hnext := Window.follows_next length between time'
  rw [← hbetween, ← h'.eq_next] at hnext
  rcases hfollows with rfl | hfollows
  · exact hnext
  · exact hfollows.trans hnext

end HappensIn

/-! ## How many pass -/

variable {passed : Finset ℕ} {times : ℕ → ℕ} {windows : ℕ → Window}

/-- **One window lets as many pass as the limit says.**  Windows are one if they open within the
length of a window. -/
theorem card_le_of_near (hlength : 1 ≤ length) (hordered : IsOrdered arrival)
    (hhappens : ∀ n ∈ passed, HappensIn length arrival n (times n) (windows n))
    (hnumber : ∀ n ∈ passed, (windows n).number ≤ limit)
    (hnear : ∀ m ∈ passed, ∀ n ∈ passed, (windows m).opened < (windows n).opened + length) :
    passed.card ≤ limit := by
  -- of two events of one window the later one has the greater number
  have hlt : ∀ m ∈ passed, ∀ n ∈ passed, m < n → (windows m).number < (windows n).number := by
    intro m hm n hn hmn
    rcases (hhappens m hm).follows (hhappens n hn) hmn with ⟨-, hless⟩ | hapart
    · exact hless
    · exact absurd (hnear n hn m hm) (Nat.not_lt.2 hapart)
  have hpos : ∀ n ∈ passed, 1 ≤ (windows n).number := fun n hn =>
    ((hhappens n hn).spec hlength hordered).2.2
  have hmaps : ∀ n ∈ passed, (windows n).number - 1 ∈ Finset.range limit := by
    intro n hn
    exact Finset.mem_range.2 (Nat.lt_of_lt_of_le (Nat.sub_one_lt_of_lt (hpos n hn)) (hnumber n hn))
  have hcard := Finset.card_le_card_of_injOn (fun n => (windows n).number - 1) hmaps ?_
  · rwa [Finset.card_range] at hcard
  · intro m hm n hn (hsame : (windows m).number - 1 = (windows n).number - 1)
    replace hsame : (windows m).number = (windows n).number :=
      Nat.sub_one_cancel (hpos m hm) (hpos n hn) hsame
    rcases Nat.lt_trichotomy m n with hmn | heq | hnm
    · exact absurd hsame (Nat.ne_of_lt (hlt m hm n hn hmn))
    · exact heq
    · exact absurd hsame.symm (Nat.ne_of_lt (hlt n hn m hm hnm))

/-- **Any stretch of the length of a window**, wherever it begins, lets twice as many pass at
most. -/
theorem card_le_two_mul (hlength : 1 ≤ length) (hordered : IsOrdered arrival) (beginning : ℕ)
    (h : ∀ n ∈ passed, ∃ time window, HappensIn length arrival n time window ∧
      window.number ≤ limit ∧ beginning ≤ time ∧ time ≤ beginning + length) :
    passed.card ≤ 2 * limit := by
  choose! times windows hhappens hnumber hbeginning hend using h
  have hin : ∀ n ∈ passed, (windows n).opened ≤ times n ∧ times n < (windows n).opened + length :=
    fun n hn =>
      have hspec := (hhappens n hn).spec hlength hordered
      ⟨hspec.1, hspec.2.1⟩
  -- windows that opened before the stretch hold its beginning, and the others open in the stretch
  have hbefore : (passed.filter fun n => (windows n).opened ≤ beginning).card ≤ limit := by
    refine card_le_of_near hlength hordered (fun n hn => hhappens n (Finset.mem_filter.1 hn).1)
      (fun n hn => hnumber n (Finset.mem_filter.1 hn).1) fun m hm n hn => ?_
    obtain ⟨-, hm⟩ := Finset.mem_filter.1 hm
    obtain ⟨hn, -⟩ := Finset.mem_filter.1 hn
    exact Nat.lt_of_le_of_lt (Nat.le_trans hm (hbeginning n hn)) (hin n hn).2
  have hafter : (passed.filter fun n => ¬(windows n).opened ≤ beginning).card ≤ limit := by
    refine card_le_of_near hlength hordered (fun n hn => hhappens n (Finset.mem_filter.1 hn).1)
      (fun n hn => hnumber n (Finset.mem_filter.1 hn).1) fun m hm n hn => ?_
    obtain ⟨hm, -⟩ := Finset.mem_filter.1 hm
    obtain ⟨-, hn⟩ := Finset.mem_filter.1 hn
    have hopened := (hin m hm).1
    have hlate := hend m hm
    omega
  have hsplit := Finset.card_filter_add_card_filter_not (s := passed)
    fun n => (windows n).opened ≤ beginning
  omega

/-! ## What does not pass -/

/-- **What does not pass moves no window**: if anything passes at all, the windows that are cut from
the times that pass are the windows of all times. -/
theorem windowBefore_of_passing (hlimit : 1 ≤ limit) {passing : ℕ → Option ℕ}
    (hpassing : ∀ n time, passing n = some time ↔ ∃ window,
      HappensIn length arrival n time window ∧ window.number ≤ limit) (n : ℕ) :
    windowBefore length passing n = (windowBefore length arrival n).map (Window.capped limit) := by
  induction n with
  | zero => rfl
  | succ n ih =>
    rcases harrival : arrival n with _ | time
    · have hnone : passing n = none := by
        refine Option.eq_none_iff_forall_ne_some.2 fun time hsome => ?_
        obtain ⟨window, h, -⟩ := (hpassing n time).1 hsome
        exact absurd (harrival.symm.trans h.arrives) (by simp)
      rw [windowBefore_succ_of_none harrival, windowBefore_succ_of_none hnone, ih]
    · have hhappens : HappensIn length arrival n time
          (Window.next length (windowBefore length arrival n) time) := ⟨harrival, rfl⟩
      rw [hhappens.windowBefore_succ]
      by_cases hnumber : (Window.next length (windowBefore length arrival n) time).number ≤ limit
      · rw [windowBefore_succ_of_some ((hpassing n time).2 ⟨_, hhappens, hnumber⟩), ih]
        exact congrArg some (Window.next_capped_of_le hnumber)
      · have hnone : passing n = none := by
          refine Option.eq_none_iff_forall_ne_some.2 fun other hsome => ?_
          obtain ⟨window, h, hle⟩ := (hpassing n other).1 hsome
          obtain rfl := Option.some.inj (harrival.symm.trans h.arrives)
          exact hnumber (h.eq_next ▸ hle)
        rw [windowBefore_succ_of_none hnone, ih]
        exact Window.capped_next_of_lt hlimit (Nat.lt_of_not_le hnumber)

end Timeline
end Http
end AccountAccess
