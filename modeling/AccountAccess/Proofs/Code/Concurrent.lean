import AccountAccess.Proofs.Code.Contest
import Mathlib.Data.Set.Subsingleton

/-!
# How often one code is spent

A code is stored once, and any number of tasks come for it at the same time.  A task that
finds the code there has it accepted, whatever others have read meanwhile, so one code is
spent as often as the right one is read before the first removal.  `rightful` is the set of
the tasks that do so.

The code is spent once if the rightful task is alone, in particular if the tasks come one
after the other.  Two that read before either removes are both accepted.

## The argument

While the tasks are under way the state of affairs is a `Contest`, which every schedule keeps.  What
is added here is that the tasks come to their ends: in calm surroundings an attempt needs two turns
(`Needs`), so after a schedule that gives everybody enough turns all are over.  Then the tasks that
have removed the code are the rightful ones (`Contest.removes_eq`), and these are read off the
schedule.

## Main results

* `Contest.accepted_iff`: an attempt that is through was accepted exactly if it was rightful.
* `Needs.play`, `Needs.eq_done`: after as many turns as it needs an attempt has a result.
* `spent_once_iff`: exactly one task has the code accepted if and only if one task is rightful,
  for attempts to spend the code and for whole requests.
* `spent_twice_overlapping`: two tasks that overlap are both accepted, and two logins with one code
  both open a session.
-/

namespace AccountAccess
namespace OneTimeCode

open Session

section Concurrent

variable {ι : Type}

/-! ## Tasks that come for one code -/

/-- Attempts to spend what is kept at one place. -/
def spends (purpose : CodePurpose) (recipient : String) (presented : ι → String) (world : World) :
    Pool ι (Except CacheError Bool) where
  world := world
  tasks i := spend purpose recipient (presented i)

/-- Requests that are under way together. -/
def requests (primitives : Primitives) (request : ι → Request) (world : World) :
    Pool ι (Except LoginFailure (Option Opened)) where
  world := world
  tasks i := (request i).procedure primitives

/-- The tasks that present the stored code and read it in time. -/
def rightful (key stored : String) (deadline : Nat) (presented : ι → String)
    (made : List (Made ι)) : Set ι :=
  {i | (stored ≠ "" ∧ presented i = stored) ∧ i ∈ readInTime key deadline made}

/-- Nobody has anything left to do. -/
def AllOver {α : Type} (pool : Pool ι α) : Prop :=
  ∀ i call next, pool.tasks i ≠ .ask call next

variable {purpose : CodePurpose} {recipient code stored : String} {deadline : Nat}
  {presented : ι → String} {world : World}

theorem Contest.accepted_iff {pool : Pool ι (Except CacheError Bool)}
    (h : Contest purpose recipient stored deadline presented
      (fun accepted result => result = .ok accepted) pool) {i : ι}
    {result : Except CacheError Bool} (hdone : pool.tasks i = .done result) :
    ∃ accepted, result = .ok accepted ∧ (accepted = true ↔
      i ∈ rightful (codeKey purpose recipient) stored deadline presented pool.made) := by
  obtain ⟨accepted, hresult, haccepted, -⟩ := (h.standing i).of_over (by simp [hdone])
  exact ⟨accepted, hresult result hdone, haccepted⟩

theorem Contest.removes_eq {α : Type} {R : Bool → α → Prop} {pool : Pool ι α}
    (h : Contest purpose recipient stored deadline presented R pool) (hover : AllOver pool) :
    {i | Removes (codeKey purpose recipient) pool.made i} =
      rightful (codeKey purpose recipient) stored deadline presented pool.made := by
  ext i
  obtain ⟨accepted, -, haccepted, hspent⟩ := (h.standing i).of_over (hover i)
  exact hspent.trans haccepted

/-! ## Attempts get through in two turns -/

/-- How many turns an attempt still needs at most. -/
inductive Needs (purpose : CodePurpose) (recipient code : String) :
    Nat → Procedure (Except CacheError Bool) → Prop where
  | asking : Needs purpose recipient code 2 (spend purpose recipient code)
  | confirming (expected : Option String) :
    Needs purpose recipient code 1 (confirm purpose recipient code expected)
  | through (accepted : Bool) : Needs purpose recipient code 0 (.done (.ok accepted))

variable [DecidableEq ι]

/-- In calm surroundings a turn of an attempt brings it nearer to its end. -/
theorem Needs.turn {pool : Pool ι (Except CacheError Bool)} (hcalm : pool.world.Calm) {i : ι}
    {n : Nat} (h : Needs purpose recipient code n (pool.tasks i)) (t : Turn ι) :
    ∃ m, m + [t].count (.call i) ≤ max n ([t].count (.call i)) ∧
      Needs purpose recipient code m ((pool.turn t).tasks i) := by
  cases t with
  | elapse milliseconds => exact ⟨n, by simp, h⟩
  | call j =>
    by_cases hj : j = i
    · subst hj
      have hcount : [Turn.call j].count (.call j) = 1 := by simp
      rw [hcount]
      generalize htask : pool.tasks j = task at h
      cases h with
      | asking =>
        rw [spend_eq] at htask
        have hrest := Pool.tasks_turn_of_finished htask (hcalm.answer_get _)
        rw [hrest]
        exact ⟨1, by omega, .confirming _⟩
      | confirming expected =>
        by_cases hmatch : code ≠ "" ∧ expected = some code
        · rw [confirm, if_pos hmatch] at htask
          obtain ⟨after, hanswer, -⟩ := hcalm.answer_remove_one (codeKey purpose recipient)
          have hrest := Pool.tasks_turn_of_finished htask hanswer
          rw [hrest]
          exact ⟨0, by omega, .through true⟩
        · rw [confirm, if_neg hmatch] at htask
          rw [Pool.turn_of_done htask, htask]
          exact ⟨0, by omega, .through false⟩
      | through accepted =>
        rw [Pool.turn_of_done htask, htask]
        exact ⟨0, by omega, .through accepted⟩
    · have hcount : [Turn.call j].count (.call i) = 0 := by simp [hj]
      rw [hcount]
      rw [Pool.tasks_turn_of_ne (Ne.symm hj)]
      exact ⟨n, by omega, h⟩

/-- After as many turns as it needs an attempt is through. -/
theorem Needs.play {pool : Pool ι (Except CacheError Bool)}
    {R : Bool → Except CacheError Bool → Prop}
    (hpool : Contest purpose recipient stored deadline presented R pool) {i : ι} {n : Nat}
    (h : Needs purpose recipient code n (pool.tasks i)) (schedule : List (Turn ι)) :
    ∃ m, m + schedule.count (.call i) ≤ max n (schedule.count (.call i)) ∧
      Needs purpose recipient code m ((pool.play schedule).tasks i) := by
  induction schedule generalizing pool n with
  | nil => exact ⟨n, by simp, h⟩
  | cons t schedule ih =>
    obtain ⟨m, hm, hnext⟩ := h.turn hpool.calm t
    obtain ⟨k, hk, hlast⟩ := ih (hpool.turn t) hnext
    refine ⟨k, ?_, hlast⟩
    rw [List.count_cons]
    rw [List.count_singleton] at hm
    omega

/-- An attempt that has nothing left to do, or needs no more turns, has a result. -/
theorem Needs.eq_done {n : Nat} {rest : Procedure (Except CacheError Bool)}
    (h : Needs purpose recipient code n rest)
    (hover : n = 0 ∨ ∀ call next, rest ≠ .ask call next) :
    ∃ accepted, rest = .done (.ok accepted) := by
  cases h with
  | through accepted => exact ⟨accepted, rfl⟩
  | asking =>
    rw [spend_eq] at hover
    exact absurd rfl (hover.resolve_left (by simp) _ _)
  | confirming expected =>
    have hnot := hover.resolve_left (by simp)
    by_cases hmatch : code ≠ "" ∧ expected = some code
    · rw [confirm, if_pos hmatch] at hnot
      exact absurd rfl (hnot _ _)
    · exact ⟨false, by rw [confirm, if_neg hmatch]⟩

/-! ## Who spends the code -/

/-- **How often one code is spent.**  A code is kept once in calm surroundings, and after
that any number of tasks are under way together, in any order of their calls while time
passes.

An attempt to spend it that has had two turns is through.  Its code is accepted if and only
if it is the stored one, which is not empty, and was read before it expired and before the
first removal.  So when all attempts are through, at most one was accepted exactly if at
most one was rightful.

The same holds of whole requests, logins and new passwords mixed and for any accounts: a
request that was authorised by this code, which means that it removed it, was rightful, and
when all are over, at most one was authorised exactly if at most one was rightful. -/
theorem spent_once_iff (hcalm : world.Calm) {ttl : UInt64} {kept : World}
    (hkept : world.run (put purpose recipient stored ttl) = (.finished (.ok ()), kept))
    {key : String} (hkey : key = codeKey purpose recipient)
    (hdeadline : deadline = world.clock + 1000 * ttl.toNat) :
    (∀ (presented : ι → String) (schedule : List (Turn ι)) {pool},
      (spends purpose recipient presented kept).play schedule = pool →
      (∀ i, 2 ≤ schedule.count (.call i) → ∃ accepted, pool.tasks i = .done (.ok accepted)) ∧
      (∀ i result, pool.tasks i = .done result → ∃ accepted, result = .ok accepted ∧
        (accepted = true ↔ i ∈ rightful key stored deadline presented pool.made)) ∧
      (AllOver pool → ({i | pool.tasks i = .done (.ok true)}.Subsingleton ↔
        (rightful key stored deadline presented pool.made).Subsingleton))) ∧
    ∀ (primitives : Primitives) (request : ι → Request) (schedule : List (Turn ι)) {pool},
      (requests primitives request kept).play schedule = pool →
      (∀ i, Removes key pool.made i →
        i ∈ rightful key stored deadline (fun j => (request j).code) pool.made) ∧
      (AllOver pool → ({i | Removes key pool.made i}.Subsingleton ↔
        (rightful key stored deadline (fun j => (request j).code) pool.made).Subsingleton)) := by
  subst hkey hdeadline
  obtain ⟨hafter, hentry⟩ := entry_of_run_put hcalm hkept
  refine ⟨fun presented schedule pool hpool => ?_, fun primitives request schedule pool hpool => ?_⟩
  · have hstart : Contest purpose recipient stored (world.clock + 1000 * ttl.toNat) presented
        (fun accepted result => result = .ok accepted)
        (spends purpose recipient presented kept) :=
      Contest.start hafter hentry fun i => presents_spend purpose recipient (presented i)
    have hcontest := hstart.play schedule
    rw [hpool] at hcontest
    have hneeds : ∀ i, ∃ n, n + schedule.count (.call i) ≤ max 2 (schedule.count (.call i)) ∧
        Needs purpose recipient (presented i) n (pool.tasks i) := by
      intro i
      rw [← hpool]
      exact Needs.play hstart .asking schedule
    refine ⟨fun i hturns => ?_, fun i result => hcontest.accepted_iff, fun hover => ?_⟩
    · obtain ⟨n, hn, hi⟩ := hneeds i
      exact hi.eq_done (Or.inl (by omega))
    · have hsame : {i | pool.tasks i = .done (.ok true)} = rightful (codeKey purpose recipient)
          stored (world.clock + 1000 * ttl.toNat) presented pool.made := by
        ext i
        obtain ⟨n, -, hi⟩ := hneeds i
        obtain ⟨accepted, hdone⟩ := hi.eq_done (Or.inr (hover i))
        obtain ⟨_, hok, hiff⟩ := hcontest.accepted_iff hdone
        rw [← hiff, ← Except.ok.inj hok, Set.mem_ofPred_eq, hdone]
        simp
      rw [hsame]
  · have hstart : Contest purpose recipient stored (world.clock + 1000 * ttl.toNat)
        (fun j => (request j).code) (fun _ _ => True) (requests primitives request kept) :=
      Contest.start hafter hentry fun i => (request i).presents primitives purpose recipient
    have hcontest := hstart.play schedule
    rw [hpool] at hcontest
    refine ⟨fun i hspent => (hcontest.standing i).of_spent hspent, fun hover => ?_⟩
    rw [hcontest.removes_eq hover]

end Concurrent

/-- A code for signing in was sent to the account. -/
def coded : World :=
  (withAlice.run (put .login "1" "123456" 300)).2

/-- One attempt is through before the other one begins. -/
def oneByOne : Pool (Fin 2) (Except CacheError Bool) :=
  (spends .login "1" (fun _ => "123456") coded).play
    [.call 0, .call 0, .elapse 500, .call 1, .call 1]

/-- Both attempts read the code before either removes it. -/
def overlapping : Pool (Fin 2) (Except CacheError Bool) :=
  (spends .login "1" (fun _ => "123456") coded).play [.call 0, .call 1, .call 0, .call 1]

/-- Two logins in different scenes that present the same code. -/
def twoLogins (i : Fin 2) : Request :=
  .login "alice" "123456" (if i = 0 then .web else .ios) 60

/-- Both logins look the account up and read the code before either removes it. -/
def overlappingLogins : Pool (Fin 2) (Except LoginFailure (Option Opened)) :=
  (requests .standard twoLogins coded).play
    ([.call 0, .call 1, .call 0, .call 1] ++ List.replicate 8 (.call 0) ++
      List.replicate 8 (.call 1))

/-- Whether a request is over and has opened a session. -/
def HasOpened : Procedure (Except LoginFailure (Option Opened)) → Bool
  | .done (.ok (some _)) => true
  | _ => false

theorem spent_once_iff_oneByOne :
    withAlice.Calm ∧ withAlice.run (put .login "1" "123456" 300) = (.finished (.ok ()), coded) ∧
      AllOver oneByOne ∧ {i | oneByOne.tasks i = .done (.ok true)}.Subsingleton ∧
      oneByOne.tasks 0 = .done (.ok true) ∧ oneByOne.tasks 1 = .done (.ok false) := by
  have hcalm : withAlice.Calm := ⟨rfl, rfl⟩
  have hkept : withAlice.run (put .login "1" "123456" 300) = (.finished (.ok ()), coded) := rfl
  obtain ⟨hspends, -⟩ := spent_once_iff (ι := Fin 2) hcalm hkept rfl rfl
  obtain ⟨hthrough, -, honce⟩ := hspends (fun _ => "123456") _ (rfl : _ = oneByOne)
  have hdone : ∀ i, ∃ accepted, oneByOne.tasks i = .done (.ok accepted) :=
    fun i => hthrough i (by revert i; decide)
  have hover : AllOver oneByOne := by
    intro i call next hi
    obtain ⟨accepted, hdone⟩ := hdone i
    rw [hdone] at hi
    exact absurd hi (by simp)
  refine ⟨hcalm, hkept, hover, (honce hover).2 ?_, rfl, rfl⟩
  have hread : readInTime (codeKey .login "1") 300000 oneByOne.made = [0] := by decide +kernel
  intro i hi j hj
  have hi : i ∈ readInTime (codeKey .login "1") 300000 oneByOne.made := hi.2
  have hj : j ∈ readInTime (codeKey .login "1") 300000 oneByOne.made := hj.2
  rw [hread, List.mem_singleton] at hi hj
  rw [hi, hj]

/-- **One code can be spent twice.**  It is stored once; both attempts to spend it are
accepted, and two logins with it both open a session. -/
theorem spent_twice_overlapping :
    withAlice.run (put .login "1" "123456" 300) = (.finished (.ok ()), coded) ∧
      (∀ i, overlapping.tasks i = .done (.ok true)) ∧
      (∀ i, Removes (codeKey .login "1") overlappingLogins.made i) ∧
      ∀ i, HasOpened (overlappingLogins.tasks i) = true := by
  refine ⟨rfl, fun i => ?_, by decide +kernel, by decide +kernel⟩
  match i with
  | 0 => rfl
  | 1 => rfl

end OneTimeCode
end AccountAccess
