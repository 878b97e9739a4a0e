import AccountAccess.Proofs.Code.Request
import AccountAccess.Proofs.Service.Moments
import Mathlib.Data.Set.Function
import Mathlib.Tactic.IntervalCases

/-!
# Every effect has a code of its own

In a run codes are kept and requests present them one after the other, time passes, and
calls are made to fail in any way.  A request *achieves* something for an account if it
opens a session of the account or changes its password, even if it fails in the end.

Each such request is matched with the event that kept its code.  The match is the last event
that kept something at the place where the code was read: nothing else can have come there
since, because a code that is read by a request that achieves something is gone afterwards.
This is also why no two requests are matched with the same event.

## The shape of the argument

* An event does one of three things to the place of a code: it leaves it, it takes the code away, or
  it keeps another one there (`Event.code_entry`).
* So what is read at a moment *stands* there since the event that kept it (`Stands`), and this event
  is found by induction over the moments (`exists_stands`).
* A request that achieves something takes its code away.  If two were matched with one event, the
  code would still stand at the second one (`Stands.entry_ne_none`).

The first place is where faults matter: a request that fails after its code was spent has achieved
something or nothing, but the code is gone in either case.

## Main results

* `Request.Ends.of_achieves`: a request that achieves something has read its code for that account.
* `Request.Ends.of_isTurnedAway`: a request that is turned away changes nothing.
* `exists_stands`: a code that is read was kept by an event of the run.
* `exists_source`: an injective matching of what was achieved with the events that kept the codes.
-/

namespace AccountAccess
namespace OneTimeCode

open Session

/-! ## Events -/

/-- What happens in a run. -/
inductive Event where
  | put (purpose : CodePurpose) (recipient code : String) (ttl : UInt64)
  | request (request : Request)
  | elapse (milliseconds : Nat)
  /-- From now on calls fail in another way. -/
  | disturb (faults : CallKind → Option Fault) (isAvailable : Bool)

section Run

variable (primitives : Primitives)

/-- The surroundings after an event. -/
def Event.play (world : World) : Event → World
  | put purpose recipient code ttl => (world.run (OneTimeCode.put purpose recipient code ttl)).2
  | request r => (world.run (r.procedure primitives)).2
  | elapse milliseconds => world.advance milliseconds
  | disturb faults isAvailable => { world with faults, cache := { world.cache with isAvailable } }

/-- A request has achieved something for an account: it answered with a session of the
account, a token newly stands for the account, or its password is another one. -/
def Achieves (before after : World) (outcome : Outcome (Except LoginFailure (Option Opened)))
    (account : Int64) : Prop :=
  (∃ opened, outcome = .finished (.ok (some opened)) ∧ opened.account.id = account) ∨
    (∃ token scene, ownerOf after token = some ⟨account, scene⟩ ∧
      ownerOf before token ≠ some ⟨account, scene⟩) ∨
    after.store.passwordOf account ≠ before.store.passwordOf account

/-- The event of a run that achieves something for an account. -/
structure AchievesAt (world : World) (events : List Event) (n : ℕ) (request : Request)
    (account : Int64) : Prop where
  requested : events[n]? = some (.request request)
  achieved : Achieves (moment (Event.play primitives) world events n)
    ((moment (Event.play primitives) world events n).run (request.procedure primitives)).2
    ((moment (Event.play primitives) world events n).run (request.procedure primitives)).1 account

end Run

/-! ## What a request that achieves something has done -/

namespace Request.Ends

variable {request : Request} {before after : World}
  {outcome : Outcome (Except LoginFailure (Option Opened))} {account : Int64}

theorem clock (h : request.Ends before outcome after) : after.clock = before.clock := by
  cases h with
  | refused hclock _ _ => exact hclock
  | honoured _ _ _ hclock _ _ hacted _ _ => exact hacted.clock.trans hclock

/-- A code stays where it is or is gone. -/
theorem code_entry (h : request.Ends before outcome after) (purpose : CodePurpose)
    (recipient : String) :
    after.entry (codeKey purpose recipient) = before.entry (codeKey purpose recipient) ∨
      after.entry (codeKey purpose recipient) = none := by
  cases h with
  | refused _ hentry _ => exact Or.inl (congrFun hentry _)
  | honoured account _ _ _ _ hentry hacted _ _ =>
    rw [hacted.code_entry, hentry]
    by_cases hkey : codeKey purpose recipient = codeKey request.purpose (Text.decimal account)
    · rw [hkey, Function.update_self]
      exact Or.inr rfl
    · rw [Function.update_of_ne hkey]
      exact Or.inl rfl

/-- **A request that is turned away changes nothing.** -/
theorem of_isTurnedAway {failure : LoginFailure}
    (h : request.Ends before (.finished (.error failure)) after) (hfailure : IsTurnedAway failure) :
    after.entry = before.entry ∧ after.store = before.store := by
  generalize houtcome : Outcome.finished (Except.error failure) = outcome at h
  cases h with
  | refused _ hentry hstore => exact ⟨hentry, hstore⟩
  | honoured _ _ _ _ _ _ _ _ hnot => exact absurd hfailure (hnot failure houtcome.symm)

theorem not_achieves {failure : LoginFailure} (hclock : after.clock = before.clock)
    (hentry : after.entry = before.entry) (hstore : after.store = before.store) :
    ¬Achieves before after (.finished (.error failure)) account := by
  rintro (⟨opened, hopened, -⟩ | ⟨token, scene, howner, hnot⟩ | hpassword)
  · exact absurd hopened (by simp)
  · rw [ownerOf, World.reads_congr hclock (congrFun hentry _)] at howner
    exact hnot howner
  · exact hpassword (by rw [hstore])

/-- What has been achieved was done for the account. -/
theorem eq_of_achieves {spent : World} {actor : Int64} {key : String}
    (hkey : ∀ token, tokenKey token ≠ key) (hclock : spent.clock = before.clock)
    (hstore : spent.store = before.store)
    (hentry : spent.entry = Function.update before.entry key none)
    (hacted : ActedFor actor spent after)
    (hopened : ∀ opened, outcome = .finished (.ok (some opened)) → opened.account.id = actor)
    (h : Achieves before after outcome account) : account = actor := by
  rcases h with ⟨opened, houtcome, rfl⟩ | ⟨token, scene, howner, hnot⟩ | hpassword
  · exact hopened opened houtcome
  · rcases hacted.token_entry token with hsame | hnone | ⟨scene', deadline, hwritten⟩
    · -- an entry that is as before stands for whom it stood before
      rw [hentry, Function.update_of_ne (hkey token)] at hsame
      rw [ownerOf, World.reads_congr (hacted.clock.trans hclock) hsame] at howner
      exact absurd howner hnot
    · rw [ownerOf_eq_none hnone] at howner
      exact absurd howner (by simp)
    · rw [ownerOf_eq_ite hwritten] at howner
      split at howner
      · exact (congrArg SessionOwner.account (Option.some.inj howner)).symm
      · exact absurd howner (by simp)
  · by_contra hne
    exact hpassword ((hacted.password hne).trans (by rw [hstore]))

/-- **A request that achieves something has read its code for that account**, and the code is
gone. -/
theorem of_achieves (h : request.Ends before outcome after)
    (hachieves : Achieves before after outcome account) :
    request.code ≠ "" ∧
      before.reads (codeKey request.purpose (Text.decimal account)) = some request.code ∧
      after.entry (codeKey request.purpose (Text.decimal account)) = none ∧
      ∀ other, Achieves before after outcome other → other = account := by
  cases h with
  | refused hclock hentry hstore =>
    exact absurd hachieves (not_achieves hclock hentry hstore)
  | honoured actor hnonempty hread hclock hstore hentry hacted hopened _ =>
    have hactor : ∀ other, Achieves before after outcome other → other = actor := fun other =>
      eq_of_achieves (fun token => (codeKey_ne_tokenKey _ _ token).symm) hclock hstore hentry
        hacted hopened
    obtain rfl := hactor account hachieves
    refine ⟨hnonempty, hread, ?_, hactor⟩
    rw [hacted.code_entry, hentry, Function.update_self]

end Request.Ends

/-! ## One event -/

section Run

variable {primitives : Primitives} {world : World} {events : List Event} {n : ℕ}

/-- What an event does to a code: it leaves it, it takes it away, or it keeps another one in
its place. -/
theorem Event.code_entry (event : Event) (world : World) (purpose : CodePurpose)
    (recipient : String) :
    (event.play primitives world).entry (codeKey purpose recipient) =
        world.entry (codeKey purpose recipient) ∨
      (event.play primitives world).entry (codeKey purpose recipient) = none ∨
      ∃ code ttl, event = .put purpose recipient code ttl ∧
        (world.run (OneTimeCode.put purpose recipient code ttl)).1 = .finished (.ok ()) ∧
        (event.play primitives world).entry (codeKey purpose recipient) =
          some (.textUntil code (world.clock + 1000 * ttl.toNat)) := by
  cases event with
  | put purpose' recipient' code ttl =>
    obtain ⟨outcome, after, hrun, -, -, ⟨-, hentry⟩ | ⟨deadline, hok, hd, hentry⟩⟩ :=
      run_put_cases world purpose' recipient' code ttl
    · rw [Event.play, hrun]
      exact Or.inl (congrFun hentry _)
    · have hafter : Event.play primitives world (.put purpose' recipient' code ttl) = after := by
        rw [Event.play, hrun]
      rw [hafter, hentry]
      by_cases hkey : codeKey purpose recipient = codeKey purpose' recipient'
      · obtain ⟨rfl, rfl⟩ := codeKey_injective hkey
        refine Or.inr (Or.inr ⟨code, ttl, rfl, ?_, ?_⟩)
        · rw [hrun, hok]
        · rw [Function.update_self, World.eq_of_expiry? hd]
      · exact Or.inl (Function.update_of_ne hkey _ _)
  | request request =>
    exact ((request.run_cases primitives world).code_entry purpose recipient).imp id Or.inl
  | elapse milliseconds => exact Or.inl rfl
  | disturb faults isAvailable => exact Or.inl rfl

theorem Event.le_clock_play (event : Event) (world : World) :
    world.clock ≤ (event.play primitives world).clock := by
  cases event with
  | put purpose recipient code ttl =>
    obtain ⟨outcome, after, hrun, hclock, -⟩ := run_put_cases world purpose recipient code ttl
    rw [Event.play, hrun]
    exact Nat.le_of_eq hclock.symm
  | request request => exact Nat.le_of_eq (request.run_cases primitives world).clock.symm
  | elapse milliseconds => exact Nat.le_add_right _ _
  | disturb faults isAvailable => exact Nat.le_refl _

/-! ## Which event kept a code -/

/-- The code that an event kept stands at its place until another moment. -/
structure Stands (primitives : Primitives) (world : World) (events : List Event)
    (purpose : CodePurpose) (recipient code : String) (ttl : UInt64) (m n : ℕ) : Prop where
  earlier : m < n
  event : events[m]? = some (.put purpose recipient code ttl)
  succeeded : ((moment (Event.play primitives) world events m).run
    (OneTimeCode.put purpose recipient code ttl)).1 = .finished (.ok ())
  entry : ∀ j, m < j → j ≤ n →
    (moment (Event.play primitives) world events j).entry (codeKey purpose recipient) =
      some (.textUntil code
        ((moment (Event.play primitives) world events m).clock + 1000 * ttl.toNat))

/-- **A code that is read was kept by an event of the run**, if there was none at the start. -/
theorem exists_stands
    (hnone : ∀ purpose recipient, world.reads (codeKey purpose recipient) = none)
    (hn : n ≤ events.length) {purpose : CodePurpose} {recipient code : String}
    (hread : (moment (Event.play primitives) world events n).reads (codeKey purpose recipient) =
      some code) :
    ∃ ttl m, Stands primitives world events purpose recipient code ttl m n := by
  induction n with
  | zero =>
    have hstart : world.reads (codeKey purpose recipient) = some code := hread
    rw [hnone] at hstart
    exact absurd hstart (by simp)
  | succ n ih =>
    obtain ⟨event, hevent⟩ : ∃ event, events[n]? = some event :=
      ⟨events[n], List.getElem?_eq_getElem hn⟩
    have hsucc : moment (Event.play primitives) world events (n + 1) = _ :=
      moment_succ _ _ hevent
    rcases event.code_entry (moment (Event.play primitives) world events n) purpose recipient with
      hsame | hgone | ⟨code', ttl, rfl, hok, hkept⟩
    · -- the code was there before the event
      rw [← hsucc] at hsame
      have hclock : (moment (Event.play primitives) world events n).clock ≤
          (moment (Event.play primitives) world events (n + 1)).clock := by
        rw [hsucc]
        exact event.le_clock_play _
      obtain ⟨ttl, m, hstands⟩ := ih (Nat.le_of_succ_le hn)
        (World.reads_of_later hsame hclock hread)
      refine ⟨ttl, m, Nat.lt_succ_of_lt hstands.earlier, hstands.event, hstands.succeeded, ?_⟩
      intro j hmj hj
      rcases Nat.le_succ_iff.1 hj with hle | rfl
      · exact hstands.entry j hmj hle
      · rw [hsame]
        exact hstands.entry n hstands.earlier (Nat.le_refl n)
    · rw [← hsucc] at hgone
      rw [World.reads_eq_none hgone] at hread
      exact absurd hread (by simp)
    · -- the code was kept just now
      rw [← hsucc] at hkept
      have hcode : code' = code := by
        rw [World.reads_eq_ite hkept] at hread
        split at hread
        · exact Option.some.inj hread
        · exact absurd hread (by simp)
      subst hcode
      refine ⟨ttl, n, Nat.lt_succ_self n, hevent, hok, ?_⟩
      intro j hnj hj
      rw [Nat.le_antisymm hj hnj]
      exact hkept

theorem Stands.clock_lt {purpose : CodePurpose} {recipient code : String} {ttl : UInt64} {m : ℕ}
    (h : Stands primitives world events purpose recipient code ttl m n) {read : String}
    (hread : (moment (Event.play primitives) world events n).reads (codeKey purpose recipient) =
      some read) :
    (moment (Event.play primitives) world events n).clock <
      (moment (Event.play primitives) world events m).clock + 1000 * ttl.toNat := by
  rw [World.reads_eq_ite (h.entry n h.earlier (Nat.le_refl n))] at hread
  split at hread
  · assumption
  · exact absurd hread (by simp)

theorem Stands.entry_ne_none {purpose purpose' : CodePurpose}
    {recipient recipient' code code' : String} {ttl ttl' : UInt64} {m n' : ℕ}
    (h : Stands primitives world events purpose recipient code ttl m n)
    (h' : Stands primitives world events purpose' recipient' code' ttl' m n') (hlt : n < n') :
    (moment (Event.play primitives) world events (n + 1)).entry (codeKey purpose recipient) ≠
      none := by
  have hevent := h.event.symm.trans h'.event
  obtain ⟨rfl, rfl, -, -⟩ := Event.put.inj (Option.some.inj hevent)
  rw [h'.entry (n + 1) (Nat.lt_succ_of_lt h.earlier) hlt]
  simp

/-! ## The matching -/

/-- What is known of an event that achieves something: its code was kept by an event before
it, and is gone after it. -/
theorem AchievesAt.exists_stands
    (hnone : ∀ purpose recipient, world.reads (codeKey purpose recipient) = none)
    {request : Request} {account : Int64}
    (h : AchievesAt primitives world events n request account) :
    request.code ≠ "" ∧
      (moment (Event.play primitives) world events (n + 1)).entry
        (codeKey request.purpose (Text.decimal account)) = none ∧
      ∃ ttl m, Stands primitives world events request.purpose (Text.decimal account) request.code
          ttl m n ∧
        (moment (Event.play primitives) world events n).clock <
          (moment (Event.play primitives) world events m).clock + 1000 * ttl.toNat := by
  have hends := request.run_cases primitives (moment (Event.play primitives) world events n)
  obtain ⟨hnonempty, hread, hgone, -⟩ := hends.of_achieves h.achieved
  obtain ⟨hn, -⟩ := List.getElem?_eq_some_iff.1 h.requested
  obtain ⟨ttl, m, hstands⟩ := OneTimeCode.exists_stands hnone (Nat.le_of_lt hn) hread
  refine ⟨hnonempty, ?_, ttl, m, hstands, hstands.clock_lt hread⟩
  rw [moment_succ _ _ h.requested]
  exact hgone

theorem AchievesAt.unique {request request' : Request} {account account' : Int64}
    (h : AchievesAt primitives world events n request account)
    (h' : AchievesAt primitives world events n request' account') :
    request' = request ∧ account' = account := by
  have hrequest := h'.requested.symm.trans h.requested
  obtain rfl := Event.request.inj (Option.some.inj hrequest)
  have hends := request'.run_cases primitives (moment (Event.play primitives) world events n)
  obtain ⟨-, -, -, honly⟩ := hends.of_achieves h.achieved
  exact ⟨rfl, honly account' h'.achieved⟩

/-- **Every effect has a code of its own.**  In any run of keeping codes, of logins and new
passwords with codes and of time, where calls fail in any way, and which starts without
codes: each request that opens a session or changes a password is matched with an earlier
event that kept the code it presented, for the account and the purpose in question.  The
code is not empty and has not expired, and no two requests are matched with one event.

A request that is turned away, because nobody has the identifier, the new password is weak
or the code is wrong, leaves every entry and every row as it was. -/
theorem exists_source (primitives : Primitives)
    (hnone : ∀ purpose recipient, world.reads (codeKey purpose recipient) = none)
    (events : List Event) :
    (∃ source : ℕ → ℕ,
      (∀ n request account, AchievesAt primitives world events n request account →
        ∃ ttl, source n < n ∧
          events[source n]? =
            some (.put request.purpose (Text.decimal account) request.code ttl) ∧
          ((moment (Event.play primitives) world events (source n)).run
            (put request.purpose (Text.decimal account) request.code ttl)).1 =
              .finished (.ok ()) ∧
          request.code ≠ "" ∧
          (moment (Event.play primitives) world events n).clock <
            (moment (Event.play primitives) world events (source n)).clock + 1000 * ttl.toNat) ∧
      Set.InjOn source {n | ∃ request account,
        AchievesAt primitives world events n request account}) ∧
    ∀ n request failure, events[n]? = some (.request request) →
      ((moment (Event.play primitives) world events n).run (request.procedure primitives)).1 =
        .finished (.error failure) → IsTurnedAway failure →
      (moment (Event.play primitives) world events (n + 1)).entry =
          (moment (Event.play primitives) world events n).entry ∧
        (moment (Event.play primitives) world events (n + 1)).store =
          (moment (Event.play primitives) world events n).store := by
  constructor
  · have hmatch : ∀ n, ∃ m, ∀ request account,
        AchievesAt primitives world events n request account →
        request.code ≠ "" ∧
          (moment (Event.play primitives) world events (n + 1)).entry
            (codeKey request.purpose (Text.decimal account)) = none ∧
          ∃ ttl, Stands primitives world events request.purpose (Text.decimal account)
              request.code ttl m n ∧
            (moment (Event.play primitives) world events n).clock <
              (moment (Event.play primitives) world events m).clock + 1000 * ttl.toNat := by
      intro n
      by_cases hsome : ∃ request account, AchievesAt primitives world events n request account
      · obtain ⟨request, account, hachieves⟩ := hsome
        obtain ⟨hnonempty, hgone, ttl, m, hstands⟩ := hachieves.exists_stands hnone
        refine ⟨m, fun request' account' hachieves' => ?_⟩
        obtain ⟨rfl, rfl⟩ := hachieves.unique hachieves'
        exact ⟨hnonempty, hgone, ttl, hstands⟩
      · exact ⟨0, fun request account h => absurd ⟨request, account, h⟩ hsome⟩
    choose source hsource using hmatch
    refine ⟨source, fun n request account hachieves => ?_, ?_⟩
    · obtain ⟨hnonempty, -, ttl, hstands, hlive⟩ := hsource n request account hachieves
      exact ⟨ttl, hstands.earlier, hstands.event, hstands.succeeded, hnonempty, hlive⟩
    · -- the earlier of two requests takes away what the later one would have to read
      have hnot : ∀ n n', (∃ request account,
          AchievesAt primitives world events n request account) →
          (∃ request account, AchievesAt primitives world events n' request account) →
          source n = source n' → ¬n < n' := by
        rintro n n' ⟨request, account, h⟩ ⟨request', account', h'⟩ hsame hlt
        obtain ⟨-, hgone, ttl, hstands, -⟩ := hsource n request account h
        obtain ⟨-, -, ttl', hstands', -⟩ := hsource n' request' account' h'
        rw [hsame] at hstands
        exact hstands.entry_ne_none hstands' hlt hgone
      intro n hn n' hn' hsame
      have hle := Nat.not_lt.1 (hnot n n' hn hn' hsame)
      have hge := Nat.not_lt.1 (hnot n' n hn' hn hsame.symm)
      omega
  · intro n request failure hrequest hfailure hturned
    have hends := request.run_cases primitives (moment (Event.play primitives) world events n)
    rw [hfailure] at hends
    rw [moment_succ _ _ hrequest]
    exact hends.of_isTurnedAway hturned

end Run

/-- Two codes are kept for one account.  The one for new passwords is presented for a login,
which is turned away, and then each is presented for its own purpose while the row of the
account cannot be stamped. -/
def twoCodes : List Event :=
  [.put .login "1" "123456" 300,
   .put .resetPassword "1" "654321" 300,
   .request (.login "alice" "654321" .web 60),
   .disturb (fun kind => if kind = .storeSetLastLogin then some ⟨0, .timedOut⟩ else none) true,
   .elapse 5000,
   .request (.login "alice" "123456" .web 60),
   .request (.reset "alice" "654321" "Abcdef34")]

theorem exists_source_twoCodes :
    (∀ purpose recipient, withAlice.reads (codeKey purpose recipient) = none) ∧
      AchievesAt plain withAlice twoCodes 5 (.login "alice" "123456" .web 60) 1 ∧
      AchievesAt plain withAlice twoCodes 6 (.reset "alice" "654321" "Abcdef34") 1 ∧
      (∃ source : ℕ → ℕ, source 5 = 0 ∧ source 6 = 1 ∧
        Set.InjOn source {n | ∃ request account,
          AchievesAt plain withAlice twoCodes n request account}) ∧
      (moment (Event.play plain) withAlice twoCodes 3).entry =
        (moment (Event.play plain) withAlice twoCodes 2).entry := by
  have hnone : ∀ purpose recipient, withAlice.reads (codeKey purpose recipient) = none :=
    fun purpose recipient => World.reads_eq_none Std.ExtTreeMap.getElem?_empty
  have hlogin : AchievesAt plain withAlice twoCodes 5 (.login "alice" "123456" .web 60) 1 := by
    refine ⟨rfl, Or.inl ⟨⟨MemoryStore.alice, freshToken (Vector.replicate 16 0), ⟨60, 0⟩⟩, ?_, rfl⟩⟩
    decide +kernel
  have hreset : AchievesAt plain withAlice twoCodes 6 (.reset "alice" "654321" "Abcdef34") 1 := by
    refine ⟨rfl, Or.inr (Or.inr ?_)⟩
    decide +kernel
  obtain ⟨⟨source, hsource, honce⟩, hturned⟩ := exists_source plain hnone twoCodes
  have hfirst : source 5 = 0 := by
    obtain ⟨ttl, hlt, hevent, -⟩ := hsource 5 _ 1 hlogin
    interval_cases source 5
    · rfl
    all_goals exact absurd hevent (by simp [twoCodes, Request.purpose])
  have hsecond : source 6 = 1 := by
    obtain ⟨ttl, hlt, hevent, -⟩ := hsource 6 _ 1 hreset
    interval_cases source 6
    · exact absurd hevent (by simp [twoCodes, Request.purpose])
    · rfl
    all_goals exact absurd hevent (by simp [twoCodes, Request.purpose])
  refine ⟨hnone, hlogin, hreset, ⟨source, hfirst, hsecond, honce⟩, ?_⟩
  exact (hturned 2 (.login "alice" "654321" .web 60) .invalidCode rfl (by decide +kernel)
    (Or.inr (Or.inr rfl))).1

end OneTimeCode
end AccountAccess
