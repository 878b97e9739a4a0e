import AccountAccess.Proofs.Service.Moments
import AccountAccess.Proofs.Session.Verdict

/-!
# How stale an identity can be

An identity may rest on a snapshot, which the store may have left behind.  In a run requests
are made one after the other, while the store is edited, calls are made to fail, others use
the cache and time passes.  Using a snapshot does not make it younger, and an event keeps a
snapshot only with the row that the store has at that very moment.  So by induction over the
run every snapshot is the row of an earlier moment, with the time of that moment; and a
snapshot is used for as long as snapshots live, counted from there.

How many snapshots there is room for does not matter.  With less room more accounts are fetched
anew, and an account that is fetched is the row of now.

## Main results

* `Event.mem_snapshots`: no event makes a snapshot of anything but the row of now.
* `exists_moment_of_mem`: every snapshot was the row of an earlier moment.
* `exists_moment_of_accountFor`: the account found for an id is the row of now or of a moment that
  is less than the life of a snapshot ago.
* `exists_recent_row`: no identity is older than a snapshot can be, so an account that is disabled
  or deleted is let in for the last time before that long has passed.
-/

namespace AccountAccess
namespace Session
namespace Staleness

open Http (Headers)

/-! ## Runs -/

/-- What happens in a run. -/
inductive Event where
  /-- Somebody makes a request. -/
  | request (headers : Headers)
  /-- The store is edited. -/
  | edit (change : MemoryStore → MemoryStore)
  /-- From now on other calls fail, and others have used the cache. -/
  | disturb (faults : CallKind → Option Fault) (cache : MemoryCache)
  | elapse (milliseconds : Nat)

/-- The surroundings after an event. -/
def Event.play (world : World) : Event → World
  | request headers => (world.run (identify headers)).2
  | edit change => { world with store := change world.store }
  | disturb faults cache => { world with faults, cache }
  | elapse milliseconds => world.advance milliseconds

/-- An event of a run is a request that is given an identity. -/
def AcceptsAt (start : World) (events : List Event) (n : ℕ) (identity : Identity) : Prop :=
  ∃ headers, events[n]? = some (.request headers) ∧
    ((moment Event.play start events n).run (identify headers)).1 = .finished (.ok identity)

variable {start world : World} {events : List Event} {n : ℕ}

/-! ## One event -/

/-- **No event makes a snapshot of anything but the row of now.** -/
theorem Event.mem_snapshots (event : Event) {kept : Snapshot}
    (h : kept ∈ (event.play world).snapshots.entries) :
    kept ∈ world.snapshots.entries ∨
      (kept.fetchedAt = world.clock ∧ world.store.account? kept.id = some kept.account) := by
  cases event with
  | request headers =>
    obtain ⟨verdict, after, hrun, -, hlooks, -⟩ := run_identify world headers
    rw [Event.play, hrun] at h
    exact hlooks.kept kept h
  | edit change => exact Or.inl h
  | disturb faults cache => exact Or.inl h
  | elapse milliseconds => exact Or.inl h

theorem Event.ttl_play (event : Event) (world : World) :
    (event.play world).snapshots.ttl = world.snapshots.ttl := by
  cases event with
  | request headers =>
    obtain ⟨verdict, after, hrun, -, hlooks, -⟩ := run_identify world headers
    rw [Event.play, hrun]
    exact hlooks.ttl
  | edit change => rfl
  | disturb faults cache => rfl
  | elapse milliseconds => rfl

theorem Event.le_clock_play (world : World) (event : Event) :
    world.clock ≤ (event.play world).clock := by
  cases event with
  | request headers =>
    obtain ⟨verdict, after, hrun, -, hlooks, -⟩ := run_identify world headers
    rw [Event.play, hrun]
    exact Nat.le_of_eq hlooks.clock.symm
  | edit change => exact Nat.le_refl _
  | disturb faults cache => exact Nat.le_refl _
  | elapse milliseconds => exact Nat.le_add_right _ _

/-! ## Runs of events -/

theorem ttl_moment (start : World) (events : List Event) (n : ℕ) :
    (moment Event.play start events n).snapshots.ttl = start.snapshots.ttl :=
  moment_keeps (fun world => world.snapshots.ttl = start.snapshots.ttl) (Nat.zero_le n) rfl
    fun _ event _ _ _ httl => (event.ttl_play _).trans httl

/-- **Every snapshot was the row of an earlier moment**, and bears the time of that moment. -/
theorem exists_moment_of_mem (hempty : start.snapshots.entries = []) (hn : n ≤ events.length)
    {kept : Snapshot} (hkept : kept ∈ (moment Event.play start events n).snapshots.entries) :
    ∃ m ≤ n, kept.fetchedAt = (moment Event.play start events m).clock ∧
      (moment Event.play start events m).store.account? kept.id = some kept.account := by
  induction n with
  | zero =>
    have hnone : kept ∈ start.snapshots.entries := hkept
    rw [hempty] at hnone
    exact absurd hnone List.not_mem_nil
  | succ n ih =>
    rw [moment_succ _ _ (List.getElem?_eq_getElem hn)] at hkept
    rcases Event.mem_snapshots _ hkept with hold | ⟨hfetched, hrow⟩
    · obtain ⟨m, hmn, hwhence⟩ := ih (Nat.le_of_succ_le hn) hold
      exact ⟨m, Nat.le_succ_of_le hmn, hwhence⟩
    · exact ⟨n, Nat.le_succ n, hfetched, hrow⟩

/-- The account that is found for an id is the row of now, or of a moment that is less than the
life of a snapshot ago. -/
theorem exists_moment_of_accountFor (hempty : start.snapshots.entries = [])
    (hn : n ≤ events.length) {id : Int64} {account : Account}
    (h : accountFor (moment Event.play start events n) id = some account) :
    ∃ m ≤ n, (moment Event.play start events m).store.account? id = some account ∧
      (m = n ∨ (moment Event.play start events n).clock <
        (moment Event.play start events m).clock + start.snapshots.ttl) := by
  rcases Option.or_eq_some_iff.1 h with hyoung | ⟨-, hrow⟩
  · obtain ⟨kept, hfound, hage, rfl⟩ := Snapshots.young?_eq_some_iff.1 hyoung
    obtain ⟨hmem, rfl⟩ := Snapshots.of_find? hfound
    obtain ⟨m, hmn, hfetched, hrow⟩ := exists_moment_of_mem hempty hn hmem
    have hclock := clock_moment_le Event.le_clock_play start events hmn
    rw [hfetched, ttl_moment] at hage
    exact ⟨m, hmn, hrow, Or.inr (by omega)⟩
  · split at hrow
    · exact absurd hrow (by simp)
    · exact ⟨n, Nat.le_refl n, hrow, Or.inl rfl⟩

/-- What an identity rests on: a session, and an account that was found for it. -/
theorem AcceptsAt.exists_owner {identity : Identity} (h : AcceptsAt start events n identity) :
    n ≤ events.length ∧ ∃ owner,
      sessionOf (moment Event.play start events n) identity.token = some owner ∧
      accountFor (moment Event.play start events n) owner.account = some identity.account ∧
      identity.account.status = .enabled := by
  obtain ⟨headers, hrequest, haccepted⟩ := h
  obtain ⟨hn, -⟩ := List.getElem?_eq_some_iff.1 hrequest
  obtain ⟨verdict, after, hrun, hverdict, -⟩ :=
    run_identify (moment Event.play start events n) headers
  rw [hrun] at haccepted
  obtain rfl : verdict = .ok identity := Outcome.finished.inj haccepted
  cases hverdict with
  | @identified token owner account hshows haccount hkept henabled =>
    exact ⟨Nat.le_of_lt hn, owner, hshows.session_eq, haccount, henabled⟩

/-- **No identity is older than a snapshot can be.**  Take any run of requests, edits of the
store, failing calls, use of the cache by others and passing time, which starts without
snapshots.  Whenever a request is given an identity, its account is the row that the store had
for the id of the session, either right now or at an earlier moment that is less than the life
of a snapshot ago.

So once the store has had no usable row for an id for as long as a snapshot lives, no request
with a session of that id is let in. -/
theorem exists_recent_row (hempty : start.snapshots.entries = []) (events : List Event) :
    (∀ n identity, AcceptsAt start events n identity →
      ∃ owner, sessionOf (moment Event.play start events n) identity.token = some owner ∧
        ∃ m ≤ n, (moment Event.play start events m).store.account? owner.account =
            some identity.account ∧
          (moment Event.play start events m).clock ≤ (moment Event.play start events n).clock ∧
          (m = n ∨ (moment Event.play start events n).clock <
            (moment Event.play start events m).clock + start.snapshots.ttl) ∧
          ((moment Event.play start events m).store.Filed →
            identity.account.id = owner.account)) ∧
    ∀ edited n id, edited ≤ n →
      (∀ m, edited ≤ m → m ≤ n → ∀ account,
        (moment Event.play start events m).store.account? id = some account →
          account.status ≠ .enabled) →
      (moment Event.play start events edited).clock + start.snapshots.ttl ≤
        (moment Event.play start events n).clock →
      ∀ identity scene, AcceptsAt start events n identity →
        sessionOf (moment Event.play start events n) identity.token ≠ some ⟨id, scene⟩ := by
  constructor
  · intro n identity haccepts
    obtain ⟨hn, owner, hsession, haccount, -⟩ := haccepts.exists_owner
    obtain ⟨m, hmn, hrow, hage⟩ := exists_moment_of_accountFor hempty hn haccount
    refine ⟨owner, hsession, m, hmn, hrow, clock_moment_le Event.le_clock_play _ _ hmn, hage, ?_⟩
    intro hfiled
    exact hfiled.id_of_account? hrow
  · intro edited n id hedited hunusable hold identity scene haccepts hnames
    obtain ⟨hn, owner, hsession, haccount, henabled⟩ := haccepts.exists_owner
    obtain rfl : owner = ⟨id, scene⟩ := Option.some.inj (hsession.symm.trans hnames)
    obtain ⟨m, hmn, hrow, hage⟩ := exists_moment_of_accountFor hempty hn haccount
    -- the row was usable at the moment `m`, so that moment lies before the edit
    have hearlier : m < edited := by
      by_contra hlate
      exact hunusable m (Nat.not_lt.1 hlate) hmn identity.account hrow henabled
    have hclock := clock_moment_le Event.le_clock_play start events (Nat.le_of_lt hearlier)
    rcases hage with rfl | hyoung
    · omega
    · omega

/-- An account is disabled while it has a session and a snapshot that lives ten seconds. -/
def disabledInBetween : List Event :=
  let request := Event.request (showing "first" (Text.toBytes "Web"))
  [request, .edit (·.setStatus 1 .disabled), .elapse 9999, request, .elapse 1, request]

/-- The surroundings of this run at its start. -/
def keepingTenSeconds : World :=
  { signedInOnce with snapshots := Snapshots.empty 1 10000 }

/-- The account is let in for the last time just before its snapshot is too old. -/
theorem exists_recent_row_disabledInBetween :
    keepingTenSeconds.snapshots.entries = [] ∧
      AcceptsAt keepingTenSeconds disabledInBetween 3
        (.ofAccount MemoryStore.alice .web "first") ∧
      (∃ m ≤ 3, (moment Event.play keepingTenSeconds disabledInBetween m).store.account? 1 =
          some MemoryStore.alice ∧
        9999 < (moment Event.play keepingTenSeconds disabledInBetween m).clock + 10000) ∧
      ∀ identity scene, AcceptsAt keepingTenSeconds disabledInBetween 5 identity →
        sessionOf (moment Event.play keepingTenSeconds disabledInBetween 5) identity.token ≠
          some ⟨1, scene⟩ := by
  have hempty : keepingTenSeconds.snapshots.entries = [] := rfl
  have haccepts : AcceptsAt keepingTenSeconds disabledInBetween 3
      (.ofAccount MemoryStore.alice .web "first") := by
    refine ⟨_, rfl, ?_⟩
    decide +kernel
  obtain ⟨hrecent, hdisabled⟩ := exists_recent_row hempty disabledInBetween
  refine ⟨hempty, haccepts, ?_, hdisabled 2 5 1 (by decide) ?_ ?_⟩
  · obtain ⟨owner, hsession, m, hm, hrow, -, hage, -⟩ := hrecent 3 _ haccepts
    have howner : sessionOf (moment Event.play keepingTenSeconds disabledInBetween 3) "first" =
        some ⟨1, .web⟩ := by
      decide +kernel
    obtain rfl : owner = ⟨1, .web⟩ := Option.some.inj (hsession.symm.trans howner)
    have hclock : (moment Event.play keepingTenSeconds disabledInBetween 3).clock = 9999 := by
      decide +kernel
    refine ⟨m, hm, hrow, ?_⟩
    rcases hage with rfl | hyoung
    · omega
    · rwa [hclock] at hyoung
  · intro m hlow hhigh account hrow
    have hnone : ∀ m < 6, 2 ≤ m →
        ((moment Event.play keepingTenSeconds disabledInBetween m).store.account? 1).all
          (·.status ≠ .enabled) = true := by
      decide +kernel
    simpa [hrow] using hnone m (Nat.lt_succ_of_le hhigh) hlow
  · decide +kernel

end Staleness
end Session
end AccountAccess
