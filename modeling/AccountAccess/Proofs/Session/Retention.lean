import AccountAccess.Proofs.Cache.Recency
import AccountAccess.Proofs.Service.Effects
import AccountAccess.Proofs.Service.Moments
import AccountAccess.Proofs.Store.Accounts
import AccountAccess.Session.Identity
import Mathlib.Data.Finset.Option

/-!
# Which fetches a look-up remembers

An account is looked up among the snapshots, and is fetched only if there is no young one.
How it is fetched is left open here: by any calls but those about snapshots, with any end.  In
a run accounts are looked up one after the other while time passes.

Two invariants carry the results.  Every snapshot is what the last fetch for its id came to,
with the time of that fetch; so a fetch that comes to no account leaves no snapshot, and a
look-up that does not fetch answers with the last fetch.  And what was looked up last stands in
front, with only those ids in front of it later on that were looked up since; so it stays for as
long as these are fewer than there is room for.

## Main definitions and results

* `run_with_snapshots`: a procedure that is not about snapshots does what it does whichever there
  are, so what is fetched can be told without them.
* `Visit`, `visit`: what a look-up can come to, and that every look-up is a visit.
* `Event`, `FindsAt`, `AnswersAt`, `FetchedAt`, `LastFetched`: runs of look-ups.
* `exists_lastFetched`: every snapshot is what the last fetch for its id came to.
* `keptBehind_moment`: a snapshot is kept while fewer ids are looked up than there is room for.
* `exists_recent_fetch`, `answersAt_again`, `find?_eq_none_of_fetchedAt`: the parts of the theorem.
* `remembers_last_fetch`: look-ups remember the last fetch, while there is room, and only accounts.
-/

namespace AccountAccess

/-! ## Procedures that leave the snapshots alone -/

/-- The calls that are about anything but snapshots. -/
def ServiceCall.SparesSnapshots : ServiceCall → Prop
  | retrieve _ | remember .. => False
  | _ => True

namespace World

theorem strike_with_snapshots (world : World) (kind : CallKind) (snapshots : Snapshots) :
    ({ world with snapshots } : World).strike kind =
      ((world.strike kind).1, { (world.strike kind).2 with snapshots }) := by
  simp only [strike]
  rcases world.faults kind with _ | ⟨_ | passes, cause⟩
  · rfl
  · rfl
  · rfl

/-- A call that is not about snapshots does what it does whichever there are, and leaves them. -/
theorem answer_with_snapshots {call : ServiceCall} (h : call.SparesSnapshots) (world : World)
    (snapshots : Snapshots) :
    World.answer call { world with snapshots } =
      ((World.answer call world).1, { (World.answer call world).2 with snapshots }) := by
  cases call with
  | cache call =>
    have hstrike : (({ world with snapshots } : World).noted (.cache call)).strike call.kind = _ :=
      (world.noted (.cache call)).strike_with_snapshots call.kind snapshots
    simp only [World.answer, World.answerCache, hstrike]
    rcases (world.noted (.cache call)).strike call.kind with ⟨_ | cause, struck⟩
    · dsimp only
      rcases struck.cache.answer struck.clock call with ⟨_ | answer, cache⟩
      · rfl
      · rfl
    · rfl
  | store call =>
    have hstrike : (({ world with snapshots } : World).noted (.store call)).strike call.kind = _ :=
      (world.noted (.store call)).strike_with_snapshots call.kind snapshots
    simp only [World.answer, World.answerStore, hstrike]
    rcases (world.noted (.store call)).strike call.kind with ⟨_ | cause, struck⟩
    · rfl
    · rfl
  | retrieve id => exact h.elim
  | remember id account => exact h.elim
  | now => rfl
  | random => rfl

/-- **A procedure of such calls** does what it does whichever snapshots there are. -/
theorem run_with_snapshots {α : Type} {procedure : Procedure α} {Q : α → Prop}
    (h : procedure.Every ServiceCall.SparesSnapshots Q) (world : World) (snapshots : Snapshots) :
    ({ world with snapshots } : World).run procedure =
      ((world.run procedure).1, { (world.run procedure).2 with snapshots }) := by
  induction procedure generalizing world with
  | done a => rfl
  | abort => rfl
  | ask call next ih =>
    have hanswer := answer_with_snapshots h.1 world snapshots
    simp only [run, Dialogue.run, hanswer]
    rcases World.answer call world with ⟨answer | _, after⟩
    · exact ih answer (h.2 answer) after
    · rfl

end World

namespace Session
namespace Retention

/-! ## One look-up -/

/-- A way to fetch an account. -/
structure Fetch where
  procedure : Procedure (Except StoreError (Option Account))
  spares : procedure.Every ServiceCall.SparesSnapshots fun _ => True

/-- How a fetch or a look-up ends: with an answer, or by giving up. -/
abbrev Found := Outcome (Except StoreError (Option Account))

/-- A look-up finds an account. -/
abbrev Found.account (account : Account) : Found :=
  .finished (.ok (some account))

/-- A look-up that is made now has to fetch: it gives up if fetching does. -/
def Fetches (world : World) (id : Int64) : Prop :=
  (world.run (findAccount id .abort)).1 = .aborted
  deriving Decidable

/-- **What a look-up comes to**, and the snapshots it leaves. -/
inductive Visit (world : World) (id : Int64) (fetch : Fetch) : Found → Snapshots → Prop where
  | kept {kept : Snapshot} (hfound : world.snapshots.find? id = some kept)
      (hyoung : world.clock - kept.fetchedAt < world.snapshots.ttl) :
      Visit world id fetch (Found.account kept.account) (world.snapshots.retrieve world.clock id).2
  | fetched {account : Account} (hnone : world.snapshots.young? world.clock id = none)
      (hfetch : (world.run fetch.procedure).1 = Found.account account) :
      Visit world id fetch (Found.account account)
        ((world.snapshots.retrieve world.clock id).2.remember world.clock id account)
  | missed {found : Found} (hnone : world.snapshots.young? world.clock id = none)
      (hfetch : (world.run fetch.procedure).1 = found)
      (hnothing : ∀ account, found ≠ Found.account account) :
      Visit world id fetch found (world.snapshots.retrieve world.clock id).2

/-- **Every look-up is such a visit.** -/
theorem visit (world : World) (id : Int64) (fetch : Fetch) :
    Visit world id fetch (world.run (findAccount id fetch.procedure)).1
      (world.run (findAccount id fetch.procedure)).2.snapshots := by
  let looked : Snapshots := (world.snapshots.retrieve world.clock id).2
  have hlook : world.run (Procedure.retrieve id) =
      (.finished (world.snapshots.young? world.clock id), { world with snapshots := looked }) := by
    rw [← Snapshots.fst_retrieve]
    rfl
  rw [findAccount, World.run_bind hlook]
  cases hyoung : world.snapshots.young? world.clock id with
  | some account =>
    obtain ⟨kept, hfound, hage, rfl⟩ := Snapshots.young?_eq_some_iff.1 hyoung
    exact .kept hfound hage
  | none =>
    have hfetch := World.run_with_snapshots fetch.spares world looked
    rcases hrun : world.run fetch.procedure with ⟨found, after⟩
    rw [hrun] at hfetch
    have hend : (world.run fetch.procedure).1 = found := congrArg Prod.fst hrun
    match found with
    | .aborted =>
      have hnothing : ∀ account, (.aborted : Found) ≠ Found.account account := by simp
      rw [World.run_bind_of_aborted hfetch]
      exact .missed hyoung hend hnothing
    | .finished (.error e) =>
      have hnothing : ∀ account, (.finished (.error e) : Found) ≠ Found.account account := by simp
      rw [World.run_bind hfetch]
      exact .missed hyoung hend hnothing
    | .finished (.ok none) =>
      have hnothing : ∀ account, (.finished (.ok none) : Found) ≠ Found.account account := by simp
      rw [World.run_bind hfetch]
      exact .missed hyoung hend hnothing
    | .finished (.ok (some account)) =>
      rw [World.run_bind hfetch]
      have hclock : after.clock = world.clock := by
        rw [← world.clock_run fetch.procedure, hrun]
      have hremember : ({ after with snapshots := looked } : World).run
          (do Procedure.remember id account; return .ok (some account)) =
            (Found.account account,
              { after with snapshots := looked.remember after.clock id account }) := rfl
      rw [hremember, hclock]
      exact .fetched hyoung hend

section Visit

variable {world : World} {id : Int64} {fetch : Fetch} {found : Found} {snapshots : Snapshots}
  {kept : Snapshot}

/-- A look-up has to fetch if there is no young snapshot. -/
theorem fetches_iff : Fetches world id ↔ world.snapshots.young? world.clock id = none := by
  have hvisit : Visit world id ⟨.abort, trivial⟩ (world.run (findAccount id .abort)).1
      (world.run (findAccount id .abort)).2.snapshots := visit world id ⟨.abort, trivial⟩
  rw [Fetches]
  generalize (world.run (findAccount id .abort)).1 = found at hvisit ⊢
  generalize (world.run (findAccount id .abort)).2.snapshots = snapshots at hvisit
  cases hvisit with
  | kept hfound hyoung => simp [Snapshots.young?_of_find? hfound hyoung, Found.account]
  | fetched hnone hfetch => exact absurd hfetch nofun
  | missed hnone hfetch => exact iff_of_true hfetch.symm hnone

theorem not_fetches_of_find? (hfound : world.snapshots.find? id = some kept)
    (hyoung : world.clock - kept.fetchedAt < world.snapshots.ttl) : ¬Fetches world id := by
  rw [fetches_iff, Snapshots.young?_of_find? hfound hyoung]
  nofun

theorem Visit.maintains (h : Visit world id fetch found snapshots) :
    Snapshots.Maintains world.snapshots snapshots := by
  cases h with
  | kept => exact .retrieve _ _ _
  | fetched => exact (Snapshots.Maintains.retrieve _ _ _).trans (.remember _ _ _ _)
  | missed => exact .retrieve _ _ _

/-- **A visit that fetches** comes to what the fetch comes to. -/
theorem Visit.eq_of_fetches (h : Visit world id fetch found snapshots)
    (hfetches : Fetches world id) : found = (world.run fetch.procedure).1 := by
  cases h with
  | kept hfound hyoung => exact absurd hfetches (not_fetches_of_find? hfound hyoung)
  | fetched hnone hfetch => exact hfetch.symm
  | missed hnone hfetch => exact hfetch.symm

/-- **A visit that does not fetch** comes to the account of a young snapshot. -/
theorem Visit.exists_of_not_fetches (h : Visit world id fetch found snapshots)
    (hfetches : ¬Fetches world id) :
    ∃ kept ∈ world.snapshots.entries, kept.id = id ∧ found = Found.account kept.account ∧
      world.clock - kept.fetchedAt < world.snapshots.ttl := by
  cases h with
  | @kept kept hfound hyoung =>
    obtain ⟨hmem, hid⟩ := Snapshots.of_find? hfound
    exact ⟨kept, hmem, hid, rfl, hyoung⟩
  | fetched hnone => exact absurd (fetches_iff.2 hnone) hfetches
  | missed hnone => exact absurd (fetches_iff.2 hnone) hfetches

/-- **Where a snapshot comes from**: it was there and has not been replaced, or it is what has
just been fetched. -/
theorem Visit.mem_cases (h : Visit world id fetch found snapshots)
    (hmem : kept ∈ snapshots.entries) :
    (kept ∈ world.snapshots.entries ∧ (kept.id = id → ¬Fetches world id)) ∨
      (Fetches world id ∧ (world.run fetch.procedure).1 = Found.account kept.account ∧
        kept.id = id ∧ kept.fetchedAt = world.clock) := by
  have hlooked (hnone : world.snapshots.young? world.clock id = none)
      (hmem : kept ∈ (world.snapshots.retrieve world.clock id).2.entries) :
      kept ∈ world.snapshots.entries ∧ (kept.id = id → ¬Fetches world id) := by
    refine ⟨Snapshots.mem_of_mem_retrieve hmem, fun hid => ?_⟩
    rw [Snapshots.snd_retrieve_of_none hnone] at hmem
    exact absurd hid (Snapshots.id_ne_of_mem_without hmem)
  cases h with
  | kept hfound hyoung =>
    exact Or.inl ⟨Snapshots.mem_of_mem_retrieve hmem, fun _ => not_fetches_of_find? hfound hyoung⟩
  | fetched hnone hfetch =>
    rcases Snapshots.mem_of_mem_remember hmem with rfl | hold
    · exact Or.inr ⟨fetches_iff.2 hnone, hfetch, rfl, rfl⟩
    · exact Or.inl (hlooked hnone hold)
  | missed hnone hfetch => exact Or.inl (hlooked hnone hmem)

/-- After a visit that comes to an account, its snapshot is at the front. -/
theorem Visit.exists_keptBehind {account : Account}
    (h : Visit world id fetch (Found.account account) snapshots)
    (horderly : world.snapshots.Orderly) (hroom : 0 < world.snapshots.capacity) :
    ∃ kept, kept.id = id ∧ kept.account = account ∧
      Snapshots.KeptBehind snapshots.entries ∅ kept := by
  generalize hfound : Found.account account = found at h
  cases h with
  | @kept kept hfind hyoung =>
    obtain rfl : account = kept.account := by simpa [Found.account] using hfound
    refine ⟨kept, (Snapshots.of_find? hfind).2, rfl, ?_⟩
    rw [Snapshots.snd_retrieve_of_young hfind hyoung]
    exact .head _ _
  | @fetched account' hnone hfetch =>
    obtain rfl : account = account' := by simpa [Found.account] using hfound
    have hlooked := Snapshots.Maintains.retrieve world.snapshots world.clock id
    refine ⟨⟨id, world.clock, account⟩, rfl, rfl, ?_⟩
    exact Snapshots.keptBehind_remember (hlooked.orderly horderly) (hlooked.capacity ▸ hroom) _ _ _
  | missed hnone hfetch hnothing => exact absurd hfound.symm (hnothing account)

/-- **A visit of another id** puts that one in front, and takes nothing away while there is
room. -/
theorem Visit.keptBehind (h : Visit world id fetch found snapshots) {ids : Finset Int64}
    (hkept : Snapshots.KeptBehind world.snapshots.entries ids kept) (hne : kept.id ≠ id)
    (horderly : world.snapshots.Orderly)
    (hroom : (insert id ids).card < world.snapshots.capacity) :
    Snapshots.KeptBehind snapshots.entries (insert id ids) kept := by
  have hlooked := hkept.retrieve hne world.clock
  cases h with
  | kept => exact hlooked
  | fetched hnone hfetch =>
    have hmaintains := Snapshots.Maintains.retrieve world.snapshots world.clock id
    rw [← Finset.insert_idem id ids] at hroom ⊢
    exact hlooked.remember hne (hmaintains.orderly horderly) (hmaintains.capacity ▸ hroom) _ _
  | missed => exact hlooked

end Visit

/-! ## Runs -/

/-- What happens in a run. -/
inductive Event where
  /-- An account is looked up; this is how it would be fetched. -/
  | find (id : Int64) (fetch : Fetch)
  | elapse (milliseconds : Nat)

namespace Event

/-- The surroundings after an event. -/
def play (world : World) : Event → World
  | find id fetch => (world.run (findAccount id fetch.procedure)).2
  | elapse milliseconds => world.advance milliseconds

/-- The id that is looked up. -/
def id? : Event → Option Int64
  | find id _ => some id
  | elapse _ => none

end Event

/-- The ids that are looked up from one event on and before another. -/
def requested (events : List Event) (p n : ℕ) : Finset Int64 :=
  (((events.take n).drop p).filterMap Event.id?).toFinset

/-- An event looks an id up. -/
def FindsAt (events : List Event) (n : ℕ) (id : Int64) : Prop :=
  events[n]?.bind Event.id? = some id
  deriving Decidable

/-- An event looks an id up, and this is what the look-up comes to. -/
def AnswersAt (start : World) (events : List Event) (n : ℕ) (id : Int64) (found : Found) : Prop :=
  ∃ fetch, events[n]? = some (.find id fetch) ∧
    ((moment Event.play start events n).run (findAccount id fetch.procedure)).1 = found

/-- An event looks an id up and has to fetch, and this is what the fetch comes to. -/
def FetchedAt (start : World) (events : List Event) (n : ℕ) (id : Int64) (found : Found) : Prop :=
  ∃ fetch, events[n]? = some (.find id fetch) ∧ Fetches (moment Event.play start events n) id ∧
    ((moment Event.play start events n).run fetch.procedure).1 = found

/-- The last fetch for an id before an event, and what it came to. -/
structure LastFetched (start : World) (events : List Event) (id : Int64) (n m : ℕ)
    (found : Found) : Prop where
  before : m < n
  fetched : FetchedAt start events m id found
  last : ∀ k, m < k → k < n → ∀ other, ¬FetchedAt start events k id other

/-- The next look-up of an id after an event. -/
structure NextFind (events : List Event) (id : Int64) (p n : ℕ) : Prop where
  after : p < n
  finds : FindsAt events n id
  first : ∀ k, p < k → k < n → ¬FindsAt events k id

variable {start world : World} {events : List Event} {event : Event} {p m n : ℕ} {id : Int64}
  {found other : Found} {kept : Snapshot}

/-! ## Events of a run -/

theorem findsAt_iff : FindsAt events n id ↔ ∃ fetch, events[n]? = some (.find id fetch) := by
  rw [FindsAt]
  rcases events[n]? with _ | ⟨id', fetch⟩ | milliseconds
  · simp
  · simp [Event.id?, eq_comm]
  · simp [Event.id?]

theorem FindsAt.lt_length (h : FindsAt events n id) : n < events.length := by
  obtain ⟨fetch, hevent⟩ := findsAt_iff.1 h
  exact (List.getElem?_eq_some_iff.1 hevent).1

theorem FindsAt.id?_eq (h : FindsAt events n id) (hevent : events[n]? = some event) :
    event.id? = some id := by
  rwa [FindsAt, hevent] at h

theorem FetchedAt.findsAt (h : FetchedAt start events n id found) : FindsAt events n id :=
  findsAt_iff.2 (h.imp fun _ hfetch => hfetch.1)

theorem FetchedAt.fetches (h : FetchedAt start events n id found) :
    Fetches (moment Event.play start events n) id := by
  obtain ⟨fetch, -, hfetches, -⟩ := h
  exact hfetches

theorem FetchedAt.unique (h : FetchedAt start events n id found)
    (h' : FetchedAt start events n id other) : found = other := by
  obtain ⟨fetch, hevent, -, rfl⟩ := h
  obtain ⟨fetch', hevent', -, rfl⟩ := h'
  obtain ⟨-, rfl⟩ := Event.find.inj (Option.some.inj (hevent.symm.trans hevent'))
  rfl

theorem LastFetched.succ (h : LastFetched start events id n m found)
    (hnot : ∀ other, ¬FetchedAt start events n id other) :
    LastFetched start events id (n + 1) m found := by
  refine ⟨Nat.lt_succ_of_lt h.before, h.fetched, fun k hmk hkn => ?_⟩
  rcases Nat.lt_succ_iff_lt_or_eq.1 hkn with hlt | rfl
  · exact h.last k hmk hlt
  · exact hnot

theorem FetchedAt.lastFetched (h : FetchedAt start events n id found) :
    LastFetched start events id (n + 1) n found :=
  ⟨Nat.lt_succ_self n, h, fun _ hnk hkn => absurd hkn (by omega)⟩

/-- **A look-up that fetches answers with what it fetched.** -/
theorem FetchedAt.answersAt (h : FetchedAt start events n id found) :
    AnswersAt start events n id found := by
  obtain ⟨fetch, hevent, hfetches, rfl⟩ := h
  exact ⟨fetch, hevent, (visit _ id fetch).eq_of_fetches hfetches⟩

theorem requested_succ (h : events[n]? = some event) (hpn : p ≤ n) :
    requested events p (n + 1) = event.id?.toFinset ∪ requested events p n := by
  have hlength : p ≤ (events.take n).length := by
    have hn := (List.getElem?_eq_some_iff.1 h).1
    rw [List.length_take]
    omega
  rw [requested, requested, List.take_add_one, h, Option.toList_some,
    List.drop_append_of_le_length hlength, List.filterMap_append, List.toFinset_append,
    Finset.union_comm]
  cases event with
  | find id fetch => rfl
  | elapse milliseconds => rfl

/-! ## What a run keeps -/

theorem Event.maintains (event : Event) (world : World) :
    Snapshots.Maintains world.snapshots (event.play world).snapshots := by
  cases event with
  | find id fetch => exact (visit world id fetch).maintains
  | elapse milliseconds => exact .refl _

theorem Event.le_clock_play (world : World) (event : Event) :
    world.clock ≤ (event.play world).clock := by
  cases event with
  | find id fetch => exact (world.clock_run _).ge
  | elapse milliseconds => exact Nat.le_add_right _ _

theorem maintains_moment (start : World) (events : List Event) (n : ℕ) :
    Snapshots.Maintains start.snapshots (moment Event.play start events n).snapshots :=
  moment_keeps (fun world => Snapshots.Maintains start.snapshots world.snapshots) (Nat.zero_le n)
    (.refl _) fun _ event _ _ _ hmaintains => hmaintains.trans (event.maintains _)

/-- **Every snapshot is what the last fetch for its id came to.** -/
theorem exists_lastFetched (hempty : start.snapshots.entries = []) (hn : n ≤ events.length)
    (hkept : kept ∈ (moment Event.play start events n).snapshots.entries) :
    ∃ m, LastFetched start events kept.id n m (Found.account kept.account) ∧
      kept.fetchedAt = (moment Event.play start events m).clock := by
  induction n with
  | zero =>
    replace hkept : kept ∈ start.snapshots.entries := hkept
    rw [hempty] at hkept
    exact absurd hkept List.not_mem_nil
  | succ n ih =>
    have hold (hmem : kept ∈ (moment Event.play start events n).snapshots.entries)
        (hnot : ∀ other, ¬FetchedAt start events n kept.id other) :
        ∃ m, LastFetched start events kept.id (n + 1) m (Found.account kept.account) ∧
          kept.fetchedAt = (moment Event.play start events m).clock := by
      obtain ⟨m, hlast, hwhen⟩ := ih (Nat.le_of_succ_le hn) hmem
      exact ⟨m, hlast.succ hnot, hwhen⟩
    have hevent := List.getElem?_eq_getElem hn
    rw [moment_succ _ _ hevent] at hkept
    cases hwhich : events[n] with
    | find id fetch =>
      rw [hwhich] at hevent hkept
      rcases (visit _ id fetch).mem_cases hkept with ⟨hmem, hnot⟩ | ⟨hfetches, hfetch, rfl, hwhen⟩
      · refine hold hmem fun other hfetched => ?_
        obtain rfl : id = kept.id := Option.some.inj (hfetched.findsAt.id?_eq hevent)
        exact hnot rfl hfetched.fetches
      · exact ⟨n, FetchedAt.lastFetched ⟨fetch, hevent, hfetches, hfetch⟩, hwhen⟩
    | elapse milliseconds =>
      rw [hwhich] at hevent hkept
      exact hold hkept fun other hfetched => absurd (hfetched.findsAt.id?_eq hevent) nofun

/-- **While other ids are looked up**, and fewer than there is room for, a snapshot is kept. -/
theorem keptBehind_moment (horderly : start.snapshots.Orderly) (hpn : p ≤ n)
    (hn : n ≤ events.length)
    (hkept : Snapshots.KeptBehind (moment Event.play start events p).snapshots.entries ∅ kept)
    (hother : ∀ k, p ≤ k → k < n → ¬FindsAt events k kept.id)
    (hroom : (requested events p n).card < start.snapshots.capacity) :
    Snapshots.KeptBehind (moment Event.play start events n).snapshots.entries
      (requested events p n) kept := by
  induction n, hpn using Nat.le_induction with
  | base => exact hkept.mono (Finset.empty_subset _)
  | succ n hpn ih =>
    have hevent := List.getElem?_eq_getElem hn
    have hmaintains := maintains_moment start events n
    rw [requested_succ hevent hpn] at hroom ⊢
    have hbefore := ih (Nat.le_of_succ_le hn)
      (fun k hpk hkn => hother k hpk (Nat.lt_succ_of_lt hkn))
      (Nat.lt_of_le_of_lt (Finset.card_le_card Finset.subset_union_right) hroom)
    rw [moment_succ _ _ hevent]
    cases hwhich : events[n] with
    | find id fetch =>
      rw [hwhich] at hevent hroom
      have hne : kept.id ≠ id := by
        rintro rfl
        exact hother n hpn (Nat.lt_succ_self n) (findsAt_iff.2 ⟨fetch, hevent⟩)
      exact (visit _ id fetch).keptBehind hbefore hne (hmaintains.orderly horderly)
        (hmaintains.capacity ▸ hroom)
    | elapse milliseconds => exact hbefore.mono Finset.subset_union_right

/-! ## What a look-up comes to -/

/-- **A look-up that does not fetch** comes to what the last fetch for the id came to, and that
was less than the life of a snapshot ago. -/
theorem exists_recent_fetch (hempty : start.snapshots.entries = []) (hfinds : FindsAt events n id)
    (hfetches : ¬Fetches (moment Event.play start events n) id) :
    ∃ account m, LastFetched start events id n m (Found.account account) ∧
      (moment Event.play start events n).clock <
        (moment Event.play start events m).clock + start.snapshots.ttl ∧
      AnswersAt start events n id (Found.account account) := by
  obtain ⟨fetch, hevent⟩ := findsAt_iff.1 hfinds
  obtain ⟨kept, hmem, rfl, hanswer, hage⟩ :=
    (visit _ id fetch).exists_of_not_fetches hfetches
  obtain ⟨m, hlast, hwhen⟩ := exists_lastFetched hempty hfinds.lt_length.le hmem
  have hclock := clock_moment_le Event.le_clock_play start events hlast.before.le
  rw [hwhen, (maintains_moment start events n).ttl] at hage
  exact ⟨kept.account, m, hlast, by omega, fetch, hevent, hanswer⟩

/-- A look-up comes to the snapshot that is kept, if it is young. -/
theorem answersAt_of_mem (horderly : start.snapshots.Orderly) (hfinds : FindsAt events n kept.id)
    (hmem : kept ∈ (moment Event.play start events n).snapshots.entries)
    (hold : kept.fetchedAt ≤ (moment Event.play start events n).clock)
    (hyoung : (moment Event.play start events n).clock < kept.fetchedAt + start.snapshots.ttl) :
    ¬Fetches (moment Event.play start events n) kept.id ∧
      AnswersAt start events n kept.id (Found.account kept.account) := by
  have hmaintains := maintains_moment start events n
  have hfound := (hmaintains.orderly horderly).find?_of_mem hmem
  have hage : (moment Event.play start events n).clock - kept.fetchedAt <
      (moment Event.play start events n).snapshots.ttl := by
    rw [hmaintains.ttl]
    omega
  have hfetches := not_fetches_of_find? hfound hage
  obtain ⟨fetch, hevent⟩ := findsAt_iff.1 hfinds
  obtain ⟨used, hused, hid, hanswer, -⟩ := (visit _ kept.id fetch).exists_of_not_fetches hfetches
  have hsame := (hmaintains.orderly horderly).find?_of_mem hused
  rw [hid, hfound] at hsame
  obtain rfl : kept = used := Option.some.inj hsame
  exact ⟨hfetches, fetch, hevent, hanswer⟩

/-- **An account that was looked up is kept** until it is too old, or as many other ids were
looked up since as there is room for. -/
theorem answersAt_again (hempty : start.snapshots.entries = []) (horderly : start.snapshots.Orderly)
    {account : Account} (hanswers : AnswersAt start events p id (Found.account account))
    (hnext : NextFind events id p n)
    (hroom : (requested events (p + 1) n).card < start.snapshots.capacity) :
    ∃ m ≤ p, LastFetched start events id (p + 1) m (Found.account account) ∧
      ((moment Event.play start events n).clock <
          (moment Event.play start events m).clock + start.snapshots.ttl →
        ¬Fetches (moment Event.play start events n) id ∧
          AnswersAt start events n id (Found.account account)) := by
  obtain ⟨fetch, hevent, hanswer⟩ := hanswers
  have hn := hnext.finds.lt_length
  have hmaintains := maintains_moment start events p
  have hvisit := visit (moment Event.play start events p) id fetch
  rw [hanswer] at hvisit
  obtain ⟨kept, rfl, rfl, hfront⟩ := hvisit.exists_keptBehind (hmaintains.orderly horderly)
    (hmaintains.capacity ▸ Nat.zero_lt_of_lt hroom)
  have hsucc : moment Event.play start events (p + 1) =
      ((moment Event.play start events p).run (findAccount kept.id fetch.procedure)).2 :=
    moment_succ _ _ hevent
  rw [← hsucc] at hfront
  obtain ⟨m, hlast, hwhen⟩ :=
    exists_lastFetched hempty (Nat.succ_le_of_lt (hnext.after.trans hn)) hfront.mem
  refine ⟨m, Nat.lt_succ_iff.1 hlast.before, hlast, fun hyoung => ?_⟩
  have hstays := keptBehind_moment horderly hnext.after hn.le hfront hnext.first hroom
  have hclock := clock_moment_le Event.le_clock_play start events
    (hlast.before.le.trans hnext.after)
  exact answersAt_of_mem horderly hnext.finds hstays.mem (hwhen ▸ hclock) (hwhen ▸ hyoung)

/-- **A fetch that comes to no account leaves no snapshot**, and there is none as long as the id
is not looked up again. -/
theorem find?_eq_none_of_fetchedAt (hempty : start.snapshots.entries = [])
    (hfetched : FetchedAt start events p id found)
    (hnothing : ∀ account, found ≠ Found.account account)
    (hpn : p < n) (hn : n ≤ events.length) (hnot : ∀ k, p < k → k < n → ¬FindsAt events k id) :
    (moment Event.play start events n).snapshots.find? id = none := by
  cases hfound : (moment Event.play start events n).snapshots.find? id with
  | none => rfl
  | some kept =>
    obtain ⟨hmem, rfl⟩ := Snapshots.of_find? hfound
    obtain ⟨m, hlast, -⟩ := exists_lastFetched hempty hn hmem
    rcases Nat.lt_trichotomy m p with hearlier | rfl | hlater
    · exact absurd hfetched (hlast.last p hearlier hpn found)
    · exact absurd (hfetched.unique hlast.fetched) (hnothing kept.account)
    · exact absurd hlast.fetched.findsAt (hnot m hlater hlast.before)

/-- **Look-ups remember the last fetch, while there is room, and only accounts.**  Take any run
of look-ups and passing time that starts without snapshots; each look-up brings its own way to
fetch, which may end in any way.

* There are never more snapshots than there is room for; there is room for one at least.
* A look-up that fetches comes to what it fetched.
* A look-up that does not fetch comes to the account that the last fetch for the id came to,
  less than the life of a snapshot ago.
* If a look-up came to an account, that is what the last fetch for the id came to.  If at the
  next look-up of the id that fetch is less than the life of a snapshot ago, and fewer other ids
  were looked up in between than there is room for, then this look-up does not fetch and comes
  to the same account.
* After a fetch that comes to no account there is no snapshot of the id, and the next look-up of
  it fetches. -/
theorem remembers_last_fetch {capacity ttl : ℕ} (hstart : start.snapshots = .empty capacity ttl)
    (events : List Event) :
    (∀ n, (moment Event.play start events n).snapshots.entries.length ≤ max capacity 1) ∧
    (∀ n id found, FetchedAt start events n id found → AnswersAt start events n id found) ∧
    (∀ n id, FindsAt events n id → ¬Fetches (moment Event.play start events n) id →
      ∃ account m, LastFetched start events id n m (Found.account account) ∧
        (moment Event.play start events n).clock < (moment Event.play start events m).clock + ttl ∧
        AnswersAt start events n id (Found.account account)) ∧
    (∀ p n id account, AnswersAt start events p id (Found.account account) →
      NextFind events id p n → (requested events (p + 1) n).card < max capacity 1 →
      ∃ m ≤ p, LastFetched start events id (p + 1) m (Found.account account) ∧
        ((moment Event.play start events n).clock < (moment Event.play start events m).clock + ttl →
          ¬Fetches (moment Event.play start events n) id ∧
            AnswersAt start events n id (Found.account account))) ∧
    ∀ p id found, FetchedAt start events p id found → (∀ account, found ≠ Found.account account) →
      (moment Event.play start events (p + 1)).snapshots.find? id = none ∧
        ∀ n, NextFind events id p n → Fetches (moment Event.play start events n) id := by
  have hempty : start.snapshots.entries = [] := by rw [hstart]; rfl
  have horderly : start.snapshots.Orderly := hstart ▸ Snapshots.orderly_empty capacity ttl
  have hcapacity : start.snapshots.capacity = max capacity 1 := by rw [hstart]; rfl
  have httl : start.snapshots.ttl = ttl := by rw [hstart]; rfl
  rw [← hcapacity, ← httl]
  refine ⟨fun n => ?_, fun n id found hfetched => hfetched.answersAt,
    fun n id hfinds => exists_recent_fetch hempty hfinds,
    fun p n id account hanswers => answersAt_again hempty horderly hanswers,
    fun p id found hfetched hnothing => ⟨?_, fun n hnext => ?_⟩⟩
  · have hmaintains := maintains_moment start events n
    exact hmaintains.capacity ▸ (hmaintains.orderly horderly).length_le
  · exact find?_eq_none_of_fetchedAt hempty hfetched hnothing (Nat.lt_succ_self p)
      hfetched.findsAt.lt_length (fun k hpk hkp => absurd hkp (by omega))
  · have hnone := find?_eq_none_of_fetchedAt hempty hfetched hnothing hnext.after
      hnext.finds.lt_length.le hnext.first
    rw [fetches_iff, Snapshots.young?, hnone]
    rfl

/-- A fetch that comes to something at once. -/
def Fetch.ofResult (result : Except StoreError (Option Account)) : Fetch :=
  ⟨.done result, trivial⟩

/-- Surroundings with room for two snapshots, which live a minute. -/
def roomForTwo : World where
  wall := ⟨0, 0⟩
  snapshots := .empty 2 60000
  supply _ := Vector.replicate 16 0

/-- An account is looked up again after another id, and then again a millisecond too late, when
it cannot be fetched. -/
def comingBack : List Event :=
  [.find 1 (.ofResult (.ok (some MemoryStore.alice))), .elapse 59999,
    .find 2 (.ofResult (.ok none)), .find 1 (.ofResult (.error .timedOut)), .elapse 1,
    .find 1 (.ofResult (.error .timedOut)),
    .find 1 (.ofResult (.ok (some MemoryStore.alice)))]

theorem nextFind_comingBack : NextFind comingBack 1 0 3 ∧ NextFind comingBack 1 5 6 := by
  have hfirst : ∀ k < 3, 0 < k → ¬FindsAt comingBack k 1 := by decide
  refine ⟨⟨by decide, by decide, fun k hafter hbefore => hfirst k hbefore hafter⟩,
    ⟨by decide, by decide, fun k hafter hbefore => absurd hbefore (by omega)⟩⟩

/-- It is remembered for the minute; afterwards it is fetched, and fetched again. -/
theorem remembers_last_fetch_comingBack :
    roomForTwo.snapshots = .empty 2 60000 ∧
      AnswersAt roomForTwo comingBack 3 1 (Found.account MemoryStore.alice) ∧
      Fetches (moment Event.play roomForTwo comingBack 6) 1 := by
  have hstart : roomForTwo.snapshots = .empty 2 60000 := rfl
  obtain ⟨-, hanswers, -, hagain, hnothing⟩ := remembers_last_fetch hstart comingBack
  obtain ⟨hreturns, hafter⟩ := nextFind_comingBack
  have hfirst : FetchedAt roomForTwo comingBack 0 1 (Found.account MemoryStore.alice) :=
    ⟨_, rfl, rfl, rfl⟩
  have hfailed : FetchedAt roomForTwo comingBack 5 1 (.finished (.error .timedOut)) :=
    ⟨_, rfl, by decide +kernel, rfl⟩
  obtain ⟨m, hm, -, hsame⟩ :=
    hagain 0 3 1 MemoryStore.alice (hanswers 0 1 _ hfirst) hreturns (by decide +kernel)
  obtain rfl : m = 0 := Nat.le_zero.1 hm
  have hnone : ∀ account, (.finished (.error .timedOut) : Found) ≠ Found.account account := by simp
  exact ⟨hstart, (hsame (by decide +kernel)).2, (hnothing 5 1 _ hfailed hnone).2 6 hafter⟩

end Retention
end Session
end AccountAccess
