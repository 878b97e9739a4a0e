import AccountAccess.Proofs.Cache.Live
import AccountAccess.Proofs.Http.Course
import AccountAccess.Proofs.Http.Naming
import AccountAccess.Proofs.Http.Windows
import AccountAccess.Proofs.Service.Moments

/-!
# The limit counts in windows

In a run clients make requests, other procedures are carried out, the store is edited, time passes,
and calls are made to fail.  All this may happen in any order, as long as the calls that count are
answered and nothing else writes the counters.

The counter of a client then stands for a window of the greedy cut of the client's own requests:
its number is that of the window, and it expires when the window ends.  A count takes the one to
the next, and nothing else touches either.  The counter goes on growing beyond the limit, and it
is not removed when it expires but started afresh by the next request; neither can be seen in
which requests are passed on.

## The shape of the argument

The windows are cut without any counter, from the times at which the client's requests arrive.  That
a counter `Stands` in a window is kept by every event: by one in which a request of the client
arrives, because it counts (`Event.stands_of_request`), and by any other, because it leaves the
counter alone (`Event.stands_of_ne`).  So it is true at every moment of a run (`IsRegular.stands`),
and whether a request is passed on is read off its window.  How many pass in a stretch of time is
then a matter of windows only.

## Main results

* `Stands.answer_count`: a count takes the counter from its window to the next.
* `IsRegular.stands`: the counters follow the greedy cut.
* `IsRegular.passesAt_iff`, `IsRegular.run_serve`: who is passed on, and what becomes of the others.
* `IsRegular.expires_with_window`: no event moves an open window.
* `limits_in_windows`: all of this, for every client and every run in which counting is let alone.
-/

namespace AccountAccess
namespace Http
namespace Limit

/-! ## Runs -/

/-- What happens in a run. -/
inductive Event where
  /-- A request is served. -/
  | serve (request : Request)
  /-- A request is counted; what else it calls for is done later, between other events. -/
  | count (request : Request)
  /-- Anything else is done. -/
  | other (procedure : Procedure Unit)
  /-- The store is edited. -/
  | edit (change : MemoryStore → MemoryStore)
  | elapse (milliseconds : ℕ)
  /-- From now on calls fail in another way. -/
  | disturb (faults : CallKind → Option Fault)

namespace Event

/-- The request that arrives in an event. -/
def request? : Event → Option Request
  | serve request | count request => some request
  | _ => none

/-- Nothing but counting writes counters, and calls that count are not made to fail. -/
def IsAllowed : Event → Prop
  | other procedure => procedure.Names CacheKey.CountsNothing
  | disturb faults => faults .cacheCount = none
  | _ => True

/-- The surroundings after an event. -/
def play (service : Service) (world : World) : Event → World
  | serve request => (world.run (service.serve request)).2
  | count request => (world.run (service.limiting request)).2
  | other procedure => (world.run procedure).2
  | edit change => { world with store := change world.store }
  | elapse milliseconds => world.advance milliseconds
  | disturb faults => { world with faults }

end Event

/-- A request is passed on: counting it gives no answer to it. -/
def PassedOn (service : Service) (world : World) (request : Request) : Prop :=
  (world.run (service.limiting request)).1 = .finished none

section Run

variable (service : Service) (start : World) (events : List Event)

/-- The times at which requests of a client arrive, by the number of the event. -/
def arrivals (client : String) (n : ℕ) : Option ℕ :=
  ((events[n]?.bind Event.request?).filter fun request =>
    clientName request.headers request.remote = client).map
      fun _ => (moment (Event.play service) start events n).clock

/-- A request of a client arrives at a time and is passed on. -/
def PassesAt (client : String) (n time : ℕ) : Prop :=
  arrivals service start events client n = some time ∧
    ∃ request, events[n]?.bind Event.request? = some request ∧
      PassedOn service (moment (Event.play service) start events n) request

/-- The length of a window in milliseconds. -/
def windowLength : ℕ :=
  1000 * service.settings.rateWindow.toNat

end Run

/-! ## The counter of a client -/

/-- **The counter of a client stands in a window**: its number is that of the window, and it expires
when the window ends.  Where there is no window yet, nothing counts. -/
def Stands (length : ℕ) (world : World) (client : String) : Option Window → Prop
  | none => world.cache.entries.live? world.clock (CacheKey.requests client).text = none
  | some window => 1 ≤ window.number ∧ world.entry (CacheKey.requests client).text =
      some ⟨.counter (Int64.ofNat window.number), some (window.opened + length)⟩

section Counter

variable {service : Service} {request : Request} {world after : World} {client : String}
  {length : ℕ} {window : Option Window}

/-- Time and what leaves a counter alone do not move it out of its window. -/
theorem Stands.later (h : Stands length world client window)
    (hentry : after.entry (CacheKey.requests client).text =
      world.entry (CacheKey.requests client).text)
    (hclock : world.clock ≤ after.clock) : Stands length after client window := by
  cases window with
  | some window => exact ⟨h.1, hentry.trans h.2⟩
  | none =>
    have hlater := congrFun (world.cache.entries.live_later hclock) (CacheKey.requests client).text
    have hsame : after.cache.entries.live? after.clock (CacheKey.requests client).text =
        world.cache.entries.live? after.clock (CacheKey.requests client).text :=
      congrArg (Option.filter _) hentry
    rw [Stands, hsame]
    refine hlater.trans ?_
    rw [CacheTable.live, show world.cache.entries.live? world.clock _ = none from h,
      Option.filter_none]

theorem Stands.live_of_open {window : Window} (h : Stands length world client (some window))
    (hopen : world.clock < window.opened + length) :
    world.cache.entries.live world.clock (CacheKey.requests client).text =
      some ⟨.counter (Int64.ofNat window.number), some (window.opened + length)⟩ := by
  have hentry : world.cache.entries[(CacheKey.requests client).text]? = _ := h.2
  rw [CacheTable.live, CacheTable.live?, hentry, Option.filter_some]
  exact if_pos (decide_eq_true hopen)

theorem Stands.live_of_closed {window : Window} (h : Stands length world client (some window))
    (hclosed : ¬world.clock < window.opened + length) :
    world.cache.entries.live world.clock (CacheKey.requests client).text = none := by
  have hentry : world.cache.entries[(CacheKey.requests client).text]? = _ := h.2
  rw [CacheTable.live, CacheTable.live?, hentry, Option.filter_some]
  exact if_neg fun hlive => hclosed (of_decide_eq_true hlive)

/-- The effect of a call that counts. -/
theorem answer_count (hpasses : world.Passes .cacheCount) {key : String} {ttl : UInt64} {n : Int64}
    {expiresAt : Option ℕ} (hclock : world.clock / 1000 + ttl.toNat < clockEnd)
    (hkey : (world.cache.entries.live world.clock key = none ∧ n = 0 ∧ expiresAt = none) ∨
      world.cache.entries.live world.clock key = some ⟨.counter n, expiresAt⟩) :
    ∃ after, World.answer (.cache (.count key ttl)) world = (.finished (.ok (n + 1)), after) ∧
      after.entry key = some ⟨.counter (n + 1),
        if n + 1 = 1 then some (world.clock + 1000 * ttl.toNat) else expiresAt⟩ := by
  have hperform := MemoryCache.perform_count (expiry?_eq_some hclock) hkey
  have hanswer := World.Passes.answer_eq (.count key ttl) hpasses
  rw [hperform] at hanswer
  exact ⟨_, hanswer, Std.ExtTreeMap.getElem?_insert_self⟩

theorem ofNat_add_one_ne_one {number : ℕ} (hpos : 1 ≤ number) (hroom : number + 1 < 2 ^ 63) :
    Int64.ofNat number + 1 ≠ 1 := by
  intro hone
  have hvalue := Int64.toInt_ofNat_of_lt hroom
  rw [Int64.ofNat_add, show Int64.ofNat 1 = 1 from rfl, hone, Int64.toInt_one] at hvalue
  omega

/-- **A count takes the counter from its window to the next**, and is answered with its number. -/
theorem Stands.answer_count (hpasses : world.Passes .cacheCount)
    (h : Stands (windowLength service) world (clientName request.headers request.remote) window)
    (hclock : world.clock / 1000 + service.settings.rateWindow.toNat < clockEnd)
    (hroom : (Window.next (windowLength service) window world.clock).number < 2 ^ 63) :
    ∃ after, World.answer (.cache (service.counting request)) world = (.finished (.ok (Int64.ofNat
        (Window.next (windowLength service) window world.clock).number)), after) ∧
      Stands (windowLength service) after (clientName request.headers request.remote)
        (some (Window.next (windowLength service) window world.clock)) := by
  -- where nothing counts a new window opens
  have hfirst : world.cache.entries.live world.clock (requestsKey request) = none →
      ∃ after, World.answer (.cache (service.counting request)) world =
          (.finished (.ok (Int64.ofNat 1)), after) ∧
        Stands (windowLength service) after (clientName request.headers request.remote)
          (some ⟨world.clock, 1⟩) := by
    intro hlive
    obtain ⟨after, hanswer, hentry⟩ := Limit.answer_count hpasses hclock (Or.inl ⟨hlive, rfl, rfl⟩)
    exact ⟨after, hanswer, Nat.le_refl 1, hentry⟩
  rcases window with _ | window
  · exact hfirst h
  · by_cases hopen : world.clock < window.opened + windowLength service
    · rw [Window.next_of_open hopen] at hroom ⊢
      obtain ⟨after, hanswer, hentry⟩ :=
        Limit.answer_count hpasses hclock (Or.inr (h.live_of_open hopen))
      rw [if_neg (ofNat_add_one_ne_one h.1 hroom)] at hentry
      have hnumber : Int64.ofNat window.number + 1 = Int64.ofNat (window.number + 1) :=
        (Int64.ofNat_add window.number 1).symm
      rw [hnumber] at hanswer hentry
      exact ⟨after, hanswer, Nat.le_add_left 1 window.number, hentry⟩
    · rw [Window.next_of_closed hopen]
      exact hfirst (h.live_of_closed hopen)

/-- What a count is answered with decides whether the request is passed on. -/
theorem run_limiting_of_answer {count : Int64}
    (h : World.answer (.cache (service.counting request)) world = (.finished (.ok count), after)) :
    world.run (service.limiting request) =
      (.finished (if service.settings.rateLimit.toNat < count.toInt then
        some (.failure 429 (overLimitMessage service.settings.rateWindow)) else none), after) := by
  have hrun : world.run (Procedure.cache (service.counting request)) =
      (.finished (.ok count), after) := (World.run_cache world _).trans h
  rw [Service.limiting, limitRequests]
  refine (World.run_bind hrun _).trans ?_
  dsimp only
  split
  · rfl
  · rfl

/-- **A request is passed on if it is among the first of its window**, and is answered at once if
it is not; counting it takes the counter to this window. -/
theorem Stands.limiting (hpasses : world.Passes .cacheCount)
    (h : Stands (windowLength service) world (clientName request.headers request.remote) window)
    (hclock : world.clock / 1000 + service.settings.rateWindow.toNat < clockEnd)
    (hroom : (Window.next (windowLength service) window world.clock).number < 2 ^ 63) :
    ∃ after, world.run (service.limiting request) = (.finished (
        if (Window.next (windowLength service) window world.clock).number ≤
          service.settings.rateLimit.toNat then none
        else some (.failure 429 (overLimitMessage service.settings.rateWindow))), after) ∧
      Stands (windowLength service) after (clientName request.headers request.remote)
        (some (Window.next (windowLength service) window world.clock)) := by
  obtain ⟨after, hanswer, hstands⟩ := h.answer_count hpasses hclock hroom
  have hrun := run_limiting_of_answer hanswer
  refine ⟨after, hrun.trans ?_, hstands⟩
  simp only [Int64.toInt_ofNat_of_lt hroom, Nat.cast_lt]
  by_cases hwithin : (Window.next (windowLength service) window world.clock).number ≤
      service.settings.rateLimit.toNat
  · rw [if_pos hwithin, if_neg (Nat.not_lt.2 hwithin)]
  · rw [if_neg hwithin, if_pos (Nat.lt_of_not_le hwithin)]

/-! ## One event -/

/-- What comes after counting moves no counter. -/
theorem entry_serve (hmounted : service.canBeMounted = true) (request : Request) (world : World)
    (client : String) :
    (world.run (service.serve request)).2.entry (CacheKey.requests client).text =
      (world.run (service.limiting request)).2.entry (CacheKey.requests client).text := by
  rw [serve_eq hmounted]
  rcases hrun : world.run (service.limiting request) with ⟨limited | _, counted⟩
  · rw [World.run_bind hrun]
    cases limited with
    | some response => rfl
    | none =>
      have hnames : (service.dispatch request >>= fun response =>
          (return service.sent request response.logged : Procedure Response)).Names
            CacheKey.CountsNothing :=
        (service.names_dispatch request).bind fun response => .done _
      exact hnames.entry_run (CacheKey.not_countsNothing client) counted
  · rw [World.run_bind_of_aborted hrun]

theorem Event.clock_le (service : Service) (world : World) (event : Event) :
    world.clock ≤ (event.play service world).clock := by
  cases event with
  | serve request => exact (World.clock_run world _).ge
  | count request => exact (World.clock_run world _).ge
  | other procedure => exact (World.clock_run world _).ge
  | elapse milliseconds => exact Nat.le_add_right _ _
  | edit change => exact Nat.le_refl _
  | disturb faults => exact Nat.le_refl _

theorem Event.passes_play {event : Event} (hallowed : event.IsAllowed)
    (h : world.Passes .cacheCount) : (event.play service world).Passes .cacheCount := by
  cases event with
  | serve request => exact h.run _
  | count request => exact h.run _
  | other procedure => exact h.run _
  | elapse milliseconds => exact ⟨h.isAvailable, h.unhindered⟩
  | edit change => exact ⟨h.isAvailable, h.unhindered⟩
  | disturb faults => exact ⟨h.isAvailable, hallowed⟩

/-- An event in which a request arrives does to counters what counting the request does. -/
theorem Event.entry_of_request (hmounted : service.canBeMounted = true) {event : Event}
    (h : event.request? = some request) (client : String) :
    (event.play service world).entry (CacheKey.requests client).text =
      (world.run (service.limiting request)).2.entry (CacheKey.requests client).text := by
  cases event with
  | serve served =>
    obtain rfl := Option.some.inj h
    exact entry_serve hmounted served world client
  | count counted =>
    obtain rfl := Option.some.inj h
    rfl
  | _ => exact absurd h (by simp [Event.request?])

theorem Event.entry_of_none {event : Event} (hallowed : event.IsAllowed)
    (h : event.request? = none) (client : String) :
    (event.play service world).entry (CacheKey.requests client).text =
      world.entry (CacheKey.requests client).text := by
  cases event with
  | serve request => exact absurd h (by simp [Event.request?])
  | count request => exact absurd h (by simp [Event.request?])
  | other procedure =>
    exact Procedure.Names.entry_run hallowed (CacheKey.not_countsNothing client) world
  | _ => rfl

/-- **What does not arrive from a client** leaves its counter in its window. -/
theorem Event.stands_of_ne (hmounted : service.canBeMounted = true) {event : Event}
    (hallowed : event.IsAllowed)
    (hne : ∀ request, event.request? = some request →
      clientName request.headers request.remote ≠ client)
    (h : Stands length world client window) :
    Stands length (event.play service world) client window := by
  refine h.later ?_ (Event.clock_le service world event)
  cases hrequest : event.request? with
  | none => exact event.entry_of_none hallowed hrequest client
  | some request =>
    obtain ⟨outcome, counted, hrun, hcounts, -⟩ := run_limiting service request world
    rw [Event.entry_of_request hmounted hrequest, hrun]
    refine hcounts.entry _ fun hkey => hne request hrequest ?_
    exact (CacheKey.requests.inj (CacheKey.text_injective hkey)).symm

/-- **What arrives from a client** takes its counter to the next window. -/
theorem Event.stands_of_request (hmounted : service.canBeMounted = true) {event : Event}
    (hrequest : event.request? = some request) (hpasses : world.Passes .cacheCount)
    (h : Stands (windowLength service) world (clientName request.headers request.remote) window)
    (hclock : world.clock / 1000 + service.settings.rateWindow.toNat < clockEnd)
    (hroom : (Window.next (windowLength service) window world.clock).number < 2 ^ 63) :
    Stands (windowLength service) (event.play service world)
      (clientName request.headers request.remote)
      (some (Window.next (windowLength service) window world.clock)) := by
  obtain ⟨after, hrun, hstands⟩ := h.limiting hpasses hclock hroom
  have hentry : (event.play service world).entry
      (CacheKey.requests (clientName request.headers request.remote)).text = _ :=
    Event.entry_of_request hmounted hrequest _
  have hclock := World.clock_run world (service.limiting request)
  rw [hrun] at hentry hclock
  exact hstands.later hentry (hclock.trans_le (Event.clock_le service world event))

end Counter

/-! ## The whole run -/

section Run

variable {service : Service} {start : World} {events : List Event} {client : String}
  {n time : ℕ} {request : Request}

/-- **The runs in which counting is let alone.**  No counter counts in the beginning, calls that
count are answered and nothing else writes counters.  A window lasts a second at least, it ends
before the clock does, and a counter can hold the number of its requests. -/
structure IsRegular (service : Service) (start : World) (events : List Event) : Prop where
  passes : start.Passes .cacheCount
  fresh : ∀ client, start.cache.entries.live? start.clock (CacheKey.requests client).text = none
  allowed : ∀ event ∈ events, event.IsAllowed
  window : 1 ≤ service.settings.rateWindow.toNat
  clock : ∀ client n time, arrivals service start events client n = some time →
    time / 1000 + service.settings.rateWindow.toNat < clockEnd
  room : ∀ client n window, windowBefore (windowLength service)
    (arrivals service start events client) n = some window → window.number < 2 ^ 63

theorem arrivals_eq_some_iff : arrivals service start events client n = some time ↔
    ∃ request, events[n]?.bind Event.request? = some request ∧
      clientName request.headers request.remote = client ∧
      (moment (Event.play service) start events n).clock = time := by
  simp [arrivals, and_assoc]

theorem lt_length_of_arrivals (h : arrivals service start events client n = some time) :
    n < events.length := by
  obtain ⟨request, hrequest, -⟩ := arrivals_eq_some_iff.1 h
  obtain ⟨event, hevent, -⟩ := Option.bind_eq_some_iff.1 hrequest
  exact (List.getElem?_eq_some_iff.1 hevent).1

theorem isOrdered_arrivals (service : Service) (start : World) (events : List Event)
    (client : String) : IsOrdered (arrivals service start events client) := by
  intro m n time time' hmn hm hn
  obtain ⟨-, -, -, rfl⟩ := arrivals_eq_some_iff.1 hm
  obtain ⟨-, -, -, rfl⟩ := arrivals_eq_some_iff.1 hn
  exact clock_moment_le (Event.clock_le service) start events hmn

/-- **A run that ends before the clock does**, a window before it, and has fewer events than a
counter can count, has room for all windows. -/
theorem IsRegular.of_short (hpasses : start.Passes .cacheCount)
    (hfresh : ∀ client,
      start.cache.entries.live? start.clock (CacheKey.requests client).text = none)
    (hallowed : ∀ event ∈ events, event.IsAllowed) (hwindow : 1 ≤ service.settings.rateWindow.toNat)
    (hclock : (moment (Event.play service) start events events.length).clock / 1000 +
      service.settings.rateWindow.toNat < clockEnd)
    (hshort : events.length < 2 ^ 63) : IsRegular service start events where
  passes := hpasses
  fresh := hfresh
  allowed := hallowed
  window := hwindow
  clock client n time harrival := by
    have hn := lt_length_of_arrivals harrival
    obtain ⟨-, -, -, rfl⟩ := arrivals_eq_some_iff.1 harrival
    have hle := clock_moment_le (Event.clock_le service) start events (Nat.le_of_lt hn)
    omega
  room client n window hbefore :=
    Nat.lt_of_le_of_lt (number_le (fun _ _ => lt_length_of_arrivals) hbefore).2 hshort

namespace IsRegular

variable (h : IsRegular service start events)

include h

theorem windowLength_pos : 1 ≤ windowLength service :=
  Nat.mul_pos (by decide) h.window

theorem passes_moment (n : ℕ) :
    (moment (Event.play service) start events n).Passes .cacheCount :=
  moment_keeps (fun world => World.Passes world .cacheCount) (Nat.zero_le n) h.passes
    fun _ event _ _ hevent hpasses =>
      event.passes_play (h.allowed event (List.mem_of_getElem? hevent)) hpasses

theorem room_next (harrival : arrivals service start events client n = some time) :
    (Window.next (windowLength service) (windowBefore (windowLength service)
      (arrivals service start events client) n) time).number < 2 ^ 63 :=
  h.room client (n + 1) _ (windowBefore_succ_of_some harrival)

/-- **The counters follow the greedy cut**, each that of its client. -/
theorem stands (hmounted : service.canBeMounted = true) (client : String) (n : ℕ) :
    Stands (windowLength service) (moment (Event.play service) start events n) client
      (windowBefore (windowLength service) (arrivals service start events client) n) := by
  induction n with
  | zero => exact h.fresh client
  | succ n ih =>
    cases harrival : arrivals service start events client n with
    | none =>
      rw [windowBefore_succ_of_none harrival]
      cases hevent : events[n]? with
      | none => rwa [moment_succ_of_none _ _ hevent]
      | some event =>
        rw [moment_succ _ _ hevent]
        refine event.stands_of_ne hmounted (h.allowed event (List.mem_of_getElem? hevent))
          (fun request hrequest hclient => ?_) ih
        have harrives : arrivals service start events client n = some _ :=
          arrivals_eq_some_iff.2 ⟨request, Option.bind_eq_some_iff.2 ⟨event, hevent, hrequest⟩,
            hclient, rfl⟩
        exact absurd (harrival.symm.trans harrives) (by simp)
    | some time =>
      have hroom := h.room_next harrival
      have hclock := h.clock client n time harrival
      rw [windowBefore_succ_of_some harrival]
      obtain ⟨request, hfound, rfl, rfl⟩ := arrivals_eq_some_iff.1 harrival
      obtain ⟨event, hevent, hrequest⟩ := Option.bind_eq_some_iff.1 hfound
      rw [moment_succ _ _ hevent]
      exact Event.stands_of_request hmounted hrequest (h.passes_moment n) ih hclock hroom

/-- What becomes of a request of a client when it is counted. -/
theorem run_limiting (hmounted : service.canBeMounted = true)
    (hrequest : events[n]?.bind Event.request? = some request) :
    ∃ window counted, HappensIn (windowLength service)
        (arrivals service start events (clientName request.headers request.remote)) n
        (moment (Event.play service) start events n).clock window ∧
      (moment (Event.play service) start events n).run (service.limiting request) = (.finished (
        if window.number ≤ service.settings.rateLimit.toNat then none
        else some (.failure 429 (overLimitMessage service.settings.rateWindow))), counted) := by
  have harrival : arrivals service start events (clientName request.headers request.remote) n =
      some (moment (Event.play service) start events n).clock :=
    arrivals_eq_some_iff.2 ⟨request, hrequest, rfl, rfl⟩
  obtain ⟨counted, hrun, -⟩ := (h.stands hmounted _ n).limiting (h.passes_moment n)
    (h.clock _ n _ harrival) (h.room_next harrival)
  exact ⟨_, counted, ⟨harrival, rfl⟩, hrun⟩

/-- **A request is passed on if it is among the first of its window.** -/
theorem passesAt_iff (hmounted : service.canBeMounted = true) :
    PassesAt service start events client n time ↔ ∃ window, HappensIn (windowLength service)
      (arrivals service start events client) n time window ∧
        window.number ≤ service.settings.rateLimit.toNat := by
  have hpassed : ∀ window : Window, (Outcome.finished (
      if window.number ≤ service.settings.rateLimit.toNat then none
      else some (Response.failure 429 (overLimitMessage service.settings.rateWindow))) =
        .finished none) ↔ window.number ≤ service.settings.rateLimit.toNat := by
    intro window
    simp
  constructor
  · rintro ⟨harrival, request, hrequest, hpasses⟩
    obtain ⟨found, hfound, rfl, rfl⟩ := arrivals_eq_some_iff.1 harrival
    obtain rfl := Option.some.inj (hfound.symm.trans hrequest)
    obtain ⟨window, counted, hhappens, hrun⟩ := h.run_limiting hmounted hrequest
    rw [PassedOn, hrun] at hpasses
    exact ⟨window, hhappens, (hpassed window).1 hpasses⟩
  · rintro ⟨window, hhappens, hnumber⟩
    obtain ⟨request, hrequest, rfl, rfl⟩ := arrivals_eq_some_iff.1 hhappens.arrives
    obtain ⟨same, counted, hsame, hrun⟩ := h.run_limiting hmounted hrequest
    obtain rfl := hsame.eq_next.trans hhappens.eq_next.symm
    refine ⟨hhappens.arrives, request, hrequest, ?_⟩
    rw [PassedOn, hrun]
    exact (hpassed _).2 hnumber

/-- **A request that is passed on is dispatched**, and any other is answered at once. -/
theorem run_serve (hmounted : service.canBeMounted = true)
    (hrequest : events[n]?.bind Event.request? = some request) :
    (PassedOn service (moment (Event.play service) start events n) request ∧
        (moment (Event.play service) start events n).run (service.serve request) =
          ((moment (Event.play service) start events n).run (service.limiting request)).2.run
            (service.dispatch request >>= fun response =>
              return service.sent request response.logged)) ∨
      (¬PassedOn service (moment (Event.play service) start events n) request ∧
        (moment (Event.play service) start events n).run (service.serve request) =
          (.finished (service.sent request
            (.failure 429 (overLimitMessage service.settings.rateWindow))),
            ((moment (Event.play service) start events n).run (service.limiting request)).2)) := by
  obtain ⟨window, counted, -, hrun⟩ := h.run_limiting hmounted hrequest
  rw [PassedOn, serve_eq hmounted, World.run_bind hrun, hrun]
  split
  · exact Or.inl ⟨rfl, rfl⟩
  · exact Or.inr ⟨by simp, rfl⟩

/-- **No event moves an open window**, whoever's it is and whatever it does: the counter goes on to
expire when the window ends. -/
theorem expires_with_window (hmounted : service.canBeMounted = true) {window : Window}
    (hwindow : windowBefore (windowLength service) (arrivals service start events client) n =
      some window)
    (hopen : (moment (Event.play service) start events n).clock <
      window.opened + windowLength service) :
    ∃ number, (moment (Event.play service) start events (n + 1)).entry
        (CacheKey.requests client).text =
      some ⟨.counter number, some (window.opened + windowLength service)⟩ := by
  have hstands := h.stands hmounted client (n + 1)
  cases harrival : arrivals service start events client n with
  | none =>
    rw [windowBefore_succ_of_none harrival, hwindow] at hstands
    exact ⟨_, hstands.2⟩
  | some time =>
    rw [windowBefore_succ_of_some harrival, hwindow] at hstands
    obtain ⟨-, -, -, rfl⟩ := arrivals_eq_some_iff.1 harrival
    rw [Window.next_of_open hopen] at hstands
    exact ⟨_, hstands.2⟩

end IsRegular

/-- **Requests of a client are limited in windows** that are cut greedily from the client's own
requests. -/
structure LimitsInWindows (service : Service) (start : World) (events : List Event)
    (client : String) : Prop where
  /-- A request is passed on if it is among the first of its window. -/
  passesAt_iff : ∀ n time, PassesAt service start events client n time ↔
    ∃ window, HappensIn (windowLength service) (arrivals service start events client) n time
      window ∧ window.number ≤ service.settings.rateLimit.toNat
  /-- A request that is passed on is dispatched, and any other is answered at once. -/
  run_serve : ∀ n request, events[n]?.bind Event.request? = some request →
    clientName request.headers request.remote = client →
    (PassedOn service (moment (Event.play service) start events n) request ∧
        (moment (Event.play service) start events n).run (service.serve request) =
          ((moment (Event.play service) start events n).run (service.limiting request)).2.run
            (service.dispatch request >>= fun response =>
              return service.sent request response.logged)) ∨
      (¬PassedOn service (moment (Event.play service) start events n) request ∧
        (moment (Event.play service) start events n).run (service.serve request) =
          (.finished (service.sent request
            (.failure 429 (overLimitMessage service.settings.rateWindow))),
            ((moment (Event.play service) start events n).run (service.limiting request)).2))
  /-- The counter stands in the window that is open, or was the last one to be. -/
  stands : ∀ n, Stands (windowLength service) (moment (Event.play service) start events n) client
    (windowBefore (windowLength service) (arrivals service start events client) n)
  /-- No event moves an open window. -/
  expires_with_window : ∀ n window, windowBefore (windowLength service)
      (arrivals service start events client) n = some window →
    (moment (Event.play service) start events n).clock < window.opened + windowLength service →
    ∃ number, (moment (Event.play service) start events (n + 1)).entry
        (CacheKey.requests client).text =
      some ⟨.counter number, some (window.opened + windowLength service)⟩
  /-- The windows are those of the requests that are passed on, if any are. -/
  windowBefore_passing : 1 ≤ service.settings.rateLimit.toNat → ∀ passing : ℕ → Option ℕ,
    (∀ n time, passing n = some time ↔ PassesAt service start events client n time) →
    ∀ n, windowBefore (windowLength service) passing n =
      (windowBefore (windowLength service) (arrivals service start events client) n).map
        (Window.capped service.settings.rateLimit.toNat)
  /-- In any stretch of the length of a window twice as many are passed on at most. -/
  card_le : ∀ (beginning : ℕ) (passed : Finset ℕ),
    (∀ n ∈ passed, ∃ time, PassesAt service start events client n time ∧
      beginning ≤ time ∧ time ≤ beginning + windowLength service) →
    passed.card ≤ 2 * service.settings.rateLimit.toNat

/-- **The limit counts in fixed windows**, in every run in which counting is let alone and for every
client.  Cut the time greedily into windows, the first one opening at the first request of the
client and each next one at the first request after the end of the window before.  A request is
passed on exactly if it is among the first of its window; neither other clients nor requests that
are rejected move a window; and no stretch of the length of a window lets more pass than two windows
do. -/
theorem limits_in_windows (hmounted : service.canBeMounted = true)
    (h : IsRegular service start events) (client : String) :
    LimitsInWindows service start events client where
  passesAt_iff _ _ := h.passesAt_iff hmounted
  run_serve _ _ hrequest _ := h.run_serve hmounted hrequest
  stands n := h.stands hmounted client n
  expires_with_window _ _ hwindow hopen := h.expires_with_window hmounted hwindow hopen
  windowBefore_passing hlimit passing hpassing n := by
    refine windowBefore_of_passing hlimit (fun m time => ?_) n
    rw [hpassing, h.passesAt_iff hmounted]
  card_le beginning passed hpassed := by
    refine card_le_two_mul h.windowLength_pos (isOrdered_arrivals service start events client)
      beginning fun n hn => ?_
    obtain ⟨time, hpasses, hbeginning, hend⟩ := hpassed n hn
    obtain ⟨window, hhappens, hnumber⟩ := (h.passesAt_iff hmounted).1 hpasses
    exact ⟨time, window, hhappens, hnumber, hbeginning, hend⟩

end Run

/-- A service that lets one request of a client pass in a second. -/
def strict : Service :=
  { desk with settings := { rateWindow := 1, rateLimit := 1 } }

/-- A request of a client that a proxy states. -/
def calling (client : String) : Request where
  method := "GET"
  target := "/user/v1/open/ping"
  headers := [("X-Real-IP", Text.toBytes client)]

/-- One client makes a request that is passed on, one that is rejected while another client comes
in between, and a third one when the second is not yet a window ago. -/
def insisting : List Event :=
  [.serve (calling "10.0.0.1"), .elapse 600, .serve (calling "10.0.0.2"),
    .serve (calling "10.0.0.1"), .elapse 600, .serve (calling "10.0.0.1")]

/-- The request that was rejected has not moved the window, so the third one opens another. -/
theorem limits_in_windows_insisting :
    strict.canBeMounted = true ∧ IsRegular strict Session.withAlice insisting ∧
      PassesAt strict Session.withAlice insisting "10.0.0.1" 0 0 ∧
      PassesAt strict Session.withAlice insisting "10.0.0.2" 2 600 ∧
      ¬PassesAt strict Session.withAlice insisting "10.0.0.1" 3 600 ∧
      PassesAt strict Session.withAlice insisting "10.0.0.1" 5 1200 := by
  have hmounted : strict.canBeMounted = true := by decide +kernel
  have hregular : IsRegular strict Session.withAlice insisting := by
    refine .of_short ⟨rfl, rfl⟩ (fun client => ?_) ?_ (by decide) (by decide +kernel) (by decide)
    · exact CacheTable.live?_eq_none Std.ExtTreeMap.getElem?_empty
    · simp [insisting, Event.IsAllowed]
  have hone := limits_in_windows hmounted hregular "10.0.0.1"
  have htwo := limits_in_windows hmounted hregular "10.0.0.2"
  refine ⟨hmounted, hregular, ?_, ?_, ?_, ?_⟩
  · exact (hone.passesAt_iff 0 0).2 ⟨⟨0, 1⟩, ⟨by decide +kernel, by decide +kernel⟩, by decide⟩
  · exact (htwo.passesAt_iff 2 600).2
      ⟨⟨600, 1⟩, ⟨by decide +kernel, by decide +kernel⟩, by decide⟩
  · intro hpasses
    obtain ⟨window, ⟨-, rfl⟩, hnumber⟩ := (hone.passesAt_iff 3 600).1 hpasses
    exact absurd hnumber (by decide +kernel)
  · exact (hone.passesAt_iff 5 1200).2
      ⟨⟨1200, 1⟩, ⟨by decide +kernel, by decide +kernel⟩, by decide⟩

end Limit
end Http
end AccountAccess
