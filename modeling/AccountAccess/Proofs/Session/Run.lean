import AccountAccess.Proofs.Session.Coherent

/-!
# Runs of logins and logouts

A run is a list of events: logins, logouts, the passing of time, and cache calls that are
not about sessions.  It may issue a token once only, the end of a session has to lie on
the clock, and the other calls name no key of a token or a slot; logouts may name any
token and any owner.

One event keeps slots and tokens coherent, and so does a run.  Coherence speaks of the
tokens that were issued, so along a run the issued tokens are those of the start and those
of the events so far.

What is asked of a run is put together in one structure (`Proper`), which a run hands on to what is
left of it after its first event (`Proper.tail`).  So every induction over a run has the same form.

## Main definitions and results

* `Event`, `Event.play`, `playAll`: what happens in a run, and the surroundings afterwards.
* `Allowed`, `Proper`: what may happen, and what a run needs to keep slots and tokens coherent.
* `Coherent.play`, `Coherent.playAll`: every event and every run keeps them coherent.
* `Pristine`, `Reached`: surroundings without sessions, and what a run from an empty cache comes to.
* `Reached.exists_coherent`: what a run comes to is coherent.
-/

namespace AccountAccess
namespace Session

/-! ## Events -/

/-- What happens in a run: logins, logouts, time, and cache calls that are not about
sessions. -/
inductive Event where
  | login (owner : SessionOwner) (token : String) (ttl : UInt64)
  | logout (owner : SessionOwner) (token : String)
  | elapse (milliseconds : Nat)
  | other (call : CacheCall)

namespace Event

/-- The surroundings after an event. -/
def play (world : World) : Event → World
  | login owner token ttl => (world.run (issue owner token ttl)).2
  | logout owner token => (world.run (revoke owner token)).2
  | elapse milliseconds => world.advance milliseconds
  | other call => (world.run (Procedure.cache call)).2

/-- How long an event takes. -/
def duration : Event → Nat
  | elapse milliseconds => milliseconds
  | _ => 0

/-- The token that an event issues. -/
def issued? : Event → Option String
  | login _ token _ => some token
  | _ => none

/-- What may happen at a time: the end of a session has to lie on the clock, and a call
that is not about sessions names no key of theirs. -/
def Allowed (now : Nat) : Event → Prop
  | login _ _ ttl => now / 1000 + ttl.toNat < clockEnd
  | other call => ∀ key ∈ call.keys,
      (∀ token, key ≠ tokenKey token) ∧ ∀ owner, key ≠ slotKey owner
  | _ => True

end Event

/-! ## Events in turn -/

/-- The surroundings after events in turn. -/
def playAll (world : World) (events : List Event) : World :=
  events.foldl Event.play world

/-- Every event of a run is allowed when it happens. -/
def Allowed (now : Nat) : List Event → Prop
  | [] => True
  | event :: events => event.Allowed now ∧ Allowed (now + event.duration) events

/-- The tokens that a run issues, in order. -/
def issuedTokens (events : List Event) : List String :=
  events.filterMap Event.issued?

/-- Whether a run issues a token to an owner. -/
def IssuedIn (events : List Event) (owner : SessionOwner) (token : String) : Prop :=
  ∃ ttl, Event.login owner token ttl ∈ events

theorem IssuedIn.mem_issuedTokens {events : List Event} {owner : SessionOwner} {token : String}
    (h : IssuedIn events owner token) : token ∈ issuedTokens events := by
  obtain ⟨ttl, hmem⟩ := h
  exact List.mem_filterMap.2 ⟨_, hmem, rfl⟩

/-! ## One event in coherent surroundings -/

section Step

variable {issued : SessionOwner → String → Prop} {world : World}

theorem play_login (h : Coherent issued world) (owner : SessionOwner) (token : String)
    {ttl : UInt64} (hallowed : (Event.login owner token ttl).Allowed world.clock) :
    Opens owner token (world.clock + 1000 * ttl.toNat) world
      (Event.play world (.login owner token ttl)) := by
  obtain ⟨after, hafter, hopens⟩ :=
    run_issue h.calm owner token (expiry?_eq_some hallowed) (h.slot_text owner)
  rwa [Event.play, hafter]

theorem play_logout (h : Coherent issued world) (owner : SessionOwner) (token : String) :
    Ends owner token world (Event.play world (.logout owner token)) := by
  obtain ⟨after, hafter, hends⟩ := run_revoke h.calm owner token
  rwa [Event.play, hafter]

/-- Any other call leaves the surroundings calm and the entries of sessions alone. -/
theorem play_other (h : world.Calm) {call : CacheCall}
    (hallowed : (Event.other call).Allowed world.clock) :
    (Event.play world (.other call)).Calm ∧
      (Event.play world (.other call)).clock = world.clock ∧
      (∀ token, (Event.play world (.other call)).entry (tokenKey token) =
        world.entry (tokenKey token)) ∧
      ∀ owner, (Event.play world (.other call)).entry (slotKey owner) =
        world.entry (slotKey owner) := by
  obtain ⟨hcalm, hclock, hframe⟩ := h.answer_frame call
  have hplay : Event.play world (.other call) = (World.answer (.cache call) world).2 := by
    rw [Event.play, World.run, World.run_cache]
  rw [hplay]
  refine ⟨hcalm, hclock, fun token => ?_, fun owner => ?_⟩
  · exact hframe _ fun hmem => (hallowed _ hmem).1 token rfl
  · exact hframe _ fun hmem => (hallowed _ hmem).2 owner rfl

theorem clock_play (h : Coherent issued world) {event : Event}
    (hallowed : event.Allowed world.clock) :
    (event.play world).clock = world.clock + event.duration := by
  cases event with
  | login owner token ttl => exact (play_login h owner token hallowed).clock
  | logout owner token => exact (play_logout h owner token).clock
  | elapse milliseconds => rfl
  | other call => exact (play_other h.calm hallowed).2.1

/-- **Every event keeps slots and tokens coherent**, if a token it issues was never issued. -/
theorem Coherent.play (h : Coherent issued world) {event : Event}
    (hallowed : event.Allowed world.clock)
    (hfresh : ∀ token, event.issued? = some token → ∀ owner, ¬issued owner token) :
    Coherent (fun o t => issued o t ∨ IssuedIn [event] o t) (event.play world) := by
  have hold : ∀ after, event.issued? = none → Coherent issued after →
      Coherent (fun o t => issued o t ∨ IssuedIn [event] o t) after := by
    intro after hnone hafter
    have hissued : (fun o t => issued o t ∨ IssuedIn [event] o t) = issued := by
      funext o t
      refine propext ⟨?_, Or.inl⟩
      rintro (ho | ⟨ttl, hmem⟩)
      · exact ho
      · rw [← List.mem_singleton.1 hmem] at hnone
        exact absurd hnone (by simp [Event.issued?])
    rwa [hissued]
  cases event with
  | login owner token ttl =>
    have hopens := h.opens (play_login h owner token hallowed) (hfresh token rfl)
    have hissued : (fun o t => issued o t ∨ IssuedIn [Event.login owner token ttl] o t) =
        fun o t => issued o t ∨ (o = owner ∧ t = token) := by
      funext o t
      refine propext (or_congr Iff.rfl ⟨?_, ?_⟩)
      · rintro ⟨ttl', hmem⟩
        obtain ⟨rfl, rfl, -⟩ := Event.login.inj (List.mem_singleton.1 hmem)
        exact ⟨rfl, rfl⟩
      · rintro ⟨rfl, rfl⟩
        exact ⟨ttl, List.mem_singleton.2 rfl⟩
    rwa [hissued]
  | logout owner token => exact hold _ rfl (h.ends (play_logout h owner token))
  | elapse milliseconds =>
    exact hold _ rfl (h.of_entry_eq (h.calm.advance milliseconds) (Nat.le_add_right _ _)
      (fun _ => rfl) (fun _ => rfl))
  | other call =>
    obtain ⟨hcalm, hclock, htoken, hslot⟩ := play_other h.calm hallowed
    exact hold _ rfl (h.of_entry_eq hcalm (Nat.le_of_eq hclock.symm) htoken hslot)

end Step

/-! ## Runs -/

/-! ## The tokens that a run issues -/

@[simp] theorem issuedTokens_cons (event : Event) (events : List Event) :
    issuedTokens (event :: events) = event.issued?.toList ++ issuedTokens events := by
  rw [issuedTokens, List.filterMap_cons]
  cases event.issued? with
  | none => rfl
  | some token => rfl

theorem issuedIn_cons {event : Event} {events : List Event} {owner : SessionOwner}
    {token : String} : IssuedIn (event :: events) owner token ↔
      IssuedIn [event] owner token ∨ IssuedIn events owner token := by
  simp only [IssuedIn, List.mem_cons, List.not_mem_nil, or_false, exists_or]

/-- What a run needs to keep slots and tokens coherent: its events are allowed, and it
issues each token once and none that was issued before. -/
structure Proper (issued : SessionOwner → String → Prop) (now : Nat) (events : List Event) :
    Prop where
  allowed : Allowed now events
  once : (issuedTokens events).Nodup
  fresh : ∀ token ∈ issuedTokens events, ∀ owner, ¬issued owner token

namespace Proper

variable {issued : SessionOwner → String → Prop} {now : Nat} {event : Event}
  {events : List Event}

theorem head (h : Proper issued now (event :: events)) {token : String}
    (htoken : event.issued? = some token) (owner : SessionOwner) : ¬issued owner token :=
  h.fresh token (by simp [htoken]) owner

theorem tail (h : Proper issued now (event :: events)) :
    Proper (fun o t => issued o t ∨ IssuedIn [event] o t) (now + event.duration) events where
  allowed := h.allowed.2
  once := by
    have honce := h.once
    rw [issuedTokens_cons] at honce
    exact (List.nodup_append.1 honce).2.1
  fresh token htoken owner := by
    have honce := h.once
    rw [issuedTokens_cons] at honce
    rintro (hissued | hissued)
    · refine h.fresh token ?_ owner hissued
      rw [issuedTokens_cons]
      exact List.mem_append_right _ htoken
    · have hmem : token ∈ event.issued?.toList := by
        have := hissued.mem_issuedTokens
        rwa [issuedTokens_cons, issuedTokens, List.filterMap_nil, List.append_nil] at this
      exact (List.nodup_append.1 honce).2.2 token hmem token htoken rfl

end Proper

/-- **Every run keeps slots and tokens coherent.** -/
theorem Coherent.playAll {issued : SessionOwner → String → Prop} {world : World}
    (h : Coherent issued world) {events : List Event}
    (hproper : Proper issued world.clock events) :
    Coherent (fun o t => issued o t ∨ IssuedIn events o t) (playAll world events) := by
  induction events generalizing issued world with
  | nil =>
    have hissued : (fun o t => issued o t ∨ IssuedIn [] o t) = issued := by
      funext o t
      exact propext ⟨fun ho => ho.resolve_right fun ⟨_, hmem⟩ => List.not_mem_nil hmem, Or.inl⟩
    rwa [hissued]
  | cons event events ih =>
    have hstep := h.play hproper.allowed.1 fun _ htoken owner => hproper.head htoken owner
    have htail := hproper.tail
    rw [← clock_play h hproper.allowed.1] at htail
    have hrun := ih hstep htail
    have hissued : (fun o t => issued o t ∨ IssuedIn (event :: events) o t) =
        fun o t => (issued o t ∨ IssuedIn [event] o t) ∨ IssuedIn events o t := by
      funext o t
      rw [issuedIn_cons, or_assoc]
    rwa [hissued]

/-! ## Where runs start -/

/-- Surroundings in which no session was ever opened: nothing fails and the table is
empty. -/
structure Pristine (world : World) : Prop where
  calm : world.Calm
  empty : world.cache.entries = ∅

theorem Pristine.coherent {world : World} (h : Pristine world) :
    Coherent (fun _ _ => False) world := by
  have hentry : ∀ key, world.entry key = none := by
    intro key
    rw [World.entry, h.empty]
    exact Std.ExtTreeMap.getElem?_empty
  refine ⟨h.calm, ?_, ?_, ?_, ?_⟩
  · intro token e he
    rw [hentry] at he
    exact absurd he (by simp)
  · intro owner e he
    rw [hentry] at he
    exact absurd he (by simp)
  · intro token owner deadline he
    rw [hentry] at he
    exact absurd he (by simp)
  · exact fun _ _ _ hissued => hissued.elim

/-! ## From an empty cache -/

/-- Surroundings at the start of the clock in which nothing has happened. -/
def dawn : World where
  wall := ⟨0, 0⟩
  snapshots := Snapshots.empty 1 0
  supply _ := Vector.replicate 16 0

theorem pristine_dawn : Pristine dawn :=
  ⟨⟨rfl, rfl⟩, rfl⟩

/-- **A run from surroundings without sessions keeps slots and tokens coherent.** -/
theorem Pristine.playAll {world : World} (h : Pristine world) {events : List Event}
    (hallowed : Allowed world.clock events) (honce : (issuedTokens events).Nodup) :
    Coherent (IssuedIn events) (Session.playAll world events) := by
  have hrun := h.coherent.playAll ⟨hallowed, honce, fun _ _ _ hissued => hissued⟩
  simpa only [false_or] using hrun

/-- What a run from an empty cache can come to, with the tokens that it issues.  The store,
the clock on the wall and the random bytes to come are any. -/
def Reached (issued : List String) (world : World) : Prop :=
  ∃ (start : World) (events : List Event), Pristine start ∧ Allowed start.clock events ∧
    (issuedTokens events).Nodup ∧ issuedTokens events = issued ∧
    Session.playAll start events = world

theorem Reached.exists_coherent {issued : List String} {world : World} (h : Reached issued world) :
    ∃ issuedTo, Coherent issuedTo world ∧
      ∀ token, token ∉ issued → ∀ owner, ¬issuedTo owner token := by
  obtain ⟨start, events, hpristine, hallowed, honce, rfl, rfl⟩ := h
  exact ⟨IssuedIn events, hpristine.playAll hallowed honce,
    fun token htoken owner hissued => htoken hissued.mem_issuedTokens⟩

/-- Surroundings in which somebody is signed in. -/
def signedIn : World :=
  Session.playAll dawn [.login ⟨1, .web⟩ "first" 60]

theorem coherent_signedIn : Coherent (IssuedIn [.login ⟨1, .web⟩ "first" 60]) signedIn := by
  refine pristine_dawn.playAll ?_ (by decide)
  simp only [Allowed, Event.Allowed]
  decide

end Session
end AccountAccess
