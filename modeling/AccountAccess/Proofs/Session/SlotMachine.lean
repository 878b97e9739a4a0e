import AccountAccess.Proofs.Session.Run

/-!
# Sessions are slots

The cache holds two entries for a session, and expired ones stay in the table.  What the
service shows of all this is much simpler: every owner has one slot, a slot holds a token
until a deadline, a login overwrites the slot, a logout empties the slot that holds its
token, and a token counts while its slot's deadline lies ahead.  This *slot machine* and
the cache are run side by side here.

They are compared through the live entries only.  An entry that has expired may have been
overwritten in the machine and still stand in the table, so the relation asks for
agreement at deadlines that lie ahead; as time only passes, agreement is not lost.

## Main definitions and results

* `SlotMachine`, `SlotMachine.play`: one slot for each owner, and what an event does to them.
* `Holds`: the slot of an owner holds a token whose deadline lies ahead.
* `Mirrors`: machine and cache are in step.
* `Mirrors.ownerOf_iff`: a token stands for an owner exactly if the slot of the owner holds it.
* `Mirrors.login`, `Mirrors.logout`, `Mirrors.elapse`, `Mirrors.other`: one lemma for each event.
* `resolve_eq_slotMachine`: what the service shows of sessions is the slot machine.
-/

namespace AccountAccess
namespace Session

/-! ## The machine -/

/-- What a slot holds. -/
structure Held where
  token : String
  deadline : Nat
  deriving DecidableEq, Repr

/-- One slot for each owner, and the time. -/
structure SlotMachine where
  clock : Nat
  slots : SessionOwner → Option Held

namespace SlotMachine

/-- All slots are empty. -/
def empty (clock : Nat) : SlotMachine :=
  ⟨clock, fun _ => none⟩

/-- The slots after an event.  A logout empties whichever slot holds its token. -/
def play (machine : SlotMachine) : Event → SlotMachine
  | .login owner token ttl =>
    { machine with
      slots := Function.update machine.slots owner
        (some ⟨token, machine.clock + 1000 * ttl.toNat⟩) }
  | .logout _ token =>
    { machine with slots := fun owner => (machine.slots owner).filter (·.token != token) }
  | .elapse milliseconds => { machine with clock := machine.clock + milliseconds }
  | .other _ => machine

/-- The slots after events in turn. -/
def playAll (machine : SlotMachine) (events : List Event) : SlotMachine :=
  events.foldl play machine

/-- Whether the slot of an owner holds a token whose deadline lies ahead. -/
def Holds (machine : SlotMachine) (owner : SessionOwner) (token : String) : Prop :=
  ∃ deadline, machine.slots owner = some ⟨token, deadline⟩ ∧ machine.clock < deadline

theorem Holds.eq {machine : SlotMachine} {owner : SessionOwner} {token other : String}
    (h : machine.Holds owner token) (h' : machine.Holds owner other) : token = other := by
  obtain ⟨deadline, hslot, -⟩ := h
  obtain ⟨deadline', hslot', -⟩ := h'
  rw [hslot] at hslot'
  exact (Held.mk.inj (Option.some.inj hslot')).1

theorem holds_login {machine : SlotMachine} {owner other : SessionOwner} {token t : String}
    {ttl : UInt64} (hne : other ≠ owner) :
    (machine.play (.login owner token ttl)).Holds other t ↔ machine.Holds other t := by
  simp only [Holds, play, Function.update_of_ne hne]

theorem holds_logout {machine : SlotMachine} {owner other : SessionOwner} {token t : String}
    (hne : t ≠ token) :
    (machine.play (.logout owner token)).Holds other t ↔ machine.Holds other t := by
  simp only [Holds, play, Option.filter_eq_some_iff, bne_iff_ne, ne_eq, hne, not_false_eq_true,
    and_true]

end SlotMachine

/-! ## Machine and cache side by side -/

/-- The machine shows the time of the cache, and at every deadline that lies ahead a
token's entry names an owner exactly if the slot of the owner holds the token. -/
structure Mirrors (machine : SlotMachine) (world : World) : Prop where
  clock : machine.clock = world.clock
  live_iff : ∀ token owner deadline, world.clock < deadline →
    (world.entry (tokenKey token) = some (.textUntil owner.render deadline) ↔
      machine.slots owner = some ⟨token, deadline⟩)

namespace Mirrors

variable {issued : SessionOwner → String → Prop} {machine : SlotMachine} {world : World}

/-- **A token stands for an owner exactly if the slot of the owner holds it.** -/
theorem ownerOf_iff (h : Mirrors machine world) (hcoherent : Coherent issued world)
    {token : String} {owner : SessionOwner} :
    ownerOf world token = some owner ↔ machine.Holds owner token := by
  rw [hcoherent.ownerOf_eq_some_iff, SlotMachine.Holds]
  constructor
  · rintro ⟨deadline, hlive, hentry⟩
    exact ⟨deadline, (h.live_iff token owner deadline hlive).1 hentry, h.clock ▸ hlive⟩
  · rintro ⟨deadline, hslot, hlive⟩
    rw [h.clock] at hlive
    exact ⟨deadline, hlive, (h.live_iff token owner deadline hlive).2 hslot⟩

theorem login (h : Mirrors machine world) (hcoherent : Coherent issued world)
    {owner : SessionOwner} {token : String} {ttl : UInt64} {after : World}
    (hopens : Opens owner token (world.clock + 1000 * ttl.toNat) world after)
    (hfresh : ∀ other, ¬issued other token) :
    Mirrors (machine.play (.login owner token ttl)) after where
  clock := h.clock.trans hopens.clock.symm
  live_iff t o d hlive := by
    rw [hopens.clock] at hlive
    simp only [SlotMachine.play]
    rw [h.clock]
    have hold := h.live_iff t o d hlive
    by_cases ho : o = owner
    · subst ho
      rw [Function.update_self, Option.some.injEq, Held.mk.injEq]
      by_cases ht : t = token
      · subst ht
        rw [hopens.token_entry]
        simp [CacheEntry.mk.injEq]
      · -- the owner's former token was read in the slot, so it is swapped out
        constructor
        · intro he
          obtain ⟨hbefore, hread⟩ := Coherent.entry_of_opens hopens ht he
          exact absurd (hcoherent.reads_slot hbefore hlive) hread
        · rintro ⟨rfl, -⟩
          exact absurd rfl ht
    · rw [Function.update_of_ne ho, ← hold]
      by_cases ht : t = token
      · -- the new token was in nobody's hands
        subst ht
        rw [hopens.token_entry]
        constructor
        · intro he
          obtain ⟨hrender, -⟩ : owner.render = o.render ∧ _ = d := by simpa using he
          exact absurd (SessionOwner.render_injective hrender).symm ho
        · intro he
          obtain ⟨o', -, hissued, -⟩ := hcoherent.token_entry t _ he
          exact absurd hissued (hfresh o')
      · constructor
        · exact fun he => (Coherent.entry_of_opens hopens ht he).1
        · intro he
          rw [← he]
          refine hopens.frame _ (tokenKey_ne ht) (tokenKey_ne_slotKey t owner) ?_
          intro previous hprevious hkey
          -- the token that was swapped out was issued to the owner of the slot
          rw [← tokenKey_injective hkey] at hprevious
          obtain ⟨o', d', hissued, he'⟩ := hcoherent.token_entry t _ he
          obtain ⟨hrender, -⟩ : o.render = o'.render ∧ d = d' := by simpa using he'
          rw [← SessionOwner.render_injective hrender] at hissued
          exact ho (hcoherent.issued_once t o owner hissued (hcoherent.issued_of_reads hprevious))

theorem logout (h : Mirrors machine world) {owner : SessionOwner} {token : String}
    {after : World} (hends : Ends owner token world after) :
    Mirrors (machine.play (.logout owner token)) after where
  clock := h.clock.trans hends.clock.symm
  live_iff t o d hlive := by
    rw [hends.clock] at hlive
    simp only [SlotMachine.play]
    rw [Option.filter_eq_some_iff, ← h.live_iff t o d hlive]
    constructor
    · intro he
      obtain ⟨hbefore, hne⟩ := Coherent.entry_of_ends hends he
      exact ⟨hbefore, by simpa using hne⟩
    · rintro ⟨hbefore, hne⟩
      have hne : t ≠ token := by simpa using hne
      rw [← hbefore, hends.frame _ (tokenKey_ne hne) (tokenKey_ne_slotKey t owner)]

theorem elapse (h : Mirrors machine world) (milliseconds : Nat) :
    Mirrors (machine.play (.elapse milliseconds)) (world.advance milliseconds) where
  clock := by
    rw [SlotMachine.play, World.clock_advance, h.clock]
  live_iff t o d hlive :=
    h.live_iff t o d (Nat.lt_of_le_of_lt (Nat.le_add_right _ milliseconds) hlive)

theorem other (h : Mirrors machine world) {call : CacheCall} {after : World}
    (hclock : after.clock = world.clock)
    (htoken : ∀ token, after.entry (tokenKey token) = world.entry (tokenKey token)) :
    Mirrors (machine.play (.other call)) after where
  clock := h.clock.trans hclock.symm
  live_iff t o d hlive := by
    rw [htoken]
    exact h.live_iff t o d (hclock ▸ hlive)

/-- **One event keeps machine and cache in step.** -/
theorem play (h : Mirrors machine world) (hcoherent : Coherent issued world) {event : Event}
    (hallowed : event.Allowed world.clock)
    (hfresh : ∀ token, event.issued? = some token → ∀ owner, ¬issued owner token) :
    Mirrors (machine.play event) (event.play world) := by
  cases event with
  | login owner token ttl =>
    exact h.login hcoherent (play_login hcoherent owner token hallowed) (hfresh token rfl)
  | logout owner token => exact h.logout (play_logout hcoherent owner token)
  | elapse milliseconds => exact h.elapse milliseconds
  | other call =>
    obtain ⟨-, hclock, htoken, -⟩ := play_other hcoherent.calm hallowed
    exact h.other hclock htoken

/-- **A run keeps machine and cache in step.** -/
theorem playAll (h : Mirrors machine world) (hcoherent : Coherent issued world)
    {events : List Event} (hproper : Proper issued world.clock events) :
    Mirrors (machine.playAll events) (Session.playAll world events) := by
  induction events generalizing issued machine world with
  | nil => exact h
  | cons event events ih =>
    have hallowed := hproper.allowed.1
    have hfresh : ∀ token, event.issued? = some token → ∀ owner, ¬issued owner token :=
      fun _ htoken owner => hproper.head htoken owner
    have htail := hproper.tail
    rw [← clock_play hcoherent hallowed] at htail
    exact ih (h.play hcoherent hallowed hfresh) (hcoherent.play hallowed hfresh) htail

/-- Without sessions, machine and cache are in step. -/
theorem pristine (h : Pristine world) : Mirrors (.empty world.clock) world where
  clock := rfl
  live_iff token owner deadline _ := by
    constructor
    · intro he
      obtain ⟨o, -, hissued, -⟩ := h.coherent.token_entry token _ he
      exact hissued.elim
    · intro hslot
      exact absurd hslot (by simp [SlotMachine.empty])

end Mirrors

/-! ## What the service shows -/

/-- A token resolves to an owner. -/
def Resolves (world : World) (token : String) (owner : SessionOwner) : Prop :=
  (world.run (resolve token)).1 = .finished (.ok (some owner))

instance (world : World) (token : String) (owner : SessionOwner) :
    Decidable (Resolves world token owner) :=
  inferInstanceAs (Decidable (_ = _))

theorem resolves_iff {world : World} (h : world.Calm) {token : String} {owner : SessionOwner} :
    Resolves world token owner ↔ ownerOf world token = some owner := by
  rw [Resolves, run_resolve h, Outcome.finished.injEq, Except.ok.injEq]

/-- **What the service shows of sessions is the slot machine.**  After every run from an
empty cache, a resolution answers with the owner whose slot holds the token.  So a token
that resolves is the one that is read in the slot of its owner, and an owner has one token
at most.  A further login changes what resolves to its own owner only, and a further logout
changes its own token only. -/
theorem resolve_eq_slotMachine {world : World} (hpristine : Pristine world)
    {events : List Event} (hallowed : Allowed world.clock events)
    (honce : (issuedTokens events).Nodup) :
    (∀ token, ∃ answer,
      ((playAll world events).run (resolve token)).1 = .finished (.ok answer) ∧
      ∀ owner, answer = some owner ↔
        ((SlotMachine.empty world.clock).playAll events).Holds owner token) ∧
    (∀ token owner, Resolves (playAll world events) token owner →
      ((playAll world events).run (Procedure.cache (.get (slotKey owner)))).1 =
        .finished (.ok (some token))) ∧
    (∀ token other owner, Resolves (playAll world events) token owner →
      Resolves (playAll world events) other owner → token = other) ∧
    (∀ owner token ttl, (Event.login owner token ttl).Allowed (playAll world events).clock →
      token ∉ issuedTokens events → ∀ other t, other ≠ owner →
      (Resolves ((Event.login owner token ttl).play (playAll world events)) t other ↔
        Resolves (playAll world events) t other)) ∧
    (∀ owner token other t, t ≠ token →
      (Resolves ((Event.logout owner token).play (playAll world events)) t other ↔
        Resolves (playAll world events) t other)) := by
  have hcoherent := hpristine.playAll hallowed honce
  have hmirrors := (Mirrors.pristine hpristine).playAll hpristine.coherent
    ⟨hallowed, honce, fun _ _ _ hissued => hissued⟩
  -- two further events, compared through the machine before and after
  have hstep : ∀ event : Event, event.Allowed (playAll world events).clock →
      (∀ token, event.issued? = some token → ∀ owner, ¬IssuedIn events owner token) →
      ∀ t other, Resolves (event.play (playAll world events)) t other ↔
        (((SlotMachine.empty world.clock).playAll events).play event).Holds other t := by
    intro event hevent hfresh t other
    have hafter := hcoherent.play hevent hfresh
    rw [resolves_iff hafter.calm, (hmirrors.play hcoherent hevent hfresh).ownerOf_iff hafter]
  refine ⟨?_, ?_, ?_, ?_, ?_⟩
  · intro token
    exact ⟨_, run_resolve hcoherent.calm token, fun owner => hmirrors.ownerOf_iff hcoherent⟩
  · intro token owner hresolves
    rw [run_get hcoherent.calm,
      hcoherent.reads_slot_of_ownerOf ((resolves_iff hcoherent.calm).1 hresolves)]
  · intro token other owner htoken hother
    rw [resolves_iff hcoherent.calm, hmirrors.ownerOf_iff hcoherent] at htoken hother
    exact htoken.eq hother
  · intro owner token ttl hevent hfresh other t hne
    have hissued : ∀ u, (Event.login owner token ttl).issued? = some u →
        ∀ o, ¬IssuedIn events o u := by
      rintro u ⟨⟩ o hissued
      exact hfresh hissued.mem_issuedTokens
    rw [hstep _ hevent hissued, SlotMachine.holds_login hne, resolves_iff hcoherent.calm,
      hmirrors.ownerOf_iff hcoherent]
  · intro owner token other t hne
    rw [hstep (.logout owner token) trivial (fun _ hnone => absurd hnone (by simp [Event.issued?])),
      SlotMachine.holds_logout hne, resolves_iff hcoherent.calm, hmirrors.ownerOf_iff hcoherent]

/-- A run in which a logout names the wrong owner: the token is gone, its slot still holds
it, and the next login of the slot finds it there. -/
def strayLogout : List Event :=
  [.login ⟨1, .web⟩ "first" 60, .login ⟨1, .mobile⟩ "phone" 60, .elapse 1000,
    .logout ⟨2, .web⟩ "first", .login ⟨1, .web⟩ "second" 60]

theorem resolve_eq_slotMachine_strayLogout :
    Pristine dawn ∧ Allowed dawn.clock strayLogout ∧ (issuedTokens strayLogout).Nodup ∧
      Resolves (playAll dawn strayLogout) "second" ⟨1, .web⟩ ∧
      ¬Resolves (playAll dawn strayLogout) "first" ⟨1, .web⟩ := by
  have hallowed : Allowed dawn.clock strayLogout := by
    simp only [strayLogout, Allowed, Event.Allowed, Event.duration]
    decide
  have honce : (issuedTokens strayLogout).Nodup := by decide
  have hslots := resolve_eq_slotMachine pristine_dawn hallowed honce
  have hsecond : Resolves (playAll dawn strayLogout) "second" ⟨1, .web⟩ := by
    obtain ⟨answer, hanswer, hiff⟩ := hslots.1 "second"
    rw [(hiff ⟨1, .web⟩).2 ⟨61000, by decide, by decide⟩] at hanswer
    exact hanswer
  refine ⟨pristine_dawn, hallowed, honce, hsecond, fun hfirst => ?_⟩
  exact absurd (hslots.2.2.1 _ _ _ hfirst hsecond) (by decide)

end Session
end AccountAccess
