import AccountAccess.Proofs.Cache.Key
import AccountAccess.Proofs.Service.Calm
import AccountAccess.Session.Slot

/-!
# Opening and ending sessions, call by call

A login is three cache calls and a logout is two.  Between two calls others may be
answered, so each of them gets a name here: a login writes the token, *takes over* the
slot and *retires* the token that was swapped out; a logout reads the slot and then
*leaves*.  In calm surroundings that answer nobody else meanwhile, the three and the two
have one effect each, which is stated as a structure: which entries are written, which
are removed, and that all others stay.

## Main definitions and results

* `tokenKey`, `slotKey`: the two keys of a session, which are never the same.
* `takeOver`, `afterSwap`, `retire`, `leave`: what is left of a login and of a logout.
* `issue_eq`, `revoke_eq`: both, one call after the other.
* `Opens`, `run_issue`: a login in calm surroundings.
* `Leaves`, `Ends`, `run_revoke`: a logout in calm surroundings.
* `ownerOf`, `run_resolve`: the owner that a token stands for, and what resolving it answers.
-/

namespace AccountAccess
namespace Session

/-! ## The keys of a session -/

/-- The key of the entry that says whose session a token stands for. -/
abbrev tokenKey (token : String) : String := (CacheKey.token token).text

/-- The key of the entry that holds the current token of an owner. -/
abbrev slotKey (owner : SessionOwner) : String :=
  (CacheKey.slot owner.account owner.scene).text

theorem tokenKey_injective {token other : String} (h : tokenKey token = tokenKey other) :
    token = other :=
  CacheKey.token.inj (CacheKey.text_injective h)

theorem slotKey_injective {owner other : SessionOwner} (h : slotKey owner = slotKey other) :
    owner = other := by
  obtain ⟨haccount, hscene⟩ := CacheKey.slot.inj (CacheKey.text_injective h)
  cases owner
  cases other
  rw [SessionOwner.mk.injEq]
  exact ⟨haccount, hscene⟩

theorem tokenKey_ne_slotKey (token : String) (owner : SessionOwner) :
    tokenKey token ≠ slotKey owner :=
  fun h => CacheKey.noConfusion (CacheKey.text_injective h)

theorem tokenKey_ne {token other : String} (h : token ≠ other) : tokenKey token ≠ tokenKey other :=
  fun hkey => h (tokenKey_injective hkey)

theorem slotKey_ne {owner other : SessionOwner} (h : owner ≠ other) :
    slotKey owner ≠ slotKey other :=
  fun hkey => h (slotKey_injective hkey)

/-! ## The calls of a login and of a logout -/

/-- The last part of a login: the token that was swapped out is made invalid. -/
def retire (previous : String) : Procedure (Except CacheError Unit) :=
  Procedure.cache (.remove [tokenKey previous])

/-- A login that has taken the slot over: the token that was swapped out is retired, unless
there was none or it is the login's own. -/
def afterSwap (token : String) : Option String → Procedure (Except CacheError Unit)
  | none => .done (.ok ())
  | some previous => if previous = token then .done (.ok ()) else retire previous

/-- A login whose token is written: the slot is taken over. -/
def takeOver (owner : SessionOwner) (token : String) (ttl : UInt64) :
    Procedure (Except CacheError Unit) :=
  .ask (.cache (.swap (slotKey owner) token ttl))
    fun (answer : Except CacheError (Option String)) =>
    match answer with
    | .error e => .done (.error e)
    | .ok previous => afterSwap token previous

/-- A logout that has read the slot: the token is made invalid, and the slot is emptied if
the token was read there. -/
def leave (owner : SessionOwner) (token : String) (current : Option String) :
    Procedure (Except CacheError Unit) :=
  Procedure.cache (.remove (if current = some token then [tokenKey token, slotKey owner]
    else [tokenKey token]))

theorem issue_eq (owner : SessionOwner) (token : String) (ttl : UInt64) :
    issue owner token ttl =
      .ask (.cache (.set (tokenKey token) owner.render ttl))
        fun (answer : Except CacheError Unit) =>
          match answer with
          | .error e => .done (.error e)
          | .ok () => takeOver owner token ttl := by
  refine congrArg (Dialogue.ask _) (funext fun answer => ?_)
  rcases answer with e | _
  · rfl
  · refine congrArg (Dialogue.ask _) (funext fun answer => ?_)
    rcases answer with e | _ | previous
    · rfl
    · rfl
    · rfl

theorem revoke_eq (owner : SessionOwner) (token : String) :
    revoke owner token =
      .ask (.cache (.get (slotKey owner))) fun (answer : Except CacheError (Option String)) =>
        match answer with
        | .error e => .done (.error e)
        | .ok current => leave owner token current := by
  refine congrArg (Dialogue.ask _) (funext fun answer => ?_)
  rcases answer with e | current
  · rfl
  · rfl

theorem run_takeOver_of_ok {world after : World} {owner : SessionOwner} {token : String}
    {ttl : UInt64} {previous : Option String}
    (h : World.answer (.cache (.swap (slotKey owner) token ttl)) world =
      (.finished (.ok previous), after)) :
    world.run (takeOver owner token ttl) = after.run (afterSwap token previous) := by
  rw [World.run, takeOver, Dialogue.run, h]
  rfl

/-! ## The effect of a login -/

/-- What a login leaves behind: its token and the slot are written, the token that was
read in the slot is gone, and every other entry is as before. -/
structure Opens (owner : SessionOwner) (token : String) (deadline : Nat)
    (before after : World) : Prop where
  calm : after.Calm
  clock : after.clock = before.clock
  token_entry : after.entry (tokenKey token) = some (.textUntil owner.render deadline)
  slot_entry : after.entry (slotKey owner) = some (.textUntil token deadline)
  replaced : ∀ previous, before.reads (slotKey owner) = some previous → previous ≠ token →
    after.entry (tokenKey previous) = none
  frame : ∀ key, key ≠ tokenKey token → key ≠ slotKey owner →
    (∀ previous, before.reads (slotKey owner) = some previous → key ≠ tokenKey previous) →
    after.entry key = before.entry key

namespace Opens

variable {owner : SessionOwner} {token previous : String} {deadline : Nat}
  {before written taken after : World}

/-- A login that finds no other token in the slot is through with the swap. -/
theorem of_swap
    (hset : World.Alters before (tokenKey token) (some (.textUntil owner.render deadline)) written)
    (hswap : World.Alters written (slotKey owner) (some (.textUntil token deadline)) taken)
    (hread : ∀ p, before.reads (slotKey owner) = some p → p = token) :
    Opens owner token deadline before taken where
  calm := hswap.calm
  clock := hswap.clock.trans hset.clock
  token_entry := by
    rw [hswap.entry_of_ne (tokenKey_ne_slotKey token owner), hset.entry_self]
  slot_entry := hswap.entry_self
  replaced p hp hne := absurd (hread p hp) hne
  frame key htok hsl _ := by
    rw [hswap.entry_of_ne hsl, hset.entry_of_ne htok]

/-- A login that finds another token in the slot retires it. -/
theorem of_remove
    (hset : World.Alters before (tokenKey token) (some (.textUntil owner.render deadline)) written)
    (hswap : World.Alters written (slotKey owner) (some (.textUntil token deadline)) taken)
    (hread : before.reads (slotKey owner) = some previous) (hne : previous ≠ token)
    (hremove : World.Alters taken (tokenKey previous) none after) :
    Opens owner token deadline before after where
  calm := hremove.calm
  clock := (hremove.clock.trans hswap.clock).trans hset.clock
  token_entry := by
    rw [hremove.entry_of_ne (tokenKey_ne hne.symm),
      hswap.entry_of_ne (tokenKey_ne_slotKey token owner), hset.entry_self]
  slot_entry := by
    rw [hremove.entry_of_ne (tokenKey_ne_slotKey previous owner).symm, hswap.entry_self]
  replaced p hp _ := by
    rw [hread] at hp
    rw [← Option.some.inj hp, hremove.entry_self]
  frame key htok hsl hprev := by
    rw [hremove.entry_of_ne (hprev previous hread), hswap.entry_of_ne hsl, hset.entry_of_ne htok]

end Opens

/-- **A login in calm surroundings.**  The deadline has to lie on the clock, and the slot
must hold a text if it holds anything. -/
theorem run_issue {world : World} (h : world.Calm) (owner : SessionOwner) (token : String)
    {ttl : UInt64} {deadline : Nat} (hd : expiry? world.clock ttl = some deadline)
    (htext : ∀ e, world.entry (slotKey owner) = some e → ∃ v d, e = .textUntil v d) :
    ∃ after, world.run (issue owner token ttl) = (.finished (.ok ()), after) ∧
      Opens owner token deadline world after := by
  obtain ⟨written, hwritten, hset⟩ := h.answer_set (tokenKey token) owner.render hd
  have hslot : written.entry (slotKey owner) = world.entry (slotKey owner) :=
    hset.entry_of_ne (tokenKey_ne_slotKey token owner).symm
  obtain ⟨taken, htaken, hswap⟩ := hset.calm.answer_swap (slotKey owner) token
    (hset.clock.symm ▸ hd) (fun e he => htext e (hslot ▸ he))
  rw [World.reads_congr hset.clock hslot] at htaken
  have hrun : world.run (issue owner token ttl) =
      taken.run (afterSwap token (world.reads (slotKey owner))) := by
    rw [World.run, issue_eq, Dialogue.run, hwritten]
    exact run_takeOver_of_ok htaken
  rw [hrun]
  cases hprevious : world.reads (slotKey owner) with
  | none =>
    refine ⟨taken, rfl, .of_swap hset hswap fun p hp => ?_⟩
    rw [hprevious] at hp
    exact absurd hp (by simp)
  | some previous =>
    by_cases heq : previous = token
    · refine ⟨taken, ?_, .of_swap hset hswap fun p hp => ?_⟩
      · rw [afterSwap, if_pos heq]
        rfl
      · rw [hprevious] at hp
        exact (Option.some.inj hp).symm.trans heq
    · obtain ⟨after, hafter, hremove⟩ := hswap.calm.answer_remove_one (tokenKey previous)
      refine ⟨after, ?_, .of_remove hset hswap hprevious heq hremove⟩
      rw [afterSwap, if_neg heq, World.run, retire, World.run_cache, hafter]

/-! ## The effect of a logout -/

/-- What the removal at the end of a logout leaves behind, where `current` was read in the
slot: the token is gone, the slot is empty if it was the token that was read, and every
other entry is as before. -/
structure Leaves (owner : SessionOwner) (token : String) (current : Option String)
    (before after : World) : Prop where
  calm : after.Calm
  clock : after.clock = before.clock
  token_entry : after.entry (tokenKey token) = none
  slot_entry : after.entry (slotKey owner) =
    if current = some token then none else before.entry (slotKey owner)
  frame : ∀ key, key ≠ tokenKey token → key ≠ slotKey owner →
    after.entry key = before.entry key

/-- What a logout leaves behind that nobody else's calls come between. -/
abbrev Ends (owner : SessionOwner) (token : String) (before after : World) : Prop :=
  Leaves owner token (before.reads (slotKey owner)) before after

/-- The removal at the end of a logout. -/
theorem answer_leave {world : World} (h : world.Calm) (owner : SessionOwner) (token : String)
    (current : Option String) :
    ∃ after, World.answer (.cache (.remove (if current = some token then
        [tokenKey token, slotKey owner] else [tokenKey token]))) world =
        (.finished (.ok ()), after) ∧ Leaves owner token current world after := by
  by_cases hcurrent : current = some token
  · obtain ⟨between, after, hafter, htoken, hslot⟩ :=
      h.answer_remove_two (tokenKey token) (slotKey owner)
    rw [if_pos hcurrent]
    refine ⟨after, hafter, hslot.calm, hslot.clock.trans htoken.clock, ?_, ?_, ?_⟩
    · rw [hslot.entry_of_ne (tokenKey_ne_slotKey token owner), htoken.entry_self]
    · rw [hslot.entry_self, if_pos hcurrent]
    · intro key htok hsl
      rw [hslot.entry_of_ne hsl, htoken.entry_of_ne htok]
  · obtain ⟨after, hafter, htoken⟩ := h.answer_remove_one (tokenKey token)
    rw [if_neg hcurrent]
    refine ⟨after, hafter, htoken.calm, htoken.clock, htoken.entry_self, ?_, ?_⟩
    · rw [htoken.entry_of_ne (tokenKey_ne_slotKey token owner).symm, if_neg hcurrent]
    · intro key htok _
      rw [htoken.entry_of_ne htok]

/-- **A logout in calm surroundings.** -/
theorem run_revoke {world : World} (h : world.Calm) (owner : SessionOwner) (token : String) :
    ∃ after, world.run (revoke owner token) = (.finished (.ok ()), after) ∧
      Ends owner token world after := by
  obtain ⟨after, hafter, hleaves⟩ := answer_leave (h.noted (.cache (.get (slotKey owner))))
    owner token (world.reads (slotKey owner))
  refine ⟨after, ?_, hleaves.calm, hleaves.clock, hleaves.token_entry, hleaves.slot_entry,
    hleaves.frame⟩
  rw [World.run, revoke_eq, Dialogue.run, h.answer_get]
  simp only [leave]
  rw [World.run_cache, hafter]

/-! ## What a token resolves to -/

/-- The owner that a token stands for now. -/
def ownerOf (world : World) (token : String) : Option SessionOwner :=
  (world.reads (tokenKey token)).bind SessionOwner.read?

theorem run_resolve {world : World} (h : world.Calm) (token : String) :
    (world.run (resolve token)).1 = .finished (.ok (ownerOf world token)) := by
  have hrun : world.run (resolve token) =
      (.finished (.ok (ownerOf world token)), world.noted (.cache (.get (tokenKey token)))) := by
    rw [World.run, resolve, Procedure.cache, Dialogue.call_bind, Dialogue.run, h.answer_get]
    rfl
  rw [hrun]

theorem run_get {world : World} (h : world.Calm) (key : String) :
    (world.run (Procedure.cache (.get key))).1 = .finished (.ok (world.reads key)) := by
  rw [World.run, World.run_cache, h.answer_get]

theorem ownerOf_eq_ite {world : World} {token : String} {owner : SessionOwner} {deadline : Nat}
    (h : world.entry (tokenKey token) = some (.textUntil owner.render deadline)) :
    ownerOf world token = if world.clock < deadline then some owner else none := by
  rw [ownerOf, World.reads_eq_ite h]
  split
  · rw [Option.bind_some, SessionOwner.read?_render]
  · rfl

theorem ownerOf_eq_none {world : World} {token : String}
    (h : world.entry (tokenKey token) = none) : ownerOf world token = none := by
  rw [ownerOf, World.reads_eq_none h]
  rfl

end Session
end AccountAccess
