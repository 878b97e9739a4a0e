import AccountAccess.Proofs.Session.Calls

/-!
# Slots and tokens stay coherent

A session stands in two entries with deadlines of their own, and either can go first: the
token's entry when somebody else's logout removes it, the slot's when it is written again.
What never happens is that a token outlives its place in the slot.  This is the invariant
`Coherent`:

* a token's entry names an owner to whom the token was issued, and a slot's entry names a
  token that was issued to the slot's owner;
* while a token's entry is live, the slot of its owner holds that token, and for at least
  as long.

A slot may hold a token that is gone.  That is harmless, since the next login of the slot
retires a token that does not exist.  The converse would not be: a live token that its slot
does not hold is never retired.

A login keeps the invariant for a token that was never issued.  The token it swaps out is
the only other one of the slot that can be live, and it is removed.

## Main results

* `reads_slot_of_ownerOf`: a token that stands for an owner is read in the slot of the owner.
* `of_entry_eq`: coherence depends on the entries of tokens and slots only, and time may pass.
* `ownerOf_opens`: what tokens stand for after a login.
* `opens`, `ends`: a login and a logout keep slots and tokens coherent.
-/

namespace AccountAccess
namespace Session

/-! ## The invariant -/

/-- Slots and tokens agree, where `issued` says which tokens were issued to whom. -/
structure Coherent (issued : SessionOwner → String → Prop) (world : World) : Prop where
  calm : world.Calm
  token_entry : ∀ token e, world.entry (tokenKey token) = some e →
    ∃ owner deadline, issued owner token ∧ e = .textUntil owner.render deadline
  slot_entry : ∀ owner e, world.entry (slotKey owner) = some e →
    ∃ token deadline, issued owner token ∧ e = .textUntil token deadline
  outlived : ∀ token owner deadline,
    world.entry (tokenKey token) = some (.textUntil owner.render deadline) →
    world.clock < deadline →
    ∃ later, deadline ≤ later ∧ world.entry (slotKey owner) = some (.textUntil token later)
  issued_once : ∀ token owner other, issued owner token → issued other token → owner = other

namespace Coherent

variable {issued : SessionOwner → String → Prop} {world before after : World}

theorem slot_text (h : Coherent issued world) (owner : SessionOwner) (e : CacheEntry)
    (he : world.entry (slotKey owner) = some e) : ∃ v d, e = .textUntil v d := by
  obtain ⟨token, deadline, -, rfl⟩ := h.slot_entry owner e he
  exact ⟨token, deadline, rfl⟩

/-- What is read in a slot was issued to its owner. -/
theorem issued_of_reads (h : Coherent issued world) {owner : SessionOwner} {token : String}
    (hread : world.reads (slotKey owner) = some token) : issued owner token := by
  cases hentry : world.entry (slotKey owner) with
  | none =>
    rw [World.reads_eq_none hentry] at hread
    exact absurd hread (by simp)
  | some e =>
    obtain ⟨held, deadline, hissued, rfl⟩ := h.slot_entry owner e hentry
    rw [World.reads_eq_ite hentry] at hread
    split at hread
    · rwa [← Option.some.inj hread]
    · exact absurd hread (by simp)

theorem reads_slot (h : Coherent issued world) {owner : SessionOwner} {token : String}
    {deadline : Nat}
    (hentry : world.entry (tokenKey token) = some (.textUntil owner.render deadline))
    (hlive : world.clock < deadline) : world.reads (slotKey owner) = some token := by
  obtain ⟨later, hlater, hslot⟩ := h.outlived token owner deadline hentry hlive
  exact World.reads_eq_some hslot (Nat.lt_of_lt_of_le hlive hlater)

/-- A token stands for an owner exactly while an entry that names the owner is live. -/
theorem ownerOf_eq_some_iff (h : Coherent issued world) {owner : SessionOwner} {token : String} :
    ownerOf world token = some owner ↔ ∃ deadline, world.clock < deadline ∧
      world.entry (tokenKey token) = some (.textUntil owner.render deadline) := by
  constructor
  · intro howner
    cases hentry : world.entry (tokenKey token) with
    | none =>
      rw [ownerOf_eq_none hentry] at howner
      exact absurd howner (by simp)
    | some e =>
      obtain ⟨named, deadline, -, rfl⟩ := h.token_entry token e hentry
      rw [ownerOf_eq_ite hentry] at howner
      split at howner
      · rename_i hlive
        rw [Option.some.inj howner]
        exact ⟨deadline, hlive, rfl⟩
      · exact absurd howner (by simp)
  · rintro ⟨deadline, hlive, hentry⟩
    rw [ownerOf_eq_ite hentry, if_pos hlive]

theorem reads_slot_of_ownerOf (h : Coherent issued world) {owner : SessionOwner} {token : String}
    (howner : ownerOf world token = some owner) : world.reads (slotKey owner) = some token := by
  obtain ⟨deadline, hlive, hentry⟩ := h.ownerOf_eq_some_iff.1 howner
  exact h.reads_slot hentry hlive

/-! ## Each operation keeps it -/

/-- Coherence depends on the entries of tokens and slots only, and time may pass. -/
theorem of_entry_eq (h : Coherent issued before) (hcalm : after.Calm)
    (hclock : before.clock ≤ after.clock)
    (htoken : ∀ token, after.entry (tokenKey token) = before.entry (tokenKey token))
    (hslot : ∀ owner, after.entry (slotKey owner) = before.entry (slotKey owner)) :
    Coherent issued after where
  calm := hcalm
  token_entry token e he := h.token_entry token e (htoken token ▸ he)
  slot_entry owner e he := h.slot_entry owner e (hslot owner ▸ he)
  outlived token owner deadline he hlive := by
    rw [hslot owner]
    exact h.outlived token owner deadline (htoken token ▸ he) (Nat.lt_of_le_of_lt hclock hlive)
  issued_once := h.issued_once

/-- After a login a token's entry is the new one, or an old one that was not swapped out. -/
theorem entry_of_opens {owner : SessionOwner} {token other : String} {deadline : Nat}
    {e : CacheEntry} (hopens : Opens owner token deadline before after) (hne : other ≠ token)
    (he : after.entry (tokenKey other) = some e) :
    before.entry (tokenKey other) = some e ∧ before.reads (slotKey owner) ≠ some other := by
  by_cases hread : before.reads (slotKey owner) = some other
  · rw [hopens.replaced other hread hne] at he
    exact absurd he (by simp)
  · refine ⟨?_, hread⟩
    rw [← he]
    refine (hopens.frame _ (tokenKey_ne hne) (tokenKey_ne_slotKey other owner) ?_).symm
    rintro previous hprevious hkey
    exact hread (tokenKey_injective hkey ▸ hprevious)

theorem slot_of_opens {owner other : SessionOwner} {token : String} {deadline : Nat}
    (hopens : Opens owner token deadline before after) (hne : other ≠ owner) :
    after.entry (slotKey other) = before.entry (slotKey other) :=
  hopens.frame _ (tokenKey_ne_slotKey token other).symm (slotKey_ne hne)
    (fun previous _ => (tokenKey_ne_slotKey previous other).symm)

/-- **What tokens stand for after a login**: its own token for the owner of the slot, the
tokens that stood for that owner for nobody, and every other token for whom it stood. -/
theorem ownerOf_opens (h : Coherent issued before) {owner : SessionOwner} {token : String}
    {deadline : Nat} (hopens : Opens owner token deadline before after)
    (hlive : before.clock < deadline) (other : String) :
    ownerOf after other =
      if other = token then some owner
      else if ownerOf before other = some owner then none
      else ownerOf before other := by
  by_cases htoken : other = token
  · rw [if_pos htoken, htoken, ownerOf_eq_ite hopens.token_entry, hopens.clock, if_pos hlive]
  · rw [if_neg htoken]
    by_cases hread : before.reads (slotKey owner) = some other
    · rw [ownerOf_eq_none (hopens.replaced other hread htoken)]
      cases howner : ownerOf before other with
      | none => rfl
      | some o =>
        -- what was swapped out was issued to the owner of the slot, so it stood for nobody else
        have ho : o = owner := h.issued_once other o owner
          (h.issued_of_reads (h.reads_slot_of_ownerOf howner)) (h.issued_of_reads hread)
        rw [if_pos (congrArg some ho)]
    · have hne : ownerOf before other ≠ some owner :=
        fun howner => hread (h.reads_slot_of_ownerOf howner)
      have hentry : after.entry (tokenKey other) = before.entry (tokenKey other) := by
        refine hopens.frame _ (tokenKey_ne htoken) (tokenKey_ne_slotKey other owner) ?_
        intro previous hprevious hkey
        exact hread (tokenKey_injective hkey ▸ hprevious)
      rw [if_neg hne, ownerOf, ownerOf, World.reads_congr hopens.clock hentry]

/-- **A login with a token that was never issued keeps slots and tokens coherent.** -/
theorem opens (h : Coherent issued before) {owner : SessionOwner} {token : String}
    {deadline : Nat} (hopens : Opens owner token deadline before after)
    (hfresh : ∀ other, ¬issued other token) :
    Coherent (fun o t => issued o t ∨ (o = owner ∧ t = token)) after where
  calm := hopens.calm
  token_entry other e he := by
    by_cases hother : other = token
    · subst hother
      rw [hopens.token_entry] at he
      exact ⟨owner, deadline, Or.inr ⟨rfl, rfl⟩, (Option.some.inj he).symm⟩
    · obtain ⟨o, d, hissued, rfl⟩ := h.token_entry other e (entry_of_opens hopens hother he).1
      exact ⟨o, d, Or.inl hissued, rfl⟩
  slot_entry o e he := by
    by_cases ho : o = owner
    · subst ho
      rw [hopens.slot_entry] at he
      exact ⟨token, deadline, Or.inr ⟨rfl, rfl⟩, (Option.some.inj he).symm⟩
    · obtain ⟨t, d, hissued, rfl⟩ := h.slot_entry o e (slot_of_opens hopens ho ▸ he)
      exact ⟨t, d, Or.inl hissued, rfl⟩
  outlived other o d he hlive := by
    by_cases hother : other = token
    · subst hother
      rw [hopens.token_entry] at he
      obtain ⟨hrender, hd⟩ : owner.render = o.render ∧ deadline = d := by simpa using he
      rw [← SessionOwner.render_injective hrender, ← hd]
      exact ⟨deadline, Nat.le_refl deadline, hopens.slot_entry⟩
    · obtain ⟨hbefore, hread⟩ := entry_of_opens hopens hother he
      rw [hopens.clock] at hlive
      -- the slot that was taken over held another token, so this one is of another owner
      have ho : o ≠ owner := by
        rintro rfl
        exact hread (h.reads_slot hbefore hlive)
      rw [slot_of_opens hopens ho]
      exact h.outlived other o d hbefore hlive
  issued_once t o o' ho ho' := by
    rcases ho with ho | ⟨rfl, rfl⟩
    · rcases ho' with ho' | ⟨rfl, rfl⟩
      · exact h.issued_once t o o' ho ho'
      · exact absurd ho (hfresh o)
    · rcases ho' with ho' | ⟨rfl, -⟩
      · exact absurd ho' (hfresh o')
      · rfl

/-- After a logout the entries of tokens are the old ones, but for the token's own. -/
theorem entry_of_ends {owner : SessionOwner} {token other : String} {e : CacheEntry}
    (hends : Ends owner token before after) (he : after.entry (tokenKey other) = some e) :
    before.entry (tokenKey other) = some e ∧ other ≠ token := by
  have hne : other ≠ token := by
    rintro rfl
    rw [hends.token_entry] at he
    exact absurd he (by simp)
  refine ⟨?_, hne⟩
  rw [← he, hends.frame _ (tokenKey_ne hne) (tokenKey_ne_slotKey other owner)]

/-- A logout leaves a slot alone, or empties it because it read its token there. -/
theorem slot_of_ends {owner : SessionOwner} {token : String}
    (hends : Ends owner token before after) (other : SessionOwner) :
    after.entry (slotKey other) = before.entry (slotKey other) ∨
      after.entry (slotKey other) = none ∧ before.reads (slotKey other) = some token := by
  by_cases hother : other = owner
  · subst hother
    by_cases hread : before.reads (slotKey other) = some token
    · refine Or.inr ⟨?_, hread⟩
      rw [hends.slot_entry, if_pos hread]
    · refine Or.inl ?_
      rw [hends.slot_entry, if_neg hread]
  · exact Or.inl
      (hends.frame _ (tokenKey_ne_slotKey token other).symm (slotKey_ne hother))

/-- **A logout keeps slots and tokens coherent, whether it names the token's owner or
somebody else.** -/
theorem ends (h : Coherent issued before) {owner : SessionOwner} {token : String}
    (hends : Ends owner token before after) : Coherent issued after where
  calm := hends.calm
  token_entry other e he := h.token_entry other e (entry_of_ends hends he).1
  slot_entry o e he := by
    rcases slot_of_ends hends o with hslot | ⟨hnone, -⟩
    · exact h.slot_entry o e (hslot ▸ he)
    · rw [hnone] at he
      exact absurd he (by simp)
  outlived other o d he hlive := by
    obtain ⟨hbefore, hne⟩ := entry_of_ends hends he
    rw [hends.clock] at hlive
    rcases slot_of_ends hends o with hslot | ⟨-, hread⟩
    · rw [hslot]
      exact h.outlived other o d hbefore hlive
    · rw [h.reads_slot hbefore hlive] at hread
      exact absurd (Option.some.inj hread) hne
  issued_once := h.issued_once

end Coherent
end Session
end AccountAccess
