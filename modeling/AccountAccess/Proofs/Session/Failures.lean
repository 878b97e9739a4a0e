import AccountAccess.Proofs.Service.Faults
import AccountAccess.Proofs.Service.Readings
import AccountAccess.Proofs.Session.SlotMachine

/-!
# Logins and logouts whose calls fail

A login is three calls, and each of them can fail.  A login that fails in the first leaves
everything as it was.  One that fails later has written its token: the token is live though
the login has failed, and either the slot does not know it, or the slot knows it and the
token that was swapped out is live as well.  A logout is different: it changes something in
its last call only, so that it leaves everything as it was if it fails.

What should survive is that a live token is what is read in the slot of its owner, so that
an owner has one live token at most.  A logout always keeps this.  A login keeps it if it
succeeds or fails in its first call, and otherwise only if its session has no duration, in
which case its token is never live.

## Main definitions and results

* `IssueEnds`, `run_issue_cases`: the ends of a login in any surroundings.
* `run_revoke_exactly`: a logout in any surroundings, with the calls that its failure is traced to.
* `Exclusive`, `Survives`: what should hold before an operation and after it.
* `survives_of_unchanged`, `survives_of_opens`, `survives_of_ends`: ends that are survived.
* `survives_of_untaken`, `survives_of_unretired`: ends that are survived only if the session has no
  duration.
* `failure_survived_iff`: which failures are survived.
* `two_tokens_of_refused_swap`: a login that fails and leaves two tokens of one owner.
-/

namespace AccountAccess
namespace Session

/-! ## What a login leaves behind -/

/-- The ends that a login can come to: it fails in one of its three calls, or succeeds. -/
inductive IssueEnds (owner : SessionOwner) (token : String) (deadline : Nat) (before : World) :
    Except CacheError Unit → World → Prop where
  | unwritten (e : CacheError) (after : World) (hlast : after.lastKind? = some .cacheSet)
      (hclock : after.clock = before.clock) (hentry : after.entry = before.entry) :
      IssueEnds owner token deadline before (.error e) after
  | untaken (e : CacheError) (after : World) (hlast : after.lastKind? = some .cacheSwap)
      (hset : World.Alters before.unhindered (tokenKey token)
        (some (.textUntil owner.render deadline)) after.unhindered) :
      IssueEnds owner token deadline before (.error e) after
  | unretired (e : CacheError) (previous : String) (written after : World)
      (hlast : after.lastKind? = some .cacheRemove)
      (hread : before.reads (slotKey owner) = some previous) (hne : previous ≠ token)
      (hset : World.Alters before.unhindered (tokenKey token)
        (some (.textUntil owner.render deadline)) written)
      (hswap : World.Alters written (slotKey owner) (some (.textUntil token deadline))
        after.unhindered) :
      IssueEnds owner token deadline before (.error e) after
  | opened (after : World)
      (hopens : Opens owner token deadline before.unhindered after.unhindered) :
      IssueEnds owner token deadline before (.ok ()) after

/-- A login whose token is written, and what it can still come to. -/
theorem run_takeOver {before written : World} (owner : SessionOwner) (token : String)
    {ttl : UInt64} {deadline : Nat} (hd : expiry? before.clock ttl = some deadline)
    (hset : World.Alters before.unhindered (tokenKey token)
      (some (.textUntil owner.render deadline)) written.unhindered) :
    ∃ result after, written.run (takeOver owner token ttl) = (.finished result, after) ∧
      IssueEnds owner token deadline before result after := by
  have hclock : written.clock = before.clock := hset.clock
  have hslot : written.reads (slotKey owner) = before.reads (slotKey owner) :=
    World.reads_congr hset.clock (hset.entry_of_ne (tokenKey_ne_slotKey token owner).symm)
  -- a swap that is refused, or finds no text, leaves the token in nobody's slot
  have hrefused : ∀ e after, World.answer (.cache (.swap (slotKey owner) token ttl)) written =
      (.finished (.error e), after) → after.unhindered =
        written.unhindered.noted (.cache (.swap (slotKey owner) token ttl)) →
      ∃ result after, written.run (takeOver owner token ttl) = (.finished result, after) ∧
        IssueEnds owner token deadline before result after := by
    intro e after hanswer hafter
    obtain ⟨hlast, hnow, hentry⟩ := World.of_refused hafter
    refine ⟨.error e, after, ?_, .untaken e after hlast ⟨after.calm_unhindered, ?_, ?_⟩⟩
    · rw [World.run, takeOver, Dialogue.run, hanswer]
      rfl
    · exact hnow.trans hclock
    · exact hentry.trans hset.entry_eq
  have hd : expiry? written.unhindered.clock ttl = some deadline := by
    rw [World.clock_unhindered, hclock, hd]
  rcases written.calm_unhindered.answer_swap_cases (slotKey owner) token hd with
    herror | ⟨taken, htaken, hswap⟩
  · rcases World.answer_of_unhindered herror with ⟨e, after, hanswer, hafter⟩ |
      ⟨after, hanswer, hafter⟩
    · exact hrefused e after hanswer hafter
    · exact hrefused _ after hanswer hafter
  · rcases World.answer_of_unhindered htaken with ⟨e, after, hanswer, hafter⟩ |
      ⟨taken, hanswer, rfl⟩
    · exact hrefused e after hanswer hafter
    · rw [World.reads_unhindered, hslot] at hanswer
      rw [run_takeOver_of_ok hanswer]
      cases hprevious : before.reads (slotKey owner) with
      | none =>
        refine ⟨.ok (), taken, rfl, .opened taken (.of_swap hset hswap fun p hp => ?_)⟩
        rw [World.reads_unhindered, hprevious] at hp
        exact absurd hp (by simp)
      | some previous =>
        by_cases heq : previous = token
        · refine ⟨.ok (), taken, ?_, .opened taken (.of_swap hset hswap fun p hp => ?_)⟩
          · rw [afterSwap, if_pos heq]
            rfl
          · rw [World.reads_unhindered, hprevious] at hp
            exact (Option.some.inj hp).symm.trans heq
        · obtain ⟨removed, hremoved, hremove⟩ :=
            taken.calm_unhindered.answer_remove_one (tokenKey previous)
          rw [afterSwap, if_neg heq, World.run, retire, World.run_cache]
          rcases World.answer_of_unhindered hremoved with ⟨e, after, hanswer, hafter⟩ |
            ⟨after, hanswer, rfl⟩
          · obtain ⟨hlast, hnow, hentry⟩ := World.of_refused hafter
            exact ⟨.error e, after, hanswer, .unretired e previous _ after hlast hprevious heq hset
              ⟨after.calm_unhindered, hnow.trans hswap.clock, hentry.trans hswap.entry_eq⟩⟩
          · exact ⟨.ok (), after, hanswer,
              .opened after (.of_remove hset hswap hprevious heq hremove)⟩

/-- **What a login can come to in any surroundings.**  It is given up only if its session
would end beyond the clock. -/
theorem run_issue_cases (before : World) (owner : SessionOwner) (token : String) (ttl : UInt64) :
    (clockEnd ≤ before.clock / 1000 + ttl.toNat ∧
        (before.run (issue owner token ttl)).1 = .aborted) ∨
      ∃ result after, before.run (issue owner token ttl) = (.finished result, after) ∧
        IssueEnds owner token (before.clock + 1000 * ttl.toNat) before result after := by
  have hrefused : before.Refuses (.set (tokenKey token) owner.render ttl) →
      ∃ result after, before.run (issue owner token ttl) = (.finished result, after) ∧
        IssueEnds owner token (before.clock + 1000 * ttl.toNat) before result after := by
    rintro ⟨e, after, hanswer, hafter⟩
    obtain ⟨hlast, hnow, hentry⟩ := World.of_refused hafter
    refine ⟨.error e, after, ?_, .unwritten e after hlast hnow hentry⟩
    rw [World.run, issue_eq, Dialogue.run, hanswer]
    rfl
  rcases Nat.lt_or_ge (before.clock / 1000 + ttl.toNat) clockEnd with hd | hd
  · have hdeadline := expiry?_eq_some hd
    obtain ⟨written, hwritten, hset⟩ :=
      before.calm_unhindered.answer_set (tokenKey token) owner.render hdeadline
    rcases World.answer_of_unhindered hwritten with hrefuses | ⟨written, hanswer, rfl⟩
    · exact Or.inr (hrefused hrefuses)
    · refine Or.inr ?_
      have hrun : before.run (issue owner token ttl) = written.run (takeOver owner token ttl) := by
        rw [World.run, issue_eq, Dialogue.run, hanswer]
        rfl
      rw [hrun]
      exact run_takeOver owner token hdeadline hset
  · rcases World.answer_of_unhindered (before.calm_unhindered.answer_set_of_overflow
      (tokenKey token) owner.render (expiry?_eq_none hd)) with hrefuses | ⟨after, hanswer, -⟩
    · exact Or.inr (hrefused hrefuses)
    · refine Or.inl ⟨hd, ?_⟩
      rw [World.run, issue_eq, Dialogue.run, hanswer]

/-- **A logout in any surroundings**: it fails if one of its calls does, and otherwise the token is
gone, and the slot is empty if the token was read there. -/
theorem run_revoke_exactly (before : World) (owner : SessionOwner) (token : String) :
    ∃ result after, before.run (revoke owner token) = (.finished result, after) ∧
      after.clock = before.clock ∧ after.store = before.store ∧
      (((before.answersCache .cacheGet = false ∨ before.answersCache .cacheRemove = false) ∧
          (∃ e, result = .error e) ∧ after.entry = before.entry) ∨
        (before.answersCache .cacheGet = true ∧ before.answersCache .cacheRemove = true ∧
          result = .ok () ∧ ∀ key, after.entry key =
            if key = tokenKey token ∨
                key = slotKey owner ∧ before.reads (slotKey owner) = some token
            then none else before.entry key)) := by
  have hperform : before.cache.perform before.clock (.get (slotKey owner)) =
      (some (.ok (before.reads (slotKey owner))), before.cache) := rfl
  obtain ⟨answer, faults, hfaults, hget, hanswered⟩ := World.run_cache_of_perform hperform
  rw [revoke_eq, World.run_ask_cache hget]
  rcases hanswered with ⟨hread, rfl⟩ | ⟨hread, e, rfl⟩
  · have hremoves : World.answersCache
        { before.noted (.cache (.get (slotKey owner))) with faults } .cacheRemove =
          before.answersCache .cacheRemove :=
      World.answersCache_congr rfl (hfaults .cacheRemove nofun)
    obtain ⟨result, after, hrun, hclock, hstore, hremoved⟩ := World.run_remove_cases
      { before.noted (.cache (.get (slotKey owner))) with faults }
      (if before.reads (slotKey owner) = some token then [tokenKey token, slotKey owner]
        else [tokenKey token])
    rw [hremoves] at hremoved
    refine ⟨result, after, hrun, hclock, hstore, ?_⟩
    rcases hremoved with ⟨hanswers, hfailed, hentry⟩ | ⟨hanswers, hdone, hentry⟩
    · exact Or.inl ⟨Or.inr hanswers, hfailed, hentry⟩
    · refine Or.inr ⟨hread, hanswers, hdone, fun key => (hentry key).trans ?_⟩
      refine if_congr ?_ rfl rfl
      by_cases hcurrent : before.reads (slotKey owner) = some token
      · simp [hcurrent]
      · simp [hcurrent]
  · exact ⟨_, _, rfl, rfl, rfl, Or.inl ⟨Or.inl hread, ⟨e, rfl⟩, rfl⟩⟩

/-- **What a logout can come to in any surroundings.**  It is never given up, and one that
fails has changed nothing. -/
theorem run_revoke_cases (before : World) (owner : SessionOwner) (token : String) :
    ∃ result after, before.run (revoke owner token) = (.finished result, after) ∧
      ((∃ e, result = .error e ∧ after.clock = before.clock ∧ after.entry = before.entry) ∨
        result = .ok () ∧ Ends owner token before.unhindered after.unhindered) := by
  obtain ⟨result, after, hrun, hclock, -, hends⟩ := run_revoke_exactly before owner token
  refine ⟨result, after, hrun, ?_⟩
  rcases hends with ⟨-, ⟨e, he⟩, hentry⟩ | ⟨-, -, hok, hentry⟩
  · exact Or.inl ⟨e, he, hclock, hentry⟩
  · refine Or.inr ⟨hok, after.calm_unhindered, hclock, ?_, ?_, fun key htoken hslot => ?_⟩
    · exact (hentry _).trans (if_pos (Or.inl rfl))
    · refine (hentry _).trans (if_congr ?_ rfl rfl)
      rw [or_iff_right (tokenKey_ne_slotKey token owner).symm, and_iff_right rfl]
      exact Iff.rfl
    · refine (hentry key).trans (if_neg ?_)
      rintro (heq | ⟨heq, -⟩)
      · exact htoken heq
      · exact hslot heq

/-! ## What should survive -/

/-- A token that resolves is what is read in the slot of its owner, when nothing fails. -/
def Exclusive (world : World) : Prop :=
  ∀ token owner, Resolves world.unhindered token owner →
    (world.unhindered.run (Procedure.cache (.get (slotKey owner)))).1 = .finished (.ok (some token))

/-- What should hold after an operation with a result: the slots are exclusive, so that an
owner has one token at most, and if the operation has failed every token resolves as
before. -/
structure Survives (before : World) (result : Except CacheError Unit) (after : World) : Prop where
  exclusive : Exclusive after
  single : ∀ token other owner, Resolves after.unhindered token owner →
    Resolves after.unhindered other owner → token = other
  unchanged : ∀ e, result = .error e → ∀ token,
    (after.unhindered.run (resolve token)).1 = (before.unhindered.run (resolve token)).1

section Survival

variable {before after : World} {owner : SessionOwner} {token : String}

theorem resolves_unhindered : Resolves before.unhindered token owner ↔
    ownerOf before token = some owner :=
  resolves_iff before.calm_unhindered

theorem exclusive_iff : Exclusive before ↔ ∀ token owner, ownerOf before token = some owner →
    before.reads (slotKey owner) = some token := by
  refine forall_congr' fun token => forall_congr' fun owner => imp_congr resolves_unhindered ?_
  rw [run_get before.calm_unhindered, World.reads_unhindered, Outcome.finished.injEq,
    Except.ok.injEq]

theorem answer_eq_iff {token : String} :
    (after.unhindered.run (resolve token)).1 = (before.unhindered.run (resolve token)).1 ↔
      ownerOf after token = ownerOf before token := by
  rw [run_resolve after.calm_unhindered, run_resolve before.calm_unhindered,
    Outcome.finished.injEq, Except.ok.injEq]
  exact Iff.rfl

theorem Coherent.exclusive {issued : SessionOwner → String → Prop}
    (h : Coherent issued before.unhindered) : Exclusive before :=
  exclusive_iff.2 fun _ _ htoken => h.reads_slot_of_ownerOf htoken

theorem Exclusive.token_eq (h : Exclusive before) {other : String}
    (htoken : Resolves before.unhindered token owner)
    (hother : Resolves before.unhindered other owner) : token = other := by
  have hread := h token owner htoken
  rw [h other owner hother] at hread
  exact (Option.some.inj (Except.ok.inj (Outcome.finished.inj hread))).symm

theorem survives_iff {result : Except CacheError Unit} : Survives before result after ↔
    (∀ token owner, ownerOf after token = some owner →
        after.reads (slotKey owner) = some token) ∧
      ∀ e, result = .error e → ∀ token, ownerOf after token = ownerOf before token := by
  rw [← exclusive_iff]
  constructor
  · intro h
    exact ⟨h.exclusive, fun e he token => answer_eq_iff.1 (h.unchanged e he token)⟩
  · rintro ⟨hexclusive, hsame⟩
    exact ⟨hexclusive, fun _ _ _ => hexclusive.token_eq,
      fun e he token => answer_eq_iff.2 (hsame e he token)⟩

/-- An operation that changes nothing is survived. -/
theorem survives_of_unchanged (h : Exclusive before) {result : Except CacheError Unit}
    (hclock : after.clock = before.clock) (hentry : after.entry = before.entry) :
    Survives before result after := by
  have hreads : ∀ key, after.reads key = before.reads key :=
    fun key => World.reads_congr hclock (congrFun hentry key)
  have howner : ∀ token, ownerOf after token = ownerOf before token := by
    intro token
    rw [ownerOf, ownerOf, hreads]
  refine survives_iff.2 ⟨fun token owner htoken => ?_, fun _ _ => howner⟩
  rw [howner] at htoken
  rw [hreads]
  exact exclusive_iff.1 h token owner htoken

/-- A login that succeeds is survived. -/
theorem survives_of_opens (h : Exclusive before) {deadline : Nat}
    (hopens : Opens owner token deadline before.unhindered after.unhindered) :
    Survives before (.ok ()) after := by
  refine survives_iff.2 ⟨fun t o ht => ?_, fun _ he => absurd he (by simp)⟩
  have hclock : after.clock = before.clock := hopens.clock
  by_cases htoken : t = token
  · subst htoken
    have hentry : after.entry (tokenKey t) = some (.textUntil owner.render deadline) :=
      hopens.token_entry
    rw [ownerOf_eq_ite hentry] at ht
    split at ht
    · rename_i hlive
      rw [← Option.some.inj ht]
      exact World.reads_eq_some hopens.slot_entry hlive
    · exact absurd ht (by simp)
  · -- another live token was not swapped out, so it is in the slot of somebody else
    have hread : before.reads (slotKey owner) ≠ some t := by
      intro hread
      have hgone : after.entry (tokenKey t) = none := hopens.replaced t hread htoken
      rw [ownerOf_eq_none hgone] at ht
      exact absurd ht (by simp)
    have hentry : after.entry (tokenKey t) = before.entry (tokenKey t) :=
      hopens.frame _ (tokenKey_ne htoken) (tokenKey_ne_slotKey t owner)
        fun p hp => tokenKey_ne fun heq => hread (heq ▸ hp)
    rw [ownerOf, World.reads_congr hclock hentry] at ht
    have hslot := exclusive_iff.1 h t o ht
    have hne : o ≠ owner := by
      rintro rfl
      exact hread hslot
    have hkept : after.entry (slotKey o) = before.entry (slotKey o) :=
      hopens.frame _ (tokenKey_ne_slotKey token o).symm (slotKey_ne hne)
        fun p _ => (tokenKey_ne_slotKey p o).symm
    rw [World.reads_congr hclock hkept, hslot]

/-- A logout that succeeds is survived. -/
theorem survives_of_ends (h : Exclusive before)
    (hends : Ends owner token before.unhindered after.unhindered) :
    Survives before (.ok ()) after := by
  refine survives_iff.2 ⟨fun t o ht => ?_, fun _ he => absurd he (by simp)⟩
  have hclock : after.clock = before.clock := hends.clock
  have htoken : t ≠ token := by
    rintro rfl
    have hgone : after.entry (tokenKey t) = none := hends.token_entry
    rw [ownerOf_eq_none hgone] at ht
    exact absurd ht (by simp)
  have hentry : after.entry (tokenKey t) = before.entry (tokenKey t) :=
    hends.frame _ (tokenKey_ne htoken) (tokenKey_ne_slotKey t owner)
  rw [ownerOf, World.reads_congr hclock hentry] at ht
  have hslot := exclusive_iff.1 h t o ht
  have hkept : after.entry (slotKey o) = before.entry (slotKey o) := by
    by_cases ho : o = owner
    · subst ho
      refine hends.slot_entry.trans (if_neg ?_)
      rw [World.reads_unhindered, hslot]
      exact fun heq => htoken (Option.some.inj heq)
    · exact hends.frame _ (tokenKey_ne_slotKey token o).symm (slotKey_ne ho)
  rw [World.reads_congr hclock hkept, hslot]

theorem lt_add_iff {now : Nat} {ttl : UInt64} : now < now + 1000 * ttl.toNat ↔ ttl ≠ 0 := by
  rw [ne_eq, ← UInt64.toNat_inj, UInt64.toNat_zero]
  omega

/-- Once its token is written, a login leaves every token resolving as before only if its
session has no duration. -/
theorem same_owners_iff {ttl : UInt64} (hfresh : ownerOf before token = none)
    (hclock : after.clock = before.clock)
    (hentry : after.entry (tokenKey token) =
      some (.textUntil owner.render (before.clock + 1000 * ttl.toNat)))
    (hother : ∀ t, t ≠ token → after.entry (tokenKey t) = before.entry (tokenKey t)) :
    (∀ t, ownerOf after t = ownerOf before t) ↔ ttl = 0 := by
  have htoken := ownerOf_eq_ite hentry
  rw [hclock] at htoken
  constructor
  · intro hsame
    by_contra httl
    rw [if_pos (lt_add_iff.2 httl), hsame, hfresh] at htoken
    exact absurd htoken (by simp)
  · rintro httl t
    by_cases ht : t = token
    · subst ht
      rw [htoken, hfresh, if_neg fun hlive => lt_add_iff.1 hlive httl]
    · rw [ownerOf, ownerOf, World.reads_congr hclock (hother t ht)]

/-- A login that fails in its swap is survived only if its session has no duration. -/
theorem survives_of_untaken (h : Exclusive before) {ttl : UInt64} {e : CacheError}
    (hfresh : ownerOf before token = none)
    (hset : World.Alters before.unhindered (tokenKey token)
      (some (.textUntil owner.render (before.clock + 1000 * ttl.toNat))) after.unhindered) :
    Survives before (.error e) after ↔ ttl = 0 := by
  have hclock : after.clock = before.clock := hset.clock
  have hsame := same_owners_iff hfresh hclock hset.entry_self
    fun t ht => hset.entry_of_ne (tokenKey_ne ht)
  rw [← hsame, survives_iff]
  constructor
  · exact fun hsurvives => hsurvives.2 e rfl
  · intro howner
    refine ⟨fun t o ht => ?_, fun _ _ => howner⟩
    have hslot : after.entry (slotKey o) = before.entry (slotKey o) :=
      hset.entry_of_ne (tokenKey_ne_slotKey token o).symm
    rw [howner] at ht
    rw [World.reads_congr hclock hslot]
    exact exclusive_iff.1 h t o ht

/-- A login that fails to retire the token it has swapped out is survived only if its
session has no duration, and the token does not resolve to the slot's owner. -/
theorem survives_of_unretired (h : Exclusive before) {ttl : UInt64} {e : CacheError}
    {previous : String} {written : World} (hfresh : ownerOf before token = none)
    (hread : before.reads (slotKey owner) = some previous) (hne : previous ≠ token)
    (hset : World.Alters before.unhindered (tokenKey token)
      (some (.textUntil owner.render (before.clock + 1000 * ttl.toNat))) written)
    (hswap : World.Alters written (slotKey owner)
      (some (.textUntil token (before.clock + 1000 * ttl.toNat))) after.unhindered) :
    Survives before (.error e) after ↔ ttl = 0 ∧ ownerOf before previous ≠ some owner := by
  have hclock : after.clock = before.clock := hswap.clock.trans hset.clock
  have htoken : ∀ t, after.entry (tokenKey t) = written.entry (tokenKey t) :=
    fun t => hswap.entry_of_ne (tokenKey_ne_slotKey t owner)
  have hsame := same_owners_iff hfresh hclock
    ((htoken token).trans hset.entry_self)
    fun t ht => (htoken t).trans (hset.entry_of_ne (tokenKey_ne ht))
  have hslot : after.reads (slotKey owner) ≠ some previous := by
    have hheld := World.reads_eq_ite hswap.entry_self
    rw [World.reads_unhindered] at hheld
    rw [hheld]
    split
    · exact fun heq => hne (Option.some.inj heq).symm
    · simp
  rw [← hsame, survives_iff]
  constructor
  · intro hsurvives
    refine ⟨hsurvives.2 e rfl, fun hprevious => ?_⟩
    rw [← hsurvives.2 e rfl previous] at hprevious
    exact hslot (hsurvives.1 previous owner hprevious)
  · rintro ⟨howner, hprevious⟩
    refine ⟨fun t o ht => ?_, fun _ _ => howner⟩
    rw [howner] at ht
    have hheld := exclusive_iff.1 h t o ht
    -- the token in the slot that was taken over is not live, so this one is in another slot
    have ho : o ≠ owner := by
      rintro rfl
      rw [hread] at hheld
      exact hprevious (Option.some.inj hheld ▸ ht)
    have hkept : after.entry (slotKey o) = before.entry (slotKey o) :=
      (hswap.entry_of_ne (slotKey_ne ho)).trans
        (hset.entry_of_ne (tokenKey_ne_slotKey token o).symm)
    rw [World.reads_congr hclock hkept, hheld]

end Survival

/-! ## Which failures are survived -/

/-- **Which failures are survived.**  In surroundings with exclusive slots, and whichever
calls are refused, a logout returns and is survived.  So is a login with a token that does
not resolve yet, if it succeeds or fails in its first call; if it fails later, then only if
its session has no duration, and in its last call only if the token it has swapped out does
not resolve to the owner either. -/
theorem failure_survived_iff {before : World} (h : Exclusive before) :
    (∀ owner token, ∃ result after, before.run (revoke owner token) = (.finished result, after) ∧
        Survives before result after) ∧
      ∀ owner token ttl, (before.unhindered.run (resolve token)).1 = .finished (.ok none) →
        (before.clock / 1000 + ttl.toNat < clockEnd → ∃ result after,
          before.run (issue owner token ttl) = (.finished result, after)) ∧
        ∀ result after, before.run (issue owner token ttl) = (.finished result, after) →
          (Survives before result after ↔
            result = .ok () ∨ after.lastKind? = some .cacheSet ∨
              ttl = 0 ∧ (after.lastKind? = some .cacheSwap ∨
                ∀ former, (before.unhindered.run (Procedure.cache (.get (slotKey owner)))).1 =
                  .finished (.ok (some former)) → ¬Resolves before.unhindered former owner)) := by
  refine ⟨fun owner token => ?_, fun owner token ttl hfresh => ⟨fun hd => ?_, ?_⟩⟩
  · obtain ⟨result, after, hrun, ⟨e, rfl, hclock, hentry⟩ | ⟨rfl, hends⟩⟩ :=
      run_revoke_cases before owner token
    · exact ⟨_, after, hrun, survives_of_unchanged h hclock hentry⟩
    · exact ⟨_, after, hrun, survives_of_ends h hends⟩
  · rcases run_issue_cases before owner token ttl with ⟨hend, -⟩ | ⟨result, after, hrun, -⟩
    · exact absurd hd (Nat.not_lt_of_le hend)
    · exact ⟨result, after, hrun⟩
  · intro result after hrun
    rw [run_resolve before.calm_unhindered, Outcome.finished.injEq, Except.ok.injEq] at hfresh
    rcases run_issue_cases before owner token ttl with ⟨-, hgiven⟩ | ⟨result', after', hrun', hends⟩
    · rw [hrun] at hgiven
      exact absurd hgiven (by simp)
    · rw [hrun, Prod.mk.injEq, Outcome.finished.injEq] at hrun'
      obtain ⟨rfl, rfl⟩ := hrun'
      cases hends with
      | opened _ hopens => exact iff_of_true (survives_of_opens h hopens) (Or.inl rfl)
      | unwritten e _ hlast hclock hentry =>
        exact iff_of_true (survives_of_unchanged h hclock hentry) (Or.inr (Or.inl hlast))
      | untaken e _ hlast hset =>
        rw [survives_of_untaken h hfresh hset, hlast]
        simp
      | unretired e previous written _ hlast hread hne hset hswap =>
        rw [survives_of_unretired h hfresh hread hne hset hswap, hlast,
          run_get before.calm_unhindered, World.reads_unhindered, hread]
        simp [resolves_unhindered]

/-- Somebody is signed in, and from now on the calls of one kind time out. -/
def timingOut (kind : CallKind) : World :=
  signedIn.setFault kind (some ⟨0, .timedOut⟩)

theorem exclusive_timingOut (kind : CallKind) : Exclusive (timingOut kind) :=
  Coherent.exclusive coherent_signedIn

theorem failure_survived_iff_refused_set :
    Exclusive (timingOut .cacheSet) ∧
      ((timingOut .cacheSet).unhindered.run (resolve "second")).1 = .finished (.ok none) ∧
      ((timingOut .cacheSet).run (issue ⟨1, .web⟩ "second" 60)).1 = .finished (.error .timedOut) ∧
      Survives (timingOut .cacheSet) (.error .timedOut)
        ((timingOut .cacheSet).run (issue ⟨1, .web⟩ "second" 60)).2 := by
  have hfresh : ((timingOut .cacheSet).unhindered.run (resolve "second")).1 =
      .finished (.ok none) := by decide +kernel
  have hrun : ((timingOut .cacheSet).run (issue ⟨1, .web⟩ "second" 60)).1 =
      .finished (.error .timedOut) := by decide +kernel
  have hlast : ((timingOut .cacheSet).run (issue ⟨1, .web⟩ "second" 60)).2.lastKind? =
      some .cacheSet := by decide +kernel
  refine ⟨exclusive_timingOut _, hfresh, hrun, ?_⟩
  exact (((failure_survived_iff (exclusive_timingOut .cacheSet)).2 ⟨1, .web⟩ "second" 60
    hfresh).2 _ _ (Prod.ext hrun rfl)).2 (Or.inr (Or.inl hlast))

/-- **A failed login can leave two tokens of one owner that resolve.**  The swap times out
when the new token is written. -/
theorem two_tokens_of_refused_swap :
    Exclusive (timingOut .cacheSwap) ∧
      ((timingOut .cacheSwap).unhindered.run (resolve "second")).1 = .finished (.ok none) ∧
      ((timingOut .cacheSwap).run (issue ⟨1, .web⟩ "second" 60)).1 =
        .finished (.error .timedOut) ∧
      Resolves ((timingOut .cacheSwap).run (issue ⟨1, .web⟩ "second" 60)).2.unhindered
        "first" ⟨1, .web⟩ ∧
      Resolves ((timingOut .cacheSwap).run (issue ⟨1, .web⟩ "second" 60)).2.unhindered
        "second" ⟨1, .web⟩ ∧
      ¬Survives (timingOut .cacheSwap) (.error .timedOut)
        ((timingOut .cacheSwap).run (issue ⟨1, .web⟩ "second" 60)).2 := by
  have hfirst : Resolves ((timingOut .cacheSwap).run (issue ⟨1, .web⟩ "second" 60)).2.unhindered
      "first" ⟨1, .web⟩ := by decide +kernel
  have hsecond : Resolves ((timingOut .cacheSwap).run (issue ⟨1, .web⟩ "second" 60)).2.unhindered
      "second" ⟨1, .web⟩ := by decide +kernel
  refine ⟨exclusive_timingOut _, ?_, ?_, hfirst, hsecond, fun hsurvives => ?_⟩
  · decide +kernel
  · decide +kernel
  · exact absurd (hsurvives.single "first" "second" ⟨1, .web⟩ hfirst hsecond) (by decide)

end Session
end AccountAccess
