import AccountAccess.Proofs.Session.Acting

/-!
# The effect of opening a session

Opening a session refreshes the granted codes of the account, issues a token that is drawn
at random, and notes the time in the row of the account.  In calm surroundings the three
have one effect, which is stated as a structure: the codes that are granted, the entries of
the token and of the slot, the one column of the one row that changes, and that everything
else stays.

The random bytes and the clock on the wall are looked at between the other calls, so it has
to be known of a refresh and of an issue that they leave both alone.  Their calls are quiet,
and a quiet call does.

## Main definitions and results

* `Establishes`: what opening a session leaves behind.
* `run_setLastLogin`: noting the time changes the account's row.
* `run_openFor`: opening a session in calm surroundings.  The deadline has to lie on the clock and
  the expiry has to be a date; where one of these fails, the opening breaks off.
-/

namespace AccountAccess
namespace Session

open Grant

/-! ## The effect of opening a session -/

/-- What opening a session leaves behind, with the refreshed surroundings in between: the
granted codes are written, then a token is issued, and the time stands in the account's row. -/
structure Establishes (account : Account) (scene : Scene) (token : String) (deadline : Nat)
    (before refreshed after : World) : Prop where
  refreshes : World.Alters before (grantsKey account.id)
    (entryOf (derivedCodes before.store account)) refreshed
  opens : Opens ⟨account.id, scene⟩ token deadline refreshed after
  store : after.store =
    before.store.modifyAccount account.id ({ · with lastLoginAt := some before.wall })

theorem run_setLastLogin {world : World} (h : world.Calm) (account : Int64) (time : Timestamp) :
    ∃ after, world.run (Procedure.store (.setLastLogin account time)) =
        (.finished (.ok ()), after) ∧
      after.Calm ∧ after.clock = world.clock ∧ after.entry = world.entry ∧
      after.store = world.store.modifyAccount account ({ · with lastLoginAt := some time }) := by
  rw [World.run, World.run_store, h.answer_store]
  exact ⟨_, rfl, ⟨h.no_fault, h.available⟩, rfl, rfl, rfl⟩

/-- **Opening a session in calm surroundings.**  The deadline has to lie on the clock, the
expiry has to be a date, and the slot must hold a text if it holds anything. -/
theorem run_openFor {before : World} (h : before.Calm) (account : Account) (scene : Scene)
    {ttl : UInt64} {deadline : Nat} {expiresAt : Timestamp}
    (hd : expiry? before.clock ttl = some deadline)
    (hexpires : expiryOf before.wall ttl = some expiresAt)
    (htext : ∀ e, before.entry (slotKey ⟨account.id, scene⟩) = some e →
      ∃ v d, e = .textUntil v d) :
    ∃ refreshed after, before.run (openFor ttl account scene) =
        (.finished (.ok ⟨{ account with lastLoginAt := some before.wall },
          freshToken (before.supply 0), expiresAt⟩), after) ∧
      Establishes account scene (freshToken (before.supply 0)) deadline before refreshed after := by
  obtain ⟨refreshed, hrefresh, halters⟩ := run_refresh h account
  have hrefreshed : Unmoved before refreshed := by
    have hmoved := unmoved_run (every_refresh account) before
    rwa [hrefresh] at hmoved
  -- the random bytes are drawn between the refresh and the issue
  let drawn : World := { refreshed with supply := fun n => refreshed.supply (n + 1) }
  have hdraw : refreshed.run Procedure.random = (.finished (refreshed.supply 0), drawn) := rfl
  have hslot : refreshed.entry (slotKey ⟨account.id, scene⟩) =
      before.entry (slotKey ⟨account.id, scene⟩) :=
    halters.entry_of_ne (slotKey_ne_grantsKey ⟨account.id, scene⟩ account.id)
  have hdrawn : drawn.Calm := ⟨halters.calm.no_fault, halters.calm.available⟩
  obtain ⟨issued, hissue, hopens⟩ := run_issue hdrawn ⟨account.id, scene⟩
    (freshToken (refreshed.supply 0)) (halters.clock.symm ▸ hd) (fun e he => htext e (hslot ▸ he))
  have hissued : Unmoved drawn issued := by
    have hmoved := unmoved_run
      (every_issue account.id scene (freshToken (refreshed.supply 0)) ttl) drawn
    rwa [hissue] at hmoved
  have hnow : issued.run Procedure.now = (.finished issued.wall, issued) := rfl
  obtain ⟨after, hnoted, hcalm, hclock, hentry, hstore⟩ :=
    run_setLastLogin hopens.calm account.id issued.wall
  refine ⟨refreshed, after, ?_, halters, ⟨hcalm, hclock.trans hopens.clock, ?_, ?_, ?_, ?_⟩, ?_⟩
  · rw [openFor, World.run_bind hrefresh]
    simp only [World.run_bind hdraw, World.run_bind hissue, World.run_bind hnow,
      World.run_bind hnoted]
    rw [hissued.wall.trans hrefreshed.wall, hexpires, hrefreshed.supply]
    rfl
  · rw [hentry, ← hrefreshed.supply]
    exact hopens.token_entry
  · rw [hentry, ← hrefreshed.supply]
    exact hopens.slot_entry
  · rw [hentry, ← hrefreshed.supply]
    exact hopens.replaced
  · rw [hentry, ← hrefreshed.supply]
    exact hopens.frame
  · rw [hstore, hissued.store.trans hrefreshed.store, hissued.wall.trans hrefreshed.wall]

end Session
end AccountAccess
