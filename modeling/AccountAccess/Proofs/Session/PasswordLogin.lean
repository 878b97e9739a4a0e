import AccountAccess.Proofs.Session.Opening
import AccountAccess.Proofs.Session.SlotMachine

/-!
# Signing in with a password

Signing in looks the account up, checks the password and opens a session.  What it comes to
is settled by the store and the check alone, before anything is written: `letIn` says who is
let in, and why nobody is.  So a login that fails leaves cache and store as they were, and
one that does not has the effect of opening a session.

That effect is told here in what others can see of it.  The new token stands for the owner
of the slot; the tokens that stood for the owner before stand for nobody, because slots and
tokens are coherent and so the only one of them is the one that is swapped out of the slot.

## Main definitions and results

* `Identifies`: a text identifies an account, said with the table.
* `Admitted`, `Refused`: when a password lets an account in, and why nobody is let in.
* `letIn_eq_ok_iff`, `letIn_eq_error_iff`: what is decided before anything is written.
* `loginWithPassword_eq`: signing in opens a session for whoever is let in.
* `SignedIn`, `Establishes.signedIn`: what is seen of a login that opened a session.
* `loginWithPassword_opens_iff`: signing in, after any run from an empty cache.
-/

namespace AccountAccess
namespace Session

open Grant MemoryStore

/-! ## Who is let in -/

section Admit

variable {store : MemoryStore} {primitives : Primitives} {text password : String}
  {account : Account}

/-- A text identifies an account: it is an identifier, and of the accounts that are not
deleted and match it the account is the one with the greatest id. -/
def Identifies (store : MemoryStore) (text : String) (account : Account) : Prop :=
  ∃ identifier, Identifier.read? text = some identifier ∧ store.IsNewest identifier account

theorem identifies_iff (h : store.Filed) :
    Identifies store text account ↔
      (Identifier.read? text).bind store.accountOf? = some account := by
  rw [Option.bind_eq_some_iff, Identifies]
  exact exists_congr fun _ => and_congr_right fun _ => (accountOf?_eq_some_iff h).symm

theorem Identifies.eq (h : store.Filed) {other : Account} (haccount : Identifies store text account)
    (hother : Identifies store text other) : account = other := by
  rw [identifies_iff h] at haccount hother
  exact Option.some.inj (haccount.symm.trans hother)

theorem Identifies.isActive_iff (h : Identifies store text account) :
    account.isActive = true ↔ account.status = .enabled := by
  obtain ⟨identifier, -, hnewest⟩ := h
  have hkept : account.isDeleted = false := hnewest.found.1
  simp [Account.isActive, hkept]

/-- Who is let in with a password, if anybody was found, or why nobody is. -/
def letIn (primitives : Primitives) (password : String) :
    Option Account → Except LoginFailure Account
  | none => .error .invalidCredentials
  | some account =>
    match primitives.checkPassword password account.passwordHash with
    | .error fault => .error (.hash fault)
    | .ok false => .error .invalidCredentials
    | .ok true => if account.isActive then .ok account else .error .disabled

/-- A password lets an account in: a text identifies it, the check accepts the password, and
the account is enabled. -/
structure Admitted (primitives : Primitives) (store : MemoryStore) (text password : String)
    (account : Account) : Prop where
  identified : Identifies store text account
  checked : primitives.checkPassword password account.passwordHash = .ok true
  enabled : account.status = .enabled

/-- Why a password lets nobody in.  That an account is disabled is only said if the check
accepts the password, and an unknown text is answered as a wrong password is. -/
def Refused (primitives : Primitives) (store : MemoryStore) (text password : String) :
    LoginFailure → Prop
  | .invalidCredentials => ∀ account, Identifies store text account →
      primitives.checkPassword password account.passwordHash = .ok false
  | .disabled => ∃ account, Identifies store text account ∧
      primitives.checkPassword password account.passwordHash = .ok true ∧
      account.status ≠ .enabled
  | .hash fault => ∃ account, Identifies store text account ∧
      primitives.checkPassword password account.passwordHash = .error fault
  | _ => False

/-- **Who is let in.** -/
theorem letIn_eq_ok_iff (h : store.Filed) :
    letIn primitives password ((Identifier.read? text).bind store.accountOf?) = .ok account ↔
      Admitted primitives store text password account := by
  constructor
  · intro hletIn
    rcases hfound : (Identifier.read? text).bind store.accountOf? with _ | found
    · rw [hfound] at hletIn
      exact absurd hletIn (by simp [letIn])
    · have hid : Identifies store text found := (identifies_iff h).2 hfound
      simp only [hfound, letIn] at hletIn
      split at hletIn
      · exact absurd hletIn (by simp)
      · exact absurd hletIn (by simp)
      · rename_i hcheck
        split at hletIn
        · rename_i hactive
          obtain rfl := Except.ok.inj hletIn
          exact ⟨hid, hcheck, hid.isActive_iff.1 hactive⟩
        · exact absurd hletIn (by simp)
  · rintro ⟨hid, hcheck, henabled⟩
    have hactive : account.isActive = true := hid.isActive_iff.2 henabled
    simp only [(identifies_iff h).1 hid, letIn, hcheck, if_pos hactive]

/-- **Why nobody is let in.** -/
theorem letIn_eq_error_iff (h : store.Filed) {failure : LoginFailure} :
    letIn primitives password ((Identifier.read? text).bind store.accountOf?) = .error failure ↔
      Refused primitives store text password failure := by
  rcases hfound : (Identifier.read? text).bind store.accountOf? with _ | found
  · have hnobody : ∀ account, ¬Identifies store text account := by
      intro account hid
      rw [identifies_iff h, hfound] at hid
      exact absurd hid (by simp)
    cases failure <;> simp [letIn, Refused, hnobody]
  · have hid : ∀ account, Identifies store text account ↔ found = account := by
      intro account
      rw [identifies_iff h, hfound, Option.some.injEq]
    have hactive : found.isActive = true ↔ found.status = .enabled :=
      ((hid found).2 rfl).isActive_iff
    simp only [letIn]
    rcases hcheck : primitives.checkPassword password found.passwordHash with fault | _ | _
    · cases failure <;> simp [Refused, hid, hcheck]
    · cases failure <;> simp [Refused, hid, hcheck]
    · by_cases henabled : found.status = .enabled
      · rw [if_pos (hactive.2 henabled)]
        cases failure <;> simp [Refused, hid, hcheck, henabled]
      · rw [if_neg (henabled ∘ hactive.1)]
        cases failure <;> simp [Refused, hid, hcheck, henabled]

/-- Signing in opens a session for whoever is let in. -/
theorem loginWithPassword_eq (primitives : Primitives) (ttl : UInt64)
    (text password : String) (scene : Scene) :
    loginWithPassword primitives ttl text password scene =
      (accountOf text >>= fun (found : Except StoreError (Option Account)) =>
        match found with
        | .error e => .done (.error (.store e))
        | .ok found =>
          match letIn primitives password found with
          | .error failure => .done (.error failure)
          | .ok account => openFor ttl account scene) := by
  refine congrArg (accountOf text >>= ·) (funext fun found => ?_)
  rcases found with e | _ | account
  · rfl
  · rfl
  · simp only [letIn]
    rcases primitives.checkPassword password account.passwordHash with fault | _ | _
    · rfl
    · rfl
    · cases account.isActive with
      | false => rfl
      | true => rfl

end Admit

/-! ## What others see of a login -/

/-- What is seen of a login that opened a session for an account: what tokens stand for, which
codes are granted, and that nothing else stands differently in cache and store.  The token
that was read in the slot is the one that is replaced. -/
structure SignedIn (account : Account) (scene : Scene) (token : String) (before after : World) :
    Prop where
  resolves : Resolves after token ⟨account.id, scene⟩
  ended : ∀ other, Resolves before other ⟨account.id, scene⟩ →
    (after.run (resolve other)).1 = .finished (.ok none)
  others : ∀ other, other ≠ token → ¬Resolves before other ⟨account.id, scene⟩ →
    (after.run (resolve other)).1 = (before.run (resolve other)).1
  granted : ∀ code, code ∈ after.cache.membersAt after.clock (grantsKey account.id) ↔
    Derivable before.store account code
  stands : after.cache.containsKey after.clock (grantsKey account.id) = true ↔
    ∃ code, Derivable before.store account code
  entry_eq : ∀ key, key ≠ tokenKey token → key ≠ slotKey ⟨account.id, scene⟩ →
    key ≠ grantsKey account.id →
    (∀ previous, before.reads (slotKey ⟨account.id, scene⟩) = some previous →
      key ≠ tokenKey previous) →
    after.entry key = before.entry key
  store_eq : after.store =
    before.store.modifyAccount account.id ({ · with lastLoginAt := some before.wall })

namespace Establishes

variable {account : Account} {scene : Scene} {token : String} {deadline : Nat}
  {before refreshed after : World} {issuedTo : SessionOwner → String → Prop}

theorem coherent_refreshed (h : Establishes account scene token deadline before refreshed after)
    (hcoherent : Coherent issuedTo before) : Coherent issuedTo refreshed := by
  refine hcoherent.of_entry_eq h.refreshes.calm (Nat.le_of_eq h.refreshes.clock.symm) ?_ ?_
  · intro other
    exact h.refreshes.entry_of_ne (tokenKey_ne_grantsKey other account.id)
  · intro owner
    exact h.refreshes.entry_of_ne (slotKey_ne_grantsKey owner account.id)

/-- What tokens stand for when the session is open. -/
theorem ownerOf_eq (h : Establishes account scene token deadline before refreshed after)
    (hcoherent : Coherent issuedTo before) (hlive : before.clock < deadline) (other : String) :
    ownerOf after other =
      if other = token then some ⟨account.id, scene⟩
      else if ownerOf before other = some ⟨account.id, scene⟩ then none
      else ownerOf before other := by
  have hsame : ownerOf refreshed other = ownerOf before other := by
    rw [ownerOf, ownerOf, World.reads_congr h.refreshes.clock
      (h.refreshes.entry_of_ne (tokenKey_ne_grantsKey other account.id))]
  rw [← hsame]
  exact (h.coherent_refreshed hcoherent).ownerOf_opens h.opens
    (h.refreshes.clock.symm ▸ hlive) other

theorem grants_entry (h : Establishes account scene token deadline before refreshed after) :
    after.entry (grantsKey account.id) = entryOf (derivedCodes before.store account) := by
  rw [← h.refreshes.entry_self]
  refine h.opens.frame _ (tokenKey_ne_grantsKey token account.id).symm
    (slotKey_ne_grantsKey _ account.id).symm ?_
  intro previous _
  exact (tokenKey_ne_grantsKey previous account.id).symm

/-- **What is seen when the session is open**, if its token was nobody's before. -/
theorem signedIn (h : Establishes account scene token deadline before refreshed after)
    (hcoherent : Coherent issuedTo before) (hlive : before.clock < deadline)
    (hfresh : ∀ owner, ¬issuedTo owner token) : SignedIn account scene token before after where
  resolves := by
    rw [resolves_iff h.opens.calm, h.ownerOf_eq hcoherent hlive, if_pos rfl]
  ended other hother := by
    rw [resolves_iff hcoherent.calm] at hother
    have hne : other ≠ token := by
      rintro rfl
      exact hfresh _ (hcoherent.issued_of_reads (hcoherent.reads_slot_of_ownerOf hother))
    rw [run_resolve h.opens.calm, h.ownerOf_eq hcoherent hlive, if_neg hne, if_pos hother]
  others other hne hother := by
    rw [resolves_iff hcoherent.calm] at hother
    rw [run_resolve h.opens.calm, run_resolve hcoherent.calm, h.ownerOf_eq hcoherent hlive,
      if_neg hne, if_neg hother]
  granted code := by
    rw [mem_membersAt_iff h.grants_entry, mem_derivedCodes_iff]
  stands := by
    rw [containsKey_iff h.grants_entry, Ne, List.eq_nil_iff_forall_not_mem, not_forall_not]
    exact exists_congr fun _ => mem_derivedCodes_iff
  entry_eq key htoken hslot hgrants hprevious := by
    have hreads : refreshed.reads (slotKey ⟨account.id, scene⟩) =
        before.reads (slotKey ⟨account.id, scene⟩) :=
      World.reads_congr h.refreshes.clock
        (h.refreshes.entry_of_ne (slotKey_ne_grantsKey _ account.id))
    rw [h.opens.frame key htoken hslot (hreads ▸ hprevious), h.refreshes.entry_of_ne hgrants]
  store_eq := h.store

end Establishes

/-! ## The whole login -/

/-- Looking an account up in calm surroundings is only noted. -/
theorem run_accountOf_of_calm {world : World} (h : world.Calm) (text : String) :
    ∃ log, world.run (accountOf text) =
      (.finished (.ok ((Identifier.read? text).bind world.store.accountOf?)),
        { world with log }) := by
  rw [accountOf]
  cases Identifier.read? text with
  | none => exact ⟨world.log, rfl⟩
  | some identifier =>
    refine ⟨.store (.accountOf identifier) :: world.log, ?_⟩
    rw [World.run, World.run_store, h.answer_store]
    rfl

/-- Signing in with a password in calm surroundings: whoever is let in has a session opened, and
otherwise the account was looked up and nothing else happened. -/
theorem run_loginWithPassword {world : World} (h : world.Calm) (primitives : Primitives)
    (ttl : UInt64) (text password : String) (scene : Scene) :
    ∃ log, world.run (loginWithPassword primitives ttl text password scene) =
      match letIn primitives password ((Identifier.read? text).bind world.store.accountOf?) with
      | .error failure => (.finished (.error failure), { world with log })
      | .ok account => World.run { world with log } (openFor ttl account scene) := by
  obtain ⟨log, hfound⟩ := run_accountOf_of_calm h text
  refine ⟨log, ?_⟩
  rw [loginWithPassword_eq, World.run_bind hfound]
  dsimp only
  cases letIn primitives password ((Identifier.read? text).bind world.store.accountOf?) with
  | error failure => rfl
  | ok account => rfl

/-- **Signing in with a password**, after any run from an empty cache, with any store whose rows
stand under their own ids, and with random bytes that make a token that was not issued yet.  A
session is opened exactly if the password lets an account in; then it is seen to be open, and
otherwise nothing is changed and the failure says why. -/
theorem loginWithPassword_opens_iff (primitives : Primitives) {issued : List String}
    {before : World} (hreached : Reached issued before) (hfiled : before.store.Filed)
    (hfresh : freshToken (before.supply 0) ∉ issued) {ttl : UInt64} (hpositive : 1 ≤ ttl.toNat)
    (hend : before.clock / 1000 + ttl.toNat < clockEnd) {expiresAt : Timestamp}
    (hexpires : expiryOf before.wall ttl = some expiresAt) (text password : String)
    (scene : Scene) :
    ∃ result after, before.run (loginWithPassword primitives ttl text password scene) =
        (.finished result, after) ∧
      ((∃ opened, result = .ok opened) ↔
        ∃ account, Admitted primitives before.store text password account) ∧
      (∀ opened, result = .ok opened →
        ∃ account, Admitted primitives before.store text password account ∧
          opened = ⟨{ account with lastLoginAt := some before.wall },
            freshToken (before.supply 0), expiresAt⟩ ∧
          SignedIn account scene (freshToken (before.supply 0)) before after) ∧
      (∀ failure, result = .error failure ↔
        Refused primitives before.store text password failure) ∧
      (∀ failure, result = .error failure →
        after.cache = before.cache ∧ after.store = before.store) := by
  obtain ⟨issuedTo, hcoherent, hunissued⟩ := hreached.exists_coherent
  obtain ⟨log, hrun⟩ :=
    run_loginWithPassword hcoherent.calm primitives ttl text password scene
  rw [hrun]
  cases hletIn : letIn primitives password
      ((Identifier.read? text).bind before.store.accountOf?) with
  | error failure =>
    refine ⟨.error failure, { before with log }, rfl, ?_, ?_, ?_, ?_⟩
    · refine iff_of_false (by simp) ?_
      rintro ⟨account, hadmitted⟩
      rw [← letIn_eq_ok_iff hfiled, hletIn] at hadmitted
      exact absurd hadmitted (by simp)
    · intro opened hopened
      exact absurd hopened (by simp)
    · intro other
      rw [← letIn_eq_error_iff hfiled, hletIn, Except.error.injEq, Except.error.injEq]
    · intro other _
      exact ⟨rfl, rfl⟩
  | ok account =>
    have hadmitted : Admitted primitives before.store text password account :=
      (letIn_eq_ok_iff hfiled).1 hletIn
    have hlooked : World.Calm { before with log } :=
      ⟨hcoherent.calm.no_fault, hcoherent.calm.available⟩
    obtain ⟨refreshed, after, hopening, hestablishes⟩ :=
      run_openFor hlooked account scene (expiry?_eq_some hend) hexpires
        (hcoherent.slot_text ⟨account.id, scene⟩)
    have hestablished : Establishes account scene (freshToken (before.supply 0))
        (before.clock + 1000 * ttl.toNat) before refreshed after :=
      ⟨⟨hestablishes.refreshes.calm, hestablishes.refreshes.clock,
        hestablishes.refreshes.entry_eq⟩, hestablishes.opens, hestablishes.store⟩
    have hlive : before.clock < before.clock + 1000 * ttl.toNat := by omega
    refine ⟨_, after, hopening, ?_, ?_, ?_, ?_⟩
    · exact iff_of_true ⟨_, rfl⟩ ⟨account, hadmitted⟩
    · intro opened hopened
      rw [← Except.ok.inj hopened]
      exact ⟨account, hadmitted, rfl,
        hestablished.signedIn hcoherent hlive (hunissued _ hfresh)⟩
    · intro failure
      rw [← letIn_eq_error_iff hfiled, hletIn]
      exact iff_of_false (by simp) (by simp)
    · intro failure hfailure
      exact absurd hfailure (by simp)

/-- Surroundings in which an account whose role gives a code is signed in at two places. -/
def signedInTwice : World :=
  Session.playAll { withAlice with store := .withReports }
    [.login ⟨1, .web⟩ "first" 60, .login ⟨1, .mobile⟩ "phone" 60]

theorem reached_signedInTwice : Reached ["first", "phone"] signedInTwice := by
  refine ⟨_, _, ⟨⟨rfl, rfl⟩, rfl⟩, ?_, by decide, rfl, rfl⟩
  simp only [Allowed, Event.Allowed]
  decide

theorem store_signedInTwice : signedInTwice.store = .withReports := by
  rfl

theorem admitted_signedInTwice :
    Admitted plain signedInTwice.store "alice" "Abcdef12" MemoryStore.alice := by
  rw [store_signedInTwice]
  refine ⟨⟨.username "alice", by decide, ?_⟩, by decide, rfl⟩
  rw [← accountOf?_eq_some_iff filed_withReports]
  decide

/-- The account signs in once more at one of the places. -/
theorem loginWithPassword_opens_iff_again :
    Reached ["first", "phone"] signedInTwice ∧ signedInTwice.store.Filed ∧
      freshToken (signedInTwice.supply 0) ∉ ["first", "phone"] ∧
      expiryOf signedInTwice.wall 60 = some ⟨60, 0⟩ ∧
      Resolves signedInTwice "first" ⟨1, .web⟩ ∧
      ∃ opened after,
        signedInTwice.run (loginWithPassword plain 60 "alice" "Abcdef12" .web) =
          (.finished (.ok opened), after) ∧
        Resolves after opened.token ⟨1, .web⟩ ∧
        (after.run (resolve "first")).1 = .finished (.ok none) ∧
        Resolves after "phone" ⟨1, .mobile⟩ ∧
        "Desk:GET:/reports" ∈ after.cache.membersAt after.clock (grantsKey 1) := by
  have hfiled : signedInTwice.store.Filed := by
    rw [store_signedInTwice]
    exact filed_withReports
  have hfresh : freshToken (signedInTwice.supply 0) ∉ ["first", "phone"] := by
    decide
  have hexpires : expiryOf signedInTwice.wall 60 = some ⟨60, 0⟩ := by
    decide
  have hfirst : Resolves signedInTwice "first" ⟨1, .web⟩ := by
    decide +kernel
  refine ⟨reached_signedInTwice, hfiled, hfresh, hexpires, hfirst, ?_⟩
  obtain ⟨result, after, hrun, hopens, hopened, -⟩ := loginWithPassword_opens_iff plain
    reached_signedInTwice hfiled hfresh (by decide) (by decide) hexpires "alice" "Abcdef12" .web
  obtain ⟨opened, rfl⟩ := hopens.2 ⟨MemoryStore.alice, admitted_signedInTwice⟩
  obtain ⟨account, hadmitted, rfl, hseen⟩ := hopened opened rfl
  obtain rfl : account = MemoryStore.alice :=
    hadmitted.identified.eq hfiled admitted_signedInTwice.identified
  refine ⟨_, after, hrun, hseen.resolves, hseen.ended "first" hfirst, ?_, ?_⟩
  · rw [Resolves, hseen.others "phone" (by decide) (by decide +kernel)]
    decide +kernel
  · rw [show grantsKey 1 = grantsKey MemoryStore.alice.id from rfl, hseen.granted,
      store_signedInTwice, ← mem_derivedCodes_iff]
    decide +kernel

end Session
end AccountAccess
