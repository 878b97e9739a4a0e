import AccountAccess.Proofs.Cache.Snapshots
import AccountAccess.Proofs.Http.Header
import AccountAccess.Proofs.Service.Readings
import AccountAccess.Proofs.Session.Acting
import AccountAccess.Proofs.Session.Run
import AccountAccess.Proofs.Store.Accounts
import AccountAccess.Session.Identity

/-!
# The verdict on a request

Whoever makes a request is found out in stages: the token is taken from the header fields, the
session is read from the cache, the scene that the request declares is compared with that of
the session, and the account is looked up.  `Verdict` says which verdict the surroundings give,
by the first stage that fails; failing calls and snapshots are part of the surroundings.

A look-up of an account may drop a snapshot that is too old, and may keep a new one, which was
then fetched from the store at that very time.  Nothing else changes, and before the look-up
nothing changes at all.  So rows and snapshots stay under their own ids, and the identity that
is found has the id that the session names.

## Main definitions and results

* `sessionOf`, `accountFor`: the session found for a token, and the account found for an id.
* `Agrees`, `Shows`: a request declares no other scene; it shows the token of a session.
* `Verdict`, `Verdict.unique`: the verdict by the first stage that fails, and that there is one.
* `LooksUp`, `run_findAccount`: looking an account up in any surroundings.
* `OnlyAsks`, `run_resolve_cases`: reading a session in any surroundings.
* `run_identify`: finding out who makes a request gives the verdict.
* `identify_eq_verdict`: the same with the ids of identity and session, in surroundings that keep
  rows and snapshots under their own ids.
-/

namespace AccountAccess
namespace Session

open Http (Headers)

variable {world before after : World} {headers : Headers} {token : String} {id : Int64}

/-! ## What the surroundings say -/

/-- The session that is found for a token; none is found if the reading fails. -/
def sessionOf (world : World) (token : String) : Option SessionOwner :=
  if world.answersCache .cacheGet then ownerOf world token else none

/-- The account that is found for an id: that of a young snapshot, or else the store's, unless
the store fails. -/
def accountFor (world : World) (id : Int64) : Option Account :=
  (world.snapshots.young? world.clock id).or
    (if world.fails .storeAccount then none else world.store.account? id)

/-- A request declares a scene: the first field for it is readable, and this is what is left
of it after trimming. -/
def Declares (headers : Headers) (scene : String) : Prop :=
  headers.States sceneField scene

/-- A request declares no other scene than that of an owner. -/
def Agrees (headers : Headers) (owner : SessionOwner) : Prop :=
  ∀ scene, Declares headers scene → scene = Labelled.name owner.scene

theorem trimmed?_eq_some_iff {scene : String} :
    headers.trimmed? sceneField = some scene ↔ Declares headers scene :=
  Headers.trimmed?_eq_some_iff

theorem agrees_iff {owner : SessionOwner} : Agrees headers owner ↔
    (headers.trimmed? sceneField).any (· ≠ Labelled.name owner.scene) = false := by
  simp only [Agrees, ← trimmed?_eq_some_iff]
  cases headers.trimmed? sceneField with
  | none => simp
  | some scene => simp

/-- A request shows the token of a session, and declares no other scene than the session's. -/
structure Shows (world : World) (headers : Headers) (token : String) (owner : SessionOwner) :
    Prop where
  token_eq : bearerToken headers = .ok token
  session_eq : sessionOf world token = some owner
  agrees : Agrees headers owner

/-- **The verdict on a request**, by the first stage that fails. -/
inductive Verdict (world : World) (headers : Headers) : Except Refusal Identity → Prop where
  | noCredential {refusal : Refusal} (htoken : bearerToken headers = .error refusal) :
      Verdict world headers (.error refusal)
  | noSession {token : String} (htoken : bearerToken headers = .ok token)
      (hsession : sessionOf world token = none) :
      Verdict world headers (.error .sessionInvalid)
  | otherScene {token scene : String} {owner : SessionOwner}
      (htoken : bearerToken headers = .ok token)
      (hsession : sessionOf world token = some owner) (hdeclared : Declares headers scene)
      (hother : scene ≠ Labelled.name owner.scene) :
      Verdict world headers (.error .sceneMismatch)
  | noAccount {token : String} {owner : SessionOwner} (hshows : Shows world headers token owner)
      (hnone : ∀ account, accountFor world owner.account = some account →
        account.deletedAt ≠ none ∨ account.status ≠ .enabled) :
      Verdict world headers (.error .accountNotFound)
  | identified {token : String} {owner : SessionOwner} {account : Account}
      (hshows : Shows world headers token owner)
      (haccount : accountFor world owner.account = some account)
      (hkept : account.deletedAt = none) (henabled : account.status = .enabled) :
      Verdict world headers (.ok (.ofAccount account owner.scene token))

theorem Verdict.unique {verdict other : Except Refusal Identity} (h : Verdict world headers verdict)
    (h' : Verdict world headers other) : verdict = other := by
  cases h <;> cases h' <;> grind [Agrees, cases Shows]

/-! ## Looking an account up -/

/-- What a look-up leaves behind: only the snapshots have changed, and one that is kept was
kept before or has just been fetched. -/
structure LooksUp (before after : World) : Prop extends World.Spares before after where
  ttl : after.snapshots.ttl = before.snapshots.ttl
  kept : ∀ kept ∈ after.snapshots.entries, kept ∈ before.snapshots.entries ∨
    (kept.fetchedAt = before.clock ∧ before.store.account? kept.id = some kept.account)

/-- **Looking an account up in any surroundings.** -/
theorem run_findAccount (world : World) (id : Int64) :
    ∃ result after, world.run (findAccount id (Procedure.store (.account id))) =
        (.finished result, after) ∧ LooksUp world after ∧
      (result = .ok (accountFor world id) ∨
        accountFor world id = none ∧ ∃ e, result = .error e) := by
  let looked : World :=
    { world with snapshots := (world.snapshots.retrieve world.clock id).2 }
  have hlook : world.run (Procedure.retrieve id) =
      (.finished (world.snapshots.young? world.clock id), looked) := by
    rw [← Snapshots.fst_retrieve]
    rfl
  have hlooked : LooksUp world looked :=
    ⟨⟨rfl, rfl, rfl⟩, Snapshots.ttl_retrieve, fun _ h => Or.inl (Snapshots.mem_of_mem_retrieve h)⟩
  rw [findAccount, World.run_bind hlook]
  cases hyoung : world.snapshots.young? world.clock id with
  | some account =>
    refine ⟨.ok (some account), looked, rfl, hlooked, Or.inl ?_⟩
    rw [accountFor, hyoung, Option.some_or]
  | none =>
    have hfor : accountFor world id =
        if world.fails .storeAccount then none else world.store.account? id := by
      rw [accountFor, hyoung, Option.none_or]
    rw [hfor]
    obtain ⟨result, after, hrun, hasked, hresult⟩ := looked.run_account_cases id
    have hafter : LooksUp world after := by
      refine ⟨⟨hasked.clock, hasked.cache, hasked.store⟩, ?_, ?_⟩
      · rw [hasked.snapshots, hlooked.ttl]
      · rw [hasked.snapshots]
        exact hlooked.kept
    rw [World.run_bind hrun]
    rcases hresult with ⟨hfails, e, rfl⟩ | ⟨hfails, rfl⟩
    · replace hfails : world.fails .storeAccount = true := hfails
      exact ⟨.error e, after, rfl, hafter, Or.inr ⟨if_pos hfails, e, rfl⟩⟩
    · replace hfails : world.fails .storeAccount = false := hfails
      rw [hfails, if_neg Bool.false_ne_true, show looked.store = world.store from rfl]
      cases haccount : world.store.account? id with
      | none => exact ⟨.ok none, after, rfl, hafter, Or.inl rfl⟩
      | some account =>
        refine ⟨.ok (some account), { after with
          snapshots := after.snapshots.remember after.clock id account }, rfl,
          ⟨⟨hafter.clock, hafter.cache, hafter.store⟩, hafter.ttl, ?_⟩, Or.inl rfl⟩
        intro kept hkept
        rcases Snapshots.mem_of_mem_remember hkept with rfl | hold
        · exact Or.inr ⟨hafter.clock, haccount⟩
        · exact hafter.kept kept hold

/-! ## Finding out who makes a request -/

/-- The surroundings are as before, but that cache calls were noted and counted off. -/
structure OnlyAsks (before after : World) : Prop where
  snapshots : after.snapshots = before.snapshots
  store : after.store = before.store
  cache : after.cache = before.cache
  clock : after.clock = before.clock
  faults : after.faults .storeAccount = before.faults .storeAccount
  log : ∃ calls, after.log = calls ++ before.log ∧ ∀ call, ServiceCall.store call ∉ calls

protected theorem OnlyAsks.refl (world : World) : OnlyAsks world world :=
  ⟨rfl, rfl, rfl, rfl, rfl, [], rfl, fun _ => List.not_mem_nil⟩

theorem OnlyAsks.accountFor_eq (h : OnlyAsks before after) (id : Int64) :
    accountFor after id = accountFor before id := by
  rw [accountFor, accountFor, h.snapshots, h.clock, h.store, World.fails_congr h.faults]

theorem OnlyAsks.looksUp {between : World} (h : OnlyAsks before between)
    (h' : LooksUp between after) : LooksUp before after := by
  refine ⟨⟨h'.clock.trans h.clock, h'.cache.trans h.cache, by rw [h'.store, h.store]⟩, ?_, ?_⟩
  · rw [h'.ttl, h.snapshots]
  · intro kept hkept
    have hwhence := h'.kept kept hkept
    rwa [h.snapshots, h.clock, h.store] at hwhence

protected theorem LooksUp.refl (world : World) : LooksUp world world :=
  ⟨.refl world, rfl, fun _ h => Or.inl h⟩

/-- **Reading a session in any surroundings.** -/
theorem run_resolve_cases (world : World) (token : String) :
    ∃ result after, world.run (resolve token) = (.finished result, after) ∧
      OnlyAsks world after ∧
      (result = .ok (sessionOf world token) ∨
        sessionOf world token = none ∧ ∃ e, result = .error e) := by
  have hperform : world.cache.perform world.clock (.get (tokenKey token)) =
      (some (.ok (world.reads (tokenKey token))), world.cache) := rfl
  obtain ⟨answer, faults, hfaults, hrun, hanswered⟩ := World.run_cache_of_perform hperform
  replace hfaults : ∀ other, other ≠ CallKind.cacheGet → faults other = world.faults other :=
    hfaults
  have hasks : OnlyAsks world { world.noted (.cache (.get (tokenKey token))) with faults } :=
    ⟨rfl, rfl, rfl, rfl, hfaults _ (by decide), [.cache (.get (tokenKey token))], rfl, by simp⟩
  rw [resolve, World.run_bind hrun, sessionOf]
  rcases hanswered with ⟨hanswers, rfl⟩ | ⟨hanswers, e, rfl⟩
  · replace hanswers : world.answersCache .cacheGet = true := hanswers
    rw [if_pos hanswers]
    exact ⟨_, _, rfl, hasks, Or.inl rfl⟩
  · replace hanswers : world.answersCache .cacheGet = false := hanswers
    rw [hanswers, if_neg Bool.false_ne_true]
    exact ⟨_, _, rfl, hasks, Or.inr ⟨rfl, e, rfl⟩⟩

/-- The verdict once the look-up of the account has given a result. -/
def lookedUp (owner : SessionOwner) (token : String) :
    Except StoreError (Option Account) → Except Refusal Identity
  | .error _ | .ok none => .error .accountNotFound
  | .ok (some account) =>
    if account.isActive then .ok (.ofAccount account owner.scene token)
    else .error .accountNotFound

theorem identifyToken_eq (token : String) (declared : Option String) :
    identifyToken token declared = do
      match ← resolve token with
      | .error _ | .ok none => return .error .sessionInvalid
      | .ok (some owner) =>
        if declared.any (· ≠ Labelled.name owner.scene) then return .error .sceneMismatch
        else
          let result ← findAccount owner.account (Procedure.store (.account owner.account))
          return lookedUp owner token result := by
  unfold identifyToken
  congr 1
  funext answer
  rcases answer with e | _ | owner
  · rfl
  · rfl
  · dsimp only
    congr 1
    congr 1
    funext result
    rcases result with e | _ | account
    · rfl
    · rfl
    · simp only [lookedUp]
      split
      · rfl
      · rfl

/-- The last two stages: an account is found or not, and can be used or not. -/
theorem Verdict.of_lookUp {owner : SessionOwner} {result : Except StoreError (Option Account)}
    (hshows : Shows world headers token owner)
    (hresult : result = .ok (accountFor world owner.account) ∨
      accountFor world owner.account = none ∧ ∃ e, result = .error e) :
    Verdict world headers (lookedUp owner token result) := by
  have hnobody : accountFor world owner.account = none →
      Verdict world headers (.error .accountNotFound) := by
    intro hnone
    refine .noAccount hshows fun account haccount => ?_
    rw [hnone] at haccount
    exact absurd haccount (by simp)
  rcases hresult with rfl | ⟨hnone, e, rfl⟩
  · cases haccount : accountFor world owner.account with
    | none => exact hnobody haccount
    | some account =>
      show Verdict world headers
        (if account.isActive then .ok (.ofAccount account owner.scene token) else _)
      by_cases hactive : account.isActive = true
      · obtain ⟨hkept, henabled⟩ : account.deletedAt = none ∧ account.status = .enabled := by
          simpa [Account.isActive, Account.isDeleted] using hactive
        rw [if_pos hactive]
        exact .identified hshows haccount hkept henabled
      · rw [if_neg hactive]
        refine .noAccount hshows fun other hother => ?_
        obtain rfl : account = other := Option.some.inj (haccount.symm.trans hother)
        by_contra hboth
        rw [not_or, not_not, not_not] at hboth
        exact hactive (by simp [Account.isActive, Account.isDeleted, hboth])
  · exact hnobody hnone

/-- **Finding out who makes a request, in any surroundings.**  The verdict is that of the
surroundings, and only a look-up of the account can have changed anything. -/
theorem run_identify (world : World) (headers : Headers) :
    ∃ verdict after, world.run (identify headers) = (.finished verdict, after) ∧
      Verdict world headers verdict ∧ LooksUp world after ∧
      ((∀ token owner, ¬Shows world headers token owner) → OnlyAsks world after) := by
  unfold identify
  cases htoken : bearerToken headers with
  | error refusal =>
    exact ⟨_, world, rfl, .noCredential htoken, .refl world, fun _ => .refl world⟩
  | ok token =>
    obtain ⟨result, asked, hresolve, hasks, hresult⟩ := run_resolve_cases world token
    have hlooks : LooksUp world asked := hasks.looksUp (.refl asked)
    dsimp only
    rw [identifyToken_eq, World.run_bind hresolve]
    cases hsession : sessionOf world token with
    | none =>
      refine ⟨.error .sessionInvalid, asked, ?_, .noSession htoken hsession, hlooks,
        fun _ => hasks⟩
      rw [hsession] at hresult
      rcases hresult with rfl | ⟨-, e, rfl⟩
      · rfl
      · rfl
    | some owner =>
      rw [hsession] at hresult
      obtain rfl : result = .ok (some owner) := hresult.resolve_right (by simp)
      dsimp only
      by_cases hagrees : Agrees headers owner
      · have hshows : Shows world headers token owner := ⟨htoken, hsession, hagrees⟩
        obtain ⟨found, after, hfind, hlooked, hfound⟩ := run_findAccount asked owner.account
        rw [hasks.accountFor_eq] at hfound
        rw [agrees_iff.1 hagrees, if_neg Bool.false_ne_true, World.run_bind hfind]
        exact ⟨lookedUp owner token found, after, rfl, .of_lookUp hshows hfound,
          hasks.looksUp hlooked, fun hnot => absurd hshows (hnot token owner)⟩
      · obtain ⟨scene, hdeclared, hother⟩ : ∃ scene, Declares headers scene ∧
            scene ≠ Labelled.name owner.scene := by
          simpa [Agrees] using hagrees
        rw [agrees_iff, Bool.not_eq_false] at hagrees
        rw [if_pos hagrees]
        exact ⟨.error .sceneMismatch, asked, rfl, .otherScene htoken hsession hdeclared hother,
          hlooks, fun _ => hasks⟩

/-! ## The account is the one that the session names -/

/-- Rows and snapshots are kept under the ids of their accounts. -/
structure Filed (world : World) : Prop where
  store : world.store.Filed
  snapshots : world.snapshots.Filed

theorem Filed.id_of_accountFor (h : Filed world) {account : Account}
    (haccount : accountFor world id = some account) : account.id = id := by
  rcases Option.or_eq_some_iff.1 haccount with hyoung | ⟨-, hrow⟩
  · exact h.snapshots.id_of_young? hyoung
  · split at hrow
    · exact absurd hrow (by simp)
    · exact h.store.id_of_account? hrow

/-- **A look-up keeps everything under its own id.** -/
theorem LooksUp.filed (h : LooksUp before after) (hfiled : Filed before) : Filed after := by
  refine ⟨?_, fun kept hkept => ?_⟩
  · rw [h.store]
    exact hfiled.store
  · rcases h.kept kept hkept with hold | ⟨-, hrow⟩
    · exact hfiled.snapshots kept hold
    · exact hfiled.store.id_of_account? hrow

/-- **What a request is told about itself.**  In any surroundings that keep rows and snapshots
under their own ids, and whichever calls fail, there is exactly one verdict and the request is
given it.  An identity is that of the session: its token is the one that was shown, its account
and scene are those that the session names, and its rights are those of the account that was
found.  A request that does not show a session of its own scene is refused before the account
is looked up: the store was asked nothing, and the snapshots are untouched. -/
theorem identify_eq_verdict (hfiled : Filed world) (headers : Headers) :
    ∃ verdict after, world.run (identify headers) = (.finished verdict, after) ∧
      (∀ other, Verdict world headers other ↔ other = verdict) ∧
      (∀ identity, verdict = .ok identity → bearerToken headers = .ok identity.token ∧
        sessionOf world identity.token = some ⟨identity.account.id, identity.scene⟩ ∧
        accountFor world identity.account.id = some identity.account ∧
        identity.isStaff = identity.account.isStaff ∧
        identity.isSuperAdmin = identity.account.isSuperAdmin) ∧
      ((∀ token owner, ¬Shows world headers token owner) → OnlyAsks world after) ∧
      LooksUp world after ∧ Filed after := by
  obtain ⟨verdict, after, hrun, hverdict, hlooks, hearly⟩ := run_identify world headers
  refine ⟨verdict, after, hrun, ?_, ?_, hearly, hlooks, hlooks.filed hfiled⟩
  · intro other
    constructor
    · intro hother
      exact hother.unique hverdict
    · rintro rfl
      exact hverdict
  · rintro identity rfl
    cases hverdict with
    | @identified token owner account hshows haccount hkept henabled =>
      have hid : account.id = owner.account := hfiled.id_of_accountFor haccount
      have howner : (⟨account.id, owner.scene⟩ : SessionOwner) = owner := by rw [hid]
      refine ⟨hshows.token_eq, ?_, ?_, rfl, rfl⟩
      · show sessionOf world token = some ⟨account.id, owner.scene⟩
        rw [howner, hshows.session_eq]
      · show accountFor world account.id = some account
        rw [hid, haccount]

/-- The fields of a request that shows a token and has a value in the field for the scene. -/
def showing (token : String) (scene : List UInt8) : Headers :=
  [("Authorization", Text.toBytes ("Bearer " ++ token)), ("X-Front-Scene", scene)]

/-- An account that is signed in. -/
def signedInOnce : World :=
  Session.playAll withAlice [.login ⟨1, .web⟩ "first" 60]

/-- The account makes a request from the place where it is signed in. -/
theorem identify_eq_verdict_signedInOnce :
    Filed signedInOnce ∧
      ∃ after, signedInOnce.run (identify (showing "first" (Text.toBytes " Web "))) =
          (.finished (.ok (.ofAccount MemoryStore.alice .web "first")), after) ∧
        Verdict signedInOnce (showing "first" (Text.toBytes " Web "))
          (.ok (.ofAccount MemoryStore.alice .web "first")) ∧ Filed after := by
  have hstore : signedInOnce.store = .ofAlice := rfl
  have hsnapshots : signedInOnce.snapshots = Snapshots.empty 1 0 := rfl
  have hfiled : Filed signedInOnce := by
    refine ⟨?_, ?_⟩
    · rw [hstore]
      exact MemoryStore.filed_ofAlice
    · rw [hsnapshots]
      exact Snapshots.filed_empty 1 0
  have hfinds : (signedInOnce.run (identify (showing "first" (Text.toBytes " Web ")))).1 =
      .finished (.ok (.ofAccount MemoryStore.alice .web "first")) := by
    decide +kernel
  obtain ⟨verdict, after, hrun, hverdict, -, -, -, hafter⟩ :=
    identify_eq_verdict hfiled (showing "first" (Text.toBytes " Web "))
  rw [hrun] at hfinds
  obtain rfl := Outcome.finished.inj hfinds
  exact ⟨hfiled, after, hrun, (hverdict _).2 rfl, hafter⟩

end Session
end AccountAccess
