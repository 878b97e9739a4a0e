import AccountAccess.Proofs.Code.Spend
import AccountAccess.Proofs.Grant.Refresh
import AccountAccess.Proofs.Session.Calls
import AccountAccess.Proofs.Store.Accounts
import AccountAccess.Session.Login

/-!
# What is done for one account

Opening a session and storing a password are done for one account.  `ActsFor` lists the
calls that they can come to make, and `ActedFor` says what such calls leave behind, whether
they fail or not and however few of them are made: only tokens, the slots and granted codes of
the account and its row are touched, and a token that is written stands for the account.

Refreshing the granted codes and issuing a token are quiet besides: they only ask the store,
and they look neither at the clock on the wall nor at random bytes.

The effect is stated of a single call (`ActedFor.answer`) and carried over to whole procedures by
the tree alone.  So a procedure that breaks off, or goes on after a failure, needs no argument of
its own: whatever part of it has been played, its calls were among those listed.

## Main definitions and results

* `ActsFor`, `ActsQuietlyFor`: the calls that are made for an account, and the quiet ones of them.
* `every_refresh`, `every_issue`, `every_openFor`, `every_savePassword`: which procedures make no
  others.
* `ActsFor.notMem`: which keys such a call comes near.
* `ActedFor`, `ActedFor.run`: what can have been done between two moments.
* `unmoved_run`: what is done quietly changes neither the store nor the wall nor the random bytes.
-/

namespace AccountAccess
namespace Session

open Grant OneTimeCode

/-! ## The calls -/

/-- The calls that are made for an account: a token is written for it, a slot is taken over,
a token is retired, its granted codes are replaced, and its own row is changed. -/
def ActsFor (account : Int64) : ServiceCall → Prop
  | .cache (.set key value _) =>
    ∃ token scene, key = tokenKey token ∧ value = SessionOwner.render ⟨account, scene⟩
  | .cache (.swap key _ _) => ∃ scene, key = slotKey ⟨account, scene⟩
  | .cache (.remove keys) => ∃ token, keys = [tokenKey token]
  | .cache (.write writes) => ∃ codes, writes = Grant.writes account codes
  | .store (.resourcesOf ..) | .store (.codesOf _) => True
  | .store (.setPassword id _) | .store (.setLastLogin id _) => id = account
  | .now | .random => True
  | _ => False

/-- The calls of the cache, and the questions to the store that a refresh asks.  They leave
the store, the wall clock and the random bytes to come as they are. -/
def IsQuiet : ServiceCall → Prop
  | .cache _ | .store (.resourcesOf ..) | .store (.codesOf _) => True
  | _ => False

/-- What is done quietly for an account. -/
def ActsQuietlyFor (account : Int64) (call : ServiceCall) : Prop :=
  ActsFor account call ∧ IsQuiet call

theorem every_rewrite (account : Int64) (codes : List String) :
    (rewrite account codes).Every (ActsQuietlyFor account) fun _ => True := by
  refine ⟨⟨⟨codes, rfl⟩, trivial⟩, fun (answer : Except CacheError Unit) => ?_⟩
  rcases answer with e | _
  · trivial
  · trivial

/-- A refresh acts for its account, quietly. -/
theorem every_refresh (account : Account) :
    (refresh account).Every (ActsQuietlyFor account.id) fun _ => True := by
  rw [refresh_eq]
  split
  · exact every_rewrite account.id [everything]
  · refine ⟨⟨trivial, trivial⟩, fun (answer : Except StoreError (List Int64)) => ?_⟩
    rcases answer with e | resources
    · trivial
    · simp only [collect]
      split
      · exact every_rewrite account.id []
      · refine ⟨⟨trivial, trivial⟩, fun (answer : Except StoreError (List String)) => ?_⟩
        rcases answer with e | codes
        · trivial
        · exact every_rewrite account.id (sortedUnique codes)

/-- Issuing a token acts for the account of the slot, quietly. -/
theorem every_issue (account : Int64) (scene : Scene) (token : String) (ttl : UInt64) :
    (issue ⟨account, scene⟩ token ttl).Every (ActsQuietlyFor account) fun _ => True := by
  rw [issue_eq]
  refine ⟨⟨⟨token, scene, rfl, rfl⟩, trivial⟩, fun (answer : Except CacheError Unit) => ?_⟩
  rcases answer with e | _
  · trivial
  · refine ⟨⟨⟨scene, rfl⟩, trivial⟩,
      fun (answer : Except CacheError (Option String)) => ?_⟩
    rcases answer with e | _ | previous
    · trivial
    · trivial
    · simp only [afterSwap]
      split
      · trivial
      · exact ⟨⟨⟨previous, rfl⟩, trivial⟩, fun _ => trivial⟩

/-! ## Quiet calls -/

/-- The wall clock, the random bytes to come and the store are the same. -/
structure Unmoved (before after : World) : Prop where
  wall : after.wall = before.wall
  supply : after.supply = before.supply
  store : after.store = before.store

/-- A quiet call moves nothing. -/
theorem IsQuiet.unmoved {call : ServiceCall} (h : IsQuiet call) (world : World) :
    Unmoved world (World.answer call world).2 := by
  rcases call with call | call | _ | _ | _ | _
  · obtain ⟨faults, cache, hworld, -⟩ := World.answer_cache_world world call
    rw [hworld]
    exact ⟨rfl, rfl, rfl⟩
  · obtain ⟨faults, store, hworld, hstore⟩ := World.answer_store_world world call
    rw [hworld]
    refine ⟨rfl, rfl, ?_⟩
    cases call with
    | resourcesOf role includeUnassignable => exact hstore.elim id id
    | codesOf resources => exact hstore.elim id id
    | _ => exact h.elim
  all_goals exact h.elim

/-- **What is done quietly for an account moves nothing.** -/
theorem unmoved_run {α : Type} {account : Int64} {procedure : Procedure α} {Q : α → Prop}
    (h : procedure.Every (ActsQuietlyFor account) Q) (world : World) :
    Unmoved world (world.run procedure).2 := by
  refine (h.run (fun call between hquiet hbefore => ?_) ⟨rfl, rfl, rfl⟩).1
  have hcall := hquiet.2.unmoved between
  exact ⟨hcall.wall.trans hbefore.wall, hcall.supply.trans hbefore.supply,
    hcall.store.trans hbefore.store⟩

/-! ## Opening a session and storing a password -/

/-- A failure that says that the request was turned away before anything was spent. -/
def IsTurnedAway (failure : LoginFailure) : Prop :=
  failure = .notRegistered ∨ failure = .weakPassword ∨ failure = .invalidCode

/-- A failure of opening a session: of its refresh or of issuing its token. -/
def IsOfOpening (failure : LoginFailure) : Prop :=
  (∃ e, failure = .refresh e) ∨ ∃ e, failure = .cache e

theorem IsOfOpening.not_turnedAway {failure : LoginFailure} (h : IsOfOpening failure) :
    ¬IsTurnedAway failure := by
  rcases h with ⟨e, rfl⟩ | ⟨e, rfl⟩ <;> simp [IsTurnedAway]

/-- Opening a session acts for the account of the session. -/
theorem every_openFor (ttl : UInt64) (account : Account) (scene : Scene) :
    (openFor ttl account scene).Every (ActsFor account.id) fun result =>
      (∀ opened, result = .ok opened → opened.account.id = account.id) ∧
        ∀ failure, result = .error failure → IsOfOpening failure := by
  have hquiet : ∀ call, ActsQuietlyFor account.id call → ActsFor account.id call :=
    fun _ h => h.1
  refine Dialogue.Every.bind ((every_refresh account).mono hquiet fun _ h => h)
    fun refreshed _ => ?_
  rcases refreshed with e | codes
  · simp [IsOfOpening]
  · refine Dialogue.Every.bind (Procedure.every_random.2 ⟨trivial, fun _ => trivial⟩)
      fun bytes (_ : True) => ?_
    refine Dialogue.Every.bind ((every_issue account.id scene _ ttl).mono hquiet fun _ h => h)
      fun issued _ => ?_
    rcases issued with e | _
    · simp [IsOfOpening]
    · refine Dialogue.Every.bind (Procedure.every_now.2 ⟨trivial, fun _ => trivial⟩)
        fun now (_ : True) => ?_
      refine Dialogue.Every.bind (Procedure.every_store.2 ⟨rfl, fun _ => trivial⟩)
        fun noted (_ : True) => ?_
      simp only
      split
      · rcases noted with e | _
        · simp
        · simp
      · trivial

/-- Storing a new password acts for the account of the password. -/
theorem every_savePassword (primitives : Primitives) (account : Int64) (password : String) :
    (savePassword primitives account password).Every (ActsFor account) fun result =>
      ∀ failure, result = .error failure → ¬IsTurnedAway failure := by
  refine Dialogue.Every.bind (Procedure.every_random.2 ⟨trivial, fun _ => trivial⟩)
    fun salt (_ : True) => ?_
  refine Dialogue.Every.bind (Procedure.every_store.2 ⟨rfl, fun _ => trivial⟩)
    fun stored (_ : True) => ?_
  rcases stored with e | _
  · simp [IsTurnedAway]
  · simp

/-! ## Keys of different families -/

theorem codeKey_ne_tokenKey (purpose : CodePurpose) (recipient token : String) :
    codeKey purpose recipient ≠ tokenKey token :=
  fun h => CacheKey.noConfusion (CacheKey.text_injective h)

theorem codeKey_ne_slotKey (purpose : CodePurpose) (recipient : String) (owner : SessionOwner) :
    codeKey purpose recipient ≠ slotKey owner :=
  fun h => CacheKey.noConfusion (CacheKey.text_injective h)

theorem codeKey_ne_grantsKey (purpose : CodePurpose) (recipient : String) (account : Int64) :
    codeKey purpose recipient ≠ grantsKey account :=
  fun h => CacheKey.noConfusion (CacheKey.text_injective h)

theorem tokenKey_ne_grantsKey (token : String) (account : Int64) :
    tokenKey token ≠ grantsKey account :=
  fun h => CacheKey.noConfusion (CacheKey.text_injective h)

theorem slotKey_ne_grantsKey (owner : SessionOwner) (account : Int64) :
    slotKey owner ≠ grantsKey account :=
  fun h => CacheKey.noConfusion (CacheKey.text_injective h)

/-- Writing granted codes names their key only. -/
theorem key_eq_of_mem_writes {account : Int64} {codes : List String} {key : String}
    (h : key ∈ (CacheCall.write (writes account codes)).keys) : key = grantsKey account := by
  obtain ⟨write, hwrite, rfl⟩ := List.mem_map.1 h
  rcases List.mem_cons.1 hwrite with rfl | hadded
  · rfl
  · split at hadded
    · exact absurd hadded List.not_mem_nil
    · rw [List.mem_singleton.1 hadded]
      rfl

/-- **What is done for an account comes near tokens and keys of the account only.** -/
theorem ActsFor.notMem {account : Int64} {call : ServiceCall} (h : ActsFor account call)
    {key : String} (htoken : ∀ token, key ≠ tokenKey token)
    (hslot : ∀ scene, key ≠ slotKey ⟨account, scene⟩) (hgrants : key ≠ grantsKey account) :
    key ∉ call.keys := by
  intro hmem
  rcases call with call | call | _ | _ | _ | _
  · cases call with
    | set written value ttl =>
      obtain ⟨token, scene, rfl, -⟩ := h
      exact htoken token (List.mem_singleton.1 hmem)
    | swap taken value ttl =>
      obtain ⟨scene, rfl⟩ := h
      exact hslot scene (List.mem_singleton.1 hmem)
    | remove keys =>
      obtain ⟨token, rfl⟩ := h
      exact htoken token (List.mem_singleton.1 hmem)
    | write writes =>
      obtain ⟨codes, rfl⟩ := h
      exact hgrants (key_eq_of_mem_writes hmem)
    | get key => exact h
    | anyMember key members => exact h
    | count key window => exact h
  all_goals exact absurd hmem List.not_mem_nil

/-! ## Their effect -/

/-- What has been done for an account between two moments can be this only: tokens have been written
for it or removed, its slots and its granted codes have changed, and its row. -/
structure ActedFor (account : Int64) (before after : World) : Prop where
  clock : after.clock = before.clock
  entry : ∀ key, (∀ token, key ≠ tokenKey token) → (∀ scene, key ≠ slotKey ⟨account, scene⟩) →
    key ≠ grantsKey account → after.entry key = before.entry key
  token_entry : ∀ token, after.entry (tokenKey token) = before.entry (tokenKey token) ∨
    after.entry (tokenKey token) = none ∨
    ∃ scene deadline, after.entry (tokenKey token) =
      some (.textUntil (SessionOwner.render ⟨account, scene⟩) deadline)
  row : ∀ id : Int64, id ≠ account → after.store.accounts[id]? = before.store.accounts[id]?

namespace ActedFor

variable {account : Int64} {before world after : World}

protected theorem refl (account : Int64) (world : World) : ActedFor account world world :=
  ⟨rfl, fun _ _ _ _ => rfl, fun _ => Or.inl rfl, fun _ _ => rfl⟩

/-- **Nothing that is done for an account touches a code.** -/
theorem code_entry (h : ActedFor account before after) (purpose : CodePurpose)
    (recipient : String) :
    after.entry (codeKey purpose recipient) = before.entry (codeKey purpose recipient) :=
  h.entry _ (codeKey_ne_tokenKey purpose recipient)
    (fun scene => codeKey_ne_slotKey purpose recipient ⟨account, scene⟩)
    (codeKey_ne_grantsKey purpose recipient account)

theorem password (h : ActedFor account before after) {id : Int64} (hid : id ≠ account) :
    after.store.passwordOf id = before.store.passwordOf id := by
  rw [MemoryStore.passwordOf, MemoryStore.passwordOf, h.row id hid]

/-- What is done after what was done. -/
protected theorem trans (h : ActedFor account before world) (h' : ActedFor account world after) :
    ActedFor account before after where
  clock := h'.clock.trans h.clock
  entry key htoken hslot hgrants :=
    (h'.entry key htoken hslot hgrants).trans (h.entry key htoken hslot hgrants)
  token_entry token := by
    rcases h'.token_entry token with hsame | hother
    · rw [hsame]
      exact h.token_entry token
    · exact Or.inr hother
  row id hid := (h'.row id hid).trans (h.row id hid)

/-- A cache call that only comes near a token. -/
theorem of_cache {call : CacheCall} (hacts : ActsFor account (.cache call))
    (htoken : ∀ token, tokenKey token ∈ call.keys →
      (World.answer (.cache call) world).2.entry (tokenKey token) = world.entry (tokenKey token) ∨
      (World.answer (.cache call) world).2.entry (tokenKey token) = none ∨
      ∃ scene deadline, (World.answer (.cache call) world).2.entry (tokenKey token) =
        some (.textUntil (SessionOwner.render ⟨account, scene⟩) deadline)) :
    ActedFor account world (World.answer (.cache call) world).2 where
  clock := World.clock_answer (.cache call) world
  entry key htokens hslot hgrants :=
    World.entry_answer world (.cache call) (hacts.notMem htokens hslot hgrants)
  token_entry token := by
    by_cases hmem : tokenKey token ∈ call.keys
    · exact htoken token hmem
    · exact Or.inl (World.entry_answer world (.cache call) hmem)
  row id _ := by rw [World.store_answer_cache]

/-- A store call that only comes near the row of the account. -/
theorem of_store {call : StoreCall} (hrow : ∀ id : Int64, id ≠ account →
      (world.store.answer call).2.accounts[id]? = world.store.accounts[id]?) :
    ActedFor account world (World.answer (.store call) world).2 := by
  have hentry : (World.answer (.store call) world).2.entry = world.entry := by
    funext key
    exact World.entry_answer world (.store call) List.not_mem_nil
  refine ⟨World.clock_answer (.store call) world, fun _ _ _ _ => by rw [hentry],
    fun _ => Or.inl (by rw [hentry]), fun id hid => ?_⟩
  obtain ⟨faults, store, hworld, rfl | rfl⟩ := World.answer_store_world world call
  · rw [hworld]
  · rw [hworld]
    exact hrow id hid

/-- **One call for an account.** -/
theorem answer {call : ServiceCall} (hacts : ActsFor account call) (world : World) :
    ActedFor account world (World.answer call world).2 := by
  rcases call with call | call | _ | _ | _ | _
  · refine of_cache hacts fun token hmem => ?_
    cases call with
    | set key value ttl =>
      obtain ⟨written, scene, rfl, rfl⟩ := hacts
      rw [tokenKey_injective (List.mem_singleton.1 hmem)]
      obtain ⟨_, after, hanswer, -, -, ⟨-, hentry⟩ | ⟨deadline, -, -, hentry⟩⟩ :=
        world.answer_set_cases (tokenKey written) (SessionOwner.render ⟨account, scene⟩) ttl
      · rw [hanswer, hentry]
        exact Or.inl rfl
      · rw [hanswer, hentry, Function.update_self]
        exact Or.inr (Or.inr ⟨scene, deadline, rfl⟩)
    | remove keys =>
      obtain ⟨retired, rfl⟩ := hacts
      rw [tokenKey_injective (List.mem_singleton.1 hmem)]
      obtain ⟨_, after, hanswer, -, -, ⟨_, -, hentry⟩ | ⟨-, hentry⟩⟩ :=
        world.answer_remove_cases (tokenKey retired)
      · rw [hanswer, hentry]
        exact Or.inl rfl
      · rw [hanswer, hentry, Function.update_self]
        exact Or.inr (Or.inl rfl)
    | swap key value ttl =>
      obtain ⟨scene, rfl⟩ := hacts
      exact absurd (List.mem_singleton.1 hmem) (tokenKey_ne_slotKey token ⟨account, scene⟩)
    | write writes =>
      obtain ⟨codes, rfl⟩ := hacts
      exact absurd (key_eq_of_mem_writes hmem) (tokenKey_ne_grantsKey token account)
    | get key => exact hacts.elim
    | anyMember key members => exact hacts.elim
    | count key window => exact hacts.elim
  · refine of_store fun id hid => ?_
    cases call with
    | setPassword changed hash =>
      obtain rfl : changed = account := hacts
      exact world.store.getElem?_modifyAccount_of_ne _ hid
    | setLastLogin noted time =>
      obtain rfl : noted = account := hacts
      exact world.store.getElem?_modifyAccount_of_ne _ hid
    | _ => rfl
  all_goals exact ⟨rfl, fun _ _ _ _ => rfl, fun _ => Or.inl rfl, fun _ _ => rfl⟩

/-- **All that is done for an account**, in whichever surroundings. -/
theorem run {α : Type} {procedure : Procedure α} {Q : α → Prop}
    (h : procedure.Every (ActsFor account) Q) (world : World) :
    ActedFor account world (world.run procedure).2 ∧
      ∀ result, (world.run procedure).1 = .finished result → Q result :=
  h.run (fun _ between hacts hbefore => hbefore.trans (answer hacts between))
    (ActedFor.refl account world)

end ActedFor

/-! ## Surroundings with one account -/

/-- Surroundings in which one account can sign in and nothing has happened. -/
def withAlice : World where
  wall := ⟨0, 0⟩
  store := .ofAlice
  snapshots := Snapshots.empty 1 0
  supply _ := Vector.replicate 16 0

/-- Primitives in which a hash shows its password. -/
def plain : Primitives where
  hashPassword _ password := "hash of " ++ password
  checkPassword password hash := .ok (hash == "hash of " ++ password)
  sign _ payload := payload

end Session
end AccountAccess
