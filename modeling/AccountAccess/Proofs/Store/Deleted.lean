import AccountAccess.Proofs.Service.Scope
import AccountAccess.Proofs.Store.Accounts
import AccountAccess.Sql.Store

/-!
# Deleted accounts cannot be found, but they can be written to

An account is deleted by a mark and its row stays in the table.  The queries of the store pass over
marked rows.  The two calls that write do not look at the mark: a deleted row takes the value, and
so the table changes with every write of a value that the row does not hold already.  The
statements for a server leave deleted rows out of every call, the writing ones as well.

## What can be seen of a write

`cleared` is the store from which the rows of deleted accounts have really been taken away.
Whatever is done with a store, it answers as the cleared store does, and the two go on to be alike;
so there is no way to tell from the answers whether a row is marked or gone.  A row that was written
to keeps its mark, hence the cleared store is the one of before, and the write changes no answer.

Two facts carry this.  The look-up by id is the look-up in the cleared table, and the look-up by
identifier is fixed by the rows that the look-up by id finds.

## Main results

* `getElem?_cleared`, `accountOf?_cleared`: both look-ups are those of the cleared store.
* `cleared_congr`: stores in which the same can be looked up by id are alike when cleared.
* `answer_eq_self_iff`: a write leaves the store as it was exactly if the row holds the value.
* `cleared_answer_of_deleted`: a write to a deleted account leaves the cleared store as it was.
* `Use.play_cleared`, `Use.answers_congr`: one use, and any run of uses, of stores that are alike
  when cleared.
* `Sql.every_carry_skipsDeleted`: the statements about accounts leave deleted rows out.
* `deleted_accounts_invisible`: all of this for the stores that can come about;
  `deleted_account_overwritten` is a store that a write to a deleted account changes.
-/

namespace AccountAccess

/-- A call that writes to the row of an account. -/
def StoreCall.Writes (id : Int64) : StoreCall → Prop
  | setPassword place _ | setLastLogin place _ => place = id
  | _ => False

/-- A call writes to a row what it holds already. -/
def StoreCall.Repeats (row : Account) : StoreCall → Prop
  | setPassword _ hash => row.passwordHash = hash
  | setLastLogin _ time => row.lastLoginAt = some time
  | _ => False

namespace MemoryStore

variable {store other : MemoryStore} {id : Int64} {account row : Account}

/-! ## The store without deleted rows -/

/-- The store without the rows of deleted accounts. -/
def cleared (store : MemoryStore) : MemoryStore :=
  { store with accounts := store.accounts.filter fun _ account => !account.isDeleted }

/-- The cleared table is what can be looked up by id. -/
theorem getElem?_cleared (store : MemoryStore) (id : Int64) :
    store.cleared.accounts[id]? = store.account? id :=
  Std.ExtTreeMap.getElem?_filter'

theorem account?_eq_some_iff : store.account? id = some account ↔
    store.accounts[id]? = some account ∧ account.isDeleted = false := by
  rw [account?, Option.filter_eq_some_iff, Bool.not_eq_true']

/-- A deleted account is not found by its id. -/
theorem account?_eq_none (hrow : store.accounts[id]? = some row) (hdeleted : row.isDeleted = true) :
    store.account? id = none := by
  rw [account?, hrow, Option.filter_some, hdeleted]
  rfl

theorem account?_cleared (store : MemoryStore) (id : Int64) :
    store.cleared.account? id = store.account? id := by
  ext account
  rw [account?_eq_some_iff, getElem?_cleared, account?_eq_some_iff, and_assoc, and_self_iff]

/-- **Stores in which the same can be looked up by id are alike when cleared**, if their other
tables are the same. -/
theorem cleared_congr (haccount : ∀ id, store.account? id = other.account? id)
    (hrest : { store with accounts := other.accounts } = other) :
    store.cleared = other.cleared := by
  have haccounts : store.cleared.accounts = other.cleared.accounts := by
    refine Std.ExtTreeMap.ext_getElem? fun id => ?_
    rw [getElem?_cleared, getElem?_cleared, haccount]
  rw [← hrest] at haccounts ⊢
  rw [cleared, cleared, MemoryStore.mk.injEq]
  exact ⟨haccounts, rfl, rfl, rfl, rfl, rfl, rfl⟩

theorem Filed.cleared (h : store.Filed) : store.cleared.Filed := by
  intro id account haccount
  rw [getElem?_cleared] at haccount
  exact h.id_of_account? haccount

/-- The newest account that an identifier finds is not deleted, so it stands in the cleared table
as well. -/
theorem isNewest_cleared {identifier : Identifier} :
    store.cleared.IsNewest identifier account ↔ store.IsNewest identifier account := by
  have hheld : ∀ (id : Int64) (row : Account), row.isDeleted = false →
      (store.cleared.accounts[id]? = some row ↔ store.accounts[id]? = some row) := by
    intro id row hrow
    rw [getElem?_cleared, account?_eq_some_iff, and_iff_left hrow]
  constructor
  · intro h
    refine ⟨(hheld _ _ h.found.1).1 h.held, h.found, fun id other hother hfound => ?_⟩
    exact h.newest id other ((hheld _ _ hfound.1).2 hother) hfound
  · intro h
    refine ⟨(hheld _ _ h.found.1).2 h.held, h.found, fun id other hother hfound => ?_⟩
    exact h.newest id other ((hheld _ _ hfound.1).1 hother) hfound

theorem accountOf?_cleared (h : store.Filed) (identifier : Identifier) :
    store.cleared.accountOf? identifier = store.accountOf? identifier := by
  ext account
  rw [accountOf?_eq_some_iff h.cleared, accountOf?_eq_some_iff h, isNewest_cleared]

/-! ## Changes of rows -/

/-- What is put in is seen, unless it is deleted. -/
theorem account?_putAccount (store : MemoryStore) (account : Account) (id : Int64) :
    (store.putAccount account).account? id =
      if account.id = id then (some account).filter (!·.isDeleted) else store.account? id := by
  have hinsert : (store.putAccount account).accounts[id]? =
      if compare account.id id = .eq then some account else store.accounts[id]? :=
    Std.ExtTreeMap.getElem?_insert
  rw [account?, hinsert]
  by_cases hid : account.id = id
  · rw [if_pos hid, if_pos (Std.compare_eq_iff_eq.2 hid)]
  · rw [if_neg hid, if_neg (Std.compare_eq_iff_eq.not.2 hid), account?]

/-- A change of a row is a change of what is seen there, if it leaves deleted accounts deleted. -/
theorem account?_modifyAccount (store : MemoryStore) {change : Account → Account}
    (hchange : ∀ account, account.isDeleted = true → (change account).isDeleted = true)
    (id place : Int64) :
    (store.modifyAccount id change).account? place = if place = id then
        ((store.account? place).map change).filter (!·.isDeleted) else store.account? place := by
  by_cases hplace : place = id
  · subst hplace
    rw [if_pos rfl, account?, getElem?_modifyAccount_self, account?]
    rcases store.accounts[place]? with _ | row
    · rfl
    · cases hdeleted : row.isDeleted with
      | true => simp [Option.filter_some, hdeleted, hchange row hdeleted]
      | false => simp [Option.filter_some, hdeleted]
  · rw [if_neg hplace, account?, getElem?_modifyAccount_of_ne store change hplace, account?]

theorem cleared_putAccount (store : MemoryStore) (account : Account) :
    (store.cleared.putAccount account).cleared = (store.putAccount account).cleared := by
  refine cleared_congr (fun id => ?_) rfl
  rw [account?_putAccount, account?_putAccount, account?_cleared]

theorem cleared_modifyAccount (store : MemoryStore) {change : Account → Account}
    (hchange : ∀ account, account.isDeleted = true → (change account).isDeleted = true)
    (id : Int64) :
    (store.cleared.modifyAccount id change).cleared = (store.modifyAccount id change).cleared := by
  refine cleared_congr (fun place => ?_) rfl
  rw [account?_modifyAccount _ hchange, account?_modifyAccount _ hchange, account?_cleared]

/-- **A change leaves the store as it was exactly if it leaves the row as it was.** -/
theorem modifyAccount_eq_self_iff {change : Account → Account}
    (hrow : store.accounts[id]? = some row) :
    store.modifyAccount id change = store ↔ change row = row := by
  have hchanged : (store.modifyAccount id change).accounts[id]? = some (change row) := by
    rw [getElem?_modifyAccount_self, hrow, Option.map_some]
  constructor
  · intro hsame
    rw [hsame, hrow] at hchanged
    exact (Option.some.inj hchanged).symm
  · intro hsame
    have haccounts : (store.modifyAccount id change).accounts = store.accounts := by
      refine Std.ExtTreeMap.ext_getElem? fun place => ?_
      by_cases hplace : place = id
      · rw [hplace, hchanged, hsame, hrow]
      · exact getElem?_modifyAccount_of_ne store change hplace
    show { store with accounts := (store.modifyAccount id change).accounts } = store
    rw [haccounts]

/-- **A write leaves the store as it was exactly if the row holds the value already**, whether the
account is deleted or not. -/
theorem answer_eq_self_iff {call : StoreCall} (hrow : store.accounts[id]? = some row)
    (hwrites : call.Writes id) : (store.answer call).2 = store ↔ call.Repeats row := by
  cases call with
  | setPassword place hash =>
    obtain rfl : place = id := hwrites
    refine (modifyAccount_eq_self_iff hrow).trans ⟨fun h => ?_, ?_⟩
    · rw [StoreCall.Repeats, ← h]
    · rintro rfl
      rfl
  | setLastLogin place time =>
    obtain rfl : place = id := hwrites
    refine (modifyAccount_eq_self_iff hrow).trans ⟨fun h => ?_, fun h => ?_⟩
    · rw [StoreCall.Repeats, ← h]
    · rw [← show row.lastLoginAt = some time from h]
  | _ => exact hwrites.elim

/-- **A change of a deleted row is not seen.** -/
theorem cleared_modifyAccount_of_deleted {change : Account → Account}
    (hchange : ∀ account, account.isDeleted = true → (change account).isDeleted = true)
    (hrow : store.accounts[id]? = some row) (hdeleted : row.isDeleted = true) :
    (store.modifyAccount id change).cleared = store.cleared := by
  refine cleared_congr (fun place => ?_) rfl
  rw [account?_modifyAccount store hchange]
  split
  · rename_i hplace
    rw [hplace, account?_eq_none hrow hdeleted]
    rfl
  · rfl

/-- **A write to a deleted account is not seen.** -/
theorem cleared_answer_of_deleted {call : StoreCall} (hrow : store.accounts[id]? = some row)
    (hdeleted : row.isDeleted = true) (hwrites : call.Writes id) :
    (store.answer call).2.cleared = store.cleared := by
  cases call with
  | setPassword place hash =>
    obtain rfl : place = id := hwrites
    refine cleared_modifyAccount_of_deleted ?_ hrow hdeleted
    intro account hdeleted
    exact hdeleted
  | setLastLogin place time =>
    obtain rfl : place = id := hwrites
    refine cleared_modifyAccount_of_deleted ?_ hrow hdeleted
    intro account hdeleted
    exact hdeleted
  | _ => exact hwrites.elim

/-- A write to one account leaves the rows of all others as they are. -/
theorem getElem?_answer_of_ne {call : StoreCall} {place : Int64} (hwrites : call.Writes id)
    (hplace : place ≠ id) : (store.answer call).2.accounts[place]? = store.accounts[place]? := by
  cases call with
  | setPassword written hash =>
    obtain rfl : written = id := hwrites
    exact getElem?_modifyAccount_of_ne store _ hplace
  | setLastLogin written time =>
    obtain rfl : written = id := hwrites
    exact getElem?_modifyAccount_of_ne store _ hplace
  | _ => exact hwrites.elim

/-! ## Whatever is done with a store -/

/-- What can be done with a store: it is edited, looked at, or called. -/
inductive Use where
  | putAccount (account : Account)
  | putRole (role : Role)
  | putResource (resource : Resource) (roles : List Int64) (codes : List String)
  | deprecateCode (code : String)
  | setStatus (id : Int64) (status : Status)
  | softDelete (id : Int64) (time : Timestamp)
  | setResourceEnabled (id : Int64) (enabled : Bool)
  | revokeCode (resource : Int64) (code : String)
  /-- Looks at the permission that a code stands for. -/
  | permission (code : String)
  /-- Looks at how often an account has been asked for by its id. -/
  | accountReads
  | call (call : StoreCall)

namespace Use

/-- What a use is answered with. -/
abbrev Answer : Use → Type
  | permission _ => Option Permission
  | accountReads => Nat
  | call asked => asked.Result
  | _ => Unit

/-- The answer to a use, and the store after it. -/
def play (store : MemoryStore) : (use : Use) → use.Answer × MemoryStore
  | putAccount account => ((), store.putAccount account)
  | putRole role => ((), store.putRole role)
  | putResource resource roles codes => ((), store.putResource resource roles codes)
  | deprecateCode code => ((), store.deprecateCode code)
  | setStatus id status => ((), store.setStatus id status)
  | softDelete id time => ((), store.softDelete id time)
  | setResourceEnabled id enabled => ((), store.setResourceEnabled id enabled)
  | revokeCode resource code => ((), store.revokeCode resource code)
  | permission code => (store.permissions[code]?, store)
  | accountReads => (store.accountReads, store)
  | call asked => store.answer asked

/-- No use moves a row. -/
theorem filed_play (h : store.Filed) (use : Use) : (use.play store).2.Filed := by
  cases use with
  | putAccount account => exact h.putAccount account
  | setStatus id status =>
    refine h.modifyAccount ?_ id
    intro account
    rfl
  | softDelete id time =>
    refine h.modifyAccount ?_ id
    intro account
    rfl
  | call asked => exact h.answer asked
  | _ => exact h

/-- **A store answers a use as the cleared store does**, and afterwards the two are alike. -/
theorem play_cleared (h : store.Filed) (use : Use) :
    (use.play store.cleared).1 = (use.play store).1 ∧
      (use.play store.cleared).2.cleared = (use.play store).2.cleared := by
  cases use with
  | putAccount account => exact ⟨rfl, cleared_putAccount store account⟩
  | setStatus id status =>
    refine ⟨rfl, cleared_modifyAccount store ?_ id⟩
    intro account hdeleted
    exact hdeleted
  | softDelete id time =>
    refine ⟨rfl, cleared_modifyAccount store ?_ id⟩
    intro account _
    rfl
  | call asked =>
    cases asked with
    | account id => exact ⟨account?_cleared store id, cleared_congr (account?_cleared store) rfl⟩
    | accountOf identifier =>
      exact ⟨accountOf?_cleared h identifier, cleared_congr (account?_cleared store) rfl⟩
    | setPassword id hash =>
      refine ⟨rfl, cleared_modifyAccount store ?_ id⟩
      intro account hdeleted
      exact hdeleted
    | setLastLogin id time =>
      refine ⟨rfl, cleared_modifyAccount store ?_ id⟩
      intro account hdeleted
      exact hdeleted
    | _ => exact ⟨rfl, cleared_congr (account?_cleared store) rfl⟩
  | _ => exact ⟨rfl, cleared_congr (account?_cleared store) rfl⟩

/-- The store after uses in order. -/
def playAll (store : MemoryStore) (uses : List Use) : MemoryStore :=
  uses.foldl (fun store use => (use.play store).2) store

/-- The answers to uses in order, each with its use. -/
def answers (store : MemoryStore) : List Use → List ((use : Use) × use.Answer)
  | [] => []
  | use :: uses => ⟨use, (use.play store).1⟩ :: answers (use.play store).2 uses

theorem filed_playAll (h : store.Filed) (uses : List Use) : (playAll store uses).Filed := by
  induction uses generalizing store with
  | nil => exact h
  | cons use uses ih => exact ih (filed_play h use)

/-- **Stores that are alike when cleared are answered alike ever after.** -/
theorem answers_congr (uses : List Use) (h : store.Filed) (hother : other.Filed)
    (hcleared : store.cleared = other.cleared) : answers store uses = answers other uses := by
  induction uses generalizing store other with
  | nil => rfl
  | cons use uses ih =>
    obtain ⟨hanswer, hafter⟩ := play_cleared h use
    obtain ⟨hanswer', hafter'⟩ := play_cleared hother use
    rw [hcleared] at hanswer hafter
    rw [answers, answers, ← hanswer, ← hanswer',
      ih (filed_play h use) (filed_play hother use) (hafter.symm.trans hafter')]

end Use
end MemoryStore

/-! ## The statements for a server -/

namespace Sql

/-- A statement that leaves deleted rows out. -/
def Query.SkipsDeleted (query : Query) : Prop :=
  ∃ front back, query.statement = front ++ " AND deleted_at = 0" ++ back

/-- **Every statement about accounts leaves deleted rows out**, the changing ones as well. -/
theorem every_carry_skipsDeleted (id : Int64) (call : StoreCall)
    (h : call = .account id ∨ (∃ identifier, call = .accountOf identifier) ∨ call.Writes id) :
    (carry call).Every Query.SkipsDeleted fun _ => True := by
  rcases h with rfl | ⟨identifier, rfl⟩ | hwrites
  · exact ⟨⟨"SELECT " ++ accountColumns ++ " FROM account WHERE id = $1", "", by
      simp [accountQuery, String.append_assoc]⟩, fun _ => trivial⟩
  · exact ⟨⟨"SELECT " ++ accountColumns ++ " FROM account WHERE " ++
      identifierColumn identifier ++ " = $1", " ORDER BY id DESC LIMIT 1", by
      simp [accountOfQuery, String.append_assoc]⟩, fun _ => trivial⟩
  · cases call with
    | setPassword place hash =>
      exact ⟨⟨"UPDATE account SET password = $1, updated_at = now() WHERE id = $2", "", rfl⟩,
        fun _ => trivial⟩
    | setLastLogin place time =>
      exact ⟨⟨"UPDATE account SET last_login_at = $1 WHERE id = $2", "", rfl⟩, fun _ => trivial⟩
    | _ => exact hwrites.elim

end Sql

namespace MemoryStore

/-! ## Invisible accounts -/

/-- **Deleted accounts are not found, and a write to one is kept.**  Whatever has been done with a
store, an id finds the account that stands there unless it is deleted, and an identifier finds the
account with the greatest id of those that match and are not deleted, in whatever order the rows are
listed.

Writing a password or a login time for a deleted account leaves the store unchanged exactly if the
row holds that value already.  A value that it does not hold is written to the row, but to no other
row; the store without deleted rows stays the same, and nothing that is done later is answered
differently.  More generally, a store cannot be told from the one without its deleted rows.  For a
server the statements about accounts leave deleted rows out themselves. -/
theorem deleted_accounts_invisible (uses : List Use) :
    let store := Use.playAll {} uses
    (∀ id account, (store.answer (.account id)).1 = some account ↔
      store.accounts[id]? = some account ∧ account.isDeleted = false) ∧
    (∀ identifier account, (store.answer (.accountOf identifier)).1 = some account ↔
      store.IsNewest identifier account) ∧
    (∀ identifier (rows : List Account), rows.Perm (store.accounts.toList.map Prod.snd) →
      rows.foldl (better identifier) none = (store.answer (.accountOf identifier)).1) ∧
    (∀ id row, store.accounts[id]? = some row → row.isDeleted = true →
      (store.answer (.account id)).1 = none ∧
      (∀ identifier, (store.answer (.accountOf identifier)).1 ≠ some row) ∧
      ∀ call, call.Writes id →
        ((store.answer call).2 = store ↔ call.Repeats row) ∧
        (store.answer call).2.cleared = store.cleared ∧
        (∀ place, place ≠ id → (store.answer call).2.accounts[place]? = store.accounts[place]?) ∧
        ∀ later, Use.answers (store.answer call).2 later = Use.answers store later) ∧
    (∀ later, Use.answers store.cleared later = Use.answers store later) ∧
    ∀ id call, call = .account id ∨ (∃ identifier, call = .accountOf identifier) ∨
        call.Writes id →
      (Sql.carry call).Every Sql.Query.SkipsDeleted fun _ => True := by
  intro store
  have hfiled : store.Filed := Use.filed_playAll filed_empty uses
  have hclearedFiled : store.cleared.cleared = store.cleared :=
    cleared_congr (account?_cleared store) rfl
  refine ⟨fun id account => account?_eq_some_iff,
    fun identifier account => accountOf?_eq_some_iff hfiled, fun identifier rows hrows => ?_,
    fun id row hrow hdeleted => ⟨account?_eq_none hrow hdeleted, ?_, ?_⟩,
    fun later => Use.answers_congr later hfiled.cleared hfiled hclearedFiled,
    Sql.every_carry_skipsDeleted⟩
  · have hmem : ∀ row, row ∈ rows ↔ store.accounts[row.id]? = some row := fun row =>
      hrows.mem_iff.trans (mem_rows_iff hfiled)
    ext account
    rw [foldl_better_eq_some_iff hfiled hmem]
    exact (accountOf?_eq_some_iff hfiled).symm
  · intro identifier hfound
    have hnot := ((accountOf?_eq_some_iff hfiled).1 hfound).found.1
    rw [hdeleted] at hnot
    exact absurd hnot (by decide)
  · intro call hwrites
    have hcleared : (store.answer call).2.cleared = store.cleared :=
      cleared_answer_of_deleted hrow hdeleted hwrites
    refine ⟨answer_eq_self_iff hrow hwrites, hcleared,
      fun place hplace => getElem?_answer_of_ne hwrites hplace, fun later => ?_⟩
    exact Use.answers_congr later (hfiled.answer call) hfiled hcleared

/-- A store in which the account has been deleted. -/
def deletedAlice : List Use :=
  [.putAccount alice, .softDelete 1 ⟨0, 0⟩]

theorem deleted_accounts_invisible_alice :
    let store := Use.playAll {} deletedAlice
    (store.answer (.account 1)).1 = none ∧
      (store.answer (.accountOf (.username "alice"))).1 ≠
        some { alice with deletedAt := some ⟨0, 0⟩ } ∧
      ∀ later, Use.answers (store.answer (.setPassword 1 "another hash")).2 later =
        Use.answers store later := by
  obtain ⟨-, -, -, hgone, -, -⟩ := deleted_accounts_invisible deletedAlice
  obtain ⟨hid, hidentifier, hwrite⟩ :=
    hgone 1 { alice with deletedAt := some ⟨0, 0⟩ } (by decide +kernel) rfl
  exact ⟨hid, hidentifier _, (hwrite (.setPassword 1 "another hash") rfl).2.2.2⟩

/-- **A password and a login time can be written for a deleted account**, which no look-up finds:
the store is another one afterwards. -/
theorem deleted_account_overwritten :
    let store := Use.playAll {} deletedAlice
    (store.answer (.account 1)).1 = none ∧
      store.passwordOf 1 = some "hash of Abcdef12" ∧
      (store.answer (.setPassword 1 "another hash")).2.passwordOf 1 = some "another hash" ∧
      (store.answer (.setPassword 1 "another hash")).2 ≠ store ∧
      (store.answer (.setLastLogin 1 ⟨0, 0⟩)).2 ≠ store := by
  have hrow : (Use.playAll {} deletedAlice).accounts[(1 : Int64)]? =
      some { alice with deletedAt := some ⟨0, 0⟩ } := by
    decide +kernel
  have hpassword : ¬(StoreCall.setPassword 1 "another hash").Repeats
      { alice with deletedAt := some ⟨0, 0⟩ } := by
    simp [StoreCall.Repeats, alice]
  have hlogin : ¬(StoreCall.setLastLogin 1 ⟨0, 0⟩).Repeats
      { alice with deletedAt := some ⟨0, 0⟩ } := by
    simp [StoreCall.Repeats, alice]
  exact ⟨by decide +kernel, by decide +kernel, by decide +kernel,
    (answer_eq_self_iff hrow (show StoreCall.Writes 1 (.setPassword 1 _) from rfl)).not.2 hpassword,
    (answer_eq_self_iff hrow (show StoreCall.Writes 1 (.setLastLogin 1 _) from rfl)).not.2 hlogin⟩

end MemoryStore
end AccountAccess
