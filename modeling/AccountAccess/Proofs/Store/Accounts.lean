import AccountAccess.Store.Memory
import Mathlib.Data.List.Basic

/-!
# Rows of the store

The table of accounts is asked for the account with an identifier and changed one row at a
time.  The answer is found by going through the rows and keeping the best one so far; what
it says is that of the accounts that are not deleted and match, the one with the greatest id
is found.

The greatest id belongs to one account only if each row stands under its own id.  No
operation of the store breaks this, since none changes the id of a row.

That each row stands under its id is also why the order of the rows does not matter.  The best of
two accounts is the one with the greater id, so with two rows of one id the first one would win.

## Main definitions and results

* `Filed`, `Filed.answer`: every row stands under the id of its account, and no call moves a row.
* `IsNewest`: the account with the greatest id of those that an identifier finds.
* `foldl_better_eq_some_iff`: going through the rows finds it, in whatever order they are listed.
* `accountOf?_eq_some_iff`: what an identifier finds.
* `passwordOf`: the hash in a row, and what leaves it alone.
-/

namespace AccountAccess
namespace MemoryStore

variable {store : MemoryStore} {id other : Int64} {account : Account}

/-! ## Changing one row -/

theorem getElem?_modifyAccount_self (store : MemoryStore) (id : Int64)
    (change : Account → Account) :
    (store.modifyAccount id change).accounts[id]? = store.accounts[id]?.map change :=
  Std.ExtTreeMap.getElem?_modify_self

theorem getElem?_modifyAccount_of_ne (store : MemoryStore) (change : Account → Account)
    (h : other ≠ id) :
    (store.modifyAccount id change).accounts[other]? = store.accounts[other]? := by
  have hcompare : compare id other ≠ .eq := fun heq => h (Std.compare_eq_iff_eq.1 heq).symm
  exact Std.ExtTreeMap.getElem?_modify.trans (if_neg hcompare)

/-! ## Passwords -/

/-- The hash of the password in the row of an account. -/
def passwordOf (store : MemoryStore) (id : Int64) : Option String :=
  store.accounts[id]?.map (·.passwordHash)

theorem passwordOf_modifyAccount_of_ne (change : Account → Account) (h : other ≠ id) :
    (store.modifyAccount id change).passwordOf other = store.passwordOf other := by
  rw [passwordOf, passwordOf, getElem?_modifyAccount_of_ne store change h]

/-! ## Rows stand under their own ids -/

/-- Every row stands under the id of its account. -/
def Filed (store : MemoryStore) : Prop :=
  ∀ (id : Int64) (account : Account), store.accounts[id]? = some account → account.id = id

theorem filed_empty : Filed {} := by
  intro id account h
  rw [show ({} : MemoryStore).accounts[id]? = none from Std.ExtTreeMap.getElem?_empty] at h
  exact absurd h (by simp)

theorem Filed.id_of_account? (h : store.Filed) (haccount : store.account? id = some account) :
    account.id = id :=
  h id account (Option.filter_eq_some_iff.1 haccount).1

theorem Filed.putAccount (h : store.Filed) (account : Account) :
    (store.putAccount account).Filed := by
  intro id found hfound
  have hinsert : (store.accounts.insert account.id account)[id]? = some found := hfound
  rw [Std.ExtTreeMap.getElem?_insert] at hinsert
  split at hinsert
  · rename_i hcompare
    rw [← Option.some.inj hinsert]
    exact Std.compare_eq_iff_eq.1 hcompare
  · exact h id found hinsert

theorem Filed.modifyAccount (h : store.Filed) {change : Account → Account}
    (hchange : ∀ account, (change account).id = account.id) (id : Int64) :
    (store.modifyAccount id change).Filed := by
  intro place found hfound
  by_cases hplace : place = id
  · subst hplace
    rw [getElem?_modifyAccount_self] at hfound
    obtain ⟨account, haccount, rfl⟩ := Option.map_eq_some_iff.1 hfound
    rw [hchange, h place account haccount]
  · rw [getElem?_modifyAccount_of_ne store change hplace] at hfound
    exact h place found hfound

/-- **No call moves a row.** -/
theorem Filed.answer (h : store.Filed) (call : StoreCall) : (store.answer call).2.Filed := by
  cases call with
  | setPassword id hash =>
    refine h.modifyAccount ?_ id
    intro account
    rfl
  | setLastLogin id time =>
    refine h.modifyAccount ?_ id
    intro account
    rfl
  | _ => exact h

/-! ## The account with an identifier -/

/-- Whether an account can be found by an identifier: it is not deleted and matches. -/
def IsFoundBy (identifier : Identifier) (account : Account) : Prop :=
  account.isDeleted = false ∧ identifier.isOf account = true

instance (identifier : Identifier) (account : Account) : Decidable (IsFoundBy identifier account) :=
  inferInstanceAs (Decidable (_ ∧ _))

/-- The account in the table with the greatest id of those that an identifier finds. -/
structure IsNewest (store : MemoryStore) (identifier : Identifier) (account : Account) :
    Prop where
  held : store.accounts[account.id]? = some account
  found : IsFoundBy identifier account
  newest : ∀ (id : Int64) (other : Account), store.accounts[id]? = some other →
    IsFoundBy identifier other → other.id ≤ account.id

/-- The better of the best account so far and the next one. -/
def better (identifier : Identifier) (best : Option Account) (account : Account) :
    Option Account :=
  if !account.isDeleted && identifier.isOf account &&
      best.all (fun (other : Account) => other.id ≤ account.id)
  then some account else best

theorem better_cases (identifier : Identifier) (best : Option Account) (account : Account) :
    (better identifier best account = some account ∧ IsFoundBy identifier account ∧
        ∀ other, best = some other → other.id ≤ account.id) ∨
      (better identifier best account = best ∧ (IsFoundBy identifier account →
        ∃ other, best = some other ∧ account.id ≤ other.id)) := by
  rw [better]
  split
  · rename_i hbetter
    simp only [Bool.and_eq_true, Bool.not_eq_true', Option.all_eq_true, decide_eq_true_eq]
      at hbetter
    exact Or.inl ⟨rfl, hbetter.1, hbetter.2⟩
  · rename_i hnot
    refine Or.inr ⟨rfl, fun hfound => ?_⟩
    simp only [hfound.1, hfound.2, Bool.not_false, Bool.true_and] at hnot
    rcases best with _ | other
    · exact absurd rfl hnot
    · have hless : ¬other.id ≤ account.id := by simpa using hnot
      exact ⟨other, rfl, Int64.le_of_lt (Int64.not_le.1 hless)⟩

/-- Going through accounts keeps the best of them and of the one at the start. -/
theorem foldl_better (identifier : Identifier) (accounts : List Account) (best : Option Account) :
    (accounts.foldl (better identifier) best = none →
        best = none ∧ ∀ account ∈ accounts, ¬IsFoundBy identifier account) ∧
      ∀ found, accounts.foldl (better identifier) best = some found →
        (best = some found ∨ found ∈ accounts ∧ IsFoundBy identifier found) ∧
        (∀ other, best = some other → other.id ≤ found.id) ∧
        ∀ other ∈ accounts, IsFoundBy identifier other → other.id ≤ found.id := by
  induction accounts generalizing best with
  | nil =>
    refine ⟨fun hnone => ⟨hnone, fun _ hmem => absurd hmem List.not_mem_nil⟩, ?_⟩
    intro found hfound
    have hbest : best = some found := hfound
    subst hbest
    refine ⟨Or.inl rfl, ?_, fun _ hmem => absurd hmem List.not_mem_nil⟩
    intro other hother
    rw [Option.some.inj hother]
    exact Int64.le_refl _
  | cons account accounts ih =>
    obtain ⟨hnone, hsome⟩ := ih (better identifier best account)
    rcases better_cases identifier best account with ⟨hbetter, hfinds, hbest⟩ | ⟨hbetter, hbest⟩
    · rw [List.foldl_cons]
      rw [hbetter] at hnone hsome ⊢
      refine ⟨fun h => absurd (hnone h).1 (by simp), fun found hfound => ?_⟩
      obtain ⟨hwhere, hstart, hrest⟩ := hsome found hfound
      have haccount : account.id ≤ found.id := hstart account rfl
      refine ⟨Or.inr ?_, fun other hother => Int64.le_trans (hbest other hother) haccount, ?_⟩
      · rcases hwhere with heq | ⟨hmem, hfound⟩
        · rw [← Option.some.inj heq]
          exact ⟨List.mem_cons_self, hfinds⟩
        · exact ⟨List.mem_cons_of_mem _ hmem, hfound⟩
      · intro other hother hfound
        rcases List.mem_cons.1 hother with rfl | hmem
        · exact haccount
        · exact hrest other hmem hfound
    · rw [List.foldl_cons]
      rw [hbetter] at hnone hsome ⊢
      refine ⟨fun h => ⟨(hnone h).1, fun other hother hfound => ?_⟩, fun found hfound => ?_⟩
      · rcases List.mem_cons.1 hother with rfl | hmem
        · obtain ⟨_, hheld, -⟩ := hbest hfound
          rw [(hnone h).1] at hheld
          exact absurd hheld (by simp)
        · exact (hnone h).2 other hmem hfound
      · obtain ⟨hwhere, hstart, hrest⟩ := hsome found hfound
        refine ⟨hwhere.imp id (And.imp_left (List.mem_cons_of_mem _)), hstart, ?_⟩
        intro other hother hfound
        rcases List.mem_cons.1 hother with rfl | hmem
        · obtain ⟨held, hheld, hle⟩ := hbest hfound
          exact Int64.le_trans hle (hstart held hheld)
        · exact hrest other hmem hfound

theorem mem_rows_iff (h : store.Filed) :
    account ∈ store.accounts.toList.map Prod.snd ↔ store.accounts[account.id]? = some account := by
  rw [List.mem_map]
  constructor
  · rintro ⟨⟨id, row⟩, hmem, rfl⟩
    have hrow := Std.ExtTreeMap.mem_toList_iff_getElem?_eq_some.1 hmem
    rwa [h id row hrow]
  · intro hrow
    exact ⟨(account.id, account), Std.ExtTreeMap.mem_toList_iff_getElem?_eq_some.2 hrow, rfl⟩

/-- **Going through the rows finds the newest account that an identifier matches**, in whatever
order the rows are listed. -/
theorem foldl_better_eq_some_iff (h : store.Filed) {identifier : Identifier} {rows : List Account}
    (hrows : ∀ row, row ∈ rows ↔ store.accounts[row.id]? = some row) :
    rows.foldl (better identifier) none = some account ↔ store.IsNewest identifier account := by
  obtain ⟨hnone, hsome⟩ := foldl_better identifier rows none
  constructor
  · intro hfound
    obtain ⟨hwhere, -, hnewest⟩ := hsome account hfound
    obtain ⟨hmem, hfinds⟩ := hwhere.resolve_left (by simp)
    refine ⟨(hrows account).1 hmem, hfinds, fun id other hother => hnewest other ?_⟩
    exact (hrows other).2 (by rwa [h id other hother])
  · intro hnewest
    have hmem := (hrows account).2 hnewest.held
    cases hfound : rows.foldl (better identifier) none with
    | none => exact absurd hnewest.found ((hnone hfound).2 account hmem)
    | some found =>
      obtain ⟨hwhere, -, hbest⟩ := hsome found hfound
      obtain ⟨hfoundMem, hfinds⟩ := hwhere.resolve_left (by simp)
      have hheld := (hrows found).1 hfoundMem
      have hle := hnewest.newest found.id found hheld hfinds
      have hge := hbest account hmem hnewest.found
      rw [Int64.le_antisymm hle hge, hnewest.held] at hheld
      exact hheld.symm

/-- **An identifier finds the newest account that it matches.** -/
theorem accountOf?_eq_some_iff (h : store.Filed) {identifier : Identifier} :
    store.accountOf? identifier = some account ↔ store.IsNewest identifier account :=
  foldl_better_eq_some_iff h fun _ => mem_rows_iff h

/-! ## A store with one account -/

/-- An account that can sign in. -/
def alice : Account where
  id := 1
  username := "alice"
  phone := "13900000001"
  email := none
  passwordHash := "hash of Abcdef12"
  isStaff := false
  isSuperAdmin := false
  status := .enabled
  roleId := 10
  lastLoginAt := none
  remark := ""
  createdAt := ⟨0, 0⟩
  deletedAt := none

/-- The store that holds this account only. -/
def ofAlice : MemoryStore :=
  ({} : MemoryStore).putAccount alice

theorem filed_ofAlice : ofAlice.Filed :=
  filed_empty.putAccount alice

/-- A page that a role can be given. -/
def reports : Resource where
  id := 101
  code := "reports"
  label := "reports"
  frontRoute := none
  kind := .api
  action := .ajax
  orderNum := 0
  enabled := true
  assignable := true
  parentId := none
  scene := .web

/-- The account's role has the page, and the page carries a code. -/
def withReports : MemoryStore :=
  (ofAlice.putRole ⟨10, "clerk", none, none⟩).putResource reports [10] ["Desk:GET:/reports"]

theorem filed_withReports : withReports.Filed :=
  filed_ofAlice

end MemoryStore
end AccountAccess
