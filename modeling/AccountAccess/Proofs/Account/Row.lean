import AccountAccess.Account.Row
import AccountAccess.Proofs.Time.Calendar

/-!
# Rows and the accounts in them

A row comes from a table in which nothing keeps two columns from holding nonsense: the time of
deletion is a number that may lie beyond the calendar, and the status is a text that may name none.
A row holds an account exactly if neither is the case.  Such an account carries the whole row: zero
stands for no deletion, and no deletion is written otherwise, so nothing is lost by that.  Hence the
row can be written anew from the account, and no two rows hold the same one.

A row that holds no account is corrupt, and what is said of it names the column of deletion first,
whatever the status is.

## The shape of the argument

The reader goes through the two columns in order.  `HoldsTime` and `HoldsStatus` say of a column by
itself that it can be read, and there is one lemma for each way that the reading of a column can
end.  `Carries` compares an account with a row column by column; it leaves the account no choice
(`Carries.unique`), so the two directions of the main result come from one existence statement.

## Main results

* `exists_account`: where both columns can be read, an account is read that carries the row.
* `account_of_not_holdsTime`, `account_of_not_holdsStatus`: what a row is corrupt for.
* `account_eq_ok_iff`: what is read, as an equivalence.
* `Carries.ofAccount_eq`: the row is written anew from the account.
* `Carries.isActive_iff`: who can sign in, said with the columns.
* `account_by_columns`: all of this for every row.
-/

namespace AccountAccess
namespace AccountRow

variable {row : AccountRow} {account : Account} {seconds : Int64} {name : String}

/-! ## The columns that may be corrupt -/

/-- A column holds no deletion, written as zero, or a second of the calendar. -/
def HoldsTime (seconds : Int64) : Prop :=
  seconds = 0 ∨ Timestamp.InCalendar seconds.toInt

/-- A column holds the name of a status. -/
def HoldsStatus (name : String) : Prop :=
  ∃ status : Status, name = Labelled.name status

/-- The time of deletion that a column stands for, if it holds one. -/
def timeOf (seconds : Int64) : Option Timestamp :=
  if seconds = 0 then none else some ⟨seconds.toInt, 0⟩

theorem timeOf_eq_none_iff : timeOf seconds = none ↔ seconds = 0 := by
  simp [timeOf]

theorem deletion_of_holdsTime (h : HoldsTime seconds) :
    deletion seconds = .ok (timeOf seconds) := by
  rw [deletion, timeOf]
  by_cases hzero : seconds = 0
  · rw [if_pos hzero, if_pos hzero]
  · have hcalendar := Timestamp.inCalendar_iff.1 (h.resolve_left hzero)
    rw [if_neg hzero, if_neg hzero, Timestamp.ofSeconds?, if_pos hcalendar]

theorem deletion_of_not_holdsTime (h : ¬HoldsTime seconds) :
    deletion seconds = .error (.corrupt (deletedAtMessage seconds)) := by
  obtain ⟨hzero, hcalendar⟩ := not_or.1 h
  rw [Timestamp.inCalendar_iff] at hcalendar
  rw [deletion, if_neg hzero, Timestamp.ofSeconds?, if_neg hcalendar]

theorem statusOf_name (status : Status) : statusOf (Labelled.name status) = .ok status := by
  rw [statusOf, Labelled.ofName?_name]

theorem statusOf_of_not_holdsStatus (h : ¬HoldsStatus name) :
    statusOf name = .error (.corrupt (Labelled.unknownMessage name)) := by
  have hnone : Labelled.ofName? (α := Status) name = none :=
    Option.eq_none_iff_forall_ne_some.2 fun status hname =>
      h ⟨status, Labelled.ofName?_eq_some_iff.1 hname⟩
  rw [statusOf, hnone]

/-! ## The account in a row -/

/-- An account carries a row: the columns of deletion and status in its own form, and every other
column as it is. -/
structure Carries (account : Account) (row : AccountRow) : Prop where
  deletedAt : account.deletedAt = timeOf row.deletedAt
  status : Labelled.name account.status = row.status
  id : account.id = row.id
  username : account.username = row.username
  phone : account.phone = row.phone
  email : account.email = row.email
  passwordHash : account.passwordHash = row.passwordHash
  isStaff : account.isStaff = row.isStaff
  isSuperAdmin : account.isSuperAdmin = row.isSuperAdmin
  roleId : account.roleId = row.roleId
  lastLoginAt : account.lastLoginAt = row.lastLoginAt
  remark : account.remark = row.remark
  createdAt : account.createdAt = row.createdAt

/-- An account is determined by the row that it carries. -/
theorem Carries.unique {other : Account} (h : Carries account row) (h' : Carries other row) :
    account = other := by
  have hstatus : account.status = other.status :=
    LawfulLabelled.name_injective _ _ (h.status.trans h'.status.symm)
  cases account
  cases other
  simp only [Account.mk.injEq]
  exact ⟨h.id.trans h'.id.symm, h.username.trans h'.username.symm, h.phone.trans h'.phone.symm,
    h.email.trans h'.email.symm, h.passwordHash.trans h'.passwordHash.symm,
    h.isStaff.trans h'.isStaff.symm, h.isSuperAdmin.trans h'.isSuperAdmin.symm, hstatus,
    h.roleId.trans h'.roleId.symm, h.lastLoginAt.trans h'.lastLoginAt.symm,
    h.remark.trans h'.remark.symm, h.createdAt.trans h'.createdAt.symm,
    h.deletedAt.trans h'.deletedAt.symm⟩

/-- **A row whose two columns hold what they should holds an account that carries it.** -/
theorem exists_account (htime : HoldsTime row.deletedAt) (hstatus : HoldsStatus row.status) :
    ∃ account, row.account = .ok account ∧ Carries account row := by
  obtain ⟨status, hname⟩ := hstatus
  refine ⟨{ row with status, deletedAt := timeOf row.deletedAt }, ?_, ?_⟩
  · rw [AccountRow.account, deletion_of_holdsTime htime, hname, statusOf_name]
    rfl
  · exact ⟨rfl, hname.symm, rfl, rfl, rfl, rfl, rfl, rfl, rfl, rfl, rfl, rfl, rfl⟩

theorem account_of_not_holdsTime (h : ¬HoldsTime row.deletedAt) :
    row.account = .error (.corrupt (deletedAtMessage row.deletedAt)) := by
  rw [AccountRow.account, deletion_of_not_holdsTime h]
  rfl

theorem account_of_not_holdsStatus (htime : HoldsTime row.deletedAt)
    (hstatus : ¬HoldsStatus row.status) :
    row.account = .error (.corrupt (Labelled.unknownMessage row.status)) := by
  rw [AccountRow.account, deletion_of_holdsTime htime, statusOf_of_not_holdsStatus hstatus]
  rfl

/-- **What a row holds.** -/
theorem account_eq_ok_iff : row.account = .ok account ↔
    HoldsTime row.deletedAt ∧ HoldsStatus row.status ∧ Carries account row := by
  constructor
  · intro hok
    by_cases htime : HoldsTime row.deletedAt
    · by_cases hstatus : HoldsStatus row.status
      · obtain ⟨other, hother, hcarries⟩ := exists_account htime hstatus
        obtain rfl : account = other := Except.ok.inj (hok.symm.trans hother)
        exact ⟨htime, hstatus, hcarries⟩
      · rw [account_of_not_holdsStatus htime hstatus] at hok
        exact absurd hok (by simp)
    · rw [account_of_not_holdsTime htime] at hok
      exact absurd hok (by simp)
  · rintro ⟨htime, hstatus, hcarries⟩
    obtain ⟨other, hother, hcarries'⟩ := exists_account htime hstatus
    rw [hother, hcarries'.unique hcarries]

/-! ## The row of an account -/

/-- The row that is written for an account. -/
def ofAccount (account : Account) : AccountRow where
  id := account.id
  username := account.username
  phone := account.phone
  email := account.email
  passwordHash := account.passwordHash
  isStaff := account.isStaff
  isSuperAdmin := account.isSuperAdmin
  status := Labelled.name account.status
  roleId := account.roleId
  lastLoginAt := account.lastLoginAt
  remark := account.remark
  createdAt := account.createdAt
  deletedAt := account.deletedAt.elim 0 fun time => Int64.ofInt time.seconds

/-- **A row is written anew from an account that carries it.** -/
theorem Carries.ofAccount_eq (h : Carries account row) : ofAccount account = row := by
  have hdeletedAt : (account.deletedAt.elim 0 fun time => Int64.ofInt time.seconds) =
      row.deletedAt := by
    rw [h.deletedAt, timeOf]
    by_cases hzero : row.deletedAt = 0
    · rw [if_pos hzero, hzero]
      rfl
    · rw [if_neg hzero]
      exact Int64.ofInt_toInt _
  rw [ofAccount, hdeletedAt, h.status, h.id, h.username, h.phone, h.email, h.passwordHash,
    h.isStaff, h.isSuperAdmin, h.roleId, h.lastLoginAt, h.remark, h.createdAt]

/-- The account can sign in exactly if the columns of deletion and status say so. -/
theorem Carries.isActive_iff (h : Carries account row) :
    account.isActive = true ↔ row.deletedAt = 0 ∧ row.status = "enable" := by
  have hname : account.status = .enabled ↔ row.status = Labelled.name Status.enabled := by
    rw [← h.status]
    exact ⟨congrArg Labelled.name, LawfulLabelled.name_injective _ _⟩
  rw [Account.isActive, Account.isDeleted, Bool.and_eq_true, Bool.not_eq_true',
    Option.isSome_eq_false_iff, Option.isNone_iff_eq_none, beq_iff_eq, hname, h.deletedAt,
    timeOf_eq_none_iff]
  rfl

/-- **Rows and the accounts in them.**  A row holds an account exactly if its column of deletion is
zero or a second of the calendar and its status is the name of one.  The account carries the row,
the row can be written anew from it, no other row holds it, and it can sign in exactly if the
column of deletion is zero and the status is the one of enabled accounts.  Any other row is
corrupt, for its column of deletion if that holds nothing and else for its status. -/
theorem account_by_columns (row : AccountRow) :
    ((∃ account, row.account = .ok account) ↔
      HoldsTime row.deletedAt ∧ HoldsStatus row.status) ∧
    (∀ account, row.account = .ok account →
      Carries account row ∧ ofAccount account = row ∧
      (∀ other : AccountRow, other.account = .ok account → other = row) ∧
      (account.isActive = true ↔ row.deletedAt = 0 ∧ row.status = "enable")) ∧
    (¬HoldsTime row.deletedAt →
      row.account = .error (.corrupt ("deleted_at " ++ Text.decimal row.deletedAt))) ∧
    (HoldsTime row.deletedAt → ¬HoldsStatus row.status →
      row.account = .error (.corrupt (Labelled.unknownMessage row.status))) := by
  refine ⟨⟨?_, ?_⟩, fun account hok => ?_, account_of_not_holdsTime, account_of_not_holdsStatus⟩
  · rintro ⟨account, hok⟩
    obtain ⟨htime, hstatus, -⟩ := account_eq_ok_iff.1 hok
    exact ⟨htime, hstatus⟩
  · rintro ⟨htime, hstatus⟩
    obtain ⟨account, hok, -⟩ := exists_account htime hstatus
    exact ⟨account, hok⟩
  · obtain ⟨-, -, hcarries⟩ := account_eq_ok_iff.1 hok
    refine ⟨hcarries, hcarries.ofAccount_eq, fun other hother => ?_, hcarries.isActive_iff⟩
    obtain ⟨-, -, hcarries'⟩ := account_eq_ok_iff.1 hother
    rw [← hcarries.ofAccount_eq, hcarries'.ofAccount_eq]

/-- Where the time is beyond the calendar and the status no name, the time is told; where the time
lies before the epoch, the account is there and cannot sign in. -/
theorem account_by_columns_beyondCalendar :
    let row : AccountRow :=
      { id := 7, username := "alice", phone := "13800000000", email := none, passwordHash := "",
        isStaff := true, isSuperAdmin := false, status := "sleeping", roleId := 1,
        lastLoginAt := none, remark := "", createdAt := ⟨0, 0⟩, deletedAt := 9223372036854775807 }
    row.account = .error (.corrupt "deleted_at 9223372036854775807") ∧
      ∃ account, { row with status := "enable", deletedAt := -1 }.account = .ok account ∧
        account.deletedAt = some ⟨-1, 0⟩ ∧ account.isActive = false := by
  intro row
  have hbeyond : ¬HoldsTime row.deletedAt := by
    rw [HoldsTime, Timestamp.inCalendar_iff]
    decide
  have hbefore : HoldsTime (-1) := by
    rw [HoldsTime, Timestamp.inCalendar_iff]
    decide
  obtain ⟨-, -, hcorrupt, -⟩ := account_by_columns row
  obtain ⟨hholds, hcarried, -, -⟩ :=
    account_by_columns { row with status := "enable", deletedAt := -1 }
  obtain ⟨account, hok⟩ := hholds.2 ⟨hbefore, .enabled, rfl⟩
  obtain ⟨hcarries, -, -, hactive⟩ := hcarried account hok
  refine ⟨(hcorrupt hbeyond).trans (by decide +kernel), account, hok, hcarries.deletedAt, ?_⟩
  exact Bool.eq_false_iff.2 fun h => absurd (hactive.1 h).1 (by decide)

end AccountRow
end AccountAccess
