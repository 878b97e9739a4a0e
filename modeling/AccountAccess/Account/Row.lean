import AccountAccess.Store.Call

/-!
# Rows of the account table

The table keeps an account in one row.  The mark of deletion is a number of
seconds, with zero for none, and the status is a name.  A row whose time is not
representable or whose status is unknown is corrupt; the time is looked at first.
-/

namespace AccountAccess

/-- A row of the account table. -/
structure AccountRow where
  id : Int64
  username : String
  phone : String
  email : Option String
  passwordHash : String
  isStaff : Bool
  isSuperAdmin : Bool
  status : String
  roleId : Int64
  lastLoginAt : Option Timestamp
  remark : String
  createdAt : Timestamp
  deletedAt : Int64
  deriving DecidableEq, Repr

namespace AccountRow

/-- What is said of a time that is not representable. -/
def deletedAtMessage (seconds : Int64) : String :=
  "deleted_at " ++ Text.decimal seconds

/-- The time of deletion that a number stands for. -/
def deletion (seconds : Int64) : Except StoreError (Option Timestamp) :=
  if seconds = 0 then .ok none
  else
    match Timestamp.ofSeconds? seconds.toInt with
    | some time => .ok (some time)
    | none => .error (.corrupt (deletedAtMessage seconds))

/-- The status that a name stands for. -/
def statusOf (name : String) : Except StoreError Status :=
  match Labelled.ofName? name with
  | some status => .ok status
  | none => .error (.corrupt (Labelled.unknownMessage name))

/-- The account in a row. -/
def account (row : AccountRow) : Except StoreError Account := do
  let deletedAt ← deletion row.deletedAt
  let status ← statusOf row.status
  return {
    id := row.id
    username := row.username
    phone := row.phone
    email := row.email
    passwordHash := row.passwordHash
    isStaff := row.isStaff
    isSuperAdmin := row.isSuperAdmin
    status
    roleId := row.roleId
    lastLoginAt := row.lastLoginAt
    remark := row.remark
    createdAt := row.createdAt
    deletedAt }

end AccountRow
end AccountAccess
