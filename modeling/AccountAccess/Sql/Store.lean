import AccountAccess.Dialogue
import AccountAccess.Sql.Table

/-!
# The account store on a database server

Each call of the store is one statement with bound values.  The statements
themselves leave deleted accounts and roles out.
-/

namespace AccountAccess
namespace Sql

/-- A value that is bound to a place in a statement. -/
inductive Bind where
  | integer (value : Int64)
  | text (value : String)
  | bool (value : Bool)
  | integers (values : List Int64)
  | time (value : Timestamp)
  deriving DecidableEq, Repr

/-- A statement with its bound values. -/
structure Query where
  statement : String
  binds : List Bind
  deriving DecidableEq, Repr

/-- The interface of a database server. -/
abbrev interface : Interface :=
  ⟨Query, fun _ => Except StoreError Table⟩

/-- An exchange with a database server. -/
abbrev Exchange (α : Type) := Dialogue interface α

/-- The columns of an account. -/
def accountColumns : String :=
  "id, username, phone, email, password, is_staff, is_super_admin, status, role_id, " ++
    "last_login_at, remark, created_at, deleted_at"

/-- The query for the account with an id. -/
def accountQuery (id : Int64) : Query :=
  ⟨"SELECT " ++ accountColumns ++ " FROM account WHERE id = $1 AND deleted_at = 0",
   [.integer id]⟩

/-- The column that an identifier is looked up in. -/
def identifierColumn : Identifier → String
  | .phone _ => "phone"
  | .email _ => "email"
  | .username _ => "username"

/-- The query for the newest account with an identifier. -/
def accountOfQuery (identifier : Identifier) : Query :=
  ⟨"SELECT " ++ accountColumns ++ " FROM account WHERE " ++ identifierColumn identifier ++
    " = $1 AND deleted_at = 0 ORDER BY id DESC LIMIT 1",
   [.text identifier.value]⟩

/-- The query for the resources of a role. -/
def resourcesOfQuery (role : Int64) (includeUnassignable : Bool) : Query :=
  ⟨"SELECT r.id FROM resource r JOIN resource_role rr ON rr.resource_id = r.id " ++
    "JOIN role ro ON ro.id = rr.role_id AND ro.deleted_at = 0 " ++
    "WHERE rr.role_id = $1 AND r.enabled AND ($2 OR r.assignable) ORDER BY r.id",
   [.integer role, .bool includeUnassignable]⟩

/-- The query for the permission codes that resources carry. -/
def codesOfQuery (resources : List Int64) : Query :=
  ⟨"SELECT DISTINCT rp.permission_id FROM resource_permission rp " ++
    "WHERE rp.resource_id = ANY($1) ORDER BY rp.permission_id",
   [.integers resources]⟩

/-- The statement that replaces a password hash. -/
def setPasswordQuery (account : Int64) (hash : String) : Query :=
  ⟨"UPDATE account SET password = $1, updated_at = now() WHERE id = $2 AND deleted_at = 0",
   [.text hash, .integer account]⟩

/-- The statement that notes the time of a login. -/
def setLastLoginQuery (account : Int64) (time : Timestamp) : Query :=
  ⟨"UPDATE account SET last_login_at = $1 WHERE id = $2 AND deleted_at = 0",
   [.time time, .integer account]⟩

/-- Sends a query. -/
def ask (query : Query) : Exchange (Except StoreError Table) :=
  Dialogue.call (I := interface) query

/-- The account in the first row, if there is a row. -/
def firstAccount (table : Table) : Except StoreError (Option Account) :=
  match table.toRows with
  | [] => .ok none
  | row :: _ =>
    match row.account? with
    | none => .error .server
    | some row => row.account.map some

/-- The values in the first column. -/
def firstColumn (decode : Decoder α) (table : Table) : Except StoreError (List α) :=
  match table.toRows.mapM fun row => row.first? decode with
  | some values => .ok values
  | none => .error .server

/-- The exchange for a call of the store. -/
def carry : (call : StoreCall) → Exchange (Except StoreError call.Result)
  | .account id => do return (← ask (accountQuery id)).bind firstAccount
  | .accountOf identifier => do return (← ask (accountOfQuery identifier)).bind firstAccount
  | .resourcesOf role includeUnassignable => do
    return (← ask (resourcesOfQuery role includeUnassignable)).bind (firstColumn .int64)
  | .codesOf resources =>
    if resources = [] then return .ok []
    else do return (← ask (codesOfQuery resources)).bind (firstColumn .text)
  | .setPassword account hash => do
    return (← ask (setPasswordQuery account hash)).map fun _ => ()
  | .setLastLogin account time => do
    return (← ask (setLastLoginQuery account time)).map fun _ => ()

end Sql
end AccountAccess
