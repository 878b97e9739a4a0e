import AccountAccess.Account.Identifier

/-!
# Calls of the account store

The store holds accounts, roles, resources and permissions.  All its questions
leave deleted accounts and roles out.
-/

namespace AccountAccess

/-- Why a store call has no answer. -/
inductive StoreError where
  | timedOut
  /-- A row holds a value that no account can have. -/
  | corrupt (what : String)
  /-- The server, or the way to it, reported a fault. -/
  | server
  deriving DecidableEq, Repr

namespace StoreError

/-- The message for an error.  A server's own words are not repeated. -/
def message : StoreError → String
  | timedOut => "database call timed out"
  | corrupt what => "corrupt row: " ++ what
  | server => "database server error"

end StoreError

/-- A call of the store. -/
inductive StoreCall where
  /-- The account with an id. -/
  | account (id : Int64)
  /-- The newest account with a login identifier. -/
  | accountOf (identifier : Identifier)
  /-- The enabled resources of a role; those that may not be assigned only on
  request. -/
  | resourcesOf (role : Int64) (includeUnassignable : Bool)
  /-- The permission codes that some resources carry. -/
  | codesOf (resources : List Int64)
  /-- Replaces the password hash of an account. -/
  | setPassword (account : Int64) (hash : String)
  /-- Notes the time of a login. -/
  | setLastLogin (account : Int64) (time : Timestamp)
  deriving DecidableEq, Repr

/-- What a call is answered with when it succeeds. -/
abbrev StoreCall.Result : StoreCall → Type
  | account _ => Option Account
  | accountOf _ => Option Account
  | resourcesOf .. => List Int64
  | codesOf _ => List String
  | setPassword .. => Unit
  | setLastLogin .. => Unit

end AccountAccess
