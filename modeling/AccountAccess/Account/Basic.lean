import AccountAccess.Labelled
import AccountAccess.Time.Timestamp

/-!
# Accounts, roles, resources and permissions

An account has one role.  A role gives access to resources, and a resource
carries permission codes.  Accounts and roles are deleted by a mark, so that
their rows stay; a deleted account can do nothing.
-/

namespace AccountAccess

/-- A user of the service.  The password is kept as a hash. -/
structure Account where
  id : Int64
  username : String
  phone : String
  email : Option String
  passwordHash : String
  isStaff : Bool
  isSuperAdmin : Bool
  status : Status
  roleId : Int64
  lastLoginAt : Option Timestamp
  remark : String
  createdAt : Timestamp
  deletedAt : Option Timestamp
  deriving DecidableEq, Repr

namespace Account

/-- Whether the account carries the mark of deletion. -/
def isDeleted (account : Account) : Bool :=
  account.deletedAt.isSome

/-- Whether the account can sign in and own sessions. -/
def isActive (account : Account) : Bool :=
  !account.isDeleted && account.status == .enabled

/-- The whole days since the last login, cut toward zero; none before the first
login. -/
def daysFromLastLogin (account : Account) (now : Timestamp) : Option Int :=
  account.lastLoginAt.map fun lastLogin => lastLogin.daysUntil now

end Account

/-- A role. -/
structure Role where
  id : Int64
  label : String
  remark : Option String
  deletedAt : Option Timestamp
  deriving DecidableEq, Repr

/-- A resource: a menu, a button or an interface. -/
structure Resource where
  id : Int64
  code : String
  label : String
  frontRoute : Option String
  kind : ResourceKind
  action : ResourceAction
  orderNum : Int32
  enabled : Bool
  assignable : Bool
  parentId : Option Int64
  scene : Scene
  deriving DecidableEq, Repr

/-- A permission, known by its code. -/
structure Permission where
  code : String
  label : String
  kind : PermissionKind
  isDeprecated : Bool
  deriving DecidableEq, Repr

end AccountAccess
