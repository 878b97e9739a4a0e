import AccountAccess.Account.Basic

/-!
# Accounts, roles, resources and permissions as JSON

The password hash and the mark of deletion are read but never written.
-/

namespace AccountAccess

open Json (Document Reader Field field)

namespace Timestamp

/-- A timestamp is a string in its written form. -/
def document (t : Timestamp) : Document :=
  .text t.render

/-- Reads a timestamp from a string. -/
def reader : Reader Timestamp :=
  Json.interpreted read?

end Timestamp

namespace Account

/-- The fields of an account that are shown. -/
def fields (account : Account) : List (String × Document) :=
  [("id", .int64 account.id),
   ("username", .text account.username),
   ("phone", .text account.phone),
   ("email", .optional .text account.email),
   ("is_staff", .bool account.isStaff),
   ("is_super_admin", .bool account.isSuperAdmin),
   ("status", Labelled.document account.status),
   ("role_id", .int64 account.roleId),
   ("last_login_at", .optional Timestamp.document account.lastLoginAt),
   ("remark", .text account.remark),
   ("created_at", account.createdAt.document)]

/-- An account as it is shown. -/
def document (account : Account) : Document :=
  .object account.fields

/-- An account as it is shown, with the days since the last login. -/
def detailDocument (account : Account) (now : Timestamp) : Document :=
  .object <| account.fields ++
    [("days_from_last_login", .optional .number (account.daysFromLastLogin now))]

/-- An account that is being read. -/
structure Draft where
  id : Option Int64 := none
  username : Option String := none
  phone : Option String := none
  email : Option (Option String) := none
  passwordHash : Option String := none
  isStaff : Option Bool := none
  isSuperAdmin : Option Bool := none
  status : Option Status := none
  roleId : Option Int64 := none
  lastLoginAt : Option (Option Timestamp) := none
  remark : Option String := none
  createdAt : Option Timestamp := none
  deletedAt : Option (Option Timestamp) := none

/-- The account, once every field that is not optional has been read. -/
def Draft.complete (draft : Draft) : Option Account := do
  return {
    id := ← draft.id
    username := ← draft.username
    phone := ← draft.phone
    email := draft.email.getD none
    passwordHash := ← draft.passwordHash
    isStaff := ← draft.isStaff
    isSuperAdmin := ← draft.isSuperAdmin
    status := ← draft.status
    roleId := ← draft.roleId
    lastLoginAt := draft.lastLoginAt.getD none
    remark := ← draft.remark
    createdAt := ← draft.createdAt
    deletedAt := draft.deletedAt.getD none }

/-- Reads an account. -/
def reader : Reader Account :=
  Json.record
    [field "id" Json.int64 Draft.id fun v d => { d with id := v },
     field "username" Json.string Draft.username fun v d => { d with username := v },
     field "phone" Json.string Draft.phone fun v d => { d with phone := v },
     field "email" (Json.nullable Json.string) Draft.email fun v d => { d with email := some v },
     field "password" Json.string Draft.passwordHash fun v d => { d with passwordHash := v },
     field "is_staff" Json.boolean Draft.isStaff fun v d => { d with isStaff := v },
     field "is_super_admin" Json.boolean Draft.isSuperAdmin
       fun v d => { d with isSuperAdmin := v },
     field "status" Labelled.reader Draft.status fun v d => { d with status := some v },
     field "role_id" Json.int64 Draft.roleId fun v d => { d with roleId := v },
     field "last_login_at" (Json.nullable Timestamp.reader) Draft.lastLoginAt
       fun v d => { d with lastLoginAt := some v },
     field "remark" Json.string Draft.remark fun v d => { d with remark := v },
     field "created_at" Timestamp.reader Draft.createdAt fun v d => { d with createdAt := v },
     field "deleted_at" (Json.nullable Timestamp.reader) Draft.deletedAt
       fun v d => { d with deletedAt := some v }]
    {} Draft.complete

end Account

namespace Role

/-- A role as it is shown. -/
def document (role : Role) : Document :=
  .object
    [("id", .int64 role.id),
     ("label", .text role.label),
     ("remark", .optional .text role.remark)]

/-- A role that is being read. -/
structure Draft where
  id : Option Int64 := none
  label : Option String := none
  remark : Option (Option String) := none
  deletedAt : Option (Option Timestamp) := none

/-- Reads a role. -/
def reader : Reader Role :=
  Json.record
    [field "id" Json.int64 Draft.id fun v d => { d with id := v },
     field "label" Json.string Draft.label fun v d => { d with label := v },
     field "remark" (Json.nullable Json.string) Draft.remark fun v d => { d with remark := some v },
     field "deleted_at" (Json.nullable Timestamp.reader) Draft.deletedAt
       fun v d => { d with deletedAt := some v }]
    {} fun draft => do
      return {
        id := ← draft.id
        label := ← draft.label
        remark := draft.remark.getD none
        deletedAt := draft.deletedAt.getD none }

end Role

namespace Resource

/-- A resource as it is shown. -/
def document (resource : Resource) : Document :=
  .object
    [("id", .int64 resource.id),
     ("code", .text resource.code),
     ("label", .text resource.label),
     ("front_route", .optional .text resource.frontRoute),
     ("resource_type", Labelled.document resource.kind),
     ("sub_resource_type", Labelled.document resource.action),
     ("order_num", .number resource.orderNum.toInt),
     ("enabled", .bool resource.enabled),
     ("assignable", .bool resource.assignable),
     ("parent_id", .optional .int64 resource.parentId),
     ("scene", Labelled.document resource.scene)]

/-- A resource that is being read. -/
structure Draft where
  id : Option Int64 := none
  code : Option String := none
  label : Option String := none
  frontRoute : Option (Option String) := none
  kind : Option ResourceKind := none
  action : Option ResourceAction := none
  orderNum : Option Int32 := none
  enabled : Option Bool := none
  assignable : Option Bool := none
  parentId : Option (Option Int64) := none
  scene : Option Scene := none

/-- Reads a resource. -/
def reader : Reader Resource :=
  Json.record
    [field "id" Json.int64 Draft.id fun v d => { d with id := v },
     field "code" Json.string Draft.code fun v d => { d with code := v },
     field "label" Json.string Draft.label fun v d => { d with label := v },
     field "front_route" (Json.nullable Json.string) Draft.frontRoute
       fun v d => { d with frontRoute := some v },
     field "resource_type" Labelled.reader Draft.kind fun v d => { d with kind := some v },
     field "sub_resource_type" Labelled.reader Draft.action fun v d => { d with action := some v },
     field "order_num" Json.int32 Draft.orderNum fun v d => { d with orderNum := v },
     field "enabled" Json.boolean Draft.enabled fun v d => { d with enabled := v },
     field "assignable" Json.boolean Draft.assignable fun v d => { d with assignable := v },
     field "parent_id" (Json.nullable Json.int64) Draft.parentId
       fun v d => { d with parentId := some v },
     field "scene" Labelled.reader Draft.scene fun v d => { d with scene := some v }]
    {} fun draft => do
      return {
        id := ← draft.id
        code := ← draft.code
        label := ← draft.label
        frontRoute := draft.frontRoute.getD none
        kind := ← draft.kind
        action := ← draft.action
        orderNum := ← draft.orderNum
        enabled := ← draft.enabled
        assignable := ← draft.assignable
        parentId := draft.parentId.getD none
        scene := ← draft.scene }

end Resource

namespace Permission

/-- A permission as it is shown. -/
def document (permission : Permission) : Document :=
  .object
    [("code", .text permission.code),
     ("label", .text permission.label),
     ("permission_type", Labelled.document permission.kind),
     ("is_deprecated", .bool permission.isDeprecated)]

/-- A permission that is being read. -/
structure Draft where
  code : Option String := none
  label : Option String := none
  kind : Option PermissionKind := none
  isDeprecated : Option Bool := none

/-- Reads a permission. -/
def reader : Reader Permission :=
  Json.record
    [field "code" Json.string Draft.code fun v d => { d with code := v },
     field "label" Json.string Draft.label fun v d => { d with label := v },
     field "permission_type" Labelled.reader Draft.kind fun v d => { d with kind := some v },
     field "is_deprecated" Json.boolean Draft.isDeprecated
       fun v d => { d with isDeprecated := v }]
    {} fun draft => do
      return {
        code := ← draft.code
        label := ← draft.label
        kind := ← draft.kind
        isDeprecated := ← draft.isDeprecated }

end Permission
end AccountAccess
