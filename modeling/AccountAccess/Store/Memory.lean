import AccountAccess.Store.Call
import Std.Data.ExtTreeMap
import Std.Data.ExtTreeSet

/-!
# The account store in memory

Tables for accounts, roles, resources and permissions, and two relations: which
roles a resource is linked to, and which permission codes it carries.
-/

namespace AccountAccess

/-- The tables of the store. -/
structure MemoryStore where
  accounts : Std.ExtTreeMap Int64 Account := ∅
  roles : Std.ExtTreeMap Int64 Role := ∅
  resources : Std.ExtTreeMap Int64 Resource := ∅
  permissions : Std.ExtTreeMap String Permission := ∅
  /-- The roles that each resource is linked to. -/
  resourceRoles : Std.ExtTreeMap Int64 (Std.ExtTreeSet Int64) := ∅
  /-- The permission codes that each resource carries. -/
  resourceCodes : Std.ExtTreeMap Int64 (Std.ExtTreeSet String) := ∅
  /-- How often an account has been asked for by its id. -/
  accountReads : Nat := 0

namespace MemoryStore

/-! ## Editing -/

/-- Puts an account in, or in the place of the one with its id. -/
def putAccount (store : MemoryStore) (account : Account) : MemoryStore :=
  { store with accounts := store.accounts.insert account.id account }

/-- Puts a role in, or in the place of the one with its id. -/
def putRole (store : MemoryStore) (role : Role) : MemoryStore :=
  { store with roles := store.roles.insert role.id role }

/-- The permission that a code stands for when nothing more is known of it. -/
def plainPermission (code : String) : Permission :=
  ⟨code, code, .api, false⟩

/-- Puts a resource in, or in the place of the one with its id, and adds links to
roles and permission codes; codes not known before become permissions. -/
def putResource (store : MemoryStore) (resource : Resource) (roles : List Int64)
    (codes : List String) : MemoryStore :=
  let id := resource.id
  { store with
    resources := store.resources.insert id resource
    resourceRoles := store.resourceRoles.insert id
      ((store.resourceRoles.getD id ∅).insertMany roles)
    resourceCodes := store.resourceCodes.insert id
      ((store.resourceCodes.getD id ∅).insertMany codes)
    permissions := codes.foldl
      (fun permissions code => permissions.insertIfNew code (plainPermission code))
      store.permissions }

/-- Marks a permission as deprecated; this changes nothing for the resources that
carry it. -/
def deprecateCode (store : MemoryStore) (code : String) : MemoryStore :=
  { store with permissions := store.permissions.modify code ({ · with isDeprecated := true }) }

/-- Changes the row of an account, if there is one. -/
def modifyAccount (store : MemoryStore) (id : Int64) (change : Account → Account) :
    MemoryStore :=
  { store with accounts := store.accounts.modify id change }

/-- Enables or disables an account. -/
def setStatus (store : MemoryStore) (id : Int64) (status : Status) : MemoryStore :=
  store.modifyAccount id ({ · with status })

/-- Marks an account as deleted at a time. -/
def softDelete (store : MemoryStore) (id : Int64) (time : Timestamp) : MemoryStore :=
  store.modifyAccount id ({ · with deletedAt := some time })

/-- Enables or disables a resource. -/
def setResourceEnabled (store : MemoryStore) (id : Int64) (enabled : Bool) : MemoryStore :=
  { store with resources := store.resources.modify id ({ · with enabled }) }

/-- Takes a permission code away from a resource. -/
def revokeCode (store : MemoryStore) (resource : Int64) (code : String) : MemoryStore :=
  { store with resourceCodes := store.resourceCodes.modify resource (·.erase code) }

/-! ## Questions -/

/-- The account with an id, unless it is deleted. -/
def account? (store : MemoryStore) (id : Int64) : Option Account :=
  store.accounts[id]?.filter (!·.isDeleted)

/-- The account with a login identifier; of several the one with the greatest id,
and never a deleted one. -/
def accountOf? (store : MemoryStore) (identifier : Identifier) : Option Account :=
  (store.accounts.toList.map Prod.snd).foldl
    (fun best account =>
      if !account.isDeleted && identifier.isOf account &&
          best.all (fun (other : Account) => other.id ≤ account.id)
      then some account else best)
    none

/-- Whether a role exists and is not deleted. -/
def hasRole (store : MemoryStore) (role : Int64) : Bool :=
  store.roles[role]?.any (·.deletedAt.isNone)

/-- Whether a resource gives a role access. -/
def gives (store : MemoryStore) (role : Int64) (includeUnassignable : Bool)
    (resource : Resource) : Bool :=
  resource.enabled && (includeUnassignable || resource.assignable) &&
    (store.resourceRoles.getD resource.id ∅).contains role

/-- The resources that give a role access, by increasing id. -/
def resourcesOf (store : MemoryStore) (role : Int64) (includeUnassignable : Bool) :
    List Int64 :=
  if store.hasRole role then
    ((store.resources.toList.map Prod.snd).filter (store.gives role includeUnassignable)).map (·.id)
  else []

/-- The permission codes that some resources carry, in order and each once. -/
def codesOf (store : MemoryStore) (resources : List Int64) : List String :=
  let codes := resources.foldl
    (fun (codes : Std.ExtTreeSet String) id =>
      codes.insertMany (store.resourceCodes.getD id ∅).toList) ∅
  codes.toList

/-! ## Calls -/

/-- Answers a call. -/
def answer (store : MemoryStore) : (call : StoreCall) → call.Result × MemoryStore
  | .account id => (store.account? id, { store with accountReads := store.accountReads + 1 })
  | .accountOf identifier => (store.accountOf? identifier, store)
  | .resourcesOf role includeUnassignable => (store.resourcesOf role includeUnassignable, store)
  | .codesOf resources => (store.codesOf resources, store)
  | .setPassword id hash => ((), store.modifyAccount id ({ · with passwordHash := hash }))
  | .setLastLogin id time => ((), store.modifyAccount id ({ · with lastLoginAt := some time }))

end MemoryStore
end AccountAccess
