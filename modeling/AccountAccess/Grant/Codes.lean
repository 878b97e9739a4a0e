import AccountAccess.Cache.Key
import AccountAccess.Failure
import AccountAccess.Grant.Route
import AccountAccess.Service.Interface
import AccountAccess.Session.Identity

/-!
# Permission codes of an account

The codes of an account follow from its role: the role gives resources, and the
resources carry codes.  The derived list is written to the cache as a set, and a
request is checked against that set only.  Two codes are wildcards, one for
everything and one for everything of a service.
-/

namespace AccountAccess
namespace Grant

/-- The code that allows everything. -/
def everything : String := "*"

/-- The code that allows everything of a service. -/
def everythingOf (service : String) : String :=
  service ++ ":*"

/-- The codes of which any one allows a route. -/
def candidates (service : String) (route : Route) : List String :=
  [everything, everythingOf service, route.code service]

/-- Writes the codes of an account in the place of those written before. -/
def replace (account : Int64) (codes : List String) : Procedure (Except CacheError Unit) :=
  let key := (CacheKey.grants account).text
  let added := if codes = [] then [] else [CacheWrite.addMembers key codes]
  Procedure.cache (.write (.remove key :: added))

/-- Whether any of some codes is written for an account. -/
def hasAny (account : Int64) (codes : List String) : Procedure (Except CacheError Bool) :=
  Procedure.cache (.anyMember (CacheKey.grants account).text codes)

/-- Whether an identity may use a route. -/
def check (service : String) (identity : Identity) (route : Route) :
    Procedure (Except Refusal Unit) := do
  if identity.isSuperAdmin then return .ok ()
  else
    match ← hasAny identity.account.id (candidates service route) with
    | .ok true => return .ok ()
    | .ok false | .error _ => return .error .forbidden

/-- Only a super administrator passes. -/
def requireSuperAdmin (identity : Identity) : Except Refusal Unit :=
  if identity.isSuperAdmin then .ok () else .error .forbidden

/-- Only staff passes. -/
def requireStaff (identity : Identity) : Except Refusal Unit :=
  if identity.isStaff then .ok () else .error .forbidden

/-- A list in order, each of its members once. -/
def sortedUnique (codes : List String) : List String :=
  (codes.mergeSort (· ≤ ·)).foldr
    (fun code rest => if rest.head? = some code then rest else code :: rest) []

/-- The codes that an account has by its role now. -/
def derive (account : Account) : Procedure (Except RefreshError (List String)) := do
  if account.isSuperAdmin then return .ok [everything]
  else
    match ← Procedure.store (.resourcesOf account.roleId account.isStaff) with
    | .error e => return .error (.store e)
    | .ok [] => return .ok []
    | .ok resources =>
      match ← Procedure.store (.codesOf resources) with
      | .error e => return .error (.store e)
      | .ok codes => return .ok (sortedUnique codes)

/-- Derives the codes of an account and writes them. -/
def refresh (account : Account) : Procedure (Except RefreshError (List String)) := do
  match ← derive account with
  | .error e => return .error e
  | .ok codes =>
    match ← replace account.id codes with
    | .error e => return .error (.cache e)
    | .ok () => return .ok codes

end Grant
end AccountAccess
