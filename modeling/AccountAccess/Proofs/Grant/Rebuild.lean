import AccountAccess.Proofs.Code.Request
import AccountAccess.Proofs.Grant.Sorted
import AccountAccess.Proofs.Service.Naming
import AccountAccess.Proofs.Session.PasswordLogin

/-!
# A refresh in any surroundings, alone and inside a login

A refresh comes to one of two ends, whichever of its calls fail.  Either the whole set of an
account is replaced by what is derived now, or the cache is left as it was: the removal and the
adding are one call, so there is nothing in between.

Signing in contains a refresh.  It first finds out who signs in, which touches no granted codes;
then comes the refresh; what follows touches no granted codes either.  So of the granted codes a
login is seen as the refresh that it contains, also if it fails after that.

## What a failure is traced to

A refresh that fails says with which kind of calls that goes together: one of the two questions to
the store is made to fail now, or the writing is not answered.  Without that a refresh that never
succeeds would come to one of the two ends as well.

## Main results

* `run_derive_cases`: deriving codes asks the store, and nothing else happens.
* `RefreshEnds`, `run_refresh_cases`: the two ends of a refresh, and that there are no others.
* `Attempt.procedure_eq`: signing in with a password or a code, cut into finding out who signs in,
  the refresh, and the opening of a session.
* `Attempt.names_authenticate`: the first part comes near one-time codes only.
-/

namespace AccountAccess
namespace Grant

/-! ## The whole refresh -/

/-- What a refresh can come to: one of its calls fails and the cache is as it was, or what is
derived now has been written in the place of what stood before. -/
inductive RefreshEnds (account : Account) (before after : World) :
    Except RefreshError (List String) → Prop where
  | failed {e : RefreshError} (hcache : after.cache = before.cache)
      (hfails : before.fails .storeResourcesOf = true ∨ before.fails .storeCodesOf = true ∨
        before.answersCache .cacheWrite = false) :
      RefreshEnds account before after (.error e)
  | written (hentry : after.entry = Function.update before.entry (grantsKey account.id)
        (entryOf (derivedCodes before.store account))) :
      RefreshEnds account before after (.ok (derivedCodes before.store account))

/-- Some codes are written, unless this fails now. -/
theorem run_rewrite_cases (asked : World) (account : Int64) (codes : List String) :
    ∃ result after, asked.run (rewrite account codes) = (.finished result, after) ∧
      ((∃ e, result = .error e ∧ after.cache = asked.cache ∧
          asked.answersCache .cacheWrite = false) ∨
        (result = .ok codes ∧
          after.entry = Function.update asked.entry (grantsKey account) (entryOf codes))) := by
  obtain ⟨entries, hperform, hentries⟩ := perform_writes asked.cache asked.clock account codes
  obtain ⟨faults, -, ⟨hanswers, e, hrun⟩ | ⟨-, hrun⟩⟩ :=
    asked.run_cache_cases (.write (writes account codes))
  · rw [rewrite, World.run_ask_cache hrun]
    exact ⟨_, _, rfl, Or.inl ⟨_, rfl, rfl, hanswers⟩⟩
  · rw [hperform] at hrun
    exact ⟨_, _, World.run_ask_cache hrun _, Or.inr ⟨rfl, hentries⟩⟩

/-- **Deriving codes in any surroundings.**  The store is asked and nothing else happens. -/
theorem run_derive_cases (before : World) (account : Account) :
    ∃ result asked, before.run (derive account) = (.finished result, asked) ∧
      asked.cache = before.cache ∧ asked.clock = before.clock ∧ asked.store = before.store ∧
      asked.answersCache .cacheWrite = before.answersCache .cacheWrite ∧
      (result = .ok (derivedCodes before.store account) ∨
        (before.fails .storeResourcesOf = true ∨ before.fails .storeCodesOf = true) ∧
          ∃ e, result = .error e) := by
  rw [derive]
  cases hadmin : account.isSuperAdmin with
  | true =>
    rw [if_pos rfl]
    exact ⟨_, before, rfl, rfl, rfl, rfl, rfl, Or.inl (by rw [derivedCodes, if_pos hadmin])⟩
  | false =>
    have hderived : derivedCodes before.store account =
        grantsOf before.store before.store account := if_neg (by simp [hadmin])
    rw [if_neg (by simp), hderived]
    obtain ⟨faults, hfaults, ⟨hfails, e, hrun⟩ | ⟨-, hrun⟩⟩ :=
      before.run_store_cases (.resourcesOf account.roleId account.isStaff)
    · rw [World.run_bind hrun]
      exact ⟨_, _, rfl, rfl, rfl, rfl,
        World.answersCache_congr rfl (hfaults .cacheWrite (by rintro ⟨⟩)),
        Or.inr ⟨Or.inl hfails, _, rfl⟩⟩
    · rw [World.run_bind hrun]
      have hwrite : faults .cacheWrite = before.faults .cacheWrite :=
        hfaults .cacheWrite (by rintro ⟨⟩)
      have hlisted : (before.store.answer (.resourcesOf account.roleId account.isStaff)).1 =
          before.store.resourcesOf account.roleId account.isStaff := rfl
      rw [hlisted]
      cases hresources : before.store.resourcesOf account.roleId account.isStaff with
      | nil =>
        exact ⟨_, _, rfl, rfl, rfl, rfl, World.answersCache_congr rfl hwrite,
          Or.inl (by rw [grantsOf_eq_nil hresources])⟩
      | cons resource resources =>
        dsimp only
        obtain ⟨faults', hfaults', hcodes⟩ := World.run_store_cases
          { before.noted (.store (.resourcesOf account.roleId account.isStaff)) with
            faults, store := (before.store.answer (.resourcesOf account.roleId account.isStaff)).2 }
          (.codesOf (resource :: resources))
        have hwrite' : faults' .cacheWrite = before.faults .cacheWrite :=
          (hfaults' .cacheWrite (by rintro ⟨⟩)).trans hwrite
        rcases hcodes with ⟨hfails, e, hrun⟩ | ⟨-, hrun⟩
        · rw [World.run_bind hrun]
          refine ⟨_, _, rfl, rfl, rfl, rfl, World.answersCache_congr rfl hwrite',
            Or.inr ⟨Or.inr ?_, _, rfl⟩⟩
          have hcodesOf : faults .storeCodesOf = before.faults .storeCodesOf :=
            hfaults .storeCodesOf (by rintro ⟨⟩)
          exact (World.fails_congr hcodesOf).symm.trans hfails
        · rw [World.run_bind hrun]
          refine ⟨_, _, rfl, rfl, rfl, rfl, World.answersCache_congr rfl hwrite', Or.inl ?_⟩
          rw [grantsOf, hresources]
          rfl

theorem refresh_eq_derive (account : Account) :
    refresh account = derive account >>= fun (derived : Except RefreshError (List String)) =>
      match derived with
      | .error e => .done (.error e)
      | .ok codes => rewrite account.id codes := by
  refine congrArg (derive account >>= ·) (funext fun derived => ?_)
  rcases derived with e | codes
  · rfl
  · exact rewrite_eq account.id codes

/-- **A refresh in any surroundings.** -/
theorem run_refresh_cases (before : World) (account : Account) :
    ∃ result after, before.run (refresh account) = (.finished result, after) ∧
      RefreshEnds account before after result := by
  obtain ⟨derived, asked, hderive, hcache, -, -, hanswers, hderived⟩ :=
    run_derive_cases before account
  rw [refresh_eq_derive, World.run_bind hderive]
  rcases hderived with rfl | ⟨hfails, e, rfl⟩
  · obtain ⟨result, after, hrun, hwritten⟩ :=
      run_rewrite_cases asked account.id (derivedCodes before.store account)
    refine ⟨result, after, hrun, ?_⟩
    rcases hwritten with ⟨e, rfl, hkept, hrefuses⟩ | ⟨rfl, hentry⟩
    · exact .failed (hkept.trans hcache) (Or.inr (Or.inr (hanswers ▸ hrefuses)))
    · refine .written (hentry.trans ?_)
      rw [show asked.entry = before.entry by funext key; rw [World.entry, World.entry, hcache]]
  · exact ⟨_, asked, rfl, .failed hcache (hfails.imp_right Or.inl)⟩

end Grant

/-! ## The refresh inside a login -/

/-- Presenting a code comes near the codes of its purpose, and near what comes after it. -/
theorem OneTimeCode.names_presenting {kind : CacheKey → Prop} {α : Type} {purpose : CodePurpose}
    (hcode : ∀ recipient, kind (.code purpose recipient)) (identifier code : String)
    {next : Account → Procedure (Except LoginFailure α)}
    (hnext : ∀ account, (next account).Names kind) :
    (presenting purpose identifier code next).Names kind := by
  refine (Session.names_accountOf identifier).bind fun found => ?_
  rcases found with e | _ | account
  · exact .done _
  · exact .done _
  · refine (names_spend (hcode _) code).bind fun spent => ?_
    rcases spent with e | _ | _
    · exact .done _
    · exact .done _
    · exact hnext account

namespace Session

open OneTimeCode Procedure

/-- A way to sign in. -/
inductive Attempt where
  | withPassword (identifier password : String)
  | withCode (identifier code : String)
  deriving DecidableEq, Repr

namespace Attempt

/-- The procedure of signing in. -/
def procedure (primitives : Primitives) (ttl : UInt64) (scene : Scene) :
    Attempt → Procedure (Except LoginFailure Opened)
  | withPassword identifier password => loginWithPassword primitives ttl identifier password scene
  | withCode identifier code => loginWithCode ttl identifier code scene

/-- Finds out who signs in. -/
def authenticate (primitives : Primitives) : Attempt → Procedure (Except LoginFailure Account)
  | withPassword identifier password => do
    match ← accountOf identifier with
    | .error e => return .error (.store e)
    | .ok found => return letIn primitives password found
  | withCode identifier code =>
    presenting .login identifier code fun account =>
      return if account.isActive then .ok account else .error .disabled

/-- **Signing in**: it is found out who signs in, the codes of the account are refreshed, and the
session is opened. -/
theorem procedure_eq (primitives : Primitives) (ttl : UInt64) (scene : Scene)
    (attempt : Attempt) :
    attempt.procedure primitives ttl scene =
      attempt.authenticate primitives >>= fun (found : Except LoginFailure Account) =>
        match found with
        | .error failure => .done (.error failure)
        | .ok account => Grant.refresh account >>= openRefreshed ttl account scene := by
  cases attempt with
  | withPassword identifier password =>
    rw [procedure, loginWithPassword_eq, authenticate, Dialogue.bind_assoc]
    refine congrArg (accountOf identifier >>= ·) (funext fun found => ?_)
    rcases found with e | found
    · rfl
    · simp only [pure_bind]
      cases letIn primitives password found with
      | error failure => rfl
      | ok account => exact openFor_eq ttl account scene
  | withCode identifier code =>
    rw [procedure, authenticate, presenting, Dialogue.bind_assoc]
    refine congrArg (accountOf identifier >>= ·) (funext fun found => ?_)
    rcases found with e | _ | account
    · rfl
    · rfl
    · simp only [Dialogue.bind_assoc]
      refine congrArg (spend _ _ _ >>= ·) (funext fun spent => ?_)
      rcases spent with e | _ | _
      · rfl
      · rfl
      · cases hactive : account.isActive with
        | false => simp
        | true => simp [openFor_eq]

theorem names_authenticate {kind : CacheKey → Prop}
    (hcode : ∀ purpose recipient, kind (.code purpose recipient)) (primitives : Primitives)
    (attempt : Attempt) : (attempt.authenticate primitives).Names kind := by
  cases attempt with
  | withPassword identifier password =>
    refine (names_accountOf identifier).bind fun found => ?_
    cases found with
    | _ => exact .done _
  | withCode identifier code =>
    exact names_presenting (hcode .login) identifier code fun account => .done _

end Attempt
end Session
end AccountAccess
