import AccountAccess.Partner.Admission
import AccountAccess.Proofs.Cache.Key
import AccountAccess.Proofs.Grant.Refresh
import AccountAccess.Proofs.Service.Effects
import AccountAccess.Session.Login

/-!
# Which entries a procedure can come near

The families of cache entries are kept apart by their keys.  Which families a procedure names is
seen in its tree, so it can be said once for each procedure; and an entry whose key is not named
stands as it did, whichever calls fail and however far the procedure comes.

Sessions are made of tokens and slots, signing in with a code names codes besides, a refresh and a
check name granted codes, and partners have families of their own.  Nothing but the limit on
requests names counters.

The statements are about kinds of keys and not about keys: a kind is any property of them, so one
lemma serves for every frame that is needed of a procedure.

## Main results

* `Procedure.Names`: all keys that a procedure can come to name are of a kind.
* `Names.entry_run`: what is not named stands as it did.
* `names_issue`, `names_revoke`, `names_identify`: the procedures of sessions.
* `names_spend`, `names_check`, `names_refresh`, `names_partner`: those of codes, rights, partners.
* `openFor_eq`, `openRefreshed_eq`: opening a session, cut at its refresh and after its token.
-/

namespace AccountAccess

variable {kind : CacheKey → Prop} {α β : Type}

/-! ## What a call and a procedure name -/

/-- All keys that a call names are of a kind. -/
def ServiceCall.Names (kind : CacheKey → Prop) (call : ServiceCall) : Prop :=
  ∀ key ∈ call.keys, ∃ named, kind named ∧ key = named.text

theorem ServiceCall.Names.notMem {call : ServiceCall} (h : call.Names kind) {key : CacheKey}
    (hkey : ¬kind key) : key.text ∉ call.keys := by
  intro hmem
  obtain ⟨named, hkind, htext⟩ := h key.text hmem
  exact hkey (CacheKey.text_injective htext ▸ hkind)

/-- The keys that sessions are made of. -/
def CacheKey.IsOfSession : CacheKey → Prop
  | token _ | slot .. => True
  | _ => False

namespace Procedure

/-- All keys that a procedure can come to name are of a kind. -/
structure Names (kind : CacheKey → Prop) (procedure : Procedure α) : Prop where
  every : procedure.Every (ServiceCall.Names kind) fun _ => True

theorem Names.done (a : α) : Names kind (.done a) := ⟨trivial⟩

theorem Names.abort : Names kind (.abort : Procedure α) := ⟨trivial⟩

theorem Names.bind {procedure : Procedure α} {next : α → Procedure β} (h : procedure.Names kind)
    (hnext : ∀ a, (next a).Names kind) : (procedure >>= next).Names kind :=
  ⟨h.every.bind fun a _ => (hnext a).every⟩

theorem Names.ite {c : Prop} [Decidable c] {first second : Procedure α}
    (hfirst : first.Names kind) (hsecond : second.Names kind) :
    Names kind (if c then first else second) := by
  by_cases hc : c
  · rwa [if_pos hc]
  · rwa [if_neg hc]

/-- **What is not named stands as it did.** -/
theorem Names.entry_run {procedure : Procedure α} (h : procedure.Names kind) {key : CacheKey}
    (hkey : ¬kind key) (world : World) :
    (world.run procedure).2.entry key.text = world.entry key.text := by
  refine h.every.keeps (fun after : World => after.entry key.text = world.entry key.text)
    (fun call between hnames hbefore => ?_) rfl
  exact (World.entry_answer between call (hnames.notMem hkey)).trans hbefore

/-! ## Single calls -/

theorem names_store (call : StoreCall) : (Procedure.store call).Names kind :=
  ⟨⟨fun _ hmem => absurd hmem List.not_mem_nil, fun _ => trivial⟩⟩

theorem names_now : Procedure.now.Names kind :=
  ⟨⟨fun _ hmem => absurd hmem List.not_mem_nil, fun _ => trivial⟩⟩

theorem names_random : Procedure.random.Names kind :=
  ⟨⟨fun _ hmem => absurd hmem List.not_mem_nil, fun _ => trivial⟩⟩

theorem names_retrieve (account : Int64) : (Procedure.retrieve account).Names kind :=
  ⟨⟨fun _ hmem => absurd hmem List.not_mem_nil, fun _ => trivial⟩⟩

theorem names_remember (account : Int64) (snapshot : Account) :
    (Procedure.remember account snapshot).Names kind :=
  ⟨⟨fun _ hmem => absurd hmem List.not_mem_nil, fun _ => trivial⟩⟩

theorem names_cache (key : CacheKey) {call : CacheCall} (hkeys : call.keys = [key.text])
    (hkey : kind key) : (Procedure.cache call).Names kind := by
  refine ⟨⟨fun named hmem => ⟨key, hkey, ?_⟩, fun _ => trivial⟩⟩
  rw [ServiceCall.keys, hkeys] at hmem
  exact List.mem_singleton.1 hmem

theorem names_remove (keys : List CacheKey) (hkeys : ∀ key ∈ keys, kind key) :
    (Procedure.cache (.remove (keys.map CacheKey.text))).Names kind := by
  refine ⟨⟨fun named hmem => ?_, fun _ => trivial⟩⟩
  obtain ⟨key, hkey, rfl⟩ := List.mem_map.1 hmem
  exact ⟨key, hkeys key hkey, rfl⟩

end Procedure

open Procedure (Names names_store names_now names_random names_cache names_remove)

/-! ## Sessions -/

namespace Session

theorem names_issue (hsession : ∀ key : CacheKey, key.IsOfSession → kind key)
    (owner : SessionOwner) (token : String) (ttl : UInt64) :
    (issue owner token ttl).Names kind := by
  refine (names_cache (.token token) rfl (hsession _ trivial)).bind fun written => ?_
  rcases written with e | _
  · exact .done _
  · refine (names_cache (.slot owner.account owner.scene) rfl (hsession _ trivial)).bind
      fun swapped => ?_
    rcases swapped with e | _ | previous
    · exact .done _
    · exact .done _
    · exact .ite (.done _) (names_cache (.token previous) rfl (hsession _ trivial))

theorem names_resolve (hsession : ∀ key : CacheKey, key.IsOfSession → kind key) (token : String) :
    (resolve token).Names kind := by
  refine (names_cache (.token token) rfl (hsession _ trivial)).bind fun found => ?_
  cases found with
  | _ => exact .done _

theorem names_revoke (hsession : ∀ key : CacheKey, key.IsOfSession → kind key)
    (owner : SessionOwner) (token : String) : (revoke owner token).Names kind := by
  refine (names_cache (.slot owner.account owner.scene) rfl (hsession _ trivial)).bind
    fun found => ?_
  rcases found with e | current
  · exact .done _
  · dsimp only
    by_cases hcurrent : current = some token
    · rw [if_pos hcurrent]
      refine names_remove [.token token, .slot owner.account owner.scene] ?_
      intro key hmem
      rcases List.mem_pair.1 hmem with rfl | rfl
      · exact hsession _ trivial
      · exact hsession _ trivial
    · rw [if_neg hcurrent]
      exact names_cache (.token token) rfl (hsession _ trivial)

theorem names_accountOf (text : String) : (accountOf text).Names kind := by
  unfold accountOf
  cases Identifier.read? text with
  | none => exact .done _
  | some identifier => exact names_store _

theorem names_findAccount (id : Int64) {fetch : Procedure (Except StoreError (Option Account))}
    (hfetch : fetch.Names kind) : (findAccount id fetch).Names kind := by
  refine (Procedure.names_retrieve id).bind fun young => ?_
  cases young with
  | some account => exact .done _
  | none =>
    refine hfetch.bind fun found => ?_
    rcases found with e | _ | account
    · exact .done _
    · exact .done _
    · exact (Procedure.names_remember id account).bind fun _ => .done _

theorem names_identify (hsession : ∀ key : CacheKey, key.IsOfSession → kind key)
    (headers : Http.Headers) : (identify headers).Names kind := by
  unfold identify
  cases bearerToken headers with
  | error refusal => exact .done _
  | ok token =>
    refine (names_resolve hsession token).bind fun found => ?_
    rcases found with e | _ | owner
    · exact .done _
    · exact .done _
    · refine .ite (.done _) ((names_findAccount _ (names_store _)).bind fun found => ?_)
      rcases found with e | _ | account
      · exact .done _
      · exact .done _
      · exact .ite (.done _) (.done _)

end Session

/-! ## Codes, rights, partners -/

theorem OneTimeCode.names_spend {purpose : CodePurpose} {recipient : String}
    (hcode : kind (.code purpose recipient)) (code : String) :
    (spend purpose recipient code).Names kind := by
  refine (names_cache (.code purpose recipient) rfl hcode).bind fun expected => ?_
  rcases expected with e | expected
  · exact .done _
  · refine .ite ?_ (.done _)
    refine (names_cache (.code purpose recipient) rfl hcode).bind fun removed => ?_
    cases removed with
    | _ => exact .done _

namespace Grant

theorem names_check {identity : Identity} (hgrants : kind (.grants identity.account.id))
    (service : String) (route : Route) : (check service identity route).Names kind := by
  refine .ite (.done _) ((names_cache (.grants identity.account.id) rfl hgrants).bind
    fun found => ?_)
  rcases found with e | _ | _
  · exact .done _
  · exact .done _
  · exact .done _

theorem names_derive (account : Account) : (derive account).Names kind := by
  refine .ite (.done _) ((names_store _).bind fun resources => ?_)
  rcases resources with e | _ | ⟨resource, rest⟩
  · exact .done _
  · exact .done _
  · refine (names_store _).bind fun codes => ?_
    cases codes with
    | _ => exact .done _

theorem names_refresh {account : Account} (hgrants : kind (.grants account.id)) :
    (refresh account).Names kind := by
  refine (names_derive account).bind fun derived => ?_
  rcases derived with e | codes
  · exact .done _
  · refine Names.bind ?_ fun written => ?_
    · refine ⟨⟨fun key hmem => ⟨.grants account.id, hgrants, ?_⟩, fun _ => trivial⟩⟩
      obtain ⟨write, hwrite, rfl⟩ := List.mem_map.1 hmem
      rcases List.mem_cons.1 hwrite with rfl | hadded
      · rfl
      · split at hadded
        · exact absurd hadded List.not_mem_nil
        · rw [List.mem_singleton.1 hadded]
          rfl
    · cases written with
      | _ => exact .done _

end Grant

theorem Partner.names_partner (hsecret : ∀ partner, kind (.partnerSecret partner))
    (hgrants : ∀ partner, kind (.partnerGrants partner)) (primitives : Primitives)
    (service : String) (window : Int64) (headers : Http.Headers) (route : Route) :
    (partner primitives service window headers route).Names kind := by
  refine names_now.bind fun now => ?_
  unfold partnerAt
  cases Credentials.ofHeaders? headers with
  | none => exact .done _
  | some credentials =>
    refine .ite (.done _) ((names_cache (.partnerSecret credentials.partner) rfl
      (hsecret _)).bind fun secret => ?_)
    rcases secret with e | _ | secret
    · exact .done _
    · exact .done _
    · dsimp only
      generalize hasSignature primitives.sign secret
        (payload credentials.partner credentials.timestamp) credentials.signature = signed
      refine .ite (.done _) ((names_cache (.partnerGrants credentials.partner) rfl
        (hgrants _)).bind fun found => ?_)
      rcases found with e | _ | _
      · exact .done _
      · exact .done _
      · exact .done _

/-! ## Signing in, signing out, passwords -/

namespace Session

/-- Opening a session after its account's codes were refreshed. -/
def openRefreshed (ttl : UInt64) (account : Account) (scene : Scene) :
    Except RefreshError (List String) → Procedure (Except LoginFailure Opened)
  | .error e => return .error (.refresh e)
  | .ok _ => do
    let token := freshToken (← Procedure.random)
    match ← issue ⟨account.id, scene⟩ token ttl with
    | .error e => return .error (.cache e)
    | .ok () =>
      let now ← Procedure.now
      let noted ← Procedure.store (.setLastLogin account.id now)
      let account := match noted with
        | .ok () => { account with lastLoginAt := some now }
        | .error _ => account
      match expiryOf now ttl with
      | some expiresAt => return .ok ⟨account, token, expiresAt⟩
      | none => Dialogue.abort

/-- **Opening a session is a refresh and the rest.** -/
theorem openFor_eq (ttl : UInt64) (account : Account) (scene : Scene) :
    openFor ttl account scene = Grant.refresh account >>= openRefreshed ttl account scene := by
  refine congrArg (Grant.refresh account >>= ·) (funext fun refreshed => ?_)
  cases refreshed with
  | _ => rfl

/-- The first part of it: a session is opened in the cache. -/
def enterRefreshed (ttl : UInt64) (account : Account) (scene : Scene) :
    Except RefreshError (List String) → Procedure (Except LoginFailure (Account × String))
  | .error e => return .error (.refresh e)
  | .ok _ => do
    let token := freshToken (← Procedure.random)
    match ← issue ⟨account.id, scene⟩ token ttl with
    | .error e => return .error (.cache e)
    | .ok () => return .ok (account, token)

/-- The last part of signing in: the time is noted, and it is told when the session expires. -/
def conclude (ttl : UInt64) :
    Except LoginFailure (Account × String) → Procedure (Except LoginFailure Opened)
  | .error failure => return .error failure
  | .ok (account, token) => do
    let now ← Procedure.now
    let noted ← Procedure.store (.setLastLogin account.id now)
    let account := match noted with
      | .ok () => { account with lastLoginAt := some now }
      | .error _ => account
    match expiryOf now ttl with
    | some expiresAt => return .ok ⟨account, token, expiresAt⟩
    | none => Dialogue.abort

theorem openRefreshed_eq (ttl : UInt64) (account : Account) (scene : Scene)
    (refreshed : Except RefreshError (List String)) :
    openRefreshed ttl account scene refreshed =
      enterRefreshed ttl account scene refreshed >>= conclude ttl := by
  rcases refreshed with e | codes
  · rfl
  · rw [openRefreshed, enterRefreshed, Dialogue.bind_assoc]
    refine congrArg (Procedure.random >>= ·) (funext fun bytes => ?_)
    dsimp only
    rw [Dialogue.bind_assoc]
    refine congrArg (issue _ _ _ >>= ·) (funext fun issued => ?_)
    cases issued with
    | _ => rfl

theorem names_enterRefreshed (hsession : ∀ key : CacheKey, key.IsOfSession → kind key)
    (ttl : UInt64) (account : Account) (scene : Scene)
    (refreshed : Except RefreshError (List String)) :
    (enterRefreshed ttl account scene refreshed).Names kind := by
  rcases refreshed with e | codes
  · exact .done _
  · refine names_random.bind fun bytes => (names_issue hsession _ _ _).bind fun issued => ?_
    cases issued with
    | _ => exact .done _

theorem names_conclude (kind : CacheKey → Prop) (ttl : UInt64)
    (entered : Except LoginFailure (Account × String)) : (conclude ttl entered).Names kind := by
  rcases entered with failure | ⟨account, token⟩
  · exact .done _
  · refine names_now.bind fun now => (names_store _).bind fun noted => ?_
    dsimp only
    cases expiryOf now ttl with
    | none => exact .abort
    | some expiresAt => exact .done _

theorem names_openRefreshed (hsession : ∀ key : CacheKey, key.IsOfSession → kind key)
    (ttl : UInt64) (account : Account) (scene : Scene)
    (refreshed : Except RefreshError (List String)) :
    (openRefreshed ttl account scene refreshed).Names kind := by
  rw [openRefreshed_eq]
  exact (names_enterRefreshed hsession ttl account scene refreshed).bind (names_conclude kind ttl)

end Session
end AccountAccess
