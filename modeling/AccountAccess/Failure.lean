import AccountAccess.Cache.Call
import AccountAccess.Store.Call

/-!
# Refusals and failures

A request is *refused* when its sender may not make it; a refusal says only what
the sender may know.  Signing in and changing passwords can also *fail*, for a
reason in the request or for an internal one; internal reasons never reach the
sender.
-/

namespace AccountAccess

/-- Why a request is refused. -/
inductive Refusal where
  | missingCredential
  | malformedCredential
  | unsupportedScheme
  | sessionInvalid
  | sceneMismatch
  | accountNotFound
  | forbidden
  | partnerInvalid
  | signatureMismatch
  | timestampExpired
  deriving DecidableEq, Repr

namespace Refusal

/-- All refusals. -/
def all : List Refusal :=
  [missingCredential, malformedCredential, unsupportedScheme, sessionInvalid, sceneMismatch,
   accountNotFound, forbidden, partnerInvalid, signatureMismatch, timestampExpired]

/-- A name for machines. -/
def kind : Refusal → String
  | missingCredential => "missing_credential"
  | malformedCredential => "malformed_credential"
  | unsupportedScheme => "unsupported_scheme"
  | sessionInvalid => "session_expired_or_invalid"
  | sceneMismatch => "scene_mismatch"
  | accountNotFound => "account_not_found"
  | forbidden => "forbidden"
  | partnerInvalid => "api_key_invalid"
  | signatureMismatch => "signature_mismatch"
  | timestampExpired => "timestamp_expired"

/-- The message for the sender.  The three refusals of a partner read alike, so
that a guess does not show how far it came. -/
def message : Refusal → String
  | missingCredential => "未携带授权头部信息"
  | malformedCredential => "授权头部信息无效"
  | unsupportedScheme => "授权头部信息类型错误"
  | sessionInvalid => "登录失效或已在其他地方登录"
  | sceneMismatch => "token异常使用"
  | accountNotFound => "无效的账户"
  | forbidden => "禁止访问"
  | partnerInvalid | signatureMismatch | timestampExpired => "无效的ApiKey"

/-- The code in the body of the answer. -/
def code : Refusal → Int32
  | missingCredential => 40101
  | malformedCredential => 40102
  | unsupportedScheme => 40103
  | sessionInvalid => 40104
  | sceneMismatch => 40105
  | accountNotFound => 40106
  | partnerInvalid | signatureMismatch | timestampExpired => 40110
  | forbidden => 40300

/-- The status of the answer. -/
def status : Refusal → Nat
  | forbidden => 403
  | _ => 401

end Refusal

/-- Why permission codes could not be derived or written. -/
inductive RefreshError where
  | store (error : StoreError)
  | cache (error : CacheError)
  deriving DecidableEq, Repr

/-- The message of the error inside. -/
def RefreshError.message : RefreshError → String
  | store error => error.message
  | cache error => error.message

/-- Why signing in or changing a password failed. -/
inductive LoginFailure where
  | invalidCredentials
  | invalidCode
  | disabled
  | notRegistered
  | wrongOldPassword
  | weakPassword
  | store (error : StoreError)
  | cache (error : CacheError)
  | refresh (error : RefreshError)
  | hash (message : String)
  deriving DecidableEq, Repr

namespace LoginFailure

/-- What is said of the failure. -/
def message : LoginFailure → String
  | invalidCredentials => "账号或密码错误"
  | invalidCode => "验证码错误"
  | disabled => "账号已被禁用"
  | notRegistered => "账号未注册"
  | wrongOldPassword => "旧密码错误"
  | weakPassword => "密码需为8-20位，且至少包含大写字母、小写字母、数字、符号中的三种"
  | store error => error.message
  | cache error => error.message
  | refresh error => error.message
  | hash message => "password hashing failed: " ++ message

/-- Whether the reason is internal. -/
def isInternal : LoginFailure → Bool
  | store _ | cache _ | refresh _ | hash _ => true
  | _ => false

end LoginFailure
end AccountAccess
