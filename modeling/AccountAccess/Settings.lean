import AccountAccess.Text.Blank
import AccountAccess.Text.Bytes
import AccountAccess.Text.Integer

/-!
# Settings

The settings come from named variables.  The two addresses must be given.  A
numeric variable that is missing or is not a number of its range keeps its
default; blanks around the number do not count.  A text variable is taken as it
is.
-/

namespace AccountAccess

/-- The settings of the service. -/
structure Settings where
  databaseUrl : String := ""
  redisUrl : String := ""
  serverHost : String := "0.0.0.0"
  serverPort : UInt16 := 3000
  /-- Where the interfaces are mounted; permission codes show it too. -/
  baseUri : String := "/user"
  /-- The name of this service in permission codes. -/
  serviceCode : String := "UserCenter"
  /-- How long a session lives, in seconds. -/
  tokenTtl : UInt64 := 604800
  /-- How long an account snapshot is used, in seconds. -/
  snapshotTtl : UInt64 := 60
  /-- How many account snapshots are kept. -/
  snapshotCapacity : UInt64 := 256
  /-- How far a partner's clock may be off, in seconds. -/
  partnerWindow : Int64 := 30
  /-- The time limit of a cache call, in milliseconds. -/
  cacheTimeout : UInt64 := 500
  /-- The time limit of a store call, in milliseconds. -/
  storeTimeout : UInt64 := 3000
  /-- The window of the request limit, in seconds. -/
  rateWindow : UInt64 := 60
  /-- The most requests of a client in a window. -/
  rateLimit : UInt32 := 100
  deriving DecidableEq, Repr

namespace Settings

/-- Why there are no settings: an address is missing, or is not text. -/
inductive Fault where
  | missing
  | notText
  deriving DecidableEq, Repr

/-- Named variables: the bytes of each one that is set. -/
abbrev Environment := String → Option (List UInt8)

/-- A variable that must be given. -/
def required (environment : Environment) (name : String) : Except Fault String :=
  match environment name with
  | none => .error .missing
  | some bytes =>
    match Text.ofBytes? bytes with
    | none => .error .notText
    | some s => .ok s

/-- A text variable. -/
def text (environment : Environment) (name fallback : String) : String :=
  ((environment name).bind Text.ofBytes?).getD fallback

/-- A numeric variable. -/
def numeric (environment : Environment) (name : String) (read : String → Option α) (fallback : α) :
    α :=
  (((environment name).bind Text.ofBytes?).bind fun s => read (Text.trim s)).getD fallback

/-- A number of 64 bits. -/
def readUInt64? (s : String) : Option UInt64 :=
  (Text.readBelow? (Nat.pow 2 64) s).map UInt64.ofNat

/-- The settings that an environment gives. -/
def ofEnvironment (environment : Environment) : Except Fault Settings := do
  let defaults : Settings := {}
  let databaseUrl ← required environment "DATABASE_URL"
  let redisUrl ← required environment "REDIS_URL"
  let uint64 (name : String) (fallback : UInt64) := numeric environment name readUInt64? fallback
  return {
    databaseUrl, redisUrl
    serverHost := text environment "SERVER_HOST" defaults.serverHost
    serverPort := numeric environment "SERVER_PORT"
      (fun s => (Text.readBelow? (Nat.pow 2 16) s).map UInt16.ofNat) defaults.serverPort
    baseUri := text environment "API_BASE_URI" defaults.baseUri
    serviceCode := text environment "SERVICE_CODE" defaults.serviceCode
    tokenTtl := uint64 "TOKEN_EXPIRE_SECONDS" defaults.tokenTtl
    snapshotTtl := uint64 "ACCOUNT_CACHE_TTL_SECS" defaults.snapshotTtl
    snapshotCapacity := uint64 "ACCOUNT_CACHE_CAPACITY" defaults.snapshotCapacity
    partnerWindow :=
      numeric environment "API_KEY_WINDOW_SECS" Text.readInt64? defaults.partnerWindow
    cacheTimeout := uint64 "CACHE_TIMEOUT_MS" defaults.cacheTimeout
    storeTimeout := uint64 "STORE_TIMEOUT_MS" defaults.storeTimeout
    rateWindow := uint64 "RATE_LIMIT_WINDOW" defaults.rateWindow
    rateLimit := numeric environment "RATE_LIMIT_REQUESTS"
      (fun s => (Text.readBelow? (Nat.pow 2 32) s).map UInt32.ofNat) defaults.rateLimit }

end Settings
end AccountAccess
