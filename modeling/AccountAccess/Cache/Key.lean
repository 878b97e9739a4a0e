import AccountAccess.Labelled
import AccountAccess.Text.Integer

/-!
# What is kept in the cache, and under which keys

The cache is shared by several families of entries, and the family is written
into the key.  Other programs read the same entries, so the texts are fixed.
-/

namespace AccountAccess

/-- A family of cache entries with its arguments. -/
inductive CacheKey where
  /-- The session that a token stands for. -/
  | token (token : String)
  /-- The permission codes of an account. -/
  | grants (account : Int64)
  /-- The current token of an account in a scene. -/
  | slot (account : Int64) (scene : Scene)
  /-- A one-time code. -/
  | code (purpose : CodePurpose) (recipient : String)
  /-- The signing secret of a partner. -/
  | partnerSecret (partner : String)
  /-- The permission codes of a partner. -/
  | partnerGrants (partner : String)
  /-- The request counter of a client. -/
  | requests (client : String)
  deriving DecidableEq, Repr

namespace CacheKey

/-- The text of a key. -/
def text : CacheKey → String
  | token t => "UC:Token:" ++ t
  | grants account => "UC:Account:Apis:" ++ Text.decimal account
  | slot account scene => "UC:Account:" ++ Text.decimal account ++ ":" ++ Labelled.name scene
  | code purpose recipient => "UC:Code:" ++ Labelled.name purpose ++ ":" ++ recipient
  | partnerSecret partner => "ApiKey:SecretKey:" ++ partner
  | partnerGrants partner => "ApiKey:Apis:" ++ partner
  | requests client => "rate_limit:" ++ client

end CacheKey
end AccountAccess
