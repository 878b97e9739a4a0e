/-!
# Calls of the cache

The cache maps keys to texts, sets of texts and counters.  A call is answered
with a value or with an error; an error says nothing about whether the call took
effect.  Times to live are whole seconds.
-/

namespace AccountAccess

/-- Why a cache call has no answer. -/
inductive CacheError where
  | timedOut
  | unavailable
  /-- The server, or the way to it, reported a fault. -/
  | server
  deriving DecidableEq, Repr

namespace CacheError

/-- The message for an error.  A server's own words are not repeated. -/
def message : CacheError → String
  | timedOut => "cache call timed out"
  | unavailable => "cache unavailable"
  | server => "cache server error"

end CacheError

/-- A write; several of them can be carried out as one call. -/
inductive CacheWrite where
  /-- Sets a text that expires. -/
  | setText (key value : String) (ttl : UInt64)
  /-- Removes a key. -/
  | remove (key : String)
  /-- Adds members to a set; with no members nothing happens. -/
  | addMembers (key : String) (members : List String)
  deriving DecidableEq, Repr

/-- A call of the cache. -/
inductive CacheCall where
  /-- Reads a text. -/
  | get (key : String)
  /-- Sets a text that expires. -/
  | set (key value : String) (ttl : UInt64)
  /-- Removes keys. -/
  | remove (keys : List String)
  /-- Sets a text that expires and reads the text it replaces, in one step. -/
  | swap (key value : String) (ttl : UInt64)
  /-- Asks whether any of some texts is a member of a set. -/
  | anyMember (key : String) (members : List String)
  /-- Carries out writes in order, in one step. -/
  | write (writes : List CacheWrite)
  /-- Adds one to a counter, which expires a window after its first increment. -/
  | count (key : String) (window : UInt64)
  deriving DecidableEq, Repr

/-- What a call is answered with when it succeeds. -/
abbrev CacheCall.Result : CacheCall → Type
  | get _ => Option String
  | set .. => Unit
  | remove _ => Unit
  | swap .. => Option String
  | anyMember .. => Bool
  | write _ => Unit
  | count .. => Int64

end AccountAccess
