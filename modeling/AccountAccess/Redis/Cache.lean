import AccountAccess.Redis.Protocol

/-!
# The cache on a Redis server

Each call of the cache is carried out with one command, with a transaction for a
list of writes, and with two commands for a counter: the second one sets the
window when the counter was new.  Calls that ask for nothing send nothing.
-/

namespace AccountAccess
namespace Redis

/-- Asks the server; a fault is an answer like any other. -/
def ask (request : Request) : Exchange request.Answer :=
  Dialogue.call (I := interface) request

/-- Reads a reply as a type. -/
def read (decode : Reply → Option α) : Except CacheError Reply → Except CacheError α
  | .error e => .error e
  | .ok reply =>
    if reply.hasError ∨ Reply.heightLimit < reply.height then .error .server
    else
      match decode reply with
      | some value => .ok value
      | none => .error .server

/-- Any reply that is not an error. -/
def acknowledged : Except CacheError Reply → Except CacheError Unit :=
  read fun _ => some ()

/-- The outcome of a transaction of a number of commands: a list with a reply to
each.  Nothing counts as done, too; with fewer replies the exchange cannot go on. -/
def committed (commands : Nat) (reply : Except CacheError Reply) :
    Exchange (Except CacheError Unit) :=
  match read some reply with
  | .error e => return .error e
  | .ok .nil => return .ok ()
  | .ok (.array items) => if items.length < commands then Dialogue.abort else return .ok ()
  | .ok _ => return .error .server

/-- Connects, then goes on; without a connection there is only the fault. -/
def connected (next : Exchange (Except CacheError α)) : Exchange (Except CacheError α) := do
  match ← ask .connect with
  | .error e => return .error e
  | .ok () => next

/-- A number as a word. -/
def number (n : UInt64) : String :=
  Text.decimalNat n.toNat

/-- The command for a write; adding no members needs none. -/
def writeCommand? : CacheWrite → Option Command
  | .setText key value ttl => some ["SETEX", key, number ttl, value]
  | .remove key => some ["DEL", key]
  | .addMembers _ [] => none
  | .addMembers key members => some ("SADD" :: key :: members)

/-- The exchange for a call of the cache. -/
def carry : (call : CacheCall) → Exchange (Except CacheError call.Result)
  | .get key => connected do
    return read Reply.optionalText? (← ask (.command ["GET", key]))
  | .set key value ttl => connected do
    return acknowledged (← ask (.command ["SETEX", key, number ttl, value]))
  | .remove keys =>
    if keys = [] then return .ok ()
    else connected do return acknowledged (← ask (.command ("DEL" :: keys)))
  | .swap key value ttl => connected do
    return read Reply.optionalText?
      (← ask (.command ["SET", key, value, "EX", number ttl, "GET"]))
  | .anyMember key members =>
    if members = [] then return .ok false
    else connected do
      let flags ← ask (.command ("SMISMEMBER" :: key :: members))
      return (read Reply.flags? flags).map fun flags => flags.any id
  | .write writes =>
    if writes = [] then return .ok ()
    else connected do
      match writes.filterMap writeCommand? with
      | [] => return .ok ()
      | commands => committed commands.length (← ask (.transaction commands))
  | .count key window => connected do
    match read Reply.integer? (← ask (.command ["INCRBY", key, "1"])) with
    | .error e => return .error e
    | .ok count =>
      if count = 1 then
        let seconds := Text.decimal window.toInt64
        match acknowledged (← ask (.command ["EXPIRE", key, seconds])) with
        | .error e => return .error e
        | .ok () => return .ok count
      else return .ok count

end Redis
end AccountAccess
