import AccountAccess.Proofs.Cache.Live
import AccountAccess.Proofs.Text.Decimal
import AccountAccess.Redis.Protocol
import Mathlib.Tactic.SplitIfs

/-!
# Servers whose commands have their documented meaning

What the cache relies on is written down as laws of a server that is otherwise unknown.  A server
has a state, executes one command at a time, and at each time some keys have entries; each law
says what a command is answered with and which entries there are afterwards.  A law is about the
cases in which the command succeeds, and about the one refusal that a user of counters can run
into: a counter stops at the greatest integer of 64 bits.

Entries go with time and not with commands.  An entry with an expiry time counts until that time
and from then on is absent, whether the server removes it then or later.

A table of entries is such a server, so the laws can be fulfilled.

## Main definitions and results

* `Value`, `Entry`, `Keyspace`: what stands at a key, and the entries that count.
* `Server`, `Does`: a server, and that a command is answered with a reply and leaves some entries.
* `Documented`: the laws, one for each case of a command that the cache relies on.
* `Server.ofTable`, `Server.documented_ofTable`: a table of entries fulfils them.
-/

namespace AccountAccess
namespace Redis

/-! ## Entries -/

/-- What stands at a key.  A counter is a text, the canonical form of its number. -/
inductive Value where
  | text (value : String)
  | members (set : Std.ExtTreeSet String)

/-- A value with the time, in milliseconds, from which it counts as absent. -/
structure Entry where
  value : Value
  expiresAt : Option Nat

/-- Whether an entry counts at a time. -/
def Entry.isLive (now : Nat) (entry : Entry) : Bool :=
  entry.expiresAt.all (now < ·)

/-- The entries that count, by their keys. -/
abbrev Keyspace := String → Option Entry

/-! ## Servers -/

/-- A server: it executes a command at a time, and at each time some keys have entries. -/
structure Server where
  State : Type
  execute : Nat → Command → State → Reply × State
  keyspace : Nat → State → Keyspace

namespace Server

/-- Commands in order, with nothing in between, and the replies to them. -/
def executeAll (server : Server) (now : Nat) :
    List Command → server.State → List Reply × server.State
  | [], s => ([], s)
  | command :: commands, s =>
    let (reply, s) := server.execute now command s
    let (replies, s) := server.executeAll now commands s
    (reply :: replies, s)

/-- Answers a request without a failure on the way. -/
def answer (server : Server) (now : Nat) : Handler interface server.State
  | .connect, s => (.finished (.ok ()), s)
  | .command command, s =>
    let (reply, s) := server.execute now command s
    (.finished (.ok reply), s)
  | .transaction commands, s =>
    let (replies, s) := server.executeAll now commands s
    (.finished (.ok (.array replies)), s)

/-- A command is answered with a reply, and these entries count afterwards. -/
def Does (server : Server) (now : Nat) (s : server.State) (command : Command) (reply : Reply)
    (entries : Keyspace) : Prop :=
  ∃ after, server.execute now command s = (reply, after) ∧ server.keyspace now after = entries

/-- The milliseconds that the clock of a server can show. -/
def clockEnd : Nat := 2 ^ 63

/-! ## The laws -/

/-- **The documented meaning of the commands.** -/
structure Documented (server : Server) : Prop where
  /-- An entry goes when its time has come. -/
  later {now later : Nat} (s : server.State) (key : String) (h : now ≤ later) :
    server.keyspace later s key = (server.keyspace now s key).filter (·.isLive later)
  get_none {now : Nat} {s : server.State} {key : String}
    (hkey : server.keyspace now s key = none) :
    server.Does now s ["GET", key] .nil (server.keyspace now s)
  get_text {now : Nat} {s : server.State} {key value : String} {expiresAt : Option Nat}
    (hkey : server.keyspace now s key = some ⟨.text value, expiresAt⟩) :
    server.Does now s ["GET", key] (.bulk (Text.toBytes value)) (server.keyspace now s)
  setex {now seconds : Nat} {s : server.State} (key value : String) (hpos : 0 < seconds)
    (hend : now + 1000 * seconds < clockEnd) :
    server.Does now s ["SETEX", key, Text.decimalNat seconds, value] (.status "OK")
      (Function.update (server.keyspace now s) key
        (some ⟨.text value, some (now + 1000 * seconds)⟩))
  set_none {now seconds : Nat} {s : server.State} {key : String} (value : String)
    (hkey : server.keyspace now s key = none) (hpos : 0 < seconds)
    (hend : now + 1000 * seconds < clockEnd) :
    server.Does now s ["SET", key, value, "EX", Text.decimalNat seconds, "GET"] .nil
      (Function.update (server.keyspace now s) key
        (some ⟨.text value, some (now + 1000 * seconds)⟩))
  set_text {now seconds : Nat} {s : server.State} {key previous : String} {expiresAt : Option Nat}
    (value : String) (hkey : server.keyspace now s key = some ⟨.text previous, expiresAt⟩)
    (hpos : 0 < seconds) (hend : now + 1000 * seconds < clockEnd) :
    server.Does now s ["SET", key, value, "EX", Text.decimalNat seconds, "GET"]
      (.bulk (Text.toBytes previous))
      (Function.update (server.keyspace now s) key
        (some ⟨.text value, some (now + 1000 * seconds)⟩))
  /-- The number of removed keys is said. -/
  del {now : Nat} {s : server.State} {keys : List String} (hkeys : keys ≠ []) :
    ∃ removed, server.Does now s ("DEL" :: keys) (.integer removed)
      fun key => if key ∈ keys then none else server.keyspace now s key
  smismember_none {now : Nat} {s : server.State} {key : String} {members : List String}
    (hkey : server.keyspace now s key = none) (hmembers : members ≠ []) :
    server.Does now s ("SMISMEMBER" :: key :: members) (.array (members.map fun _ => .integer 0))
      (server.keyspace now s)
  smismember_members {now : Nat} {s : server.State} {key : String} {members : List String}
    {set : Std.ExtTreeSet String} {expiresAt : Option Nat}
    (hkey : server.keyspace now s key = some ⟨.members set, expiresAt⟩) (hmembers : members ≠ []) :
    server.Does now s ("SMISMEMBER" :: key :: members)
      (.array (members.map fun member => .integer (if set.contains member then 1 else 0)))
      (server.keyspace now s)
  /-- The number of added members is said. -/
  sadd_none {now : Nat} {s : server.State} {key : String} {members : List String}
    (hkey : server.keyspace now s key = none) (hmembers : members ≠ []) :
    ∃ added, server.Does now s ("SADD" :: key :: members) (.integer added)
      (Function.update (server.keyspace now s) key
        (some ⟨.members ((∅ : Std.ExtTreeSet String).insertMany members), none⟩))
  /-- A set keeps its expiry time. -/
  sadd_members {now : Nat} {s : server.State} {key : String} {members : List String}
    {set : Std.ExtTreeSet String} {expiresAt : Option Nat}
    (hkey : server.keyspace now s key = some ⟨.members set, expiresAt⟩) (hmembers : members ≠ []) :
    ∃ added, server.Does now s ("SADD" :: key :: members) (.integer added)
      (Function.update (server.keyspace now s) key
        (some ⟨.members (set.insertMany members), expiresAt⟩))
  incrby_none {now : Nat} {s : server.State} {key : String}
    (hkey : server.keyspace now s key = none) :
    server.Does now s ["INCRBY", key, "1"] (.integer 1)
      (Function.update (server.keyspace now s) key (some ⟨.text (Text.decimal 1), none⟩))
  /-- A counter keeps its expiry time. -/
  incrby_counter {now : Nat} {s : server.State} {key : String} {n : Int64} {expiresAt : Option Nat}
    (hkey : server.keyspace now s key = some ⟨.text (Text.decimal n), expiresAt⟩)
    (hn : n ≠ Int64.maxValue) :
    server.Does now s ["INCRBY", key, "1"] (.integer (n + 1))
      (Function.update (server.keyspace now s) key
        (some ⟨.text (Text.decimal (n + 1)), expiresAt⟩))
  /-- A counter stops at the greatest integer. -/
  incrby_greatest {now : Nat} {s : server.State} {key : String} {expiresAt : Option Nat}
    (hkey : server.keyspace now s key = some ⟨.text (Text.decimal Int64.maxValue), expiresAt⟩) :
    ∃ text, server.Does now s ["INCRBY", key, "1"] (.error text) (server.keyspace now s)
  expire {now seconds : Nat} {s : server.State} {key : String} {value : Value}
    {expiresAt : Option Nat} (hkey : server.keyspace now s key = some ⟨value, expiresAt⟩)
    (hpos : 0 < seconds) (hend : now + 1000 * seconds < clockEnd) :
    server.Does now s ["EXPIRE", key, Text.decimalNat seconds] (.integer 1)
      (Function.update (server.keyspace now s) key (some ⟨value, some (now + 1000 * seconds)⟩))
  /-- A time that the clock cannot show is refused. -/
  expire_beyond {now seconds : Nat} {s : server.State} {key : String} {entry : Entry}
    (hkey : server.keyspace now s key = some entry) (hpos : 0 < seconds)
    (hsmall : seconds < clockEnd) (hend : clockEnd ≤ now + 1000 * seconds) :
    ∃ text, server.Does now s ["EXPIRE", key, Text.decimalNat seconds] (.error text)
      (server.keyspace now s)

end Server

/-! ## A table of entries -/

/-- A table of entries, expired ones included. -/
abbrev Table := Std.ExtTreeMap String Entry

/-- The integer of which a word is the canonical form. -/
def canonical? (word : String) : Option Int64 :=
  (Text.readInt64? word).filter (Text.decimal · == word)

/-- The time a number of seconds after `now`; the number is positive and the clock can show the
time. -/
def deadline? (now : Nat) (seconds : String) : Option Nat :=
  (canonical? seconds).bind fun n =>
    if 0 < n.toInt ∧ now + 1000 * n.toInt.toNat < Server.clockEnd then
      some (now + 1000 * n.toInt.toNat)
    else none

namespace Table

/-- The entry of a key, unless it has expired. -/
def live? (table : Table) (now : Nat) (key : String) : Option Entry :=
  table[key]?.filter (·.isLive now)

/-- The reply to a command that is not for the kind of value that stands at the key. -/
def wrongType : Reply :=
  .error "WRONGTYPE Operation against a key holding the wrong kind of value"

/-- The reply to an expiry time that cannot be set. -/
def invalidExpiry : Reply :=
  .error "ERR invalid expire time"

/-- The reply to a word that should be an integer. -/
def notAnInteger : Reply :=
  .error "ERR value is not an integer or out of range"

/-- Reads a text. -/
def get (table : Table) (now : Nat) (key : String) : Reply × Table :=
  match table.live? now key with
  | none => (.nil, table)
  | some ⟨.text value, _⟩ => (.bulk (Text.toBytes value), table)
  | some _ => (wrongType, table)

/-- Sets a text that expires. -/
def put (table : Table) (now : Nat) (key value seconds : String) (reply : Reply) :
    Reply × Table :=
  match deadline? now seconds with
  | some at_ => (reply, table.insert key ⟨.text value, some at_⟩)
  | none => (invalidExpiry, table)

/-- Sets a text that expires and replies with the one before. -/
def swap (table : Table) (now : Nat) (key value seconds : String) : Reply × Table :=
  match table.live? now key with
  | none => table.put now key value seconds .nil
  | some ⟨.text previous, _⟩ => table.put now key value seconds (.bulk (Text.toBytes previous))
  | some _ => (wrongType, table)

/-- The table without some keys. -/
def eraseMany (table : Table) (keys : List String) : Table :=
  keys.foldl (fun table key => table.erase key) table

/-- Removes keys and replies with how many there were. -/
def remove (table : Table) (now : Nat) (keys : List String) : Reply × Table :=
  let removed := keys.eraseDups.countP fun key => (table.live? now key).isSome
  (.integer (Int64.ofNat removed), table.eraseMany keys)

/-- Asks which of some texts are members of a set. -/
def areMembers (table : Table) (now : Nat) (key : String) (members : List String) :
    Reply × Table :=
  match table.live? now key with
  | none => (.array (members.map fun _ => .integer 0), table)
  | some ⟨.members set, _⟩ =>
    (.array (members.map fun member => .integer (if set.contains member then 1 else 0)), table)
  | some _ => (wrongType, table)

/-- The table with more members in a set, and how many are new. -/
def extend (table : Table) (key : String) (set : Std.ExtTreeSet String) (members : List String)
    (expiresAt : Option Nat) : Reply × Table :=
  let all := set.insertMany members
  (.integer (Int64.ofNat (all.size - set.size)), table.insert key ⟨.members all, expiresAt⟩)

/-- Adds members to a set. -/
def add (table : Table) (now : Nat) (key : String) (members : List String) : Reply × Table :=
  match table.live? now key with
  | none => table.extend key ∅ members none
  | some ⟨.members set, expiresAt⟩ => table.extend key set members expiresAt
  | some _ => (wrongType, table)

/-- The table with a number raised. -/
def raise (table : Table) (key : String) (n amount : Int64) (expiresAt : Option Nat) :
    Reply × Table :=
  if Int64.minValue.toInt ≤ n.toInt + amount.toInt ∧
      n.toInt + amount.toInt ≤ Int64.maxValue.toInt then
    (.integer (n + amount), table.insert key ⟨.text (Text.decimal (n + amount)), expiresAt⟩)
  else (.error "ERR increment or decrement would overflow", table)

/-- Adds to the number at a key; a key without an entry counts from zero. -/
def increment (table : Table) (now : Nat) (key amount : String) : Reply × Table :=
  match canonical? amount with
  | none => (notAnInteger, table)
  | some amount =>
    match table.live? now key with
    | none => table.raise key 0 amount none
    | some ⟨.text value, expiresAt⟩ =>
      match canonical? value with
      | some n => table.raise key n amount expiresAt
      | none => (notAnInteger, table)
    | some _ => (wrongType, table)

/-- Sets when an entry expires; one that should have expired already is removed. -/
def expire (table : Table) (now : Nat) (key seconds : String) : Reply × Table :=
  match canonical? seconds with
  | none => (notAnInteger, table)
  | some n =>
    match table.live? now key with
    | none => (.integer 0, table)
    | some entry =>
      if n.toInt ≤ 0 then (.integer 1, table.erase key)
      else
        match deadline? now seconds with
        | some at_ => (.integer 1, table.insert key ⟨entry.value, some at_⟩)
        | none => (invalidExpiry, table)

/-- Executes a command. -/
def execute (now : Nat) : Command → Table → Reply × Table
  | ["GET", key], table => table.get now key
  | ["SETEX", key, seconds, value], table => table.put now key value seconds (.status "OK")
  | ["SET", key, value, "EX", seconds, "GET"], table => table.swap now key value seconds
  | "DEL" :: key :: keys, table => table.remove now (key :: keys)
  | "SMISMEMBER" :: key :: member :: members, table =>
    table.areMembers now key (member :: members)
  | "SADD" :: key :: member :: members, table => table.add now key (member :: members)
  | ["INCRBY", key, amount], table => table.increment now key amount
  | ["EXPIRE", key, seconds], table => table.expire now key seconds
  | _, table => (.error "ERR unknown command", table)

end Table

/-- The server that keeps a table. -/
abbrev Server.ofTable : Server where
  State := Table
  execute := Table.execute
  keyspace now table := table.live? now

namespace Table

variable {table : Table} {now : Nat} {key : String} {entry : Entry}

theorem live?_later {later : Nat} (h : now ≤ later) :
    table.live? later key = (table.live? now key).filter (·.isLive later) := by
  rw [live?, live?, Option.filter_filter]
  congr 1
  funext entry
  cases hlater : entry.isLive later with
  | false => rw [Bool.and_false]
  | true => rw [Entry.isLive, all_lt_of_le h hlater, Bool.and_true]

theorem live?_insert (hentry : entry.isLive now = true) :
    (fun other => live? (table.insert key entry) now other) =
      Function.update (fun other => table.live? now other) key (some entry) :=
  filter_getElem?_insert hentry

theorem live?_eraseMany (keys : List String) :
    (fun other => live? (table.eraseMany keys) now other) =
      fun other => if other ∈ keys then none else table.live? now other := by
  induction keys generalizing table with
  | nil => rfl
  | cons key keys ih =>
    have herase : (fun other => live? (table.erase key) now other) =
        Function.update (fun other => table.live? now other) key none := filter_getElem?_erase
    funext other
    rw [show live? (table.eraseMany (key :: keys)) now other =
      live? (eraseMany (table.erase key) keys) now other from rfl, congrFun ih other,
      congrFun herase other, Function.update_apply]
    simp only [List.mem_cons]
    split_ifs <;> simp_all

end Table

@[simp] theorem canonical?_decimal (n : Int64) : canonical? (Text.decimal n) = some n := by
  simp [canonical?]

theorem canonical?_one : canonical? "1" = some 1 :=
  canonical?_decimal 1

theorem canonical?_decimalNat {seconds : Nat} (h : seconds < Server.clockEnd) :
    canonical? (Text.decimalNat seconds) = some (Int64.ofNat seconds) ∧
      (Int64.ofNat seconds).toInt = seconds := by
  have hvalue : (Int64.ofNat seconds).toInt = seconds := Int64.toInt_ofNat_of_lt h
  exact ⟨by rw [← Text.decimal_eq_decimalNat hvalue, canonical?_decimal], hvalue⟩

theorem deadline?_decimalNat {now seconds : Nat} (hpos : 0 < seconds)
    (hsmall : seconds < Server.clockEnd) :
    deadline? now (Text.decimalNat seconds) =
      if now + 1000 * seconds < Server.clockEnd then some (now + 1000 * seconds) else none := by
  obtain ⟨hcanonical, hvalue⟩ := canonical?_decimalNat hsmall
  rw [deadline?, hcanonical, Option.bind_some, hvalue, Int.toNat_natCast]
  congr 1
  rw [eq_iff_iff, and_iff_right (by omega)]

namespace Table

variable {value : Value} {expiresAt : Option Nat} {seconds : Nat}

theorem isLive_deadline (now : Nat) (value : Value) (hpos : 0 < seconds) :
    Entry.isLive now ⟨value, some (now + 1000 * seconds)⟩ = true := by
  rw [Entry.isLive, Option.all_some, decide_eq_true_eq]
  omega

theorem does_put (table : Table) (key text : String) (reply : Reply) (hpos : 0 < seconds)
    (hend : now + 1000 * seconds < Server.clockEnd) :
    ∃ after, table.put now key text (Text.decimalNat seconds) reply = (reply, after) ∧
      (fun other => live? after now other) = Function.update (fun other => live? table now other)
        key (some ⟨.text text, some (now + 1000 * seconds)⟩) := by
  have hsmall : seconds < Server.clockEnd := by omega
  exact ⟨_, by rw [put, deadline?_decimalNat hpos hsmall, if_pos hend],
    live?_insert (isLive_deadline now _ hpos)⟩

theorem isLive_none (now : Nat) (other : Value) : Entry.isLive now ⟨other, none⟩ = true := rfl

theorem isLive_of_live? (h : live? table now key = some ⟨value, expiresAt⟩) (other : Value) :
    Entry.isLive now ⟨other, expiresAt⟩ = true :=
  (Option.filter_eq_some_iff.1 h).2

theorem does_extend (table : Table) (key : String) (set : Std.ExtTreeSet String)
    (members : List String) (hlive : ∀ other, Entry.isLive now ⟨other, expiresAt⟩ = true) :
    ∃ added after, table.extend key set members expiresAt = (.integer added, after) ∧
      (fun other => live? after now other) = Function.update (fun other => live? table now other)
        key (some ⟨.members (set.insertMany members), expiresAt⟩) :=
  ⟨_, _, rfl, live?_insert (hlive _)⟩

/-- A counter that is raised by one stands there as long as before. -/
theorem does_raise (table : Table) (key : String) {n : Int64} (hn : n ≠ Int64.maxValue)
    (hlive : ∀ other, Entry.isLive now ⟨other, expiresAt⟩ = true) :
    ∃ after, table.raise key n 1 expiresAt = (.integer (n + 1), after) ∧
      (fun other => live? after now other) = Function.update (fun other => live? table now other)
        key (some ⟨.text (Text.decimal (n + 1)), expiresAt⟩) := by
  have hone := Int64.toInt_one
  have hne : n.toInt ≠ Int64.maxValue.toInt := fun h => hn (Int64.toInt_inj.1 h)
  have hlow := n.minValue_le_toInt
  have hhigh := n.toInt_le
  refine ⟨_, ?_, live?_insert (hlive _)⟩
  rw [raise, if_pos]
  constructor
  · omega
  · omega

theorem raise_greatest (table : Table) (key : String) (expiresAt : Option Nat) :
    ∃ text, table.raise key Int64.maxValue 1 expiresAt = (.error text, table) := by
  have hone := Int64.toInt_one
  refine ⟨_, if_neg ?_⟩
  omega

end Table

/-- **A table of entries fulfils the laws.** -/
theorem Server.documented_ofTable : Server.ofTable.Documented where
  later table key h := Table.live?_later h
  get_none {now table key} hkey := by
    replace hkey : Table.live? table now key = none := hkey
    refine ⟨table, ?_, rfl⟩
    show Table.get table now key = (.nil, table)
    rw [Table.get, hkey]
  get_text {now table key value expiresAt} hkey := by
    replace hkey : Table.live? table now key = some ⟨.text value, expiresAt⟩ := hkey
    refine ⟨table, ?_, rfl⟩
    show Table.get table now key = (.bulk (Text.toBytes value), table)
    rw [Table.get, hkey]
  setex {now seconds table} key value hpos hend :=
    Table.does_put table key value (.status "OK") hpos hend
  set_none {now seconds table key} value hkey hpos hend := by
    replace hkey : Table.live? table now key = none := hkey
    obtain ⟨after, hput, hafter⟩ := Table.does_put table key value .nil hpos hend
    refine ⟨after, ?_, hafter⟩
    show Table.swap table now key value (Text.decimalNat seconds) = (.nil, after)
    rw [Table.swap, hkey, ← hput]
  set_text {now seconds table key previous expiresAt} value hkey hpos hend := by
    replace hkey : Table.live? table now key = some ⟨.text previous, expiresAt⟩ := hkey
    obtain ⟨after, hput, hafter⟩ :=
      Table.does_put table key value (.bulk (Text.toBytes previous)) hpos hend
    refine ⟨after, ?_, hafter⟩
    show Table.swap table now key value (Text.decimalNat seconds) = (_, after)
    rw [Table.swap, hkey, ← hput]
  del {now table keys} hkeys := by
    obtain ⟨key, keys, rfl⟩ := List.exists_cons_of_ne_nil hkeys
    exact ⟨_, Table.eraseMany table (key :: keys), rfl, Table.live?_eraseMany (key :: keys)⟩
  smismember_none {now table key members} hkey hmembers := by
    replace hkey : Table.live? table now key = none := hkey
    obtain ⟨member, members, rfl⟩ := List.exists_cons_of_ne_nil hmembers
    refine ⟨table, ?_, rfl⟩
    show Table.areMembers table now key (member :: members) = (_, table)
    rw [Table.areMembers, hkey]
  smismember_members {now table key members set expiresAt} hkey hmembers := by
    replace hkey : Table.live? table now key = some ⟨.members set, expiresAt⟩ := hkey
    obtain ⟨member, members, rfl⟩ := List.exists_cons_of_ne_nil hmembers
    refine ⟨table, ?_, rfl⟩
    show Table.areMembers table now key (member :: members) = (_, table)
    rw [Table.areMembers, hkey]
  sadd_none {now table key members} hkey hmembers := by
    replace hkey : Table.live? table now key = none := hkey
    obtain ⟨member, members, rfl⟩ := List.exists_cons_of_ne_nil hmembers
    obtain ⟨added, after, hextend, hafter⟩ :=
      Table.does_extend table key ∅ (member :: members) fun other => Table.isLive_none now other
    refine ⟨added, after, ?_, hafter⟩
    show Table.add table now key (member :: members) = _
    rw [Table.add, hkey, ← hextend]
  sadd_members {now table key members set expiresAt} hkey hmembers := by
    replace hkey : Table.live? table now key = some ⟨.members set, expiresAt⟩ := hkey
    obtain ⟨member, members, rfl⟩ := List.exists_cons_of_ne_nil hmembers
    obtain ⟨added, after, hextend, hafter⟩ :=
      Table.does_extend table key set (member :: members) (Table.isLive_of_live? hkey)
    refine ⟨added, after, ?_, hafter⟩
    show Table.add table now key (member :: members) = _
    rw [Table.add, hkey, ← hextend]
  incrby_none {now table key} hkey := by
    replace hkey : Table.live? table now key = none := hkey
    have hzero : (0 : Int64) ≠ Int64.maxValue := by decide
    obtain ⟨after, hraise, hafter⟩ :=
      Table.does_raise table key hzero fun other => Table.isLive_none now other
    refine ⟨after, ?_, hafter⟩
    show Table.increment table now key "1" = _
    simp only [Table.increment, canonical?_one, hkey, hraise]
    rfl
  incrby_counter {now table key n expiresAt} hkey hn := by
    replace hkey : Table.live? table now key = some ⟨.text (Text.decimal n), expiresAt⟩ := hkey
    obtain ⟨after, hraise, hafter⟩ := Table.does_raise table key hn (Table.isLive_of_live? hkey)
    refine ⟨after, ?_, hafter⟩
    show Table.increment table now key "1" = _
    simp only [Table.increment, canonical?_one, hkey, canonical?_decimal, hraise]
  incrby_greatest {now table key expiresAt} hkey := by
    replace hkey :
      Table.live? table now key = some ⟨.text (Text.decimal Int64.maxValue), expiresAt⟩ := hkey
    obtain ⟨text, hraise⟩ := Table.raise_greatest table key expiresAt
    refine ⟨text, table, ?_, rfl⟩
    show Table.increment table now key "1" = _
    simp only [Table.increment, canonical?_one, hkey, canonical?_decimal, hraise]
  expire {now seconds table key value expiresAt} hkey hpos hend := by
    replace hkey : Table.live? table now key = some ⟨value, expiresAt⟩ := hkey
    have hsmall : seconds < clockEnd := by omega
    obtain ⟨hcanonical, hvalue⟩ := canonical?_decimalNat hsmall
    refine ⟨_, ?_, Table.live?_insert (Table.isLive_deadline now value hpos)⟩
    show Table.expire table now key (Text.decimalNat seconds) = _
    simp only [Table.expire, hcanonical, hkey]
    rw [if_neg (by rw [hvalue]; omega), deadline?_decimalNat hpos hsmall, if_pos hend]
  expire_beyond {now seconds table key entry} hkey hpos hsmall hend := by
    replace hkey : Table.live? table now key = some entry := hkey
    obtain ⟨hcanonical, hvalue⟩ := canonical?_decimalNat hsmall
    have hexpire : Table.expire table now key (Text.decimalNat seconds) =
        (Table.invalidExpiry, table) := by
      simp only [Table.expire, hcanonical, hkey]
      rw [if_neg (by rw [hvalue]; omega), deadline?_decimalNat hpos hsmall, if_neg (by omega)]
    exact ⟨_, table, hexpire, rfl⟩

end Redis
end AccountAccess
