import AccountAccess.Proofs.Redis.Server
import AccountAccess.Proofs.Text.Bytes
import AccountAccess.Redis.Cache

/-!
# What a call does on a documented server

A call of the cache is carried out with the commands that the laws are about.  So for each call
it follows what the call is answered with and which entries count afterwards.  The answer is read
from the replies, and a reply is read if no error stands in it and it is not nested too deep.

Each call is taken apart once, here.  What is stated of it is again a law, of calls this time
(`Carries`): under which entries it is answered with what, and which entries it leaves.  Nothing
that uses these laws has to look at commands, replies or exchanges any more.

## Main results

* `read_eq_ok`: a reply is read as what it stands for.
* `Does.run`, `Does.carries`: an exchange of one command goes on with its reply.
* `carries_set`, `carries_remove`, `carries_get_text`, `carries_swap_text`: the calls about texts.
* `carries_anyMember_none`, `carries_anyMember_members`: the call about members.
* `carries_count`, `carries_count_greatest`: the call about counters, which needs two commands when
  the counter is new, and fails beyond the greatest integer.
-/

namespace AccountAccess
namespace Redis

variable {α : Type}

/-! ## Replies that are read -/

/-- A reply that is neither an error nor a list. -/
structure Reply.IsPlain (reply : Reply) : Prop where
  hasError_eq : reply.hasError = false
  height_eq : reply.height = 1

theorem Reply.isPlain_integer (n : Int64) : (Reply.integer n).IsPlain := ⟨rfl, rfl⟩

theorem Reply.isPlain_status (text : String) : (Reply.status text).IsPlain := ⟨rfl, rfl⟩

/-- A list of plain replies can be read. -/
theorem Reply.readable_array {items : List Reply} (h : ∀ item ∈ items, item.IsPlain) :
    (Reply.array items).hasError = false ∧ (Reply.array items).height ≤ Reply.heightLimit := by
  have hitems : Reply.anyHasError items = false ∧ Reply.greatestHeight items ≤ 1 := by
    induction items with
    | nil => exact ⟨rfl, Nat.zero_le 1⟩
    | cons item items ih =>
      rw [List.forall_mem_cons] at h
      obtain ⟨herror, hheight⟩ := ih h.2
      rw [Reply.anyHasError, Reply.greatestHeight, h.1.hasError_eq, h.1.height_eq, herror]
      exact ⟨rfl, by omega⟩
  have hlimit : Reply.heightLimit = 100 := rfl
  rw [Reply.hasError, Reply.height]
  exact ⟨hitems.1, by omega⟩

/-- **A reply is read** as what it stands for. -/
theorem read_eq_ok {decode : Reply → Option α} {reply : Reply} {value : α}
    (herror : reply.hasError = false) (hheight : reply.height ≤ Reply.heightLimit)
    (hdecode : decode reply = some value) : read decode (.ok reply) = .ok value := by
  have hreadable : ¬(reply.hasError = true ∨ Reply.heightLimit < reply.height) := by
    rw [herror]
    simp [hheight]
  rw [read, if_neg hreadable, hdecode]

theorem Reply.IsPlain.read_eq_ok {decode : Reply → Option α} {reply : Reply} {value : α}
    (h : reply.IsPlain) (hdecode : decode reply = some value) :
    read decode (.ok reply) = .ok value :=
  Redis.read_eq_ok h.hasError_eq (by rw [h.height_eq]; decide) hdecode

theorem read_error (decode : Reply → Option α) (text : String) :
    read decode (.ok (.error text)) = .error .server := by
  have herror : (Reply.error text).hasError = true := by rw [Reply.hasError]
  rw [read, if_pos (Or.inl herror)]

theorem read_bulk (text : String) :
    read Reply.optionalText? (.ok (.bulk (Text.toBytes text))) = .ok (some text) := by
  have hplain : (Reply.bulk (Text.toBytes text)).IsPlain := ⟨rfl, rfl⟩
  refine hplain.read_eq_ok ?_
  rw [Reply.optionalText?, Reply.text?, Text.ofBytes?_toBytes, Option.map_some]
  rintro ⟨⟩

/-- The truth values that stand in a list of zeros and ones. -/
theorem flags?_map (members : List String) (holds : String → Bool) :
    Reply.flags? (.array (members.map fun member => .integer (if holds member then 1 else 0))) =
      some (members.map holds) := by
  rw [Reply.flags?]
  induction members with
  | nil => rfl
  | cons member members ih =>
    have hflag : Reply.flag? (.integer (if holds member then 1 else 0)) = some (holds member) := by
      cases holds member with
      | true => rfl
      | false => rfl
    rw [List.map_cons, List.mapM_cons, hflag, ih]
    rfl

theorem read_flags (members : List String) (holds : String → Bool) :
    (read Reply.flags?
      (.ok (.array (members.map fun member => .integer (if holds member then 1 else 0))))).map
        (fun flags => flags.any id) = .ok (members.any holds) := by
  have hplain : ∀ item ∈ members.map fun member =>
      Reply.integer (if holds member then 1 else 0), item.IsPlain := by
    intro item hitem
    obtain ⟨member, -, rfl⟩ := List.mem_map.1 hitem
    exact Reply.isPlain_integer _
  obtain ⟨herror, hheight⟩ := Reply.readable_array hplain
  rw [read_eq_ok herror hheight (flags?_map members holds), Except.map, List.any_map]
  rfl

/-! ## Exchanges -/

theorem ask_bind (request : Request) (next : request.Answer → Exchange α) :
    (ask request >>= next) = Dialogue.ask request next := rfl

theorem connected_eq (next : Exchange (Except CacheError α)) :
    connected next = Dialogue.ask Request.connect fun (answer : Except CacheError Unit) =>
      match answer with
      | .error e => .done (.error e)
      | .ok () => next := rfl

theorem carry_anyMember {key : String} {members : List String} (h : members ≠ []) :
    carry (.anyMember key members) = connected (ask (.command ("SMISMEMBER" :: key :: members)) >>=
      fun flags => pure ((read Reply.flags? flags).map fun flags => flags.any id)) :=
  if_neg h

/-- How a count goes on when the counter has been raised: a new counter is given its window. -/
def countedOn (key : String) (window : UInt64) (reply : Except CacheError Reply) :
    Exchange (Except CacheError Int64) :=
  match read Reply.integer? reply with
  | .error e => pure (.error e)
  | .ok count =>
    if count = 1 then
      ask (.command ["EXPIRE", key, Text.decimal window.toInt64]) >>= fun reply =>
        pure ((acknowledged reply).map fun () => count)
    else pure (.ok count)

theorem carry_count (key : String) (window : UInt64) :
    carry (.count key window) =
      connected (ask (.command ["INCRBY", key, "1"]) >>= countedOn key window) := by
  rw [carry]
  congr 2
  funext reply
  unfold countedOn
  cases read Reply.integer? reply with
  | error e => rfl
  | ok count =>
    dsimp only
    split
    · congr 1
      funext reply
      cases acknowledged reply with
      | error e => rfl
      | ok done => rfl
    · rfl

theorem countedOn_integer (key : String) (window : UInt64) (n : Int64) :
    countedOn key window (.ok (.integer n)) =
      if n = 1 then ask (.command ["EXPIRE", key, Text.decimal window.toInt64]) >>= fun reply =>
        pure ((acknowledged reply).map fun () => n)
      else pure (.ok n) := by
  have hread : read Reply.integer? (.ok (.integer n)) = .ok n :=
    (Reply.isPlain_integer n).read_eq_ok rfl
  rw [countedOn, hread]

theorem decimal_toInt64 {window : UInt64} (h : window.toNat < 2 ^ 63) :
    Text.decimal window.toInt64 = Text.decimalNat window.toNat :=
  Text.decimal_eq_decimalNat (Text.toInt_toInt64 h)

namespace Server

variable {server : Server} {now : Nat} {s : server.State} {command : Command} {reply : Reply}
  {entries : Keyspace}

/-- A call is answered with a result, and these entries count afterwards. -/
def Carries (server : Server) (now : Nat) (s : server.State) (call : CacheCall)
    (result : Except CacheError call.Result) (entries : Keyspace) : Prop :=
  ∃ after, (carry call).run (server.answer now) s = (.finished result, after) ∧
    server.keyspace now after = entries

theorem run_connected (next : Exchange (Except CacheError α)) :
    (connected next).run (server.answer now) s = next.run (server.answer now) s := rfl

theorem Does.run_of_executed (h : server.Does now s command reply entries)
    {handler : Handler interface server.State}
    (hexecuted : handler (.command command) s = server.answer now (.command command) s)
    (next : Except CacheError Reply → Exchange α) :
    ∃ after, (ask (.command command) >>= next).run handler s =
        (next (.ok reply)).run handler after ∧ server.keyspace now after = entries := by
  obtain ⟨after, hexecute, hafter⟩ := h
  refine ⟨after, ?_, hafter⟩
  rw [ask_bind, Dialogue.run, hexecuted, answer, hexecute]

theorem Does.run (h : server.Does now s command reply entries)
    (next : Except CacheError Reply → Exchange α) :
    ∃ after, (ask (.command command) >>= next).run (server.answer now) s =
        (next (.ok reply)).run (server.answer now) after ∧
      server.keyspace now after = entries :=
  h.run_of_executed rfl next

theorem Does.carries {call : CacheCall} {result : Except CacheError call.Result}
    (h : server.Does now s command reply entries)
    (decode : Except CacheError Reply → Except CacheError call.Result)
    (hcarry : carry call = connected (ask (.command command) >>= fun r => pure (decode r)))
    (hresult : decode (.ok reply) = result) : server.Carries now s call result entries := by
  obtain ⟨after, hrun, hafter⟩ := h.run fun r => pure (decode r)
  refine ⟨after, ?_, hafter⟩
  rw [hcarry, run_connected, hrun, hresult]
  rfl

/-! ## Single calls -/

variable {key value : String} {expiresAt : Option Nat}

theorem Documented.carries_get_none (hserver : server.Documented)
    (hkey : server.keyspace now s key = none) :
    server.Carries now s (.get key) (.ok none) (server.keyspace now s) :=
  (hserver.get_none hkey).carries (read Reply.optionalText?) rfl rfl

theorem Documented.carries_get_text (hserver : server.Documented)
    (hkey : server.keyspace now s key = some ⟨.text value, expiresAt⟩) :
    server.Carries now s (.get key) (.ok (some value)) (server.keyspace now s) :=
  (hserver.get_text hkey).carries (read Reply.optionalText?) rfl (read_bulk value)

theorem Documented.carries_set (hserver : server.Documented) (key value : String) {ttl : UInt64}
    (httl : Lasts now ttl) :
    server.Carries now s (.set key value ttl) (.ok ())
      (Function.update (server.keyspace now s) key
        (some ⟨.text value, some (now + 1000 * ttl.toNat)⟩)) :=
  (hserver.setex key value httl.1 httl.2).carries acknowledged rfl
    ((Reply.isPlain_status "OK").read_eq_ok rfl)

theorem Documented.carries_remove (hserver : server.Documented) (keys : List String) :
    server.Carries now s (.remove keys) (.ok ())
      fun key => if key ∈ keys then none else server.keyspace now s key := by
  by_cases hkeys : keys = []
  · subst hkeys
    exact ⟨s, rfl, by simp⟩
  · obtain ⟨removed, hdel⟩ : ∃ removed, server.Does now s ("DEL" :: keys) (.integer removed)
        fun key => if key ∈ keys then none else server.keyspace now s key := hserver.del hkeys
    exact hdel.carries acknowledged (if_neg hkeys) ((Reply.isPlain_integer removed).read_eq_ok rfl)

theorem Documented.carries_swap_none (hserver : server.Documented) (value : String) {ttl : UInt64}
    (hkey : server.keyspace now s key = none) (httl : Lasts now ttl) :
    server.Carries now s (.swap key value ttl) (.ok none)
      (Function.update (server.keyspace now s) key
        (some ⟨.text value, some (now + 1000 * ttl.toNat)⟩)) :=
  (hserver.set_none value hkey httl.1 httl.2).carries (read Reply.optionalText?) rfl rfl

theorem Documented.carries_swap_text (hserver : server.Documented) (value : String)
    {previous : String} {ttl : UInt64}
    (hkey : server.keyspace now s key = some ⟨.text previous, expiresAt⟩) (httl : Lasts now ttl) :
    server.Carries now s (.swap key value ttl) (.ok (some previous))
      (Function.update (server.keyspace now s) key
        (some ⟨.text value, some (now + 1000 * ttl.toNat)⟩)) :=
  (hserver.set_text value hkey httl.1 httl.2).carries (read Reply.optionalText?) rfl
    (read_bulk previous)

/-! ## Members -/

theorem Documented.carries_anyMember_none (hserver : server.Documented) (members : List String)
    (hkey : server.keyspace now s key = none) :
    server.Carries now s (.anyMember key members) (.ok false) (server.keyspace now s) := by
  by_cases hmembers : members = []
  · subst hmembers
    exact ⟨s, rfl, rfl⟩
  · refine (hserver.smismember_none hkey hmembers).carries _ (carry_anyMember hmembers) ?_
    have hread := read_flags members fun _ => false
    rw [List.any_eq_false.2 (by simp)] at hread
    exact hread

theorem Documented.carries_anyMember_members (hserver : server.Documented) (members : List String)
    {set : Std.ExtTreeSet String}
    (hkey : server.keyspace now s key = some ⟨.members set, expiresAt⟩) :
    server.Carries now s (.anyMember key members) (.ok (members.any set.contains))
      (server.keyspace now s) := by
  by_cases hmembers : members = []
  · subst hmembers
    exact ⟨s, rfl, rfl⟩
  · exact (hserver.smismember_members hkey hmembers).carries _ (carry_anyMember hmembers)
      (read_flags members set.contains)

theorem carries_anyMember_nil (server : Server) (now : Nat) (s : server.State) (key : String) :
    server.Carries now s (.anyMember key []) (.ok false) (server.keyspace now s) :=
  ⟨s, rfl, rfl⟩

/-! ## Counters -/

/-- **A count** is what the counter stands at afterwards.  If it is the first one, the counter
expires a window later, and else when it did before. -/
theorem Documented.carries_count (hserver : server.Documented) {n : Int64} {window : UInt64}
    (hincr : server.Does now s ["INCRBY", key, "1"] (.integer n)
      (Function.update (server.keyspace now s) key (some ⟨.text (Text.decimal n), expiresAt⟩)))
    (hwindow : Lasts now window) :
    server.Carries now s (.count key window) (.ok n)
      (Function.update (server.keyspace now s) key (some ⟨.text (Text.decimal n),
        if n = 1 then some (now + 1000 * window.toNat) else expiresAt⟩)) := by
  obtain ⟨counted, hrun, hcounted⟩ := hincr.run (countedOn key window)
  rw [countedOn_integer] at hrun
  rw [Carries, carry_count, run_connected, hrun]
  by_cases hfirst : n = 1
  · have hkey : server.keyspace now counted key = some ⟨.text (Text.decimal n), expiresAt⟩ := by
      rw [hcounted, Function.update_self]
    have hsmall : window.toNat < 2 ^ 63 := by
      have hlasts := hwindow.2
      omega
    have hexpire := hserver.expire hkey hwindow.1 hwindow.2
    rw [← decimal_toInt64 hsmall] at hexpire
    obtain ⟨after, hafter, hentries⟩ := hexpire.run fun reply =>
      pure ((acknowledged reply).map fun () => n)
    rw [if_pos hfirst, if_pos hfirst, hafter]
    refine ⟨after, ?_, ?_⟩
    · have hread : acknowledged (.ok (.integer 1)) = .ok () :=
        (Reply.isPlain_integer 1).read_eq_ok rfl
      rw [hread]
      rfl
    · rw [hentries, hcounted, Function.update_idem]
  · rw [if_neg hfirst, if_neg hfirst]
    exact ⟨counted, rfl, hcounted⟩

theorem Documented.carries_count_greatest (hserver : server.Documented) (window : UInt64)
    (hkey : server.keyspace now s key =
      some ⟨.text (Text.decimal Int64.maxValue), expiresAt⟩) :
    server.Carries now s (.count key window) (.error .server) (server.keyspace now s) := by
  obtain ⟨text, hincr⟩ := hserver.incrby_greatest hkey
  obtain ⟨after, hrun, hafter⟩ := hincr.run (countedOn key window)
  refine ⟨after, ?_, hafter⟩
  rw [carry_count, run_connected, hrun, countedOn, read_error]
  rfl

end Server
end Redis
end AccountAccess
