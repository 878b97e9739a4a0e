import AccountAccess.Proofs.Cache.Live
import AccountAccess.Proofs.Redis.Carry

/-!
# The cache in memory agrees with the cache on a server

The two are run beside each other, call by call, on one clock.  What ties them together is that
the entries that count in memory are those that count on the server, where a counter is kept as
the text of its number.  That a number is kept as a text could be noticed only by a call that
takes a text for a number or a number for a text, so each key is kept to one use.

One difference remains.  A counter that stands at the greatest integer is not raised by a server,
which then reports a fault; in memory it goes on from the least integer.  Until then no call fails
on either side.

## What has to be assumed

* Of the server, the documented meaning of its commands, and nothing else.
* Of a run, that each key is kept to one use (`Respects`), and that no clock ends before what is
  kept (`CallLasts`).  A time to live of no seconds is left out too: a server refuses it, and in
  memory it is over when it begins.

## Main results

* `does_write`, `executeAll_writes`: one write, and writes in order, have the same effect.
* `Agrees`: what ties the two sides together; there is one lemma of it for each kind of call.
* `Agrees.step`, `Agrees.run`: one call, and a run, are answered alike unless a counter is
  exhausted.
* `answers_on_eq_inMemory`: both sides start empty and give the same answers.
-/

namespace AccountAccess
namespace Redis

/-! ## What keys are used for -/

/-- What a key is used for. -/
inductive Use where
  | text
  | members
  | counter
  deriving DecidableEq, Repr

/-- What a value is used for. -/
def useOf : CacheValue → Use
  | .text _ => .text
  | .members _ => .members
  | .counter _ => .counter

/-- A write uses its key for what the key is used for.  Any key can be removed, and adding no
members is no use. -/
def WriteRespects (use : String → Use) : CacheWrite → Prop
  | .setText key _ _ => use key = .text
  | .remove _ => True
  | .addMembers key members => members = [] ∨ use key = .members

/-- A call uses its keys for what they are used for.  Texts and counters are read alike. -/
def Respects (use : String → Use) : CacheCall → Prop
  | .get key => use key ≠ .members
  | .set key _ _ | .swap key _ _ => use key = .text
  | .remove _ => True
  | .anyMember key members => members = [] ∨ use key = .members
  | .write writes => ∀ write ∈ writes, WriteRespects use write
  | .count key _ => use key = .counter

/-- What a call keeps for a time can be kept for that time. -/
def CallLasts (now : Nat) : CacheCall → Prop
  | .set _ _ ttl | .swap _ _ ttl => Lasts now ttl
  | .count _ window => Lasts now window
  | .write writes => ∀ write ∈ writes, write.Lasts now
  | .get _ | .remove _ | .anyMember .. => True

/-! ## Entries on a server -/

/-- An entry as a server keeps it: a counter is the text of its number. -/
def kept : CacheEntry → Entry
  | ⟨.text value, expiresAt⟩ => ⟨.text value, expiresAt⟩
  | ⟨.members set, expiresAt⟩ => ⟨.members set, expiresAt⟩
  | ⟨.counter n, expiresAt⟩ => ⟨.text (Text.decimal n), expiresAt⟩

/-- The entries as a server keeps them. -/
def keptAll (entries : CacheEntries) : Keyspace :=
  fun key => (entries key).map kept

/-- Every entry is of the kind that its key is used for. -/
def Kinds (use : String → Use) (entries : CacheEntries) : Prop :=
  ∀ key entry, entries key = some entry → useOf entry.value = use key

variable {use : String → Use} {entries : CacheEntries} {now : Nat} {key : String}

theorem keptAll_update (entries : CacheEntries) (key : String) (entry : Option CacheEntry) :
    keptAll (Function.update entries key entry) =
      Function.update (keptAll entries) key (entry.map kept) := by
  funext other
  by_cases hother : other = key
  · subst hother
    rw [keptAll, Function.update_self, Function.update_self]
  · rw [keptAll, Function.update_of_ne hother, Function.update_of_ne hother, keptAll]

theorem isLive_kept (now : Nat) (entry : CacheEntry) :
    (kept entry).isLive now = entry.isLive now := by
  rw [CacheEntry.isLive_eq_all]
  obtain ⟨_ | _ | _, expiresAt⟩ := entry <;> rfl

theorem Kinds.update {entry : Option CacheEntry} (h : Kinds use entries)
    (hentry : ∀ new, entry = some new → useOf new.value = use key) :
    Kinds use (Function.update entries key entry) := by
  intro other found hfound
  by_cases hother : other = key
  · subst hother
    rw [Function.update_self] at hfound
    exact hentry found hfound
  · rw [Function.update_of_ne hother] at hfound
    exact h other found hfound

theorem Kinds.cases (h : Kinds use entries) (key : String) :
    entries key = none ∨
      (use key = .text ∧ ∃ value expiresAt, entries key = some ⟨.text value, expiresAt⟩) ∨
      (use key = .members ∧ ∃ set expiresAt, entries key = some ⟨.members set, expiresAt⟩) ∨
      (use key = .counter ∧ ∃ n expiresAt, entries key = some ⟨.counter n, expiresAt⟩) := by
  rcases hentry : entries key with _ | ⟨value | set | n, expiresAt⟩
  · exact Or.inl rfl
  · exact Or.inr (Or.inl ⟨(h key _ hentry).symm, value, expiresAt, rfl⟩)
  · exact Or.inr (Or.inr (Or.inl ⟨(h key _ hentry).symm, set, expiresAt, rfl⟩))
  · exact Or.inr (Or.inr (Or.inr ⟨(h key _ hentry).symm, n, expiresAt, rfl⟩))

/-! ## Writes on both sides -/

variable {server : Server} {s : server.State}

/-- **One write** has the same effect on both sides, if it is sent at all. -/
theorem does_write (hserver : server.Documented) {write : CacheWrite}
    (hrespects : WriteRespects use write) (hlasts : write.Lasts now)
    (hentries : server.keyspace now s = keptAll entries) (hkinds : Kinds use entries) :
    Kinds use (write.effect now entries) ∧
      ((writeCommand? write = none ∧ write.effect now entries = entries) ∨
        ∃ command reply, writeCommand? write = some command ∧ reply.IsPlain ∧
          server.Does now s command reply (keptAll (write.effect now entries))) := by
  cases write with
  | setText key value ttl =>
    replace hlasts : Lasts now ttl := hlasts
    refine ⟨hkinds.update fun new hnew => ?_, Or.inr ⟨_, .status "OK", rfl, ⟨rfl, rfl⟩, ?_⟩⟩
    · rw [← Option.some.inj hnew]
      exact (show use key = .text from hrespects).symm
    · rw [CacheWrite.effect, keptAll_update, ← hentries]
      exact hserver.setex key value hlasts.1 hlasts.2
  | remove key =>
    obtain ⟨removed, hdel⟩ : ∃ removed, server.Does now s ["DEL", key] (.integer removed)
        fun other => if other ∈ [key] then none else server.keyspace now s other :=
      hserver.del (List.cons_ne_nil key [])
    refine ⟨hkinds.update fun new hnew => absurd hnew (by simp),
      Or.inr ⟨_, .integer removed, rfl, ⟨rfl, rfl⟩, ?_⟩⟩
    have hremoved : (fun other => if other ∈ [key] then none else server.keyspace now s other) =
        keptAll ((CacheWrite.remove key).effect now entries) := by
      rw [CacheWrite.effect, keptAll_update, ← hentries]
      funext other
      simp only [Function.update_apply, List.mem_singleton, Option.map_none]
    rw [← hremoved]
    exact hdel
  | addMembers key members =>
    by_cases hnone : members = []
    · subst hnone
      exact ⟨hkinds, Or.inl ⟨rfl, rfl⟩⟩
    have hcommand : writeCommand? (.addMembers key members) =
        some ("SADD" :: key :: members) := by
      rw [writeCommand?]
      exact hnone
    have hkey : use key = .members := hrespects.resolve_left hnone
    have hkept : server.keyspace now s key = (entries key).map kept := congrFun hentries key
    rw [CacheWrite.effect, if_neg hnone]
    rcases hkinds.cases key with
      hentry | ⟨hother, -⟩ | ⟨-, set, expiresAt, hentry⟩ | ⟨hother, -⟩
    · rw [hentry] at hkept ⊢
      obtain ⟨added, hadd⟩ := hserver.sadd_none hkept hnone
      refine ⟨hkinds.update fun new hnew => ?_,
        Or.inr ⟨_, .integer added, hcommand, ⟨rfl, rfl⟩, ?_⟩⟩
      · rw [← Option.some.inj hnew, hkey]
        rfl
      · rw [keptAll_update, ← hentries]
        exact hadd
    · exact absurd (hkey.symm.trans hother) (by decide)
    · rw [hentry] at hkept ⊢
      obtain ⟨added, hadd⟩ := hserver.sadd_members hkept hnone
      refine ⟨hkinds.update fun new hnew => ?_,
        Or.inr ⟨_, .integer added, hcommand, ⟨rfl, rfl⟩, ?_⟩⟩
      · rw [← Option.some.inj hnew, hkey]
        rfl
      · rw [keptAll_update, ← hentries]
        exact hadd
    · exact absurd (hkey.symm.trans hother) (by decide)

/-- **Writes in order** have the same effect on both sides, and each one that is sent is
answered. -/
theorem executeAll_writes (hserver : server.Documented) {writes : List CacheWrite}
    (hrespects : ∀ write ∈ writes, WriteRespects use write)
    (hlasts : ∀ write ∈ writes, write.Lasts now)
    (hentries : server.keyspace now s = keptAll entries) (hkinds : Kinds use entries) :
    Kinds use (CacheWrite.effects now writes entries) ∧
      ∃ replies after, server.executeAll now (writes.filterMap writeCommand?) s =
          (replies, after) ∧
        replies.length = (writes.filterMap writeCommand?).length ∧
        (∀ reply ∈ replies, reply.IsPlain) ∧
        server.keyspace now after = keptAll (CacheWrite.effects now writes entries) := by
  induction writes generalizing s entries with
  | nil => exact ⟨hkinds, [], s, rfl, rfl, by simp, hentries⟩
  | cons write writes ih =>
    rw [List.forall_mem_cons] at hrespects hlasts
    obtain ⟨hkinds', hwrite⟩ := does_write hserver hrespects.1 hlasts.1 hentries hkinds
    rcases hwrite with ⟨hcommand, heffect⟩ | ⟨command, reply, hcommand, hplain, hdoes⟩
    · rw [heffect] at hkinds'
      obtain ⟨hkept, replies, after, hall, hlength, hreplies, hafter⟩ :=
        ih hrespects.2 hlasts.2 hentries hkinds'
      have hsame : CacheWrite.effects now (write :: writes) entries =
          CacheWrite.effects now writes entries := by
        rw [CacheWrite.effects, List.foldl_cons, heffect]
        rfl
      rw [hsame, List.filterMap_cons_none hcommand]
      exact ⟨hkept, replies, after, hall, hlength, hreplies, hafter⟩
    · obtain ⟨between, hexecute, hbetween⟩ := hdoes
      obtain ⟨hkept, replies, after, hall, hlength, hreplies, hafter⟩ :=
        ih hrespects.2 hlasts.2 hbetween hkinds'
      rw [List.filterMap_cons_some hcommand]
      refine ⟨hkept, reply :: replies, after, ?_, ?_, ?_, hafter⟩
      · rw [Server.executeAll, hexecute]
        dsimp only
        rw [hall]
      · rw [List.length_cons, List.length_cons, hlength]
      · rw [List.forall_mem_cons]
        exact ⟨hplain, hreplies⟩

theorem run_committed {replies : List Reply} {commands : Nat}
    (hlength : replies.length = commands) (hreplies : ∀ reply ∈ replies, reply.IsPlain) :
    committed commands (.ok (.array replies)) = pure (.ok ()) := by
  obtain ⟨herror, hheight⟩ := Reply.readable_array hreplies
  have hread : read some (.ok (.array replies)) = .ok (.array replies) :=
    read_eq_ok herror hheight rfl
  rw [committed, hread]
  dsimp only
  rw [if_neg (by omega)]

/-- **Writes as one call** on a server. -/
theorem carries_write (hserver : server.Documented) {writes : List CacheWrite}
    (hrespects : ∀ write ∈ writes, WriteRespects use write)
    (hlasts : ∀ write ∈ writes, write.Lasts now)
    (hentries : server.keyspace now s = keptAll entries) (hkinds : Kinds use entries) :
    server.Carries now s (.write writes) (.ok ())
      (keptAll (CacheWrite.effects now writes entries)) := by
  obtain ⟨-, replies, after, hall, hlength, hreplies, hafter⟩ :=
    executeAll_writes hserver hrespects hlasts hentries hkinds
  by_cases hnone : writes = []
  · subst hnone
    exact ⟨s, rfl, hentries⟩
  · refine ⟨after, ?_, hafter⟩
    rw [carry, if_neg hnone, Server.run_connected]
    cases hcommands : writes.filterMap writeCommand? with
    | nil =>
      rw [hcommands] at hall
      obtain ⟨rfl, rfl⟩ := Prod.mk.inj hall
      rfl
    | cons command commands =>
      rw [hcommands] at hall hlength
      dsimp only
      rw [ask_bind, Dialogue.run, Server.answer, hall]
      dsimp only
      rw [run_committed hlength hreplies]
      rfl

/-! ## One call on both sides -/

/-- **What ties the two sides together.**  The cache in memory answers, the entries that count in
it are those on the server, and each is of the kind that its key is used for. -/
structure Agrees (use : String → Use) (now : Nat) (cache : MemoryCache) (server : Server)
    (s : server.State) : Prop where
  isAvailable : cache.isAvailable = true
  keyspace_eq : server.keyspace now s = keptAll (cache.entries.live now)
  kinds : Kinds use (cache.entries.live now)

variable {cache : MemoryCache}

/-- Time takes the same entries away on both sides. -/
theorem Agrees.later (hserver : server.Documented) (h : Agrees use now cache server s)
    {later : Nat} (hlater : now ≤ later) : Agrees use later cache server s := by
  have hlive : cache.entries.live later =
      fun key => (cache.entries.live now key).filter (·.isLive later) :=
    CacheTable.live_later hlater
  refine ⟨h.isAvailable, ?_, ?_⟩
  · funext key
    rw [hserver.later s key hlater, h.keyspace_eq, hlive, keptAll, keptAll, Option.filter_map]
    congr 1
    congr 1
    funext entry
    exact isLive_kept later entry
  · intro key entry hentry
    rw [hlive] at hentry
    exact h.kinds key entry (Option.filter_eq_some_iff.1 hentry).1

/-- A call is answered alike on both sides, and they agree afterwards. -/
def AnsweredAlike (use : String → Use) (now : Nat) (cache : MemoryCache) (server : Server)
    (s : server.State) (call : CacheCall) : Prop :=
  ∃ result cache' s', cache.answer now call = (some (.ok result), cache') ∧
    (carry call).run (server.answer now) s = (.finished (.ok result), s') ∧
    Agrees use now cache' server s'

theorem answeredAlike {call : CacheCall} {result : call.Result} {entries : CacheEntries}
    (hperforms : cache.Performs now call result entries)
    (hcarries : server.Carries now s call (.ok result) (keptAll entries))
    (hkinds : Kinds use entries) : AnsweredAlike use now cache server s call := by
  obtain ⟨cache', hanswer, havailable, rfl⟩ := hperforms
  obtain ⟨s', hrun, hentries⟩ := hcarries
  exact ⟨result, cache', s', hanswer, hrun, havailable, hentries, hkinds⟩

section Calls

variable (hserver : server.Documented) (h : Agrees use now cache server s)

include h in
theorem Agrees.kept_eq (key : String) :
    server.keyspace now s key = (cache.entries.live now key).map kept :=
  congrFun h.keyspace_eq key

include hserver h

/-- A text and the text of a counter are read alike. -/
theorem Agrees.get (hkey : use key ≠ .members) :
    AnsweredAlike use now cache server s (.get key) := by
  have hkept := h.kept_eq key
  have hperforms : cache.Performs now (.get key) (cache.textAt now key) (cache.entries.live now) :=
    MemoryCache.performs_get h.isAvailable key
  refine answeredAlike hperforms ?_ h.kinds
  rw [← h.keyspace_eq, MemoryCache.textAt]
  rcases h.kinds.cases key with
    hentry | ⟨-, value, expiresAt, hentry⟩ | ⟨huse, -⟩ | ⟨-, n, expiresAt, hentry⟩
  · rw [hentry] at hkept
    rw [show cache.entries.live? now key = none from hentry]
    exact hserver.carries_get_none hkept
  · rw [hentry] at hkept
    rw [show cache.entries.live? now key = some ⟨.text value, expiresAt⟩ from hentry]
    exact hserver.carries_get_text hkept
  · exact absurd huse hkey
  · rw [hentry] at hkept
    rw [show cache.entries.live? now key = some ⟨.counter n, expiresAt⟩ from hentry]
    exact hserver.carries_get_text hkept

theorem Agrees.set (value : String) {ttl : UInt64} (hkey : use key = .text) (httl : Lasts now ttl) :
    AnsweredAlike use now cache server s (.set key value ttl) := by
  refine answeredAlike (MemoryCache.performs_set h.isAvailable key value httl) ?_ ?_
  · rw [keptAll_update, ← h.keyspace_eq]
    exact hserver.carries_set key value httl
  · refine h.kinds.update fun new hnew => ?_
    rw [← Option.some.inj hnew, hkey]
    rfl

theorem Agrees.remove (keys : List String) :
    AnsweredAlike use now cache server s (.remove keys) := by
  have hremoved : keptAll (fun key => if key ∈ keys then none else cache.entries.live now key) =
      fun key => if key ∈ keys then none else server.keyspace now s key := by
    funext key
    rw [h.kept_eq, keptAll]
    split
    · rfl
    · rfl
  refine answeredAlike (MemoryCache.performs_remove h.isAvailable keys) ?_ ?_
  · rw [hremoved]
    exact hserver.carries_remove keys
  · intro key entry hentry
    exact h.kinds key entry (Option.ite_none_left_eq_some.1 hentry).2

theorem Agrees.swap (value : String) {ttl : UInt64} (hkey : use key = .text)
    (httl : Lasts now ttl) : AnsweredAlike use now cache server s (.swap key value ttl) := by
  have hkept := h.kept_eq key
  have hkinds : Kinds use (Function.update (cache.entries.live now) key
      (some ⟨.text value, some (now + 1000 * ttl.toNat)⟩)) := by
    refine h.kinds.update fun new hnew => ?_
    rw [← Option.some.inj hnew, hkey]
    rfl
  rcases h.kinds.cases key with
    hentry | ⟨-, previous, expiresAt, hentry⟩ | ⟨huse, -⟩ | ⟨huse, -⟩
  · rw [hentry] at hkept
    refine answeredAlike (MemoryCache.performs_swap h.isAvailable value httl
      (Or.inl ⟨hentry, rfl⟩)) ?_ hkinds
    rw [keptAll_update, ← h.keyspace_eq]
    exact hserver.carries_swap_none value hkept httl
  · rw [hentry] at hkept
    refine answeredAlike (MemoryCache.performs_swap h.isAvailable value httl
      (Or.inr ⟨previous, expiresAt, hentry, rfl⟩)) ?_ hkinds
    rw [keptAll_update, ← h.keyspace_eq]
    exact hserver.carries_swap_text value hkept httl
  · exact absurd (hkey.symm.trans huse) (by decide)
  · exact absurd (hkey.symm.trans huse) (by decide)

theorem Agrees.anyMember (members : List String) (hkey : members = [] ∨ use key = .members) :
    AnsweredAlike use now cache server s (.anyMember key members) := by
  have hkept := h.kept_eq key
  by_cases hnone : members = []
  · subst hnone
    refine answeredAlike (MemoryCache.performs_anyMember_nil h.isAvailable key) ?_ h.kinds
    rw [← h.keyspace_eq]
    exact Server.carries_anyMember_nil server now s key
  · have hkey := hkey.resolve_left hnone
    rcases h.kinds.cases key with
      hentry | ⟨huse, -⟩ | ⟨-, set, expiresAt, hentry⟩ | ⟨huse, -⟩
    · rw [hentry] at hkept
      refine answeredAlike (MemoryCache.performs_anyMember_none h.isAvailable members hentry) ?_
        h.kinds
      rw [← h.keyspace_eq]
      exact hserver.carries_anyMember_none members hkept
    · exact absurd (hkey.symm.trans huse) (by decide)
    · rw [hentry] at hkept
      refine answeredAlike (MemoryCache.performs_anyMember_members h.isAvailable members hentry) ?_
        h.kinds
      rw [← h.keyspace_eq]
      exact hserver.carries_anyMember_members members hkept
    · exact absurd (hkey.symm.trans huse) (by decide)

theorem Agrees.write {writes : List CacheWrite}
    (hrespects : ∀ write ∈ writes, WriteRespects use write)
    (hlasts : ∀ write ∈ writes, write.Lasts now) :
    AnsweredAlike use now cache server s (.write writes) :=
  answeredAlike (MemoryCache.performs_write h.isAvailable hlasts)
    (carries_write hserver hrespects hlasts h.keyspace_eq h.kinds)
    (executeAll_writes hserver hrespects hlasts h.keyspace_eq h.kinds).1

end Calls

/-- A counter stands at the greatest integer. -/
def IsExhausted (cache : MemoryCache) (now : Nat) (key : String) : Prop :=
  cache.textAt now key = some (Text.decimal Int64.maxValue)

/-- **A count** is answered alike on both sides, unless the counter is exhausted; then it fails on
the server. -/
theorem Agrees.count (hserver : server.Documented) (h : Agrees use now cache server s)
    {window : UInt64} (hkey : use key = .counter) (hwindow : Lasts now window) :
    AnsweredAlike use now cache server s (.count key window) ∨
      IsExhausted cache now key ∧ server.Carries now s (.count key window) (.error .server)
        (server.keyspace now s) := by
  have hkept := h.kept_eq key
  have halike : ∀ n expiresAt, ((cache.entries.live now key = none ∧ n = 0 ∧ expiresAt = none) ∨
      cache.entries.live now key = some ⟨.counter n, expiresAt⟩) →
      server.Does now s ["INCRBY", key, "1"] (.integer (n + 1)) (Function.update
        (server.keyspace now s) key (some ⟨.text (Text.decimal (n + 1)), expiresAt⟩)) →
      AnsweredAlike use now cache server s (.count key window) := by
    intro n expiresAt hentry hincr
    refine answeredAlike (MemoryCache.performs_count h.isAvailable hwindow hentry) ?_ ?_
    · rw [keptAll_update, ← h.keyspace_eq]
      exact hserver.carries_count hincr hwindow
    · refine h.kinds.update fun new hnew => ?_
      rw [← Option.some.inj hnew, hkey]
      rfl
  rcases h.kinds.cases key with
    hentry | ⟨huse, -⟩ | ⟨huse, -⟩ | ⟨-, n, expiresAt, hentry⟩
  · rw [hentry] at hkept
    exact Or.inl (halike 0 none (Or.inl ⟨hentry, rfl, rfl⟩) (hserver.incrby_none hkept))
  · exact absurd (hkey.symm.trans huse) (by decide)
  · exact absurd (hkey.symm.trans huse) (by decide)
  · rw [hentry] at hkept
    by_cases hgreatest : n = Int64.maxValue
    · subst hgreatest
      refine Or.inr ⟨?_, hserver.carries_count_greatest window hkept⟩
      rw [IsExhausted, MemoryCache.textAt,
        show cache.entries.live? now key = some ⟨.counter Int64.maxValue, expiresAt⟩ from hentry]
    · exact Or.inl (halike n expiresAt (Or.inr hentry) (hserver.incrby_counter hkept hgreatest))

/-- **One call** is answered alike on both sides, unless it counts with an exhausted counter; then
it fails on the server. -/
theorem Agrees.step (hserver : server.Documented) (h : Agrees use now cache server s)
    {call : CacheCall} (hrespects : Respects use call) (hlasts : CallLasts now call) :
    AnsweredAlike use now cache server s call ∨
      ∃ key window s', call = .count key window ∧ IsExhausted cache now key ∧
        (carry call).run (server.answer now) s = (.finished (.error .server), s') := by
  cases call with
  | get key => exact Or.inl (h.get hserver hrespects)
  | set key value ttl => exact Or.inl (h.set hserver value hrespects hlasts)
  | remove keys => exact Or.inl (h.remove hserver keys)
  | swap key value ttl => exact Or.inl (h.swap hserver value hrespects hlasts)
  | anyMember key members => exact Or.inl (h.anyMember hserver members hrespects)
  | write writes => exact Or.inl (h.write hserver hrespects hlasts)
  | count key window =>
    refine (h.count hserver hrespects hlasts).imp_right ?_
    rintro ⟨hexhausted, s', hfails, -⟩
    exact ⟨key, window, s', rfl, hexhausted, hfails⟩

/-! ## Runs -/

/-- What happens in a run: time passes, or a call is made. -/
inductive Event where
  | elapse (milliseconds : Nat)
  | call (call : CacheCall)

/-- A run uses each key for one thing, and no clock ends before what is kept in it. -/
def Admissible (use : String → Use) : Nat → List Event → Prop
  | _, [] => True
  | now, .elapse milliseconds :: events => Admissible use (now + milliseconds) events
  | now, .call call :: events => Respects use call ∧ CallLasts now call ∧ Admissible use now events

/-- A call with its answer. -/
abbrev Answered := (call : CacheCall) × Outcome (Except CacheError call.Result)

/-- A call has succeeded. -/
def Succeeded (answered : Answered) : Prop :=
  ∃ result, answered.2 = .finished (.ok result)

instance : DecidablePred Succeeded
  | ⟨_, .finished (.ok result)⟩ => isTrue ⟨result, rfl⟩
  | ⟨_, .finished (.error _)⟩ => isFalse (by rintro ⟨_, ⟨⟩⟩)
  | ⟨_, .aborted⟩ => isFalse (by rintro ⟨_, ⟨⟩⟩)

/-- Answers the calls of the cache at a time. -/
abbrev Backend (σ : Type) :=
  Nat → (call : CacheCall) → σ → Outcome (Except CacheError call.Result) × σ

/-- The answers to the calls of a run. -/
def answers {σ : Type} (backend : Backend σ) : Nat → σ → List Event → List Answered
  | _, _, [] => []
  | now, s, .elapse milliseconds :: events => answers backend (now + milliseconds) s events
  | now, s, .call call :: events =>
    ⟨call, (backend now call s).1⟩ :: answers backend now (backend now call s).2 events

/-- The time and the state after a run. -/
def reached {σ : Type} (backend : Backend σ) : Nat → σ → List Event → Nat × σ
  | now, s, [] => (now, s)
  | now, s, .elapse milliseconds :: events => reached backend (now + milliseconds) s events
  | now, s, .call call :: events => reached backend now (backend now call s).2 events

/-- The cache in memory. -/
def inMemory : Backend MemoryCache := fun now call cache =>
  match cache.answer now call with
  | (some answer, after) => (.finished answer, after)
  | (none, after) => (.aborted, after)

/-- The cache on a server. -/
def on (server : Server) : Backend server.State := fun now call s =>
  (carry call).run (server.answer now) s

/-- A run counts with an exhausted counter. -/
def Exhausts (now : Nat) (cache : MemoryCache) (events : List Event) : Prop :=
  ∃ before key window after, events = before ++ .call (.count key window) :: after ∧
    IsExhausted (reached inMemory now cache before).2 (reached inMemory now cache before).1 key

/-- **A run on both sides.**  The answers are the same, or the run counts with an exhausted
counter. -/
theorem Agrees.run (hserver : server.Documented) (h : Agrees use now cache server s)
    {events : List Event} (hadmissible : Admissible use now events) :
    (answers inMemory now cache events = answers (on server) now s events ∧
        ∀ answered ∈ answers (on server) now s events, Succeeded answered) ∨
      (¬∀ answered ∈ answers (on server) now s events, Succeeded answered) ∧
        Exhausts now cache events := by
  induction events generalizing now cache s with
  | nil => exact Or.inl ⟨rfl, by simp [answers]⟩
  | cons event events ih =>
    cases event with
    | elapse milliseconds =>
      refine (ih (h.later hserver (Nat.le_add_right now milliseconds)) hadmissible).imp_right ?_
      rintro ⟨hfails, before, key, window, after, rfl, hexhausted⟩
      exact ⟨hfails, .elapse milliseconds :: before, key, window, after, rfl, hexhausted⟩
    | call call =>
      obtain ⟨hrespects, hlasts, hadmissible⟩ := hadmissible
      rcases h.step hserver hrespects hlasts with
        ⟨result, cache', s', hmemory, hrun, hagrees⟩ | ⟨key, window, s', rfl, hexhausted, hrun⟩
      · have hleft : inMemory now call cache = (.finished (.ok result), cache') := by
          rw [inMemory, hmemory]
        have hright : on server now call s = (.finished (.ok result), s') := hrun
        simp only [answers, hleft, hright, List.forall_mem_cons]
        rcases ih hagrees hadmissible with ⟨hsame, hsucceed⟩ | ⟨hfails, hexhausts⟩
        · exact Or.inl ⟨by rw [hsame], ⟨result, rfl⟩, hsucceed⟩
        · refine Or.inr ⟨fun hall => hfails hall.2, ?_⟩
          obtain ⟨before, key, window, after, rfl, hexhausted⟩ := hexhausts
          refine ⟨.call call :: before, key, window, after, rfl, ?_⟩
          rw [reached, hleft]
          exact hexhausted
      · refine Or.inr ⟨fun hall => ?_, [], key, window, events, rfl, hexhausted⟩
        have hright : on server now (.count key window) s = (.finished (.error .server), s') := hrun
        obtain ⟨result, hresult⟩ := hall _ List.mem_cons_self
        rw [hright] at hresult
        exact absurd hresult (by simp)

/-- **The cache in memory and the cache on a server agree.**  Both start empty and share a clock.
Each key of a run is used for texts, for members of a set or for a counter, and no clock ends
before what is kept for a time.  If no call fails on the server, then every call of the run has
the same answer on both sides.  A call fails only if the run counts with a counter that stands at
the greatest integer of 64 bits. -/
theorem answers_on_eq_inMemory (hserver : server.Documented) {start : Nat}
    (hempty : ∀ key, server.keyspace start s key = none) {events : List Event}
    (hadmissible : Admissible use start events) :
    ((∀ answered ∈ answers (on server) start s events, Succeeded answered) →
        answers inMemory start {} events = answers (on server) start s events) ∧
      ((∃ answered ∈ answers (on server) start s events, ¬Succeeded answered) →
        Exhausts start {} events) := by
  have hagrees : Agrees use start {} server s := by
    refine ⟨rfl, ?_, ?_⟩
    · funext key
      rw [hempty key]
      rfl
    · intro key entry hentry
      exact absurd hentry (by simp [CacheTable.live, CacheTable.live?])
  rcases hagrees.run hserver hadmissible with ⟨hsame, hsucceed⟩ | ⟨hfails, hexhausts⟩
  · refine ⟨fun _ => hsame, ?_⟩
    rintro ⟨answered, hmem, hfailed⟩
    exact absurd (hsucceed answered hmem) hfailed
  · exact ⟨fun hsucceed => absurd hsucceed hfails, fun _ => hexhausts⟩

/-- What the keys of a run with all three uses are for. -/
def mixedUse (key : String) : Use :=
  if key = "session" then .text else if key = "codes" then .members else .counter

/-- A run with all three uses, in which an entry of each kind goes. -/
def mixedRun : List Event :=
  [.call (.swap "session" "first" 2), .call (.swap "session" "second" 2), .call (.get "session"),
    .call (.write [.remove "codes", .addMembers "codes" ["read", "list"], .addMembers "codes" []]),
    .call (.anyMember "codes" ["write", "list"]), .call (.count "client" 1),
    .call (.count "client" 1), .call (.get "client"), .elapse 1500, .call (.count "client" 1),
    .call (.get "session"), .elapse 500, .call (.get "session"), .call (.remove ["codes"]),
    .call (.anyMember "codes" ["list"])]

/-- The run is answered alike on both sides. -/
theorem answers_on_eq_inMemory_mixedRun :
    Admissible mixedUse 0 mixedRun ∧
      answers inMemory 0 {} mixedRun = answers (on Server.ofTable) 0 (∅ : Table) mixedRun := by
  have hadmissible : Admissible mixedUse 0 mixedRun := by
    simp [mixedRun, Admissible, Respects, CallLasts, WriteRespects, Lasts, CacheWrite.Lasts,
      mixedUse]
  have hempty : ∀ key, Server.ofTable.keyspace 0 (∅ : Table) key = none := by
    intro key
    simp [Table.live?]
  have hsucceed : ∀ answered ∈ answers (on Server.ofTable) 0 (∅ : Table) mixedRun,
      Succeeded answered := by
    decide +kernel
  exact ⟨hadmissible,
    (answers_on_eq_inMemory Server.documented_ofTable hempty hadmissible).1 hsucceed⟩

end Redis
end AccountAccess
