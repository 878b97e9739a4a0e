import AccountAccess.Http.RateLimit
import AccountAccess.Proofs.Redis.Counters

/-!
# Clients beyond their limit

The requests of a client are counted on a server.  A request that cannot be counted is admitted,
so a client is refused only by a counter that stands above its limit; a new counter stands at one,
below every limit but zero.  Hence a client that rests is admitted again exactly if its counter
expires, and then the longest of its windows is rest enough.

Whether the counter expires was settled by the calls that went before: it does so unless one of
them opened it and left it without its window.

## Main results

* `count_of_none`, `count_of_counter`: one count, where nothing stands and where a counter does.
* `Admits`, `admits_iff_of_count`: when a request is admitted, by what its count is answered with.
* `not_admits_iff`: a client is refused by a counter that stands at its limit or above.
* `neverExpires_iff`: which counters never expire, and what becomes of their clients.
* `neverExpires_abandoned`: a client that is refused after a minute, and after a year.
-/

namespace AccountAccess
namespace Redis

/-! ## Counting on a server -/

/-- Answers the calls of the cache with a server, and no others. -/
def cacheOn (server : Server) (now : Nat) : Handler serviceInterface server.State
  | .cache call, s => (carry call).run (server.answer now) s
  | _, s => (.aborted, s)

/-- The key under which the requests of a client are counted. -/
def clientKey (client : String) : String :=
  (CacheKey.requests client).text

variable {server : Server} {now : Nat} {s : server.State} {key client : String} {window : UInt64}
  {limit : UInt32}

/-! ## Single counts -/

/-- A new counter stands at one, or it cannot be given its window and the count fails. -/
theorem count_of_none (hserver : server.Documented) (hwindow : IsWindow window)
    (hkey : server.keyspace now s key = none) :
    ∃ result after, (carry (.count key window)).run (server.answer now) s =
      (.finished result, after) ∧ ∀ n, result = .ok n → n = 1 := by
  by_cases hend : now + 1000 * window.toNat < Server.clockEnd
  · obtain ⟨after, hrun, -⟩ := hserver.carries_count (hserver.incrby_none hkey) ⟨hwindow.1, hend⟩
    exact ⟨_, after, hrun, fun n hn => (Except.ok.inj hn).symm⟩
  · obtain ⟨between, hraised, hbetween⟩ := (hserver.incrby_none hkey).run (countedOn key window)
    have hone : server.keyspace now between key = some ⟨.text (Text.decimal 1), none⟩ := by
      rw [hbetween, Function.update_self]
    obtain ⟨text, hexpire⟩ :=
      hserver.expire_beyond hone hwindow.1 hwindow.2 (Nat.not_lt.1 hend)
    rw [← decimal_toInt64 hwindow.2] at hexpire
    obtain ⟨after, hrefused, -⟩ := hexpire.run fun reply =>
      pure ((acknowledged reply).map fun () => (1 : Int64))
    refine ⟨.error .server, after, ?_, fun n hn => absurd hn (by simp)⟩
    rw [carry_count, Server.run_connected, hraised, countedOn_integer, if_pos rfl, hrefused,
      acknowledged, read_error]
    rfl

/-- A counter that stands already is raised, unless it stands at the greatest integer. -/
theorem count_of_counter (hserver : server.Documented) {n : Int64} {expiresAt : Option Nat}
    (hkey : server.keyspace now s key = some ⟨.text (Text.decimal n), expiresAt⟩)
    (hn : 1 ≤ n.toInt) :
    ∃ result after, (carry (.count key window)).run (server.answer now) s =
      (.finished result, after) ∧
        result = if n = Int64.maxValue then .error .server else .ok (n + 1) := by
  by_cases hgreatest : n = Int64.maxValue
  · subst hgreatest
    obtain ⟨after, hrun, -⟩ := hserver.carries_count_greatest window hkey
    exact ⟨_, after, hrun, (if_pos rfl).symm⟩
  · obtain ⟨after, hrun, -⟩ :=
      (hserver.incrby_counter hkey hgreatest).run (countedOn key window)
    refine ⟨_, after, ?_, (if_neg hgreatest).symm⟩
    rw [carry_count, Server.run_connected, hrun, countedOn_integer,
      if_neg (add_one_ne_one hgreatest hn)]
    rfl

/-! ## Admission -/

namespace Moment

variable {moment start : Moment server} {attempts : List Attempt}

/-- A request of a client is admitted. -/
def Admits (moment : Moment server) (client : String) (window : UInt64) (limit : UInt32) : Prop :=
  ((Http.limitRequests window limit client).run (cacheOn server moment.now) moment.state).1 =
    .finished none

instance (moment : Moment server) (client : String) (window : UInt64) (limit : UInt32) :
    Decidable (moment.Admits client window limit) :=
  match h : ((Http.limitRequests window limit client).run (cacheOn server moment.now)
      moment.state).1 with
  | .finished none => isTrue h
  | .finished (some _) | .aborted => isFalse fun hadmits => by
    rw [Admits, h] at hadmits
    exact absurd hadmits (by simp)

/-- A request is admitted unless it is counted and the count is above the limit. -/
theorem admits_iff_of_count {result : Except CacheError Int64} {after : server.State}
    (hcount : (carry (.count (clientKey client) window)).run (server.answer moment.now)
      moment.state = (.finished result, after)) :
    moment.Admits client window limit ↔
      ∀ count, result = .ok count → count.toInt ≤ limit.toNat := by
  rw [clientKey] at hcount
  rw [Admits, Http.limitRequests, Procedure.cache, Dialogue.call_bind, Dialogue.run, cacheOn,
    hcount]
  cases result with
  | error e => exact iff_of_true rfl fun count h => absurd h (by simp)
  | ok count =>
    dsimp only
    split
    · rename_i habove
      refine iff_of_false (by simp) fun h => ?_
      exact absurd (h count rfl) (by omega)
    · rename_i hbelow
      refine iff_of_true rfl fun other h => ?_
      obtain rfl : count = other := Except.ok.inj h
      omega

/-- **A client is refused** by a counter that stands at its limit or above. -/
theorem not_admits_iff (hserver : server.Documented) (hwindow : IsWindow window)
    (hlimit : 0 < limit.toNat) (hcounts : CountsFromOne moment.keyspace (clientKey client)) :
    ¬moment.Admits client window limit ↔ ∃ (n : Int64) (expiresAt : Option Nat),
      moment.keyspace (clientKey client) = some ⟨.text (Text.decimal n), expiresAt⟩ ∧
        n ≠ Int64.maxValue ∧ limit.toNat ≤ n.toInt := by
  cases hkey : moment.keyspace (clientKey client) with
  | none =>
    obtain ⟨result, after, hcount, hfirst⟩ := count_of_none hserver hwindow hkey
    refine iff_of_false (not_not_intro ((admits_iff_of_count hcount).2 ?_)) (by simp)
    intro count hresult
    rw [hfirst count hresult, Int64.toInt_one]
    omega
  | some entry =>
    obtain ⟨value, expiresAt⟩ := entry
    obtain ⟨n, hn, hvalue⟩ := hcounts _ hkey
    obtain rfl : value = .text (Text.decimal n) := hvalue
    have hcounter : ∀ (m : Int64) (at_ : Option Nat), some (Entry.mk (.text (Text.decimal n))
        expiresAt) = some ⟨.text (Text.decimal m), at_⟩ → n = m := by
      intro m at_ hsame
      rw [Option.some.injEq, Entry.mk.injEq, Value.text.injEq] at hsame
      exact Text.decimal_injective hsame.1
    obtain ⟨result, after, hcount, hresult⟩ := count_of_counter hserver hkey hn
    rw [admits_iff_of_count hcount, hresult]
    by_cases hgreatest : n = Int64.maxValue
    · rw [if_pos hgreatest]
      refine iff_of_false (not_not_intro fun count h => absurd h (by simp)) ?_
      rintro ⟨m, at_, hsame, hm, -⟩
      exact hm (hcounter m at_ hsame ▸ hgreatest)
    · have hnext := toInt_add_one hgreatest
      rw [if_neg hgreatest]
      constructor
      · intro hrefused
        refine ⟨n, expiresAt, rfl, hgreatest, ?_⟩
        by_contra hbelow
        refine hrefused fun count h => ?_
        rw [← Except.ok.inj h, hnext]
        omega
      · rintro ⟨m, at_, hsame, -, habove⟩ hadmits
        obtain rfl : n = m := hcounter m at_ hsame
        have hbelow := hadmits _ rfl
        rw [hnext] at hbelow
        omega

/-- **Which counters never expire, and what becomes of their clients.**  Counts are tried one after
the other on a server that is empty at first, and each request of theirs may come to nothing.  A
counter stands without an expiry time exactly if one of the counts opened it and left it without
its window: its second command was refused or not executed in time, or the window ends later than
the clock can show.  A client beyond its limit that rests for as long as its longest window is
admitted again exactly if its counter is none of these. -/
theorem neverExpires_iff (hserver : server.Documented) (hempty : ∀ key, start.keyspace key = none)
    (hwindowed : ∀ attempt ∈ attempts, attempt.IsWindowed) :
    (∀ key, NeverExpires (start.afterAll attempts) key ↔ ∃ before attempt later,
      attempts = before ++ attempt :: later ∧ Cuts (start.afterAll before) key attempt) ∧
    ∀ client window limit rest, IsWindow window → 0 < limit.toNat →
      (∀ attempt ∈ attempts, attempt.IsWithin (clientKey client) rest) →
      ¬(start.afterAll attempts).Admits client window limit →
      (((start.afterAll attempts).after (.elapse (1000 * rest))).Admits client window limit ↔
        ¬NeverExpires (start.afterAll attempts) (clientKey client)) := by
  obtain ⟨hcounts, hnever⟩ := run hserver hempty hwindowed
  refine ⟨hnever, fun client window limit rest hwindow hlimit hwithin hover => ?_⟩
  have hrested : CountsFromOne
      ((start.afterAll attempts).after (.elapse (1000 * rest))).keyspace (clientKey client) :=
    countsFromOne_elapse hserver (1000 * rest) (hcounts _)
  obtain ⟨n, expiresAt, hkey, hn, habove⟩ :=
    (not_admits_iff hserver hwindow hlimit (hcounts _)).1 hover
  have hlater := keyspace_elapse hserver (start.afterAll attempts) (1000 * rest) (clientKey client)
  rw [hkey] at hlater
  rw [← not_iff_not, not_not, not_admits_iff hserver hwindow hlimit hrested, hlater]
  cases expiresAt with
  | none =>
    exact iff_of_true ⟨n, none, rfl, hn, habove⟩ ⟨_, hkey⟩
  | some at_ =>
    have hsoon := within_afterAll hserver hempty hwindowed hwithin hkey
    refine iff_of_false ?_ ?_
    · rw [Option.filter_some, if_neg]
      · simp
      · rw [Entry.isLive, Option.all_some, decide_eq_true_eq]
        omega
    · rintro ⟨value, hvalue⟩
      exact absurd (hkey.symm.trans hvalue) (by simp)

/-- A server on which nothing has been done. -/
def fresh : Moment Server.ofTable :=
  ⟨0, (∅ : Table)⟩

theorem keyspace_fresh (key : String) : fresh.keyspace key = none :=
  rfl

/-- A client whose first count is refused, and two more that are not. -/
def patient : List Attempt :=
  [.count (clientKey "203.0.113.7") 60 fun _ => .refused "LOADING",
    .count (clientKey "203.0.113.7") 60 fun _ => .executed, .elapse 1000,
    .count (clientKey "203.0.113.7") 60 fun _ => .executed]

/-- After a minute the client is admitted again. -/
theorem neverExpires_iff_patient :
    ¬(fresh.afterAll patient).Admits "203.0.113.7" 60 1 ∧
      ((fresh.afterAll patient).after (.elapse (1000 * 60))).Admits "203.0.113.7" 60 1 := by
  have hwindowed : ∀ attempt ∈ patient, attempt.IsWindowed := by
    simp [patient, Attempt.IsWindowed, IsWindow, Server.clockEnd]
  have hwithin : ∀ attempt ∈ patient, attempt.IsWithin (clientKey "203.0.113.7") 60 := by
    simp [patient, Attempt.IsWithin]
  have hover : ¬(fresh.afterAll patient).Admits "203.0.113.7" 60 1 := by decide +kernel
  have hexpires : ¬NeverExpires (fresh.afterAll patient) (clientKey "203.0.113.7") := by
    rintro ⟨value, hvalue⟩
    have hat : ((fresh.afterAll patient).keyspace (clientKey "203.0.113.7")).map (·.expiresAt) =
        some (some 60000) := by decide +kernel
    rw [hvalue] at hat
    exact absurd hat (by simp)
  have hwindow : IsWindow 60 := by simp [IsWindow, Server.clockEnd]
  have hiff := neverExpires_iff Server.documented_ofTable keyspace_fresh hwindowed
  exact ⟨hover, (hiff.2 "203.0.113.7" 60 1 60 hwindow (by decide) hwithin hover).2 hexpires⟩

/-- A client whose counter is opened by a count that fails at its second command. -/
def abandoned : List Attempt :=
  [.count (clientKey "203.0.113.7") 60 fun request => match request with
      | .command ("EXPIRE" :: _) => .refused "LOADING"
      | _ => .executed,
    .count (clientKey "203.0.113.7") 60 fun _ => .executed]

/-- The counter stands without an expiry time, and the client is refused after a minute, and after
a year. -/
theorem neverExpires_abandoned :
    (∀ attempt ∈ abandoned, attempt.IsWindowed) ∧
      ¬(∀ key entry, (fresh.afterAll abandoned).keyspace key = some entry →
        entry.expiresAt ≠ none) ∧
      ¬((fresh.afterAll abandoned).after (.elapse (1000 * 60))).Admits "203.0.113.7" 60 1 ∧
      ¬((fresh.afterAll abandoned).after (.elapse (1000 * 31536000))).Admits
        "203.0.113.7" 60 1 := by
  refine ⟨?_, fun hexpires => ?_, by decide +kernel, by decide +kernel⟩
  · simp [abandoned, Attempt.IsWindowed, IsWindow, Server.clockEnd]
  · have hat : ((fresh.afterAll abandoned).keyspace (clientKey "203.0.113.7")).map (·.expiresAt) =
        some none := by decide +kernel
    obtain ⟨entry, hentry, hnone⟩ := Option.map_eq_some_iff.1 hat
    exact hexpires _ entry hentry hnone

end Moment
end Redis
end AccountAccess
