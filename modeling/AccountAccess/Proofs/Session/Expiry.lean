import AccountAccess.Proofs.Grant.Rebuild
import AccountAccess.Proofs.Service.Passing
import AccountAccess.Settings

/-!
# When a login says that its session expires

Signing in first *enters*: it finds out who signs in, refreshes the codes and opens the session in
the cache.  Only then does it *conclude*: it looks at the wall, notes that time, and adds the
lifetime of the session to it.

A lifetime may be any number of seconds of 64 bits.  The cache cannot keep a token for longer than
its clock counts; a lifetime that it takes is small enough to be the same number as a signed one.
The calendar ends much earlier than that clock.  So of a login that has entered there is one thing
left to ask, whether the calendar holds the sum: if so, the login tells exactly the sum, which is
no earlier than the deadline of the token, and if not, it breaks off and the token stands.

Time passes between the calls, so the deadline of the token and the time that is told are counted
from different moments.  They are compared on the wall, where a deadline of the cache stays the same
moment however much time passes.

## Main results

* `expiryOf_eq`: which lifetimes are added exactly.
* `Attempt.procedure_eq_enter`: signing in is entering and then concluding.
* `deadline_of_issue`, `Attempt.issue_of_enter`: the token of a login that has entered.
* `run_conclude`: what a login concludes.
* `login_tells_exact_expiry`: what a login that has opened its session ends with.
* `login_breaks_off_opened`: a login that breaks off after it has opened its session.
-/

namespace AccountAccess

/-! ## Adding a lifetime -/

theorem Timestamp.totalNanos_add (t : Timestamp) (span : Int) :
    totalNanos { t with seconds := t.seconds + span } = t.totalNanos + 1000000000 * span := by
  unfold totalNanos
  dsimp only
  omega

namespace Session

/-- A lifetime that the clock of the cache can take is added exactly, as far as the calendar
goes. -/
theorem expiryOf_eq {now : Timestamp} {ttl : UInt64} (hnow : Timestamp.earliest ≤ now.seconds)
    (httl : ttl.toNat < clockEnd) :
    expiryOf now ttl = if now.seconds + ttl.toNat ≤ Timestamp.latest then
      some { now with seconds := now.seconds + ttl.toNat } else none := by
  have hsigned : ttl.toInt64.toInt = ttl.toNat := Text.toInt_toInt64 (httl.trans (by decide))
  rw [expiryOf, Timestamp.addSeconds?, hsigned]
  refine if_congr ?_ rfl rfl
  -- The whole calendar is shorter than the longest span.
  unfold Timestamp.longestSpan Timestamp.latest Timestamp.earliest at *
  omega

/-! ## The two parts of signing in -/

/-- Signs in as far as a session is opened: the account and its token. -/
def Attempt.enter (primitives : Primitives) (ttl : UInt64) (scene : Scene) (attempt : Attempt) :
    Procedure (Except LoginFailure (Account × String)) := do
  match ← attempt.authenticate primitives with
  | .error failure => return .error failure
  | .ok account => Grant.refresh account >>= enterRefreshed ttl account scene

/-- **Signing in is entering and then concluding.** -/
theorem Attempt.procedure_eq_enter (primitives : Primitives) (ttl : UInt64) (scene : Scene)
    (attempt : Attempt) :
    attempt.procedure primitives ttl scene =
      attempt.enter primitives ttl scene >>= conclude ttl := by
  rw [procedure_eq, enter, Dialogue.bind_assoc]
  refine congrArg (attempt.authenticate primitives >>= ·) (funext fun found => ?_)
  rcases found with failure | account
  · rfl
  · dsimp only
    rw [Dialogue.bind_assoc]
    exact congrArg (Grant.refresh account >>= ·) (funext (openRefreshed_eq ttl account scene))

/-! ## Entering -/

section Entering

variable {primitives : Primitives} {attempt : Attempt} {scene : Scene} {ttl : UInt64}
  {start s t : Passing} {owner : SessionOwner} {account : Account} {token : String}

/-- What follows on writing a token never names its key again. -/
theorem names_takeOver (owner : SessionOwner) (token : String) (ttl : UInt64) :
    (takeOver owner token ttl).Names (· ≠ .token token) := by
  refine (Procedure.names_cache (.slot owner.account owner.scene) rfl
    (fun hkey => CacheKey.noConfusion hkey)).bind fun swapped => ?_
  rcases swapped with e | _ | previous
  · exact .done _
  · exact .done _
  · dsimp only [afterSwap]
    by_cases hsame : previous = token
    · rw [if_pos hsame]
      exact .done _
    · rw [if_neg hsame]
      exact Procedure.names_cache (.token previous) rfl fun hkey => hsame (CacheKey.token.inj hkey)

/-- A text that is written ends its lifetime later, as the wall shows it. -/
theorem deadline_of_set {world after : World} {key value : String}
    (h : World.answer (.cache (.set key value ttl)) world = (.finished (.ok ()), after)) :
    ttl.toNat < clockEnd ∧ ∃ deadline, after.entry key = some (.textUntil value deadline) ∧
      after.onWall deadline = after.wall.totalNanos + 1000000000 * ttl.toNat := by
  obtain ⟨outcome, written, hanswer, hclock, -,
    ⟨hrefused, -⟩ | ⟨deadline, -, hdeadline, hentry⟩⟩ := world.answer_set_cases key value ttl
  · rw [h] at hanswer
    exact absurd (Prod.mk.inj hanswer).1.symm hrefused
  · obtain rfl : after = written := (Prod.mk.inj (h.symm.trans hanswer)).2
    have hlt : ttl.toNat < clockEnd := by
      by_contra hlong
      rw [expiry?_eq_none (by omega)] at hdeadline
      exact absurd hdeadline (by simp)
    refine ⟨hlt, deadline, ?_, ?_⟩
    · rw [hentry, Function.update_self]
    · rw [World.onWall, World.eq_of_expiry? hdeadline, hclock]
      omega

/-- **A session that is opened** has a lifetime that the clock of the cache can take, and its token
stands with a deadline that lies no further ahead. -/
theorem deadline_of_issue (h : s.run (issue owner token ttl) = (.finished (.ok ()), t)) :
    ttl.toNat < clockEnd ∧ ∃ deadline,
      t.world.entry (tokenKey token) = some (.textUntil owner.render deadline) ∧
      t.world.onWall deadline ≤ t.world.wall.totalNanos + 1000000000 * ttl.toNat := by
  rw [issue_eq, Passing.run_ask_eq_finished] at h
  obtain ⟨written, hwritten, h⟩ := h
  rcases written with e | _
  · exact absurd h (by simp [Passing.run])
  obtain ⟨hlt, deadline, hentry, hmoment⟩ := deadline_of_set (Prod.ext hwritten rfl)
  obtain rfl := congrArg Prod.snd h
  refine ⟨hlt, deadline, ?_, ?_⟩
  · exact (Passing.entry_run _ (names_takeOver owner token ttl) (not_not_intro rfl)).trans hentry
  · refine (Passing.onWall_run _ (takeOver owner token ttl) deadline).trans_le ?_
    exact hmoment.trans_le
      (Int.add_le_add_right (Passing.wall_le_run _ (takeOver owner token ttl)).2 _)

/-- Whoever has entered has opened a session with the token. -/
theorem Attempt.issue_of_enter
    (h : start.run (attempt.enter primitives ttl scene) = (.finished (.ok (account, token)), t)) :
    ∃ s : Passing, s.run (issue ⟨account.id, scene⟩ token ttl) = (.finished (.ok ()), t) := by
  obtain ⟨found, known, -, h⟩ := Passing.run_bind_eq_finished.1 h
  rcases found with failure | signing
  · exact absurd h (by simp [Passing.run])
  obtain ⟨refreshed, ready, -, h⟩ := Passing.run_bind_eq_finished.1 h
  rcases refreshed with e | codes
  · exact absurd h (by simp [Passing.run, enterRefreshed])
  obtain ⟨bytes, drawn, -, h⟩ := Passing.run_bind_eq_finished.1 h
  obtain ⟨issued, opened, hissue, h⟩ := Passing.run_bind_eq_finished.1 h
  rcases issued with e | _
  · exact absurd h (by simp [Passing.run])
  obtain ⟨⟨rfl, rfl⟩, rfl⟩ : (signing = account ∧ freshToken bytes = token) ∧ opened = t := by
    simpa [Passing.run] using h
  exact ⟨drawn, hissue⟩

end Entering

/-! ## Concluding -/

/-- **What a login concludes**: it notes the time that the wall shows, and tells the sum of that
time and the lifetime if there is one. -/
theorem run_conclude (s : Passing) (ttl : UInt64) (account : Account) (token : String) :
    (s.run (conclude ttl (.ok (account, token)))).2.world.log.head? =
        some (.store (.setLastLogin account.id s.moment.wall)) ∧
      ∃ told ∈ [account, { account with lastLoginAt := some s.moment.wall }],
        (s.run (conclude ttl (.ok (account, token)))).1 =
          (expiryOf s.moment.wall ttl).elim .aborted fun expiresAt =>
            .finished (.ok ⟨told, token, expiresAt⟩) := by
  rw [conclude, Passing.run_now, Passing.run_store]
  refine ⟨?_, ?_⟩
  · cases expiryOf s.moment.wall ttl with
    | none => exact congrArg List.head? (World.log_answerStore ..)
    | some expiresAt => exact congrArg List.head? (World.log_answerStore ..)
  · generalize ((s.next s.moment).moment.answerStore _).1 = noted
    rcases noted with e | _
    · refine ⟨account, List.mem_cons_self, ?_⟩
      cases expiryOf s.moment.wall ttl with
      | _ => rfl
    · refine ⟨_, List.mem_cons_of_mem _ List.mem_cons_self, ?_⟩
      cases expiryOf s.moment.wall ttl with
      | _ => rfl

/-! ## The whole login -/

/-- **What a login that has opened its session ends with.**  It notes the time that the wall shows
then.  If the calendar holds the sum of that time and the lifetime, the login tells it, and the
deadline of the token is no later; otherwise the login breaks off.  The token stands in either
case. -/
theorem login_tells_exact_expiry (primitives : Primitives) (attempt : Attempt) (scene : Scene)
    (ttl : UInt64) {start entered : Passing}
    (hwall : Timestamp.earliest ≤ start.world.wall.seconds) {account : Account} {token : String}
    (hentered : start.run (attempt.enter primitives ttl scene) =
      (.finished (.ok (account, token)), entered)) :
    ∃ outcome after deadline, start.run (attempt.procedure primitives ttl scene) =
        (outcome, after) ∧
      after.world.log.head? = some (.store (.setLastLogin account.id entered.moment.wall)) ∧
      after.world.entry (tokenKey token) =
        some (.textUntil (SessionOwner.render ⟨account.id, scene⟩) deadline) ∧
      if entered.moment.wall.seconds + ttl.toNat ≤ Timestamp.latest then
        ∃ opened, outcome = .finished (.ok opened) ∧ opened.token = token ∧
          opened.account ∈ [account, { account with lastLoginAt := some entered.moment.wall }] ∧
          opened.expiresAt =
            { entered.moment.wall with seconds := entered.moment.wall.seconds + ttl.toNat } ∧
          after.world.onWall deadline ≤ opened.expiresAt.totalNanos
      else outcome = .aborted := by
  obtain ⟨s, hissue⟩ := Attempt.issue_of_enter hentered
  obtain ⟨httl, deadline, hentry, hdeadline⟩ := deadline_of_issue hissue
  have hnow : Timestamp.earliest ≤ entered.moment.wall.seconds := by
    have hrun := (start.wall_le_run (attempt.enter primitives ttl scene)).1
    rw [hentered] at hrun
    exact (hwall.trans hrun).trans (Timestamp.seconds_le_later ..)
  obtain ⟨hlog, told, htold, houtcome⟩ := run_conclude entered ttl account token
  have hlogin : start.run (attempt.procedure primitives ttl scene) =
      entered.run (conclude ttl (.ok (account, token))) := by
    rw [attempt.procedure_eq_enter, Passing.run_bind hentered]
  refine ⟨(entered.run (conclude ttl (.ok (account, token)))).1,
    (entered.run (conclude ttl (.ok (account, token)))).2, deadline, hlogin, hlog, ?_, ?_⟩
  · exact (entered.entry_run (names_conclude (fun _ => False) ttl _) not_false).trans hentry
  · rw [houtcome, expiryOf_eq hnow httl]
    by_cases hfits : entered.moment.wall.seconds + ttl.toNat ≤ Timestamp.latest
    · rw [if_pos hfits, if_pos hfits]
      refine ⟨_, rfl, rfl, htold, rfl, ?_⟩
      have hstamped : entered.world.wall.totalNanos ≤ entered.moment.wall.totalNanos :=
        Timestamp.totalNanos_le_later ..
      rw [entered.onWall_run, Timestamp.totalNanos_add]
      omega
    · rw [if_neg hfits, if_neg hfits]
      rfl

/-- Somebody who knows the password of the account. -/
def knowing : Attempt :=
  .withPassword "alice" "Abcdef12"

/-- The token that is made of zeros. -/
def zeroToken : String :=
  freshToken (Vector.replicate 16 0)

/-- Surroundings in which a quarter of a second passes before every call. -/
def unhurried : Passing :=
  ⟨withAlice, fun _ => 250⟩

theorem login_tells_exact_expiry_unhurried :
    Timestamp.earliest ≤ unhurried.world.wall.seconds ∧
      (unhurried.run (knowing.enter plain 60 .web)).1 =
        .finished (.ok (MemoryStore.alice, zeroToken)) ∧
      ∃ opened after deadline, unhurried.run (knowing.procedure plain 60 .web) =
          (.finished (.ok opened), after) ∧
        after.world.entry (tokenKey zeroToken) = some (.textUntil "1:Web" deadline) ∧
        opened.expiresAt = ⟨61, 750000000⟩ ∧
        after.world.onWall deadline ≤ opened.expiresAt.totalNanos := by
  have hwall : Timestamp.earliest ≤ unhurried.world.wall.seconds := by decide
  have hentered : (unhurried.run (knowing.enter plain 60 .web)).1 =
      .finished (.ok (MemoryStore.alice, zeroToken)) := by decide +kernel
  have hstamped : (unhurried.run (knowing.enter plain 60 .web)).2.moment.wall =
      ⟨1, 750000000⟩ := by decide +kernel
  have hrun : unhurried.run (knowing.enter plain 60 .web) =
      (.finished (.ok (MemoryStore.alice, zeroToken)),
        (unhurried.run (knowing.enter plain 60 .web)).2) := Prod.ext hentered rfl
  obtain ⟨outcome, after, deadline, hlogin, -, hentry, hends⟩ :=
    login_tells_exact_expiry plain knowing .web 60 hwall hrun
  rw [hstamped, if_pos (by decide)] at hends
  obtain ⟨opened, rfl, -, -, hexpires, hdeadline⟩ := hends
  exact ⟨hwall, hentered, opened, after, deadline, hlogin, hentry, hexpires, hdeadline⟩

/-- Variables with a lifetime of more seconds than the calendar has. -/
def longLived : Settings.Environment := fun name =>
  if name = "TOKEN_EXPIRE_SECONDS" then some (Text.toBytes "1000000000000000")
  else if name = "DATABASE_URL" ∨ name = "REDIS_URL" then some (Text.toBytes "localhost")
  else none

/-- **A login breaks off after it has opened its session.**  The settings take the lifetime, and so
does the cache; the token resolves, and nobody is told of it. -/
theorem login_breaks_off_opened :
    (Settings.ofEnvironment longLived).map Settings.tokenTtl = .ok 1000000000000000 ∧
      (unhurried.run (knowing.enter plain 1000000000000000 .web)).1 =
        .finished (.ok (MemoryStore.alice, zeroToken)) ∧
      (unhurried.run (knowing.procedure plain 1000000000000000 .web)).1 = .aborted ∧
      ((unhurried.run (knowing.procedure plain 1000000000000000 .web)).2.run
        (resolve zeroToken)).1 = .finished (.ok (some ⟨1, .web⟩)) := by
  refine ⟨?_, ?_, ?_, ?_⟩
  · decide +kernel
  · decide +kernel
  · decide +kernel
  · decide +kernel

end Session
end AccountAccess
