import AccountAccess.Proofs.Cache.Key
import AccountAccess.Proofs.Service.Effects
import AccountAccess.Session.Code

/-!
# Keeping a code and spending it, call by call

A code is kept by one call and spent by two: it is read, and if it is the one that was
presented it is removed.  The two get names here, since the calls of others can come
between them.

In whichever surroundings, a code is accepted only if it was read, is not empty and was
removed; if anything else happens, the cache is as it was.  In particular an attempt whose removal
fails leaves the code where it is and is not accepted, so the failure can be made good by trying
again.

## Main results

* `consume`, `confirm`, `spend_eq`: what is left of an attempt after each of its calls.
* `run_put_cases`: a code is kept, with an end that lies on the clock, or the cache is as it was.
* `SpendEnds`, `run_spend_cases`: what an attempt to spend a code can come to, in any surroundings.
-/

namespace AccountAccess
namespace OneTimeCode

/-! ## The place of a code -/

/-- The key under which a code is kept. -/
abbrev codeKey (purpose : CodePurpose) (recipient : String) : String :=
  (CacheKey.code purpose recipient).text

theorem codeKey_injective {purpose purpose' : CodePurpose} {recipient recipient' : String}
    (h : codeKey purpose recipient = codeKey purpose' recipient') :
    purpose = purpose' ∧ recipient = recipient' :=
  CacheKey.code.inj (CacheKey.text_injective h)

/-! ## The two calls -/

/-- The last part of spending: the code is removed, and thereby accepted. -/
def consume (purpose : CodePurpose) (recipient : String) : Procedure (Except CacheError Bool) :=
  .ask (.cache (.remove [codeKey purpose recipient])) fun (answer : Except CacheError Unit) =>
    match answer with
    | .error e => .done (.error e)
    | .ok () => .done (.ok true)

/-- Spending after the reading: only the code that was read is removed. -/
def confirm (purpose : CodePurpose) (recipient code : String) (expected : Option String) :
    Procedure (Except CacheError Bool) :=
  if code ≠ "" ∧ expected = some code then consume purpose recipient else .done (.ok false)

theorem spend_eq (purpose : CodePurpose) (recipient code : String) :
    spend purpose recipient code =
      .ask (.cache (.get (codeKey purpose recipient)))
        fun (answer : Except CacheError (Option String)) =>
          match answer with
          | .error e => .done (.error e)
          | .ok expected => confirm purpose recipient code expected := by
  refine congrArg (Dialogue.ask _) (funext fun answer => ?_)
  rcases answer with e | expected
  · rfl
  · refine congrArg (ite (code ≠ "" ∧ expected = some code) · _) ?_
    refine congrArg (Dialogue.ask _) (funext fun answer => ?_)
    rcases answer with e | _
    · rfl
    · rfl

/-! ## The effect of keeping a code -/

/-- **Keeping a code in any surroundings.**  Either it is kept, and then its end lies on the
clock, or the cache is as it was. -/
theorem run_put_cases (before : World) (purpose : CodePurpose) (recipient code : String)
    (ttl : UInt64) :
    ∃ outcome after, before.run (put purpose recipient code ttl) = (outcome, after) ∧
      after.clock = before.clock ∧ after.store = before.store ∧
      ((outcome ≠ .finished (.ok ()) ∧ after.entry = before.entry) ∨
        ∃ deadline, outcome = .finished (.ok ()) ∧ expiry? before.clock ttl = some deadline ∧
          after.entry = Function.update before.entry (codeKey purpose recipient)
            (some (.textUntil code deadline))) := by
  rw [put, World.run, World.run_cache]
  exact before.answer_set_cases (codeKey purpose recipient) code ttl

/-- A code that was kept in calm surroundings stands at its place until it expires. -/
theorem entry_of_run_put {world kept : World} (h : world.Calm) {purpose : CodePurpose}
    {recipient code : String} {ttl : UInt64}
    (hkept : world.run (put purpose recipient code ttl) = (.finished (.ok ()), kept)) :
    kept.Calm ∧ kept.entry (codeKey purpose recipient) =
      some (.textUntil code (world.clock + 1000 * ttl.toNat)) := by
  constructor
  · have hcalm := h.answer (.cache (.set (codeKey purpose recipient) code ttl))
    rw [put, World.run, World.run_cache] at hkept
    rwa [hkept] at hcalm
  · obtain ⟨_, _, hrun, -, -, hput⟩ := run_put_cases world purpose recipient code ttl
    obtain ⟨rfl, rfl⟩ := Prod.mk.inj (hkept.symm.trans hrun)
    obtain ⟨deadline, -, hd, hentry⟩ := hput.resolve_left fun hand => hand.1 rfl
    rw [hentry, Function.update_self, World.eq_of_expiry? hd]

/-! ## The effect of spending -/

/-- What an attempt to spend a code can come to: it is not accepted and the cache is as it
was, or it is accepted and the code is gone. -/
inductive SpendEnds (purpose : CodePurpose) (recipient code : String) (before after : World) :
    Except CacheError Bool → Prop where
  | failed (e : CacheError) (hentry : after.entry = before.entry) :
      SpendEnds purpose recipient code before after (.error e)
  | rejected (hother : ¬(code ≠ "" ∧ before.reads (codeKey purpose recipient) = some code))
      (hentry : after.entry = before.entry) :
      SpendEnds purpose recipient code before after (.ok false)
  | accepted (hnonempty : code ≠ "")
      (hread : before.reads (codeKey purpose recipient) = some code)
      (hentry : after.entry = Function.update before.entry (codeKey purpose recipient) none) :
      SpendEnds purpose recipient code before after (.ok true)

/-- **Spending a code in any surroundings.** -/
theorem run_spend_cases (before : World) (purpose : CodePurpose) (recipient code : String) :
    ∃ result after, before.run (spend purpose recipient code) = (.finished result, after) ∧
      after.clock = before.clock ∧ after.store = before.store ∧
      SpendEnds purpose recipient code before after result := by
  obtain ⟨answer, asked, hanswer, hclock, hstore, hentry, hanswered⟩ :=
    before.answer_get_cases (codeKey purpose recipient)
  rw [World.run, spend_eq, Dialogue.run, hanswer]
  rcases hanswered with rfl | ⟨e, rfl⟩
  · simp only
    by_cases hmatch : code ≠ "" ∧ before.reads (codeKey purpose recipient) = some code
    · obtain ⟨answer, after, hanswer, hclock', hstore', hremoved⟩ :=
        asked.answer_remove_cases (codeKey purpose recipient)
      rw [confirm, if_pos hmatch, consume, Dialogue.run, hanswer]
      rcases hremoved with ⟨e, rfl, hentry'⟩ | ⟨rfl, hentry'⟩
      · exact ⟨.error e, after, rfl, hclock'.trans hclock, hstore'.trans hstore,
          .failed e (hentry'.trans hentry)⟩
      · exact ⟨.ok true, after, rfl, hclock'.trans hclock, hstore'.trans hstore,
          .accepted hmatch.1 hmatch.2 (hentry ▸ hentry')⟩
    · rw [confirm, if_neg hmatch]
      exact ⟨.ok false, asked, rfl, hclock, hstore, .rejected hmatch hentry⟩
  · exact ⟨.error e, asked, rfl, hclock, hstore, .failed e hentry⟩

end OneTimeCode
end AccountAccess
