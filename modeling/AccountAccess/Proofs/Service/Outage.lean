import AccountAccess.Proofs.Service.Faults
import AccountAccess.Proofs.Service.Scope

/-!
# Outages, and what fails closed

In an outage some calls of cache and store fail before they reach their backend.  Which ones,
and with which errors, may depend on everything that was called before, so an outage is any set
of calls of a run at all.

A procedure *fails closed* if nothing that comes after a failed call can grant anything.  This is
seen in the tree of the procedure, one call at a time, and it is kept when procedures are joined
as long as a refusal of the first is a refusal of the whole.  It says more than that failures are
answered with refusals: a run that grants something has met no failure at all, so it is, call by
call, the run that would have been without the outage.

## Main definitions and results

* `ServiceCall.Fails`: a call of cache or store is answered with an error.
* `Refuses`, `FailsClosed`: a procedure grants nothing at all, or nothing after a failed call.
* `FailsClosed.bind`: procedures in a row.
* `Outage`, `answerDuring`, `runDuring`: playing a procedure in an outage.
* `hinders_answerDuring`: an outage only adds failures to what the unhindered surroundings do.
-/

namespace AccountAccess

/-- A call of the cache or of the store is answered with an error. -/
def ServiceCall.Fails : (call : ServiceCall) → call.Answer → Prop
  | .cache _, answer => ∃ e, answer = .error e
  | .store _, answer => ∃ e, answer = .error e
  | _, _ => False

namespace Procedure

variable {ε δ α β σ τ : Type}

/-- A procedure that grants nothing, whatever it is answered. -/
def Refuses (procedure : Procedure (Except ε α)) : Prop :=
  procedure.Every (fun _ => True) fun result => ∃ e, result = .error e

/-- **A procedure fails closed**: after a call that has failed it grants nothing. -/
def FailsClosed : Procedure (Except ε α) → Prop
  | .done _ => True
  | .abort => True
  | .ask call next =>
    (∀ answer, call.Fails answer → Refuses (next answer)) ∧ ∀ answer, FailsClosed (next answer)

theorem Refuses.failsClosed {procedure : Procedure (Except ε α)} (h : procedure.Refuses) :
    procedure.FailsClosed := by
  induction procedure with
  | done result => trivial
  | abort => trivial
  | ask call next ih =>
    have hnext : ∀ answer, Refuses (next answer) := h.2
    exact ⟨fun answer _ => hnext answer, fun answer => ih answer (hnext answer)⟩

/-- **Procedures in a row fail closed** if each does and a refusal of the first refuses
everything. -/
theorem FailsClosed.bind {procedure : Procedure (Except ε α)}
    {next : Except ε α → Procedure (Except δ β)} (h : procedure.FailsClosed)
    (hrefused : ∀ e, Refuses (next (.error e))) (hgranted : ∀ a, FailsClosed (next (.ok a))) :
    FailsClosed (procedure >>= next) := by
  induction procedure with
  | done result =>
    cases result with
    | error e => exact (hrefused e).failsClosed
    | ok a => exact hgranted a
  | abort => trivial
  | ask call rest ih =>
    refine ⟨fun answer hfails => ?_, fun answer => ih answer (h.2 answer)⟩
    have hrest : Refuses (rest answer) := h.1 answer hfails
    refine Dialogue.Every.bind hrest ?_
    rintro result ⟨e, rfl⟩
    exact hrefused e

theorem FailsClosed.ite {c : Prop} [Decidable c] {first second : Procedure (Except ε α)}
    (hfirst : first.FailsClosed) (hsecond : second.FailsClosed) :
    FailsClosed (if c then first else second) := by
  by_cases hc : c
  · rwa [if_pos hc]
  · rwa [if_neg hc]

theorem failsClosed_cache (call : CacheCall) : FailsClosed (Procedure.cache call) :=
  ⟨fun _ hfails => hfails, fun _ => trivial⟩

theorem failsClosed_store (call : StoreCall) : FailsClosed (Procedure.store call) :=
  ⟨fun _ hfails => hfails, fun _ => trivial⟩

/-! ## A run that met failures, beside one that meets none -/

/-- A handler answers a call with a failure, or as another one does; what stands after it
corresponds to what stands after the other. -/
def Hinders (hindered : Handler serviceInterface σ) (sound : Handler serviceInterface τ)
    (Same : σ → τ → Prop) : Prop :=
  ∀ call s t, Same s t →
    (∃ answer, (hindered call s).1 = .finished answer ∧ call.Fails answer) ∨
      ((hindered call s).1 = (sound call t).1 ∧ Same (hindered call s).2 (sound call t).2)

theorem Refuses.run {procedure : Procedure (Except ε α)} (h : procedure.Refuses)
    (handler : Handler serviceInterface σ) (s : σ) (a : α) :
    (procedure.run handler s).1 ≠ .finished (.ok a) := by
  have hrun : Function.const σ True (procedure.run handler s).2 ∧
      ∀ result, (procedure.run handler s).1 = .finished result → ∃ e, result = .error e :=
    Dialogue.Every.run (fun _ _ _ _ => trivial) h trivial
  have hresult := hrun.2
  intro hgranted
  obtain ⟨e, he⟩ := hresult _ hgranted
  exact absurd he (by simp)

/-- **What fails closed grants only what would be granted without the failures.** -/
theorem FailsClosed.run {hindered : Handler serviceInterface σ}
    {sound : Handler serviceInterface τ} {Same : σ → τ → Prop}
    (hhinders : Hinders hindered sound Same)
    {procedure : Procedure (Except ε α)} (h : procedure.FailsClosed) {s : σ} {t : τ}
    (hsame : Same s t) {a : α} (hgranted : (procedure.run hindered s).1 = .finished (.ok a)) :
    (procedure.run sound t).1 = .finished (.ok a) ∧
      Same (procedure.run hindered s).2 (procedure.run sound t).2 := by
  induction procedure generalizing s t with
  | done result => exact ⟨hgranted, hsame⟩
  | abort => exact absurd hgranted (by simp)
  | ask call next ih =>
    have hstep := hhinders call s t hsame
    rw [Dialogue.run] at hgranted
    rcases hanswer : hindered call s with ⟨answer | _, s'⟩
    · rw [hanswer] at hstep hgranted
      rcases hstep with ⟨failure, hfailure, hfails⟩ | ⟨hsound, hsame'⟩
      · -- a failed call: the rest of the procedure could not have granted anything
        obtain rfl : answer = failure := Outcome.finished.inj hfailure
        exact absurd hgranted ((h.1 answer hfails).run hindered s' a)
      · rcases hother : sound call t with ⟨other, t'⟩
        rw [hother] at hsound hsame'
        obtain rfl : .finished answer = other := hsound
        rw [Dialogue.run, hother, Dialogue.run, hanswer]
        exact ih answer (h.2 answer) hsame' hgranted
    · rw [hanswer] at hgranted
      exact absurd hgranted (by simp)

end Procedure

/-! ## Outages -/

/-- Which calls fail, and with which errors: it may depend on the calls before, the last one
first. -/
structure Outage where
  cache : List ServiceCall → CacheCall → Option CacheError
  store : List ServiceCall → StoreCall → Option StoreError

namespace World

/-- Answers a call in an outage: a call that fails is noted and does not reach its backend. -/
def answerDuring (outage : Outage) : Handler serviceInterface World
  | .cache call, world =>
    match outage.cache world.log call with
    | some e => (.finished (.error e), world.noted (.cache call))
    | none => World.answer (.cache call) world
  | .store call, world =>
    match outage.store world.log call with
    | some e => (.finished (.error e), world.noted (.store call))
    | none => World.answer (.store call) world
  | call, world => World.answer call world

/-- Plays a procedure in an outage. -/
def runDuring (world : World) (outage : Outage) {α : Type} (procedure : Procedure α) :
    Outcome α × World :=
  Dialogue.run (answerDuring outage) procedure world

/-- **A question to the store fails, or has the effect that it has in calm surroundings.** -/
theorem answer_store_cases (world : World) (call : StoreCall) :
    (∃ e, (World.answer (.store call) world).1 = .finished (.error e)) ∨
      ((World.answer (.store call) world).1 = (World.answer (.store call) world.unhindered).1 ∧
        (World.answer (.store call) world).2.unhindered =
          (World.answer (.store call) world.unhindered).2) := by
  have hcalm : (world.unhindered.noted (.store call)).strike call.kind =
      (none, world.unhindered.noted (.store call)) := rfl
  obtain ⟨faults, hfaults⟩ := exists_faults_of_strike (world.noted (.store call)) call.kind
  rcases hstrike : (world.noted (.store call)).strike call.kind with ⟨cause, struck⟩
  rw [hstrike] at hfaults
  obtain rfl : struck = { world.noted (.store call) with faults } := hfaults
  cases cause with
  | some cause =>
    refine Or.inl ⟨cause.storeError, ?_⟩
    simp only [World.answer, World.answerStore, hstrike]
  | none =>
    refine Or.inr ⟨?_, ?_⟩
    · simp only [World.answer, World.answerStore, hstrike, hcalm]
      rfl
    · simp only [World.answer, World.answerStore, hstrike, hcalm]
      rfl

/-- **An outage only adds failures** to what the unhindered surroundings do. -/
theorem hinders_answerDuring (outage : Outage) :
    Procedure.Hinders (answerDuring outage) World.answer
      fun world other => other = world.unhindered := by
  rintro call world _ rfl
  cases call with
  | cache call =>
    simp only [answerDuring]
    cases outage.cache world.log call with
    | some e => exact Or.inl ⟨.error e, rfl, e, rfl⟩
    | none =>
      rcases answer_cases world call with ⟨e, after, hanswer, -⟩ | ⟨after, hanswer, hafter⟩
      · exact Or.inl ⟨.error e, by rw [hanswer], e, rfl⟩
      · exact Or.inr ⟨by rw [hanswer], by rw [hanswer, hafter]⟩
  | store call =>
    simp only [answerDuring]
    cases outage.store world.log call with
    | some e => exact Or.inl ⟨.error e, rfl, e, rfl⟩
    | none =>
      rcases answer_store_cases world call with ⟨e, hanswer⟩ | ⟨hanswer, hafter⟩
      · exact Or.inl ⟨.error e, hanswer, e, rfl⟩
      · exact Or.inr ⟨hanswer, hafter.symm⟩
  | _ => exact Or.inr ⟨rfl, rfl⟩

end World
end AccountAccess
