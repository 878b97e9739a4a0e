import AccountAccess.Proofs.Service.Outage

/-!
# Two runs that differ in the causes of failures

A call of cache or store that fails is answered with an error, and the error says why.  Two
answers to one call are *alike* if they are equal or if both are errors; two procedures are alike
if they make the same calls for as long as the answers are alike.  What a procedure shows of an
error is then seen in the results that alike procedures may end with, and a relation of results
is carried through procedures in a row by `Alike.bind`.

The surroundings come in only at the end.  Surroundings that differ in the causes of the faults
that are set, in an outage that fails the same calls for other reasons, answer every call alike
and are left differing in the causes alone.

## Main definitions and results

* `SameUpTo`: two results that are equal, unless both are errors.
* `Alike`: two procedures that make the same calls for as long as they are answered alike.
* `Blurs`: a procedure that is alike to itself, up to a relation of its results.
* `Alike.bind`, `Alike.andThen`: procedures in a row, and what goes on with one result of both.
* `Alike.run`: alike procedures, answered alike, end alike.
* `DiffersInCauses`, `answersAlike`: surroundings that differ in causes answer alike.
-/

namespace AccountAccess

variable {ε δ α β γ κ σ τ : Type}

/-! ## Results and answers -/

/-- Two results that are equal, unless both are errors; then the errors are only related. -/
inductive SameUpTo (Related : ε → ε → Prop) : Except ε α → Except ε α → Prop where
  | ok (a : α) : SameUpTo Related (.ok a) (.ok a)
  | error {e other : ε} (h : Related e other) : SameUpTo Related (.error e) (.error other)

/-- Two results that are equal, or errors both. -/
abbrev SameUpToCause : Except ε α → Except ε α → Prop :=
  SameUpTo fun _ _ => True

theorem SameUpTo.refl {Related : ε → ε → Prop} (hrefl : ∀ e, Related e e) (result : Except ε α) :
    SameUpTo Related result result := by
  cases result with
  | error e => exact .error (hrefl e)
  | ok a => exact .ok a

theorem SameUpTo.eq {result other : Except ε α} (h : SameUpTo Eq result other) :
    result = other := by
  cases h with
  | ok a => rfl
  | error h => rw [h]

/-- Two answers to a call that differ at most in the cause of a failure. -/
def ServiceCall.Alike : (call : ServiceCall) → call.Answer → call.Answer → Prop
  | .cache _, answer, other => SameUpToCause answer other
  | .store _, answer, other => SameUpToCause answer other
  | .retrieve _, answer, other => answer = other
  | .remember .., answer, other => answer = other
  | .now, answer, other => answer = other
  | .random, answer, other => answer = other

theorem ServiceCall.Alike.refl (call : ServiceCall) (answer : call.Answer) :
    call.Alike answer answer := by
  cases call with
  | cache call => exact SameUpTo.refl (fun _ => trivial) answer
  | store call => exact SameUpTo.refl (fun _ => trivial) answer
  | _ => exact rfl

namespace Procedure

/-! ## Procedures -/

/-- **Two procedures that make the same calls for as long as they are answered alike**, and end
alike, with related values. -/
inductive Alike (Related : α → β → Prop) : Procedure α → Procedure β → Prop where
  | done {a : α} {b : β} (h : Related a b) : Alike Related (.done a) (.done b)
  | abort : Alike Related .abort .abort
  | ask (call : ServiceCall) {next : call.Answer → Procedure α} {rest : call.Answer → Procedure β}
      (h : ∀ answer other, call.Alike answer other → Alike Related (next answer) (rest other)) :
      Alike Related (.ask call next) (.ask call rest)

/-- A procedure that shows no more of the causes of failures than a relation of its results
lets through: answered alike, it makes the same calls and ends with related values. -/
abbrev Blurs (Related : α → α → Prop) (procedure : Procedure α) : Prop :=
  Alike Related procedure procedure

theorem Alike.bind {Related : α → β → Prop} {Ends : γ → κ → Prop} {procedure : Procedure α}
    {other : Procedure β} {next : α → Procedure γ} {rest : β → Procedure κ}
    (h : Alike Related procedure other)
    (hnext : ∀ a b, Related a b → Alike Ends (next a) (rest b)) :
    Alike Ends (procedure >>= next) (other >>= rest) := by
  induction h with
  | done hvalues => exact hnext _ _ hvalues
  | abort => exact .abort
  | ask call _ ih => exact .ask call ih

theorem Alike.andThen {Related : ε → ε → Prop} {Ends : γ → κ → Prop}
    {procedure other : Procedure (Except ε α)} {next : Except ε α → Procedure γ}
    {rest : Except ε α → Procedure κ} (h : Alike (SameUpTo Related) procedure other)
    (herror : ∀ e e', Related e e' → Alike Ends (next (.error e)) (rest (.error e')))
    (hok : ∀ a, Alike Ends (next (.ok a)) (rest (.ok a))) :
    Alike Ends (procedure >>= next) (other >>= rest) := by
  refine h.bind fun result result' hresults => ?_
  cases hresults with
  | ok a => exact hok a
  | error hcauses => exact herror _ _ hcauses

theorem Alike.andThenSame {Ends : γ → κ → Prop} {procedure other : Procedure α}
    {next : α → Procedure γ} {rest : α → Procedure κ} (h : Alike Eq procedure other)
    (hnext : ∀ a, Alike Ends (next a) (rest a)) :
    Alike Ends (procedure >>= next) (other >>= rest) := by
  refine h.bind fun a b hvalues => ?_
  rw [hvalues]
  exact hnext b

theorem Alike.ite {Ends : α → β → Prop} {c : Prop} [Decidable c] {first second : Procedure α}
    {other rest : Procedure β} (hfirst : Alike Ends first other)
    (hsecond : Alike Ends second rest) :
    Alike Ends (if c then first else second) (if c then other else rest) := by
  by_cases hc : c
  · rwa [if_pos hc, if_pos hc]
  · rwa [if_neg hc, if_neg hc]

/-! ## Single calls -/

theorem blurs_cache (call : CacheCall) : (Procedure.cache call).Blurs SameUpToCause :=
  .ask (.cache call) fun _ _ => .done

theorem blurs_store (call : StoreCall) : (Procedure.store call).Blurs SameUpToCause :=
  .ask (.store call) fun _ _ => .done

theorem blurs_retrieve (account : Int64) : (Procedure.retrieve account).Blurs Eq :=
  .ask (.retrieve account) fun _ _ => .done

theorem blurs_remember (account : Int64) (snapshot : Account) :
    (Procedure.remember account snapshot).Blurs Eq :=
  .ask (.remember account snapshot) fun _ _ => .done

theorem blurs_now : Procedure.now.Blurs Eq :=
  .ask .now fun _ _ => .done

theorem blurs_random : Procedure.random.Blurs Eq :=
  .ask .random fun _ _ => .done

/-! ## Runs -/

/-- Two ends of a procedure: both without a value, or with related values. -/
inductive EndsAlike (Related : α → β → Prop) : Outcome α → Outcome β → Prop where
  | finished {a : α} {b : β} (h : Related a b) : EndsAlike Related (.finished a) (.finished b)
  | aborted : EndsAlike Related .aborted .aborted

/-- Two handlers that answer alike from corresponding states. -/
def AnswersAlike (handler : Handler serviceInterface σ) (other : Handler serviceInterface τ)
    (Same : σ → τ → Prop) : Prop :=
  ∀ call s t, Same s t →
    EndsAlike call.Alike (handler call s).1 (other call t).1 ∧
      Same (handler call s).2 (other call t).2

/-- **Alike procedures, answered alike, end alike.** -/
theorem Alike.run {Related : α → β → Prop} {handler : Handler serviceInterface σ}
    {other : Handler serviceInterface τ} {Same : σ → τ → Prop}
    (hanswers : AnswersAlike handler other Same) {procedure : Procedure α}
    {rest : Procedure β} (h : Alike Related procedure rest) {s : σ} {t : τ} (hsame : Same s t) :
    EndsAlike Related (procedure.run handler s).1 (rest.run other t).1 ∧
      Same (procedure.run handler s).2 (rest.run other t).2 := by
  induction h generalizing s t with
  | done hvalues => exact ⟨.finished hvalues, hsame⟩
  | abort => exact ⟨.aborted, hsame⟩
  | ask call _ ih =>
    have hstep := hanswers call s t hsame
    rcases hleft : handler call s with ⟨left, s'⟩
    rcases hright : other call t with ⟨right, t'⟩
    rw [hleft, hright] at hstep
    obtain ⟨hends, hsame'⟩ := hstep
    simp only [Dialogue.run, hleft, hright]
    cases hends with
    | finished halike => exact ih _ _ halike hsame'
    | aborted => exact ⟨.aborted, hsame'⟩

theorem EndsAlike.eq {outcome other : Outcome α} (h : EndsAlike Eq outcome other) :
    outcome = other := by
  cases h with
  | finished hvalues => rw [hvalues]
  | aborted => rfl

end Procedure

/-! ## Surroundings that differ in causes -/

theorem both_or_none {cause : Option α} {other : Option β} (h : cause.isSome = other.isSome) :
    (cause = none ∧ other = none) ∨ ∃ a b, cause = some a ∧ other = some b := by
  cases cause with
  | none => exact Or.inl ⟨rfl, Option.not_isSome_iff_eq_none.1 (by simp [← h])⟩
  | some a =>
    obtain ⟨b, hb⟩ := Option.isSome_iff_exists.1 h.symm
    exact Or.inr ⟨a, b, rfl, hb⟩

open Procedure (EndsAlike AnswersAlike)

/-- Two outages in which the same calls fail, perhaps for other reasons. -/
structure Outage.SamePlaces (outage other : Outage) : Prop where
  cache : ∀ log call, (outage.cache log call).isSome = (other.cache log call).isSome
  store : ∀ log call, (outage.store log call).isSome = (other.store log call).isSome

namespace World

/-- **Surroundings that differ at most in the causes of the faults that are set**: the same kinds
of calls fail after the same numbers of calls, and everything else is equal. -/
def DiffersInCauses (world other : World) : Prop :=
  ∃ faults, other = { world with faults } ∧
    ∀ kind, (faults kind).map Fault.passes = (world.faults kind).map Fault.passes

theorem isSome_strike (world : World) (kind : CallKind) :
    (world.strike kind).1.isSome = ((world.faults kind).map Fault.passes == some 0) := by
  rw [strike]
  rcases world.faults kind with _ | ⟨_ | passes, cause⟩ <;> rfl

/-- One call of a kind less passes after a call of the kind. -/
theorem passes_strike (world : World) (kind k : CallKind) :
    ((world.strike kind).2.faults k).map Fault.passes =
      if k = kind then ((world.faults kind).map Fault.passes).map Nat.pred
      else (world.faults k).map Fault.passes := by
  rw [strike]
  by_cases hk : k = kind
  · subst hk
    rw [if_pos rfl]
    rcases hfault : world.faults k with _ | ⟨_ | passes, cause⟩
    · exact congrArg _ hfault
    · exact congrArg _ hfault
    · simp [setFault]
  · rw [if_neg hk]
    rcases world.faults kind with _ | ⟨_ | passes, cause⟩
    · rfl
    · rfl
    · simp [setFault, hk]

namespace DiffersInCauses

variable {world other : World}

theorem noted (h : DiffersInCauses world other) (call : ServiceCall) :
    DiffersInCauses (world.noted call) (other.noted call) := by
  obtain ⟨faults, rfl, hpasses⟩ := h
  exact ⟨faults, rfl, hpasses⟩

theorem isSome_strike (h : DiffersInCauses world other) (kind : CallKind) :
    (world.strike kind).1.isSome = (other.strike kind).1.isSome := by
  obtain ⟨faults, rfl, hpasses⟩ := h
  rw [World.isSome_strike, World.isSome_strike, hpasses kind]

theorem strike (h : DiffersInCauses world other) (kind : CallKind) :
    DiffersInCauses (world.strike kind).2 (other.strike kind).2 := by
  obtain ⟨faults, rfl, hpasses⟩ := h
  obtain ⟨left, hleft⟩ := exists_faults_of_strike world kind
  obtain ⟨right, hright⟩ := exists_faults_of_strike { world with faults } kind
  refine ⟨right, by rw [hleft, hright], fun k => ?_⟩
  have hstruck := passes_strike { world with faults } kind k
  rw [hright] at hstruck
  rw [passes_strike, hstruck, hpasses kind, hpasses k]

/-- A cache call is answered alike, struck or not. -/
theorem answerCache (h : DiffersInCauses world other) (call : CacheCall) :
    EndsAlike (ServiceCall.cache call).Alike (world.answerCache call).1
        (other.answerCache call).1 ∧
      DiffersInCauses (world.answerCache call).2 (other.answerCache call).2 := by
  have hisSome := (h.noted (.cache call)).isSome_strike call.kind
  have hstruck := (h.noted (.cache call)).strike call.kind
  rcases hleft : (world.noted (.cache call)).strike call.kind with ⟨cause, struck⟩
  rcases hright : (other.noted (.cache call)).strike call.kind with ⟨cause', struck'⟩
  rw [hleft, hright] at hisSome hstruck
  simp only [World.answerCache, hleft, hright]
  rcases both_or_none hisSome with ⟨rfl, rfl⟩ | ⟨cause, cause', rfl, rfl⟩
  · obtain ⟨faults, rfl, hpasses⟩ := hstruck
    dsimp only
    rcases struck.cache.answer struck.clock call with ⟨_ | answer, cache⟩
    · exact ⟨.aborted, faults, rfl, hpasses⟩
    · exact ⟨.finished (.refl (.cache call) answer), faults, rfl, hpasses⟩
  · exact ⟨.finished (.error trivial), hstruck⟩

/-- A store call is answered alike, struck or not. -/
theorem answerStore (h : DiffersInCauses world other) (call : StoreCall) :
    SameUpToCause (world.answerStore call).1 (other.answerStore call).1 ∧
      DiffersInCauses (world.answerStore call).2 (other.answerStore call).2 := by
  have hisSome := (h.noted (.store call)).isSome_strike call.kind
  have hstruck := (h.noted (.store call)).strike call.kind
  rcases hleft : (world.noted (.store call)).strike call.kind with ⟨cause, struck⟩
  rcases hright : (other.noted (.store call)).strike call.kind with ⟨cause', struck'⟩
  rw [hleft, hright] at hisSome hstruck
  simp only [World.answerStore, hleft, hright]
  rcases both_or_none hisSome with ⟨rfl, rfl⟩ | ⟨cause, cause', rfl, rfl⟩
  · obtain ⟨faults, rfl, hpasses⟩ := hstruck
    exact ⟨.ok _, faults, rfl, hpasses⟩
  · exact ⟨.error trivial, hstruck⟩

end DiffersInCauses

/-- **Surroundings that differ in causes answer alike**, also in outages that differ in causes,
and what is left of them differs in causes alone. -/
theorem answersAlike {outage other : Outage} (h : outage.SamePlaces other) :
    AnswersAlike (answerDuring outage) (answerDuring other) DiffersInCauses := by
  intro call world world' hworlds
  have hlog : world'.log = world.log := by
    obtain ⟨faults, rfl, -⟩ := hworlds
    rfl
  cases call with
  | cache call =>
    rw [answerDuring, answerDuring, hlog]
    rcases both_or_none (h.cache world.log call) with ⟨hleft, hright⟩ | ⟨e, e', hleft, hright⟩
    · rw [hleft, hright]
      exact hworlds.answerCache call
    · rw [hleft, hright]
      exact ⟨.finished (.error trivial), hworlds.noted _⟩
  | store call =>
    rw [answerDuring, answerDuring, hlog]
    rcases both_or_none (h.store world.log call) with ⟨hleft, hright⟩ | ⟨e, e', hleft, hright⟩
    · rw [hleft, hright]
      obtain ⟨hanswers, hafter⟩ := hworlds.answerStore call
      exact ⟨.finished hanswers, hafter⟩
    · rw [hleft, hright]
      exact ⟨.finished (.error trivial), hworlds.noted _⟩
  | _ =>
    obtain ⟨faults, rfl, hpasses⟩ := hworlds
    exact ⟨.finished rfl, faults, rfl, hpasses⟩

end World
end AccountAccess
