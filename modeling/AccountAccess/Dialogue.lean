/-!
# Dialogues with a backend

What the service does is written down apart from what it talks to.  A *dialogue*
makes calls of an interface one after the other and continues with each answer;
it is a tree whose branches are the possible answers.  A *handler* answers the
calls from a state, and `Dialogue.run` plays a dialogue against it.

One definition of an operation therefore serves every backend: the tables in
memory, a scripted server, a backend whose calls are made to fail, a log of the
calls.  It also serves concurrency: between two calls of one dialogue the calls
of any other may be answered.
-/

namespace AccountAccess

/-- An interface: the calls that can be made, and what each is answered with. -/
structure Interface where
  Call : Type
  Answer : Call → Type

/-- A sequence of calls that depends on their answers.  `abort` gives up with no
result: what was asked before stays done. -/
inductive Dialogue (I : Interface) (α : Type) where
  | done (value : α)
  | abort
  | ask (call : I.Call) (next : I.Answer call → Dialogue I α)

/-- How a dialogue ends. -/
inductive Outcome (α : Type) where
  | finished (value : α)
  | aborted
  deriving DecidableEq, Repr

namespace Dialogue

variable {I : Interface} {α β γ σ : Type}

/-- Continues a dialogue with its result. -/
protected def bind : Dialogue I α → (α → Dialogue I β) → Dialogue I β
  | .done a, f => f a
  | .abort, _ => .abort
  | .ask call next, f => .ask call fun answer => (next answer).bind f

instance : Monad (Dialogue I) where
  pure := .done
  bind := Dialogue.bind

/-- One call. -/
def call (c : I.Call) : Dialogue I (I.Answer c) :=
  .ask c .done

@[simp] theorem pure_eq_done (a : α) : (pure a : Dialogue I α) = .done a := rfl

@[simp] theorem done_bind (a : α) (f : α → Dialogue I β) : (Dialogue.done a >>= f) = f a := rfl

@[simp] theorem abort_bind (f : α → Dialogue I β) :
    ((Dialogue.abort : Dialogue I α) >>= f) = .abort := rfl

@[simp] theorem ask_bind (c : I.Call) (next : I.Answer c → Dialogue I α)
    (f : α → Dialogue I β) :
    (Dialogue.ask c next >>= f) = .ask c fun answer => next answer >>= f := rfl

@[simp] theorem call_bind (c : I.Call) (f : I.Answer c → Dialogue I β) :
    (Dialogue.call c >>= f) = .ask c f := rfl

theorem bind_assoc (d : Dialogue I α) (f : α → Dialogue I β) (g : β → Dialogue I γ) :
    d >>= f >>= g = d >>= fun a => f a >>= g := by
  induction d with
  | done => rfl
  | abort => rfl
  | ask c next ih =>
    simp only [ask_bind]
    exact congrArg _ (funext ih)

theorem bind_done (d : Dialogue I α) : d >>= Dialogue.done = d := by
  induction d with
  | done => rfl
  | abort => rfl
  | ask c next ih =>
    simp only [ask_bind]
    exact congrArg _ (funext ih)

instance : LawfulMonad (Dialogue I) :=
  LawfulMonad.mk' (Dialogue I)
    (fun d => bind_done d)
    (fun _ _ => rfl)
    (fun d f g => bind_assoc d f g)

end Dialogue

/-- Answers calls from a state; the answer itself can fail to come. -/
abbrev Handler (I : Interface) (σ : Type) :=
  (call : I.Call) → σ → Outcome (I.Answer call) × σ

namespace Dialogue

variable {I : Interface} {α β σ : Type}

/-- Plays a dialogue against a handler.  A call that is not answered ends it. -/
def run (handler : Handler I σ) : Dialogue I α → σ → Outcome α × σ
  | .done a, s => (.finished a, s)
  | .abort, s => (.aborted, s)
  | .ask call next, s =>
    match handler call s with
    | (.finished answer, s') => (next answer).run handler s'
    | (.aborted, s') => (.aborted, s')

@[simp] theorem run_done (handler : Handler I σ) (a : α) (s : σ) :
    (Dialogue.done a).run handler s = (.finished a, s) := rfl

@[simp] theorem run_abort (handler : Handler I σ) (s : σ) :
    (Dialogue.abort : Dialogue I α).run handler s = (.aborted, s) := rfl

/-- Running a continued dialogue is running its parts in turn. -/
theorem run_bind (handler : Handler I σ) (d : Dialogue I α) (f : α → Dialogue I β) (s : σ) :
    (d >>= f).run handler s =
      match d.run handler s with
      | (.finished a, s') => (f a).run handler s'
      | (.aborted, s') => (.aborted, s') := by
  induction d generalizing s with
  | done => rfl
  | abort => rfl
  | ask c next ih =>
    simp only [ask_bind, run]
    split
    · rename_i answer s' h
      rw [ih answer s']
    · rfl

end Dialogue
end AccountAccess
