import AccountAccess.Proofs.Code.Request
import AccountAccess.Proofs.Service.Pool

/-!
# A code that several tasks want

A code is read by one call and removed by another.  Between the two it is still there for
everybody, so what matters is not who removes it first but who has read it by then.  A task
reads the code *in time* if it reads it before it expires and before anybody has removed it.

A task here is anything that spends the code at most once: an attempt to spend it and
nothing else, or a whole request that presents it.  `Presents` is what they have in common.
Seen from the code a task is ahead of its reading, or about to remove the code, or past it,
and `Standing` says what is known of it in each of the three.  Every turn keeps this, so the
tasks whose code is accepted are exactly those that presented the right one and read it in
time.

## Why the calls so far are enough

What a task has done is read off the list of calls that have been made, the newest first:
`readInTime` and `Removes` look at nothing else.  So a call that does not name the key changes
neither of them, whatever it is and whoever makes it, and the induction over a schedule has three
cases for a turn: a call elsewhere, a reading of the code, a removal of it.

## Main results

* `readInTime`, `mem_readInTime_get`: the tasks that read a key in time, call by call.
* `Presents`, `Request.presents`: tasks that present a code at a place once at most.
* `Standing.of_over`: a task that has nothing left to do has removed the code if and only if it
  presented the stored one and read it in time.
* `Contest.turn`, `Contest.play`: every turn and every schedule keeps the state of affairs.
-/

namespace AccountAccess
namespace OneTimeCode

open Session

/-! ## Reading in time -/

section History

variable {ι : Type} {key : String} {deadline : Nat} {made : List (Made ι)} {m : Made ι}

/-- The calls that do not name a key. -/
def Spares (key : String) (call : ServiceCall) : Prop :=
  key ∉ call.keys

/-- Whether anybody has removed a key. -/
def IsRemoved (key : String) (made : List (Made ι)) : Prop :=
  ∃ m ∈ made, m.call = .cache (.remove [key])

instance (key : String) (made : List (Made ι)) : Decidable (IsRemoved key made) :=
  inferInstanceAs (Decidable (∃ m ∈ made, _))

/-- Whether a task has removed a key. -/
def Removes (key : String) (made : List (Made ι)) (i : ι) : Prop :=
  ∃ m ∈ made, m.task = i ∧ m.call = .cache (.remove [key])

instance [DecidableEq ι] (key : String) (made : List (Made ι)) (i : ι) :
    Decidable (Removes key made i) :=
  inferInstanceAs (Decidable (∃ m ∈ made, _))

/-- The tasks that read a key in time: before its deadline and before anybody has removed
it. -/
def readInTime (key : String) (deadline : Nat) : List (Made ι) → List ι
  | [] => []
  | m :: made =>
    if m.call = .cache (.get key) ∧ m.time < deadline ∧ ¬IsRemoved key made then
      m.task :: readInTime key deadline made
    else readInTime key deadline made

theorem isRemoved_cons :
    IsRemoved key (m :: made) ↔ m.call = .cache (.remove [key]) ∨ IsRemoved key made :=
  List.exists_mem_cons_iff ..

theorem removes_cons {i : ι} : Removes key (m :: made) i ↔
    (m.task = i ∧ m.call = .cache (.remove [key])) ∨ Removes key made i :=
  List.exists_mem_cons_iff ..

/-- A call that does not name the key changes nothing of this. -/
theorem of_spares (deadline : Nat) (made : List (Made ι)) (h : Spares key m.call) :
    (IsRemoved key (m :: made) ↔ IsRemoved key made) ∧
      (∀ i, Removes key (m :: made) i ↔ Removes key made i) ∧
      readInTime key deadline (m :: made) = readInTime key deadline made := by
  have hremove : m.call ≠ .cache (.remove [key]) := by
    intro heq
    rw [heq] at h
    exact h List.mem_cons_self
  have hget : m.call ≠ .cache (.get key) := by
    intro heq
    rw [heq] at h
    exact h List.mem_cons_self
  refine ⟨?_, fun i => ?_, ?_⟩
  · rw [isRemoved_cons, or_iff_right hremove]
  · rw [removes_cons, or_iff_right fun hand => hremove hand.2]
  · rw [readInTime, if_neg fun hand => hget hand.1]

theorem readInTime_remove (i : ι) (time : Nat) :
    readInTime key deadline (⟨i, time, .cache (.remove [key])⟩ :: made) =
      readInTime key deadline made := by
  rw [readInTime, if_neg]
  exact fun hand => absurd hand.1 (by simp)

theorem mem_readInTime_get {i j : ι} {time : Nat} :
    j ∈ readInTime key deadline (⟨i, time, .cache (.get key)⟩ :: made) ↔
      (j = i ∧ time < deadline ∧ ¬IsRemoved key made) ∨ j ∈ readInTime key deadline made := by
  rw [readInTime]
  by_cases htime : time < deadline ∧ ¬IsRemoved key made
  · rw [if_pos ⟨rfl, htime⟩, List.mem_cons]
    simp [htime]
  · rw [if_neg fun hand => htime hand.2, or_iff_right fun hand => htime hand.2]

/-- A reading removes nothing. -/
theorem isRemoved_get {i : ι} {time : Nat} :
    IsRemoved key (⟨i, time, .cache (.get key)⟩ :: made) ↔ IsRemoved key made := by
  rw [isRemoved_cons, or_iff_right (by simp)]

theorem removes_get {i j : ι} {time : Nat} :
    Removes key (⟨i, time, .cache (.get key)⟩ :: made) j ↔ Removes key made j := by
  rw [removes_cons, or_iff_right (by simp)]

end History

/-! ## Tasks that present a code -/

section Presents

variable {α : Type} {purpose : CodePurpose} {recipient code : String} {R : Bool → α → Prop}

/-- A task that presents a code at a place at most once: it never comes there, or it makes
calls elsewhere first, or it spends the code.  `R` says what its result can be when the code
is accepted and when it is not. -/
inductive Presents (purpose : CodePurpose) (recipient code : String) (R : Bool → α → Prop) :
    Procedure α → Prop where
  | never {rest : Procedure α} (h : rest.Every (Spares (codeKey purpose recipient)) (R false)) :
    Presents purpose recipient code R rest
  | later {call : ServiceCall} {next : call.Answer → Procedure α}
    (hcall : Spares (codeKey purpose recipient) call)
    (h : ∀ answer, Presents purpose recipient code R (next answer)) :
    Presents purpose recipient code R (.ask call next)
  | now {next : Except CacheError Bool → Procedure α}
    (h : ∀ accepted,
      (next (.ok accepted)).Every (Spares (codeKey purpose recipient)) (R accepted)) :
    Presents purpose recipient code R (spend purpose recipient code >>= next)

/-- Spending a code at another place spares this one. -/
theorem every_spend_elsewhere {purpose' : CodePurpose} {recipient' : String} (code : String)
    (h : codeKey purpose recipient ≠ codeKey purpose' recipient') :
    (spend purpose' recipient' code).Every (Spares (codeKey purpose recipient)) fun _ => True := by
  rw [spend_eq]
  refine ⟨fun hmem => h (List.mem_singleton.1 hmem),
    fun (answer : Except CacheError (Option String)) => ?_⟩
  rcases answer with e | expected
  · trivial
  · simp only [confirm]
    split
    · refine ⟨fun hmem => h (List.mem_singleton.1 hmem),
        fun (answer : Except CacheError Unit) => ?_⟩
      rcases answer with e | _
      · trivial
      · trivial
    · trivial

theorem presents_spend (purpose : CodePurpose) (recipient code : String) :
    Presents purpose recipient code (fun accepted result => result = .ok accepted)
      (spend purpose recipient code) := by
  rw [← Dialogue.bind_done (spend purpose recipient code)]
  exact .now fun accepted => rfl

/-- What a request goes on with when its code was spent, or was not. -/
def Request.afterSpend (primitives : Primitives) (request : Request) (account : Account) :
    Except CacheError Bool → Procedure (Except LoginFailure (Option Opened))
  | .error e => .done (.error (.cache e))
  | .ok false => .done (.error .invalidCode)
  | .ok true => request.act primitives account

/-- A request presents its code at one place, whichever place that is. -/
theorem Request.presents (primitives : Primitives) (request : Request) (purpose : CodePurpose)
    (recipient : String) :
    Presents purpose recipient request.code (fun _ _ => True) (request.procedure primitives) := by
  have hact : ∀ account, (request.act primitives account).Every
      (Spares (codeKey purpose recipient)) fun _ => True := by
    intro account
    refine (request.every_act primitives account).mono ?_ fun _ _ => trivial
    exact fun call hcall => hcall.notMem (codeKey_ne_tokenKey purpose recipient)
      (fun scene => codeKey_ne_slotKey purpose recipient ⟨account.id, scene⟩)
      (codeKey_ne_grantsKey purpose recipient account.id)
  have hnext : ∀ account, Presents purpose recipient request.code (fun _ _ => True)
      (spend request.purpose (Text.decimal account.id) request.code >>=
        request.afterSpend primitives account) := by
    intro account
    by_cases hplace : purpose = request.purpose ∧ recipient = Text.decimal account.id
    · rw [← hplace.1, ← hplace.2]
      refine .now fun accepted => ?_
      cases accepted with
      | false => trivial
      | true => exact hact account
    · refine .never ((every_spend_elsewhere request.code fun hkey => hplace ?_).bind
        fun spent _ => ?_)
      · exact codeKey_injective hkey
      · rcases spent with e | _ | _
        · trivial
        · trivial
        · exact hact account
  rw [Request.procedure_eq]
  split
  · exact .never trivial
  · rw [presenting, accountOf]
    split
    · exact .never trivial
    · rename_i identifier _
      refine .later List.not_mem_nil fun (answer : Except StoreError (Option Account)) => ?_
      rcases answer with e | _ | account
      · exact .never trivial
      · exact .never trivial
      · exact hnext account

end Presents

/-! ## The invariant -/

section Contest

variable {ι α : Type} {purpose : CodePurpose} {recipient stored : String} {deadline : Nat}
  {presented : ι → String} {R : Bool → α → Prop}

/-- What is known of a task that presents a code, where `inTime` says whether it has read
the stored one in time and `spent` whether it has removed it. -/
inductive Standing (purpose : CodePurpose) (recipient stored presented : String)
    (R : Bool → α → Prop) (inTime spent : Prop) : Procedure α → Prop where
  | ahead {rest : Procedure α} (h : Presents purpose recipient presented R rest)
    (hread : ¬inTime) (hspent : ¬spent) :
    Standing purpose recipient stored presented R inTime spent rest
  | about {next : Except CacheError Unit → Procedure α}
    (h : (next (.ok ())).Every (Spares (codeKey purpose recipient)) (R true))
    (hmatch : stored ≠ "" ∧ presented = stored) (hread : inTime) (hspent : ¬spent) :
    Standing purpose recipient stored presented R inTime spent
      (.ask (.cache (.remove [codeKey purpose recipient])) next)
  | past {rest : Procedure α} (accepted : Bool)
    (h : rest.Every (Spares (codeKey purpose recipient)) (R accepted))
    (haccepted : accepted = true ↔ (stored ≠ "" ∧ presented = stored) ∧ inTime)
    (hspent : spent ↔ accepted = true) :
    Standing purpose recipient stored presented R inTime spent rest

namespace Standing

variable {own : String} {inTime spent : Prop}

/-- A call elsewhere leaves a task where it stands. -/
theorem answered {call : ServiceCall} {next : call.Answer → Procedure α}
    (h : Standing purpose recipient stored own R inTime spent (.ask call next))
    (hcall : Spares (codeKey purpose recipient) call) {rest : Procedure α}
    (hrest : rest = .abort ∨ ∃ answer, rest = next answer) :
    Standing purpose recipient stored own R inTime spent rest := by
  cases h with
  | ahead h hread hspent =>
    refine .ahead ?_ hread hspent
    rcases hrest with rfl | ⟨answer, rfl⟩
    · exact .never trivial
    · generalize htask : Dialogue.ask (I := serviceInterface) call next = task at h
      cases h with
      | never h =>
        subst htask
        exact .never (h.2 answer)
      | later _ h =>
        obtain ⟨rfl, hnext⟩ := Dialogue.ask.inj htask
        rw [eq_of_heq hnext]
        exact h answer
      | now h =>
        rw [spend_eq] at htask
        obtain ⟨rfl, -⟩ := Dialogue.ask.inj htask
        exact absurd List.mem_cons_self hcall
  | about => exact absurd List.mem_cons_self hcall
  | past accepted h haccepted hspent =>
    refine .past accepted ?_ haccepted hspent
    rcases hrest with rfl | ⟨answer, rfl⟩
    · trivial
    · exact h.2 answer

theorem congr {inTime' spent' : Prop} {rest : Procedure α}
    (h : Standing purpose recipient stored own R inTime spent rest) (hread : inTime' ↔ inTime)
    (hspent : spent' ↔ spent) :
    Standing purpose recipient stored own R inTime' spent' rest := by
  rwa [propext hread, propext hspent]

/-- **A task that has nothing left to do** has removed the code if and only if it presented
the stored one and read it in time. -/
theorem of_over {rest : Procedure α}
    (h : Standing purpose recipient stored own R inTime spent rest)
    (hover : ∀ call next, rest ≠ .ask call next) :
    ∃ accepted, (∀ result, rest = .done result → R accepted result) ∧
      (accepted = true ↔ (stored ≠ "" ∧ own = stored) ∧ inTime) ∧ (spent ↔ accepted = true) := by
  cases h with
  | ahead h hread hspent =>
    refine ⟨false, fun result hresult => ?_, ?_, ?_⟩
    · subst hresult
      generalize htask : Dialogue.done (I := serviceInterface) result = task at h
      cases h with
      | never h =>
        subst htask
        exact h
      | later _ _ => exact absurd htask (by simp)
      | now _ =>
        rw [spend_eq] at htask
        exact absurd htask (by simp)
    · exact iff_of_false (by simp) fun hand => hread hand.2
    · exact iff_of_false hspent (by simp)
  | about => exact absurd rfl (hover _ _)
  | past accepted h haccepted hspent =>
    refine ⟨accepted, fun result hresult => ?_, haccepted, hspent⟩
    subst hresult
    exact h

theorem of_spent {rest : Procedure α}
    (h : Standing purpose recipient stored own R inTime spent rest) (hspent : spent) :
    (stored ≠ "" ∧ own = stored) ∧ inTime := by
  cases h with
  | ahead _ _ hnot => exact absurd hspent hnot
  | about _ _ _ hnot => exact absurd hspent hnot
  | past accepted _ haccepted hiff => exact haccepted.1 (hiff.1 hspent)

end Standing

/-- The state of affairs while tasks present codes at one place: the stored code is there
until somebody removes it. -/
structure Contest (purpose : CodePurpose) (recipient stored : String) (deadline : Nat)
    (presented : ι → String) (R : Bool → α → Prop) (pool : Pool ι α) : Prop where
  calm : pool.world.Calm
  entry : pool.world.entry (codeKey purpose recipient) =
    if IsRemoved (codeKey purpose recipient) pool.made then none
    else some (.textUntil stored deadline)
  standing : ∀ i, Standing purpose recipient stored (presented i) R
    (i ∈ readInTime (codeKey purpose recipient) deadline pool.made)
    (Removes (codeKey purpose recipient) pool.made i) (pool.tasks i)

namespace Contest

variable {pool : Pool ι α}

theorem start {world : World} (hcalm : world.Calm)
    (hentry : world.entry (codeKey purpose recipient) = some (.textUntil stored deadline))
    {tasks : ι → Procedure α}
    (htasks : ∀ i, Presents purpose recipient (presented i) R (tasks i)) :
    Contest purpose recipient stored deadline presented R { world, tasks } where
  calm := hcalm
  entry := by
    rw [if_neg (by simp [IsRemoved])]
    exact hentry
  standing i := .ahead (htasks i) List.not_mem_nil (by simp [Removes])

theorem reads_eq (h : Contest purpose recipient stored deadline presented R pool) :
    pool.world.reads (codeKey purpose recipient) =
      if pool.world.clock < deadline ∧ ¬IsRemoved (codeKey purpose recipient) pool.made then
        some stored else none := by
  have hentry := h.entry
  by_cases hremoved : IsRemoved (codeKey purpose recipient) pool.made
  · rw [if_pos hremoved] at hentry
    rw [World.reads_eq_none hentry, if_neg fun hand => hand.2 hremoved]
  · rw [if_neg hremoved] at hentry
    rw [World.reads_eq_ite hentry]
    simp [hremoved]

variable [DecidableEq ι]

/-- A turn in which one task makes a call elsewhere. -/
theorem turn_elsewhere (h : Contest purpose recipient stored deadline presented R pool) {i : ι}
    {call : ServiceCall} {next : call.Answer → Procedure α} {rest : Procedure α}
    (htask : pool.tasks i = .ask call next) (hcall : Spares (codeKey purpose recipient) call)
    (hrest : rest = .abort ∨ ∃ answer, rest = next answer) :
    Contest purpose recipient stored deadline presented R
      ⟨(World.answer call pool.world).2, Function.update pool.tasks i rest,
        ⟨i, pool.world.clock, call⟩ :: pool.made⟩ := by
  obtain ⟨hremoved, hremoves, hread⟩ :=
    of_spares deadline pool.made (m := ⟨i, pool.world.clock, call⟩) hcall
  refine ⟨h.calm.answer call, ?_, ?_⟩
  · rw [World.entry_answer pool.world call hcall, h.entry]
    simp only [hremoved]
  · rw [hread]
    refine (Function.forall_update_iff pool.tasks fun j rest => Standing _ _ _ _ _ _ _ rest).2
      ⟨?_, fun j _ => (h.standing j).congr Iff.rfl (hremoves j)⟩
    have hi := h.standing i
    rw [htask] at hi
    exact (hi.answered hcall hrest).congr Iff.rfl (hremoves i)

/-- A task reads the code. -/
theorem turn_get (h : Contest purpose recipient stored deadline presented R pool) {i : ι}
    {next : Except CacheError Bool → Procedure α}
    (hnext : ∀ accepted,
      (next (.ok accepted)).Every (Spares (codeKey purpose recipient)) (R accepted))
    (hread : i ∉ readInTime (codeKey purpose recipient) deadline pool.made)
    (hspent : ¬Removes (codeKey purpose recipient) pool.made i) :
    Contest purpose recipient stored deadline presented R
      ⟨pool.world.noted (.cache (.get (codeKey purpose recipient))),
        Function.update pool.tasks i (confirm purpose recipient (presented i)
          (pool.world.reads (codeKey purpose recipient)) >>= next),
        ⟨i, pool.world.clock, .cache (.get (codeKey purpose recipient))⟩ :: pool.made⟩ := by
  have hreads := h.reads_eq
  refine ⟨h.calm.noted _, ?_, ?_⟩
  · have hentry := h.entry
    simp only [isRemoved_get]
    exact hentry
  · refine (Function.forall_update_iff pool.tasks fun j rest => Standing _ _ _ _ _ _ _ rest).2
      ⟨?_, fun j hj => ?_⟩
    · -- the reader is about to remove the code exactly if it has read the one it presents
      by_cases hmatch : presented i ≠ "" ∧
          pool.world.reads (codeKey purpose recipient) = some (presented i)
      · rw [confirm, if_pos hmatch]
        rw [hmatch.2] at hreads
        split at hreads
        · rename_i htime
          have hstored : presented i = stored := Option.some.inj hreads
          refine .about (hnext true) ⟨hstored ▸ hmatch.1, hstored⟩ ?_ ?_
          · exact mem_readInTime_get.2 (Or.inl ⟨rfl, htime⟩)
          · rwa [removes_get]
        · exact absurd hreads (by simp)
      · rw [confirm, if_neg hmatch]
        refine .past false (hnext false) (iff_of_false (by simp) ?_)
          (iff_of_false (by rwa [removes_get]) (by simp))
        rintro ⟨⟨hnonempty, hstored⟩, hmem⟩
        have htime := (mem_readInTime_get.1 hmem).resolve_right hread
        rw [if_pos htime.2] at hreads
        exact hmatch ⟨hstored ▸ hnonempty, hstored ▸ hreads⟩
    · refine (h.standing j).congr ?_ removes_get
      rw [mem_readInTime_get, or_iff_right fun hand => hj hand.1]

/-- A task removes the code. -/
theorem turn_remove (h : Contest purpose recipient stored deadline presented R pool) {i : ι}
    {next : Except CacheError Unit → Procedure α} {after : World}
    (hnext : (next (.ok ())).Every (Spares (codeKey purpose recipient)) (R true))
    (hmatch : stored ≠ "" ∧ presented i = stored)
    (hread : i ∈ readInTime (codeKey purpose recipient) deadline pool.made)
    (hremove : World.Alters pool.world (codeKey purpose recipient) none after) :
    Contest purpose recipient stored deadline presented R
      ⟨after, Function.update pool.tasks i (next (.ok ())),
        ⟨i, pool.world.clock, .cache (.remove [codeKey purpose recipient])⟩ :: pool.made⟩ := by
  refine ⟨hremove.calm, ?_, ?_⟩
  · rw [if_pos (isRemoved_cons.2 (Or.inl rfl))]
    exact hremove.entry_self
  · simp only [readInTime_remove]
    refine (Function.forall_update_iff pool.tasks fun j rest => Standing _ _ _ _ _ _ _ rest).2
      ⟨?_, fun j hj => ?_⟩
    · exact .past true hnext (iff_of_true rfl ⟨hmatch, hread⟩)
        (iff_of_true (removes_cons.2 (Or.inl ⟨rfl, rfl⟩)) rfl)
    · refine (h.standing j).congr Iff.rfl ?_
      rw [removes_cons, or_iff_right fun hand => hj hand.1.symm]

/-- **Every turn keeps the state of affairs.** -/
theorem turn (h : Contest purpose recipient stored deadline presented R pool) (t : Turn ι) :
    Contest purpose recipient stored deadline presented R (pool.turn t) := by
  cases t with
  | elapse milliseconds => exact ⟨h.calm.advance milliseconds, h.entry, h.standing⟩
  | call i =>
    rcases pool.turn_call_cases i with ⟨-, hsame⟩ | ⟨call, next, rest, htask, hrest, hturn⟩
    · rwa [hsame]
    · by_cases hcall : Spares (codeKey purpose recipient) call
      · rw [hturn]
        exact h.turn_elsewhere htask hcall hrest
      · have hi := h.standing i
        generalize htasks : pool.tasks i = task at hi
        cases hi with
        | ahead hpresents hread hspent =>
          cases hpresents with
          | never hnever =>
            rw [htask] at htasks
            subst htasks
            exact absurd hnever.1 hcall
          | later hspares _ =>
            obtain ⟨rfl, -⟩ := Dialogue.ask.inj (htask.symm.trans htasks)
            exact absurd hspares hcall
          | now hnext =>
            have hanswer := h.calm.answer_get (codeKey purpose recipient)
            rw [spend_eq, Dialogue.ask_bind] at htasks
            rw [Pool.turn_of_finished htasks hanswer]
            exact h.turn_get hnext hread hspent
        | about hnext hmatch hread hspent =>
          obtain ⟨after, hanswer, hremove⟩ := h.calm.answer_remove_one (codeKey purpose recipient)
          rw [Pool.turn_of_finished htasks hanswer]
          exact h.turn_remove hnext hmatch hread hremove
        | past accepted hpast _ _ =>
          rw [htask] at htasks
          subst htasks
          exact absurd hpast.1 hcall

/-- **Every schedule keeps the state of affairs.** -/
theorem play (h : Contest purpose recipient stored deadline presented R pool)
    (schedule : List (Turn ι)) :
    Contest purpose recipient stored deadline presented R (pool.play schedule) :=
  Pool.play_induction (fun _ t hpool => hpool.turn t) h schedule

end Contest
end Contest

end OneTimeCode
end AccountAccess
