import AccountAccess.Proofs.Grant.Derived
import AccountAccess.Proofs.Grant.Refresh
import AccountAccess.Proofs.Service.Effects

/-!
# Refreshes under way while the store is edited

Any number of refreshes of one account are under way, and checks with them.  At one moment
the store is edited.  A refresh asks the store twice and writes once, so the codes that it
writes depend on which of its two questions came before the edit, and on nothing else.

`Follows` says what is known of a refresh between its calls, and `Following` adds that the
cache holds what the last writer wrote.  The same statement serves before and after the
edit: before it the calls so far are early ones, and after it the early ones are fixed.

## The state of a refresh

A refresh has listed the resources or not, has collected their codes or not, and has written or not.
Three truth values say so, and the first two are of interest as they stood when the store was
edited: each decides which store has answered.  A refresh whose role has no resources skips its
second question.  It then counts as having asked it early or late, as one likes, because the codes
of no resources are none in every store (`collect_cases`).

## Main results

* `lastWriter?`: the task that wrote granted codes last.
* `Activity.follows`: what is known of a task that has not begun.
* `Following.turn`, `Following.play`: every turn and every schedule keeps the state of affairs.
* `Following.edited`: the edit makes the calls so far the early ones.
-/

namespace AccountAccess

/-! ## The calls of a refresh -/

/-- The kind of a call of the cache or the store. -/
def ServiceCall.kind? : ServiceCall → Option CallKind
  | cache call => some call.kind
  | store call => some call.kind
  | _ => none

namespace Grant

theorem listing_kind (role : Int64) (includeUnassignable : Bool) :
    (ServiceCall.store (.resourcesOf role includeUnassignable)).kind? = some .storeResourcesOf :=
  rfl

theorem collecting_kind (resources : List Int64) :
    (ServiceCall.store (.codesOf resources)).kind? = some .storeCodesOf := rfl

theorem asking_kind (key : String) (members : List String) :
    (ServiceCall.cache (.anyMember key members)).kind? = some .cacheAnyMember := rfl

/-! ## Calls so far -/

section History

variable {ι : Type} [DecidableEq ι]

/-- Whether a task has made a call of a kind. -/
def hasMade (kind : CallKind) (made : List (Made ι)) (i : ι) : Bool :=
  made.any fun m => m.task = i && m.call.kind? = some kind

/-- The task that wrote granted codes last. -/
def lastWriter? : List (Made ι) → Option ι
  | [] => none
  | m :: made => if m.call.kind? = some .cacheWrite then some m.task else lastWriter? made

/-- The early calls: all so far, or those that were fixed. -/
def earlyCalls (early : Bool) (fixed made : List (Made ι)) : List (Made ι) :=
  if early then made else fixed

variable {kind : CallKind} {made fixed : List (Made ι)} {m : Made ι} {i : ι} {early : Bool}

theorem hasMade_cons : hasMade kind (m :: made) i =
    ((decide (m.task = i) && decide (m.call.kind? = some kind)) || hasMade kind made i) :=
  List.any_cons

theorem hasMade_cons_of_ne (h : m.task ≠ i) : hasMade kind (m :: made) i = hasMade kind made i := by
  simp [hasMade_cons, h]

theorem hasMade_early_cons : hasMade kind (earlyCalls early fixed (m :: made)) i =
    ((early && (decide (m.task = i) && decide (m.call.kind? = some kind))) ||
      hasMade kind (earlyCalls early fixed made) i) := by
  cases early with
  | true => simp [earlyCalls, hasMade_cons]
  | false => simp [earlyCalls]

theorem hasMade_early_cons_of_ne (h : m.task ≠ i) :
    hasMade kind (earlyCalls early fixed (m :: made)) i =
      hasMade kind (earlyCalls early fixed made) i := by
  simp [hasMade_early_cons, h]

theorem hasMade_of_lastWriter? (h : lastWriter? made = some i) :
    hasMade .cacheWrite made i = true := by
  induction made with
  | nil => exact absurd h (by simp [lastWriter?])
  | cons m made ih =>
    rw [lastWriter?] at h
    rw [hasMade_cons]
    split at h
    · rename_i hwrite
      simp [Option.some.inj h, hwrite]
    · simp [ih h]

theorem exists_lastWriter? (h : hasMade .cacheWrite made i = true) :
    ∃ last, lastWriter? made = some last := by
  induction made with
  | nil => exact absurd h (by simp [hasMade])
  | cons m made ih =>
    rw [lastWriter?]
    split
    · exact ⟨m.task, rfl⟩
    · rename_i hwrite
      rw [hasMade_cons] at h
      simp only [hwrite, decide_false, Bool.and_false, Bool.false_or] at h
      exact ih h

end History

/-! ## What the tasks do -/

/-- What a task does: it refreshes the codes of the account, or it checks a route. -/
inductive Activity where
  | refresh
  | check (identity : Identity) (route : Route)
  deriving DecidableEq, Repr

/-- What a task ends with. -/
abbrev Ended := Except RefreshError (List String) ⊕ Except Refusal Unit

/-- A refresh ends with what it says. -/
def refreshed (result : Except RefreshError (List String)) : Procedure Ended :=
  .done (.inl result)

/-- A check ends with what it says. -/
def checked (result : Except Refusal Unit) : Procedure Ended :=
  .done (.inr result)

/-- The procedure of a task. -/
def Activity.procedure (service : String) (account : Account) : Activity → Procedure Ended
  | refresh => Grant.refresh account >>= refreshed
  | check identity route => Grant.check service identity route >>= checked

/-- The calls that ask the cache for members of a set. -/
def AsksMembers (call : ServiceCall) : Prop :=
  ∃ key members, call = .cache (.anyMember key members)

theorem every_check (service : String) (identity : Identity) (route : Route) :
    (Grant.check service identity route >>= checked).Every AsksMembers
      fun ended => ∃ result, ended = .inr result := by
  rw [Grant.check]
  split
  · exact ⟨_, rfl⟩
  · refine ⟨⟨_, _, rfl⟩, fun (answer : Except CacheError Bool) => ?_⟩
    rcases answer with e | _ | _
    · exact ⟨_, rfl⟩
    · exact ⟨_, rfl⟩
    · exact ⟨_, rfl⟩

theorem answer_anyMember {world : World} (h : world.Calm) (key : String) (members : List String) :
    (World.answer (.cache (.anyMember key members)) world).2 =
      world.noted (.cache (.anyMember key members)) := by
  rw [h.answer_eq]
  rfl

/-! ## What is known of a task -/

section Follows

variable {old new : MemoryStore} {account : Account}

/-- The store that answered a question, which came before the edit or after it. -/
def storeOf (old new : MemoryStore) (early : Bool) : MemoryStore :=
  if early then old else new

/-- What is known of a task between its calls, where the first two truth values say whether
it has listed the resources and collected the codes early, and the third one whether it has
written. -/
inductive Follows (old new : MemoryStore) (account : Account) :
    Bool → Bool → Bool → Procedure Ended → Prop where
  | asking : Follows old new account false false false (refresh account >>= refreshed)
  | listed (listed : Bool) : Follows old new account listed false false
      (collect account.id ((storeOf old new listed).resourcesOf account.roleId account.isStaff) >>=
        refreshed)
  | derived (listed collected : Bool) : Follows old new account listed collected false
      (rewrite account.id
        (grantsOf (storeOf old new listed) (storeOf old new collected) account) >>= refreshed)
  | through (listed collected : Bool) (codes : List String) :
      Follows old new account listed collected true (refreshed (.ok codes))
  | checking (listed collected : Bool) {rest : Procedure Ended}
      (h : rest.Every AsksMembers fun ended => ∃ result, ended = .inr result) :
      Follows old new account listed collected false rest

theorem collect_cases (old new : MemoryStore) (account : Account) (listed collected : Bool) :
    (storeOf old new listed).resourcesOf account.roleId account.isStaff ≠ [] ∨
      collect account.id ((storeOf old new listed).resourcesOf account.roleId account.isStaff) =
        rewrite account.id
          (grantsOf (storeOf old new listed) (storeOf old new collected) account) := by
  by_cases hnothing : (storeOf old new listed).resourcesOf account.roleId account.isStaff = []
  · rw [grantsOf_eq_nil hnothing, collect, if_pos hnothing]
    exact Or.inr rfl
  · exact Or.inl hnothing

theorem Activity.follows (service : String) (activity : Activity) :
    Follows old new account false false false (activity.procedure service account) := by
  cases activity with
  | refresh => exact .asking
  | check identity route => exact .checking false false (every_check service identity route)

/-- Only a refresh that has written ends with codes. -/
theorem Follows.wrote_of_done {listed collected wrote : Bool} {codes : List String}
    (h : Follows old new account listed collected wrote (.done (.inl (.ok codes))))
    (hadmin : account.isSuperAdmin = false) : wrote = true := by
  generalize hrest : Dialogue.done (I := serviceInterface) (α := Ended) (.inl (.ok codes)) = rest
    at h
  cases h with
  | through _ _ _ => rfl
  | asking =>
    rw [refresh_eq, if_neg (by simp [hadmin])] at hrest
    exact absurd hrest (by simp)
  | listed _ =>
    rw [collect] at hrest
    split at hrest
    · exact absurd hrest (by simp [rewrite])
    · exact absurd hrest (by simp)
  | derived _ _ => exact absurd hrest (by simp [rewrite])
  | checking _ _ h =>
    subst hrest
    obtain ⟨result, hresult⟩ := h
    exact absurd hresult (by simp)

end Follows

/-! ## The invariant -/

section Following

variable {ι : Type} [DecidableEq ι] {old new : MemoryStore} {account : Account} {early : Bool}
  {fixed : List (Made ι)}

/-- The state of affairs while refreshes and checks are under way, before the edit or after
it: the cache holds what the last writer derived. -/
structure Following (old new : MemoryStore) (account : Account) (early : Bool)
    (fixed : List (Made ι)) (pool : Pool ι Ended) : Prop where
  calm : pool.world.Calm
  store : pool.world.store = storeOf old new early
  task : ∀ i, Follows old new account
    (hasMade .storeResourcesOf (earlyCalls early fixed pool.made) i)
    (hasMade .storeCodesOf (earlyCalls early fixed pool.made) i)
    (hasMade .cacheWrite pool.made i) (pool.tasks i)
  written : ∀ i, lastWriter? pool.made = some i → pool.world.entry (grantsKey account.id) =
    entryOf (grantsOf
      (storeOf old new (hasMade .storeResourcesOf (earlyCalls early fixed pool.made) i))
      (storeOf old new (hasMade .storeCodesOf (earlyCalls early fixed pool.made) i)) account)

namespace Following

variable {pool : Pool ι Ended} {i : ι}

theorem task_of_ne (h : Following old new account early fixed pool) {m : Made ι} (hm : m.task = i)
    {j : ι} (hj : j ≠ i) : Follows old new account
      (hasMade .storeResourcesOf (earlyCalls early fixed (m :: pool.made)) j)
      (hasMade .storeCodesOf (earlyCalls early fixed (m :: pool.made)) j)
      (hasMade .cacheWrite (m :: pool.made) j) (pool.tasks j) := by
  have hne : m.task ≠ j := fun heq => hj (heq.symm.trans hm)
  rw [hasMade_early_cons_of_ne hne, hasMade_early_cons_of_ne hne, hasMade_cons_of_ne hne]
  exact h.task j

/-- A task that has not written makes a call that writes nothing and reads nothing, or reads
for the first time: what was written last is still there. -/
theorem written_of_unwritten (h : Following old new account early fixed pool) {m : Made ι}
    (hm : m.task = i) (hwrite : m.call.kind? ≠ some .cacheWrite)
    (hunwritten : hasMade .cacheWrite pool.made i = false) {after : World}
    (hentry : after.entry (grantsKey account.id) = pool.world.entry (grantsKey account.id)) :
    ∀ j, lastWriter? (m :: pool.made) = some j → after.entry (grantsKey account.id) =
      entryOf (grantsOf
        (storeOf old new (hasMade .storeResourcesOf (earlyCalls early fixed (m :: pool.made)) j))
        (storeOf old new (hasMade .storeCodesOf (earlyCalls early fixed (m :: pool.made)) j))
        account) := by
  intro j hj
  rw [lastWriter?, if_neg hwrite] at hj
  have hne : m.task ≠ j := by
    intro heq
    have hwrote := hasMade_of_lastWriter? hj
    rw [← heq, hm, hunwritten] at hwrote
    exact absurd hwrote (by simp)
  rw [hasMade_early_cons_of_ne hne, hasMade_early_cons_of_ne hne, hentry]
  exact h.written j hj

/-- A turn of a task that has not written, in which it writes nothing. -/
theorem turn_unwritten (h : Following old new account early fixed pool) {call : ServiceCall}
    {rest : Procedure Ended} {after : World} (hcalm : after.Calm)
    (hstore : after.store = pool.world.store)
    (hentry : after.entry (grantsKey account.id) = pool.world.entry (grantsKey account.id))
    (hwrite : call.kind? ≠ some .cacheWrite) (hunwritten : hasMade .cacheWrite pool.made i = false)
    (hrest : Follows old new account
      ((early && decide (call.kind? = some .storeResourcesOf)) ||
        hasMade .storeResourcesOf (earlyCalls early fixed pool.made) i)
      ((early && decide (call.kind? = some .storeCodesOf)) ||
        hasMade .storeCodesOf (earlyCalls early fixed pool.made) i) false rest) :
    Following old new account early fixed
      ⟨after, Function.update pool.tasks i rest, ⟨i, pool.world.clock, call⟩ :: pool.made⟩ where
  calm := hcalm
  store := hstore.trans h.store
  task := by
    refine (Function.forall_update_iff pool.tasks fun j rest => Follows _ _ _ _ _ _ rest).2
      ⟨?_, fun j hj => h.task_of_ne rfl hj⟩
    rw [hasMade_early_cons, hasMade_early_cons, hasMade_cons, hunwritten]
    simpa [hwrite] using hrest
  written := h.written_of_unwritten rfl hwrite hunwritten hentry

/-- The turn in which a refresh writes what it has derived. -/
theorem turn_write (h : Following old new account early fixed pool) {after : World}
    {codes : List String}
    (hcodes : codes = grantsOf
      (storeOf old new (hasMade .storeResourcesOf (earlyCalls early fixed pool.made) i))
      (storeOf old new (hasMade .storeCodesOf (earlyCalls early fixed pool.made) i)) account)
    (hstore : after.store = pool.world.store)
    (hafter : World.Alters pool.world (grantsKey account.id) (entryOf codes) after) :
    Following old new account early fixed
      ⟨after, Function.update pool.tasks i (refreshed (.ok codes)),
        ⟨i, pool.world.clock, .cache (.write (writes account.id codes))⟩ :: pool.made⟩ := by
  have hkind : (ServiceCall.cache (.write (writes account.id codes))).kind? =
      some .cacheWrite := rfl
  refine ⟨hafter.calm, hstore.trans h.store, ?_, ?_⟩
  · refine (Function.forall_update_iff pool.tasks fun j rest => Follows _ _ _ _ _ _ rest).2
      ⟨?_, fun j hj => h.task_of_ne rfl hj⟩
    have hwrote : hasMade .cacheWrite (⟨i, pool.world.clock,
        .cache (.write (writes account.id codes))⟩ :: pool.made) i = true := by
      simp [hasMade_cons, hkind]
    rw [hwrote]
    exact .through _ _ codes
  · intro j hj
    obtain rfl : i = j := by
      rw [lastWriter?, if_pos hkind] at hj
      exact Option.some.inj hj
    rw [hafter.entry_self, hasMade_early_cons, hasMade_early_cons, hkind, hcodes]
    simp

/-- **Every turn keeps the state of affairs.** -/
theorem turn (h : Following old new account early fixed pool)
    (hadmin : account.isSuperAdmin = false) (t : Turn ι) :
    Following old new account early fixed (pool.turn t) := by
  cases t with
  | elapse milliseconds => exact ⟨h.calm.advance milliseconds, h.store, h.task, h.written⟩
  | call i =>
    have hi := h.task i
    generalize hlisted : hasMade .storeResourcesOf (earlyCalls early fixed pool.made) i = listed
      at hi
    generalize hcollected : hasMade .storeCodesOf (earlyCalls early fixed pool.made) i = collected
      at hi
    generalize hwrote : hasMade .cacheWrite pool.made i = wrote at hi
    generalize htask : pool.tasks i = task at hi
    have hderived : ∀ codes, codes = grantsOf (storeOf old new listed) (storeOf old new collected)
        account → pool.tasks i = rewrite account.id codes >>= refreshed →
        Following old new account early fixed (pool.turn (.call i)) := by
      intro codes hcodes hrest
      obtain ⟨after, hanswer, hafter⟩ := answer_writes h.calm account.id codes
      have hstore := World.store_answer_cache pool.world (.write (writes account.id codes))
      rw [hanswer] at hstore
      rw [rewrite, Dialogue.ask_bind] at hrest
      rw [Pool.turn_of_finished hrest hanswer]
      exact h.turn_write (by rw [hlisted, hcollected]; exact hcodes) hstore hafter
    cases hi with
    | asking =>
      have hanswer := h.calm.answer_store (.resourcesOf account.roleId account.isStaff)
      have hnext : Follows old new account early false false (collect account.id
          (pool.world.store.resourcesOf account.roleId account.isStaff) >>= refreshed) := by
        rw [h.store]
        exact .listed early
      rw [refresh_eq, if_neg (by simp [hadmin]), Dialogue.ask_bind] at htask
      rw [Pool.turn_of_finished htask hanswer]
      refine h.turn_unwritten ⟨h.calm.no_fault, h.calm.available⟩ rfl rfl (by simp [listing_kind])
        hwrote ?_
      rw [hlisted, hcollected]
      simpa [listing_kind, MemoryStore.answer] using hnext
    | listed =>
      rcases collect_cases old new account listed false with hsome | hnothing
      · have hanswer := h.calm.answer_store
          (.codesOf ((storeOf old new listed).resourcesOf account.roleId account.isStaff))
        have hnext : Follows old new account listed early false (rewrite account.id
            (sortedUnique (pool.world.store.codesOf
              ((storeOf old new listed).resourcesOf account.roleId account.isStaff))) >>=
            refreshed) := by
          rw [h.store]
          exact .derived listed early
        rw [collect, if_neg hsome, Dialogue.ask_bind] at htask
        rw [Pool.turn_of_finished htask hanswer]
        refine h.turn_unwritten ⟨h.calm.no_fault, h.calm.available⟩ rfl rfl
          (by simp [collecting_kind]) hwrote ?_
        rw [hlisted, hcollected]
        simpa [collecting_kind, MemoryStore.answer] using hnext
      · rw [hnothing] at htask
        exact hderived _ rfl htask
    | derived => exact hderived _ rfl htask
    | through _ _ codes =>
      rw [Pool.turn_of_done htask]
      exact h
    | checking _ _ hchecks =>
      rcases pool.turn_call_cases i with ⟨-, hsame⟩ | ⟨call, next, rest, hask, hrest, hturn⟩
      · rw [hsame]
        exact h
      · obtain rfl : task = .ask call next := htask.symm.trans hask
        obtain ⟨⟨key, members, rfl⟩, hnext⟩ := hchecks
        rw [hturn, answer_anyMember h.calm key members]
        refine h.turn_unwritten (h.calm.noted _) rfl rfl (by simp [asking_kind]) hwrote ?_
        rw [hlisted, hcollected]
        have hgoes : Follows old new account listed collected false rest := by
          refine .checking _ _ ?_
          rcases hrest with rfl | ⟨answer, rfl⟩
          · trivial
          · exact hnext answer
        simpa [asking_kind] using hgoes

/-- **Every schedule keeps the state of affairs.** -/
theorem play (h : Following old new account early fixed pool)
    (hadmin : account.isSuperAdmin = false) (schedule : List (Turn ι)) :
    Following old new account early fixed (pool.play schedule) :=
  Pool.play_induction (fun _ t hpool => hpool.turn hadmin t) h schedule

theorem start {world : World} (hcalm : world.Calm) (hstore : world.store = old)
    {tasks : ι → Procedure Ended}
    (htasks : ∀ i, Follows old new account false false false (tasks i)) :
    Following old new account true fixed { world, tasks } where
  calm := hcalm
  store := hstore
  task := htasks
  written _ hlast := absurd hlast (by simp [lastWriter?])

/-- **The store is edited**: the calls so far are the early ones. -/
theorem edited (h : Following old new account true fixed pool) :
    Following old new account false pool.made
      { pool with world := { pool.world with store := new } } where
  calm := ⟨h.calm.no_fault, h.calm.available⟩
  store := rfl
  task := h.task
  written := h.written

end Following
end Following

end Grant
end AccountAccess
