import AccountAccess.Proofs.Session.SlotMachine
import AccountAccess.Proofs.Session.Stage

/-!
# A logout and a login at the same time

A logout reads the slot, and if it finds its token there it removes both the token and the
slot's entry.  The reading and the removal are two calls.  A login of the same owner can
take the slot over in between, and then it is the newer login's entry that is removed: the
new token stays valid, but its slot is empty, and the next login of the owner does not
retire it.

Of all orders of the calls that is the only bad one.  Three moments matter: the logout
reads the slot, the login takes it over, the logout removes.  `Situation` lists what each
order of them leaves in the slot, and one lemma for each call says how a situation becomes
the next.  Everything else comes out as it should in every order: the new token is live, and
the old one is gone.

## Main definitions and results

* `Race`, `pool`: a logout of one token and a login with another, of one owner.
* `Situation`, `Situation.slot_eq`: the orders of the three moments, and that the slot is lost in
  one of them only.
* `Racing`, `Racing.turn`, `Racing.play`: the state of affairs, kept by every turn and schedule.
* `Racing.settled`: when both are through, only the order of the moments tells what is left.
* `slot_lost_iff`: when a logout damages a newer login, and what the next login then does.
* `slot_empty_crossedOver`: a schedule that does so.
-/

namespace AccountAccess
namespace Session

/-! ## The two parties -/

/-- Who takes part. -/
inductive Party where
  | logout
  | login
  deriving DecidableEq, Repr

/-- A logout of one token and a login with another, of one owner. -/
structure Race where
  owner : SessionOwner
  former : String
  token : String
  ttl : UInt64
  ne : token ≠ former

/-- Where a logout stands between its calls. -/
inductive Leaving where
  | asking
  | leaving (current : Option String)
  | left
  deriving DecidableEq, Repr

namespace Race

/-- What the logout has still to do. -/
def logout (race : Race) : Leaving → Procedure (Except CacheError Unit)
  | .asking => revoke race.owner race.former
  | .leaving current => leave race.owner race.former current
  | .left => .done (.ok ())

/-- What the login has still to do. -/
def login (race : Race) (stage : Stage) : Procedure (Except CacheError Unit) :=
  stage.remaining race.owner race.token race.ttl

/-- Both before they have made a call. -/
def pool (race : Race) (world : World) : Pool Party (Except CacheError Unit) where
  world := world
  tasks
    | .logout => race.logout .asking
    | .login => race.login .pending

theorem eq_left_of_done {race : Race} {leaving : Leaving} {result : Except CacheError Unit}
    (h : race.logout leaving = .done result) : leaving = .left := by
  cases leaving with
  | left => rfl
  | asking => exact absurd h (by simp [logout, revoke_eq])
  | leaving current => exact absurd h (by simp [logout, leave, Procedure.cache, Dialogue.call])

end Race

/-! ## The moments that matter -/

/-- The moments in which the slot is read or changed. -/
inductive Moment where
  /-- The logout reads the slot. -/
  | read
  /-- The login takes the slot over. -/
  | taken
  /-- The logout removes what it found. -/
  | removed
  deriving DecidableEq, Repr

/-- The moment that a call stands for. -/
def moment? (made : Made Party) : Option Moment :=
  match made.task, made.call with
  | .logout, .cache (.get _) => some .read
  | .login, .cache (.swap ..) => some .taken
  | .logout, .cache (.remove _) => some .removed
  | _, _ => none

/-- The moments so far, the first one first. -/
def moments (made : List (Made Party)) : List Moment :=
  made.reverse.filterMap moment?

theorem moments_cons (m : Made Party) (made : List (Made Party)) :
    moments (m :: made) = moments made ++ (moment? m).toList := by
  rw [moments, List.reverse_cons, List.filterMap_append, List.filterMap_cons]
  cases moment? m with
  | none => rfl
  | some moment => rfl

section

variable {made : List (Made Party)} {time : Nat} {key value : String} {ttl : UInt64}
  {keys : List String}

@[simp] theorem moments_read :
    moments (⟨.logout, time, .cache (.get key)⟩ :: made) = moments made ++ [.read] :=
  moments_cons _ _

@[simp] theorem moments_removed :
    moments (⟨.logout, time, .cache (.remove keys)⟩ :: made) = moments made ++ [.removed] :=
  moments_cons _ _

@[simp] theorem moments_taken :
    moments (⟨.login, time, .cache (.swap key value ttl)⟩ :: made) = moments made ++ [.taken] :=
  moments_cons _ _

@[simp] theorem moments_set :
    moments (⟨.login, time, .cache (.set key value ttl)⟩ :: made) = moments made :=
  (moments_cons _ _).trans (List.append_nil _)

@[simp] theorem moments_retired :
    moments (⟨.login, time, .cache (.remove keys)⟩ :: made) = moments made :=
  (moments_cons _ _).trans (List.append_nil _)

end

/-- What the slot holds. -/
inductive SlotView where
  | former
  | newer
  | empty
  deriving DecidableEq, Repr

/-- The orders in which the moments can come, with where the logout then stands and what
the slot then holds.  A logout removes the slot's entry if it has read the former token. -/
inductive Situation (former : String) : Leaving → List Moment → SlotView → Prop where
  | start : Situation former .asking [] .former
  | read : Situation former (.leaving (some former)) [.read] .former
  | taken : Situation former .asking [.taken] .newer
  | readRemoved : Situation former .left [.read, .removed] .empty
  | readTaken : Situation former (.leaving (some former)) [.read, .taken] .newer
  | takenRead (current : Option String) (h : current ≠ some former) :
      Situation former (.leaving current) [.taken, .read] .newer
  | readRemovedTaken : Situation former .left [.read, .removed, .taken] .newer
  | readTakenRemoved : Situation former .left [.read, .taken, .removed] .empty
  | takenReadRemoved : Situation former .left [.taken, .read, .removed] .newer

namespace Situation

variable {former : String} {leaving : Leaving} {moments : List Moment} {slot : SlotView}

theorem onRead (h : Situation former .asking moments slot) {current : Option String}
    (hcurrent : slot = .former ∧ current = some former ∨
      slot = .newer ∧ current ≠ some former) :
    Situation former (.leaving current) (moments ++ [.read]) slot := by
  cases h with
  | start =>
    rcases hcurrent with ⟨-, rfl⟩ | ⟨hnewer, -⟩
    · exact .read
    · exact absurd hnewer (by decide)
  | taken =>
    rcases hcurrent with ⟨hformer, -⟩ | ⟨-, hcurrent⟩
    · exact absurd hformer (by decide)
    · exact .takenRead current hcurrent

theorem onTaken (h : Situation former leaving moments slot) (hmoments : .taken ∉ moments) :
    Situation former leaving (moments ++ [.taken]) .newer := by
  cases h with
  | start => exact .taken
  | read => exact .readTaken
  | readRemoved => exact .readRemovedTaken
  | _ => exact absurd hmoments (by decide)

theorem onRemoved {current : Option String} (h : Situation former (.leaving current) moments slot) :
    Situation former .left (moments ++ [.removed])
      (if current = some former then .empty else slot) := by
  cases h with
  | read => rw [if_pos rfl]; exact .readRemoved
  | readTaken => rw [if_pos rfl]; exact .readTakenRemoved
  | takenRead _ hcurrent => rw [if_neg hcurrent]; exact .takenReadRemoved

theorem ne_empty (h : Situation former .asking moments slot) : slot ≠ .empty := by
  cases h with
  | start => decide
  | taken => decide

theorem taken_mem (h : Situation former leaving moments slot) (hslot : slot = .newer) :
    .taken ∈ moments := by
  cases h with
  | taken | readTaken | takenRead | readRemovedTaken | takenReadRemoved => decide
  | _ => exact absurd hslot (by decide)

/-- **The slot is lost in one order only.** -/
theorem slot_eq (h : Situation former .left moments slot) (hmoments : .taken ∈ moments) :
    slot = if moments = [.read, .taken, .removed] then .empty else .newer := by
  cases h with
  | readRemoved => exact absurd hmoments (by decide)
  | readRemovedTaken => rfl
  | readTakenRemoved => rfl
  | takenReadRemoved => rfl

end Situation

/-! ## The invariant -/

/-- What the slot's entry looks like, where the former token's own place in the slot has a
deadline. -/
def SlotView.Shows (race : Race) (deadline : Nat) (pool : Pool Party (Except CacheError Unit)) :
    SlotView → Prop
  | former => pool.world.entry (slotKey race.owner) = some (.textUntil race.former deadline)
  | newer => ∃ time later, writtenAt? pool.made .login = some time ∧
      time + 1000 * race.ttl.toNat ≤ later ∧
      pool.world.entry (slotKey race.owner) = some (.textUntil race.token later)
  | empty => pool.world.entry (slotKey race.owner) = none

/-- The state of affairs while a logout and a login of one owner are under way. -/
structure Racing (race : Race) (deadline : Nat) (leaving : Leaving) (stage : Stage)
    (slot : SlotView) (pool : Pool Party (Except CacheError Unit)) : Prop where
  calm : pool.world.Calm
  logout : pool.tasks .logout = race.logout leaving
  login : pool.tasks .login = race.login stage
  situation : Situation race.former leaving (moments pool.made) slot
  taken_iff : .taken ∈ moments pool.made ↔ stage.HasSwapped
  slot_entry : slot.Shows race deadline pool
  gone : leaving = .left → pool.world.entry (tokenKey race.former) = none
  written : stage ≠ .pending → ∃ time, writtenAt? pool.made .login = some time ∧
    time ≤ pool.world.clock ∧ pool.world.entry (tokenKey race.token) =
      some (.textUntil race.owner.render (time + 1000 * race.ttl.toNat))
  retiring : ∀ previous, stage = .retiring previous → previous ≠ race.token

namespace Racing

variable {race : Race} {deadline : Nat} {leaving : Leaving} {stage : Stage} {slot : SlotView}
  {pool : Pool Party (Except CacheError Unit)} {after : World}

theorem slot_text (h : Racing race deadline leaving stage slot pool) (e : CacheEntry)
    (he : pool.world.entry (slotKey race.owner) = some e) : ∃ v d, e = .textUntil v d := by
  have hshows := h.slot_entry
  cases slot with
  | former =>
    rw [SlotView.Shows, he] at hshows
    exact ⟨_, _, Option.some.inj hshows⟩
  | newer =>
    obtain ⟨time, later, -, -, hentry⟩ := hshows
    rw [he] at hentry
    exact ⟨_, _, Option.some.inj hentry⟩
  | empty =>
    rw [SlotView.Shows, he] at hshows
    exact absurd hshows (by simp)

/-- What is read in the slot tells whether the former token is still there. -/
theorem reads_slot (h : Racing race deadline leaving stage slot pool)
    (hlive : pool.world.clock < deadline) :
    slot = .former ∧ pool.world.reads (slotKey race.owner) = some race.former ∨
      slot = .newer ∧ pool.world.reads (slotKey race.owner) ≠ some race.former ∨
      slot = .empty ∧ pool.world.reads (slotKey race.owner) = none := by
  have hshows := h.slot_entry
  cases slot with
  | former => exact Or.inl ⟨rfl, World.reads_eq_some hshows hlive⟩
  | newer =>
    obtain ⟨time, later, -, -, hentry⟩ := hshows
    refine Or.inr (Or.inl ⟨rfl, ?_⟩)
    rw [World.reads_eq_ite hentry]
    split
    · exact fun heq => race.ne (Option.some.inj heq)
    · simp
  | empty => exact Or.inr (Or.inr ⟨rfl, World.reads_eq_none hshows⟩)

/-- What the slot shows depends on its entry and on the time the token was written. -/
theorem shows_congr {other : Pool Party (Except CacheError Unit)}
    (hslot : other.world.entry (slotKey race.owner) = pool.world.entry (slotKey race.owner))
    (hwritten : writtenAt? other.made .login = writtenAt? pool.made .login)
    (h : slot.Shows race deadline pool) : slot.Shows race deadline other := by
  cases slot with
  | former => exact hslot.trans h
  | newer =>
    obtain ⟨time, later, htime, hlater, hentry⟩ := h
    exact ⟨time, later, hwritten.trans htime, hlater, hslot.trans hentry⟩
  | empty => exact hslot.trans h

/-- Time may pass. -/
theorem elapse (h : Racing race deadline leaving stage slot pool) (milliseconds : Nat) :
    Racing race deadline leaving stage slot (pool.turn (.elapse milliseconds)) where
  calm := h.calm.advance milliseconds
  logout := h.logout
  login := h.login
  situation := h.situation
  taken_iff := h.taken_iff
  slot_entry := shows_congr rfl rfl h.slot_entry
  gone := h.gone
  written hstage := by
    obtain ⟨time, htime, hle, hentry⟩ := h.written hstage
    exact ⟨time, htime, Nat.le_add_right_of_le hle, hentry⟩
  retiring := h.retiring

/-- The logout reads the slot. -/
theorem read (h : Racing race deadline .asking stage slot pool)
    (hlive : pool.world.clock < deadline) :
    Racing race deadline (.leaving (pool.world.reads (slotKey race.owner))) stage slot
      ⟨pool.world.noted (.cache (.get (slotKey race.owner))),
        Function.update pool.tasks .logout
          (race.logout (.leaving (pool.world.reads (slotKey race.owner)))),
        ⟨.logout, pool.world.clock, .cache (.get (slotKey race.owner))⟩ :: pool.made⟩ where
  calm := h.calm.noted _
  logout := Function.update_self Party.logout _ pool.tasks
  login := h.login
  situation := by
    rw [moments_read]
    refine h.situation.onRead ?_
    rcases h.reads_slot hlive with hformer | hnewer | ⟨hempty, -⟩
    · exact Or.inl hformer
    · exact Or.inr hnewer
    · exact absurd hempty h.situation.ne_empty
  taken_iff := by
    rw [moments_read, ← h.taken_iff]
    simp
  slot_entry := shows_congr rfl rfl h.slot_entry
  gone hleft := absurd hleft (by simp)
  written := h.written
  retiring := h.retiring

/-- The logout removes the former token, and the slot's entry if it has read the former
token there. -/
theorem leave {current : Option String}
    (h : Racing race deadline (.leaving current) stage slot pool) {keys : List String}
    (hleaves : Leaves race.owner race.former current pool.world after) :
    Racing race deadline .left stage (if current = some race.former then .empty else slot)
      ⟨after, Function.update pool.tasks .logout (race.logout .left),
        ⟨.logout, pool.world.clock, .cache (.remove keys)⟩ :: pool.made⟩ where
  calm := hleaves.calm
  logout := Function.update_self Party.logout _ pool.tasks
  login := h.login
  situation := by
    rw [moments_removed]
    exact h.situation.onRemoved
  taken_iff := by
    rw [moments_removed, ← h.taken_iff]
    simp
  slot_entry := by
    have hslot := hleaves.slot_entry
    by_cases hcurrent : current = some race.former
    · rw [if_pos hcurrent] at hslot ⊢
      exact hslot
    · rw [if_neg hcurrent] at hslot ⊢
      exact shows_congr hslot rfl h.slot_entry
  gone _ := hleaves.token_entry
  written hstage := by
    rw [hleaves.clock,
      hleaves.frame _ (tokenKey_ne race.ne) (tokenKey_ne_slotKey race.token race.owner)]
    exact h.written hstage
  retiring := h.retiring

/-- The login writes its token. -/
theorem write (h : Racing race deadline leaving .pending slot pool)
    (halters : World.Alters pool.world (tokenKey race.token) (some (.textUntil
      race.owner.render (pool.world.clock + 1000 * race.ttl.toNat))) after) :
    Racing race deadline leaving .written slot
      ⟨after, Function.update pool.tasks .login (race.login .written),
        ⟨.login, pool.world.clock,
          .cache (.set (tokenKey race.token) race.owner.render race.ttl)⟩ :: pool.made⟩ where
  calm := halters.calm
  logout := h.logout
  login := Function.update_self Party.login _ pool.tasks
  situation := by
    rw [moments_set]
    exact h.situation
  taken_iff := by
    rw [moments_set]
    exact h.taken_iff
  slot_entry := by
    have hslot := halters.entry_of_ne (tokenKey_ne_slotKey race.token race.owner).symm
    have hshows := h.slot_entry
    cases slot with
    | former => exact hslot.trans hshows
    | newer => exact absurd (h.taken_iff.1 (h.situation.taken_mem rfl)) id
    | empty => exact hslot.trans hshows
  gone hleft := by
    rw [halters.entry_of_ne (tokenKey_ne race.ne.symm)]
    exact h.gone hleft
  written _ := by
    rw [halters.clock]
    exact ⟨_, writtenAt?_set_self, Nat.le_refl _, halters.entry_self⟩
  retiring _ hstage := absurd hstage (by simp)

/-- The login takes the slot over. -/
theorem swap (h : Racing race deadline leaving .written slot pool) {next : Stage}
    (hnext : next = .finished ∨
      ∃ previous, previous ≠ race.token ∧ next = .retiring previous)
    (halters : World.Alters pool.world (slotKey race.owner) (some (.textUntil
      race.token (pool.world.clock + 1000 * race.ttl.toNat))) after) :
    Racing race deadline leaving next .newer
      ⟨after, Function.update pool.tasks .login (race.login next),
        ⟨.login, pool.world.clock,
          .cache (.swap (slotKey race.owner) race.token race.ttl)⟩ :: pool.made⟩ := by
  obtain ⟨time, htime, hle, hentry⟩ := h.written (by decide)
  have htoken : ∀ token, after.entry (tokenKey token) = pool.world.entry (tokenKey token) :=
    fun token => halters.entry_of_ne (tokenKey_ne_slotKey token race.owner)
  refine
    { calm := halters.calm
      logout := h.logout
      login := Function.update_self Party.login _ pool.tasks
      situation := ?_, taken_iff := ?_, slot_entry := ?_, gone := ?_, written := ?_
      retiring := ?_ }
  · rw [moments_taken]
    exact h.situation.onTaken fun htaken => h.taken_iff.1 htaken
  · rw [moments_taken]
    refine iff_of_true (by simp) ?_
    rcases hnext with rfl | ⟨previous, -, rfl⟩
    · exact trivial
    · exact trivial
  · exact ⟨time, _, htime, Nat.add_le_add_right hle _, halters.entry_self⟩
  · intro hleft
    rw [htoken]
    exact h.gone hleft
  · intro _
    rw [halters.clock, htoken]
    exact ⟨time, htime, hle, hentry⟩
  · rintro previous rfl
    rcases hnext with hfinished | ⟨read, hread, heq⟩
    · exact absurd hfinished (by simp)
    · rwa [Stage.retiring.inj heq]

/-- The login retires the token that it has swapped out. -/
theorem remove {previous : String} (h : Racing race deadline leaving (.retiring previous) slot pool)
    (halters : World.Alters pool.world (tokenKey previous) none after) :
    Racing race deadline leaving .finished slot
      ⟨after, Function.update pool.tasks .login (race.login .finished),
        ⟨.login, pool.world.clock, .cache (.remove [tokenKey previous])⟩ :: pool.made⟩ where
  calm := halters.calm
  logout := h.logout
  login := Function.update_self Party.login _ pool.tasks
  situation := by
    rw [moments_retired]
    exact h.situation
  taken_iff := by
    rw [moments_retired]
    exact h.taken_iff
  slot_entry :=
    shows_congr (halters.entry_of_ne (tokenKey_ne_slotKey previous race.owner).symm) rfl
      h.slot_entry
  gone hleft := by
    by_cases heq : race.former = previous
    · rw [heq, halters.entry_self]
    · rw [halters.entry_of_ne (tokenKey_ne heq)]
      exact h.gone hleft
  written _ := by
    rw [halters.clock, halters.entry_of_ne (tokenKey_ne (h.retiring previous rfl).symm)]
    exact h.written (by simp)
  retiring _ hstage := absurd hstage (by simp)

/-- **One turn.**  Either it keeps the state of affairs, or the login is given up because
its session would end beyond the clock. -/
theorem turn (h : Racing race deadline leaving stage slot pool)
    (hlive : pool.world.clock < deadline) (t : Turn Party) :
    (∃ leaving stage slot, Racing race deadline leaving stage slot (pool.turn t)) ∨
      (pool.turn t).tasks .login = .abort := by
  cases t with
  | elapse milliseconds => exact Or.inl ⟨_, _, _, h.elapse milliseconds⟩
  | call party =>
    cases party with
    | logout =>
      have htask := h.logout
      cases leaving with
      | asking =>
        rw [Race.logout, revoke_eq] at htask
        rw [Pool.turn_of_finished htask (h.calm.answer_get _)]
        exact Or.inl ⟨_, _, _, h.read hlive⟩
      | leaving current =>
        rw [Race.logout, Session.leave, Procedure.cache, Dialogue.call] at htask
        obtain ⟨after, hanswer, hleaves⟩ := answer_leave h.calm race.owner race.former current
        rw [Pool.turn_of_finished htask hanswer]
        exact Or.inl ⟨_, _, _, h.leave hleaves⟩
      | left =>
        rw [Race.logout] at htask
        rw [Pool.turn_of_done htask]
        exact Or.inl ⟨_, _, _, h⟩
    | login =>
      have hturn := turn_login h.calm h.slot_text h.login
      generalize pool.turn (.call .login) = played at hturn ⊢
      cases hturn with
      | giveUp _ hgiven _ => exact Or.inr hgiven
      | write after halters => exact Or.inl ⟨_, _, _, h.write halters⟩
      | swap after halters => exact Or.inl ⟨_, _, _, h.swap (Stage.ofSwap_cases _ _) halters⟩
      | remove previous after halters => exact Or.inl ⟨_, _, _, h.remove halters⟩
      | rest => exact Or.inl ⟨_, _, _, h⟩

/-- **Every schedule keeps the state of affairs** while the former token's place in the
slot does not expire, unless the login is given up. -/
theorem play (h : Racing race deadline leaving stage slot pool) (schedule : List (Turn Party))
    (hlive : pool.world.clock + Pool.duration schedule < deadline) :
    (∃ leaving stage slot, Racing race deadline leaving stage slot (pool.play schedule)) ∨
      (pool.play schedule).tasks .login = .abort := by
  induction schedule generalizing leaving stage slot pool with
  | nil => exact Or.inl ⟨_, _, _, h⟩
  | cons t schedule ih =>
    have hduration : Pool.duration (t :: schedule) = t.duration + Pool.duration schedule := rfl
    rcases h.turn (by omega) t with ⟨leaving', stage', slot', hturn⟩ | hgiven
    · refine ih hturn ?_
      rw [Pool.clock_turn]
      omega
    · exact Or.inr (Pool.tasks_play_of_abort hgiven schedule)

/-- Both may set out when the former token is in the slot. -/
theorem start (race : Race) {world : World} (hcalm : world.Calm)
    (hformer : world.entry (slotKey race.owner) = some (.textUntil race.former deadline)) :
    Racing race deadline .asking .pending .former (race.pool world) where
  calm := hcalm
  logout := rfl
  login := rfl
  situation := .start
  taken_iff := by simp [Race.pool, moments]
  slot_entry := hformer
  gone hleft := absurd hleft (by simp)
  written hstage := absurd rfl hstage
  retiring _ hstage := absurd hstage (by simp)

/-- **When both are through, only the order of the three moments tells what is left in
the slot.**  The new token is written, and the former one is gone. -/
theorem settled (h : Racing race deadline leaving stage slot pool)
    (hdone : ∀ party, ∃ result, pool.tasks party = .done result) :
    (∀ party, pool.tasks party = .done (.ok ())) ∧
      pool.world.entry (tokenKey race.former) = none ∧
      ∃ time later, writtenAt? pool.made .login = some time ∧
        time + 1000 * race.ttl.toNat ≤ later ∧
        pool.world.entry (tokenKey race.token) =
          some (.textUntil race.owner.render (time + 1000 * race.ttl.toNat)) ∧
        pool.world.entry (slotKey race.owner) =
          if moments pool.made = [.read, .taken, .removed] then none
          else some (.textUntil race.token later) := by
  obtain ⟨result, hlogout⟩ := hdone .logout
  obtain ⟨result', hlogin⟩ := hdone .login
  obtain rfl := Race.eq_left_of_done (h.logout.symm.trans hlogout)
  obtain rfl := Stage.eq_finished_of_done (h.login.symm.trans hlogin)
  refine ⟨?_, h.gone rfl, ?_⟩
  · intro party
    cases party with
    | logout => exact h.logout
    | login => exact h.login
  · obtain ⟨time, htime, -, hentry⟩ := h.written (by decide)
    have hslot := h.situation.slot_eq (h.taken_iff.2 trivial)
    have hshows := h.slot_entry
    by_cases hmoments : moments pool.made = [.read, .taken, .removed]
    · rw [if_pos hmoments] at hslot
      subst hslot
      exact ⟨time, _, htime, Nat.le_refl _, hentry, by rw [if_pos hmoments]; exact hshows⟩
    · rw [if_neg hmoments] at hslot
      subst hslot
      obtain ⟨time', later, htime', hlater, hheld⟩ := hshows
      obtain rfl : time' = time := Option.some.inj (htime'.symm.trans htime)
      exact ⟨time', later, htime, hlater, hentry, by rw [if_neg hmoments]; exact hheld⟩

end Racing

/-! ## What is left of both -/

/-- **When a logout damages a newer login.**  In calm surroundings a logout of the token in
the slot and a login of the same owner are under way together, and the slot's entries and
the new token do not expire meanwhile.  In every order of their calls both succeed, the new
token resolves and the former one does not.

The slot holds the new token, unless the login took it over between the logout's reading
and its removal.  In that one order the slot is empty, and then the new token outlives the
next login of the owner. -/
theorem slot_lost_iff (race : Race) {world : World} (hcalm : world.Calm) {deadline : Nat}
    (hformer : world.entry (slotKey race.owner) = some (.textUntil race.former deadline))
    (schedule : List (Turn Party)) (hlive : world.clock + Pool.duration schedule < deadline)
    {pool : Pool Party (Except CacheError Unit)} (hpool : (race.pool world).play schedule = pool)
    (hdone : ∀ party, ∃ result, pool.tasks party = .done result)
    (hfresh : ∀ time, writtenAt? pool.made .login = some time →
      pool.world.clock < time + 1000 * race.ttl.toNat) :
    (∀ party, pool.tasks party = .done (.ok ())) ∧
    Resolves pool.world race.token race.owner ∧
    (pool.world.run (resolve race.former)).1 = .finished (.ok none) ∧
    (pool.world.run (Procedure.cache (.get (slotKey race.owner)))).1 =
      .finished (.ok (if moments pool.made = [.read, .taken, .removed] then none
        else some race.token)) ∧
    ∀ (third : String) (ttl : UInt64), third ≠ race.token →
      pool.world.clock / 1000 + ttl.toNat < clockEnd →
      (Resolves (pool.world.run (issue race.owner third ttl)).2 race.token race.owner ↔
        moments pool.made = [.read, .taken, .removed]) := by
  obtain ⟨leaving, stage, slot, hracing⟩ : ∃ leaving stage slot,
      Racing race deadline leaving stage slot pool := by
    rcases (Racing.start race hcalm hformer).play schedule hlive with hracing | hgiven
    · rwa [hpool] at hracing
    · obtain ⟨result, hresult⟩ := hdone .login
      rw [hpool, hresult] at hgiven
      exact absurd hgiven (by simp)
  obtain ⟨hresults, hgone, time, later, htime, hlater, hentry, hslot⟩ := hracing.settled hdone
  have htoken := hfresh time htime
  refine ⟨hresults, ?_, ?_, ?_, ?_⟩
  · rw [resolves_iff hracing.calm, ownerOf_eq_ite hentry, if_pos htoken]
  · rw [run_resolve hracing.calm, ownerOf_eq_none hgone]
  · rw [run_get hracing.calm]
    by_cases hmoments : moments pool.made = [.read, .taken, .removed]
    · rw [if_pos hmoments] at hslot ⊢
      rw [World.reads_eq_none hslot]
    · rw [if_neg hmoments] at hslot ⊢
      rw [World.reads_eq_some hslot (Nat.lt_of_lt_of_le htoken hlater)]
  · intro third ttl hthird hd
    obtain ⟨after, hafter, hopens⟩ := run_issue hracing.calm race.owner third
      (expiry?_eq_some hd) hracing.slot_text
    rw [hafter, resolves_iff hopens.calm]
    by_cases hmoments : moments pool.made = [.read, .taken, .removed]
    · -- nothing is read in the slot, so the next login leaves the token alone
      rw [if_pos hmoments] at hslot
      refine iff_of_true ?_ hmoments
      have hkept : after.entry (tokenKey race.token) = pool.world.entry (tokenKey race.token) := by
        refine hopens.frame _ (tokenKey_ne hthird.symm) (tokenKey_ne_slotKey _ _) ?_
        intro previous hprevious
        rw [World.reads_eq_none hslot] at hprevious
        exact absurd hprevious (by simp)
      rw [hentry] at hkept
      rw [ownerOf_eq_ite hkept, if_pos (hopens.clock.symm ▸ htoken)]
    · rw [if_neg hmoments] at hslot
      refine iff_of_false ?_ hmoments
      have hread := World.reads_eq_some hslot (Nat.lt_of_lt_of_le htoken hlater)
      rw [ownerOf_eq_none (hopens.replaced race.token hread hthird.symm)]
      simp

/-- The session that is open is ended, and another one is opened at the same time. -/
def firstAndSecond : Race where
  owner := ⟨1, .web⟩
  former := "first"
  token := "second"
  ttl := 60
  ne := by decide

/-- The logout is through before the login takes the slot over. -/
def orderly : Pool Party (Except CacheError Unit) :=
  (firstAndSecond.pool signedIn).play
    [.call .login, .call .logout, .elapse 500, .call .logout, .call .login]

/-- The login takes the slot over between the two calls of the logout. -/
def crossedOver : Pool Party (Except CacheError Unit) :=
  (firstAndSecond.pool signedIn).play
    [.call .logout, .call .login, .call .login, .call .logout, .call .login]

theorem slot_lost_iff_orderly :
    signedIn.Calm ∧ signedIn.entry (slotKey ⟨1, .web⟩) = some (.textUntil "first" 60000) ∧
      (∀ party, orderly.tasks party = .done (.ok ())) ∧
      Resolves orderly.world "second" ⟨1, .web⟩ ∧
      (orderly.world.run (Procedure.cache (.get (slotKey ⟨1, .web⟩)))).1 =
        .finished (.ok (some "second")) := by
  have hcalm : signedIn.Calm := ⟨rfl, rfl⟩
  have hformer : signedIn.entry (slotKey ⟨1, .web⟩) = some (.textUntil "first" 60000) := rfl
  have hdone : ∀ party, ∃ result, orderly.tasks party = .done result := by
    intro party
    cases party with
    | logout => exact ⟨.ok (), rfl⟩
    | login => exact ⟨.ok (), rfl⟩
  have hfresh : ∀ time, writtenAt? orderly.made .login = some time →
      orderly.world.clock < time + 1000 * firstAndSecond.ttl.toNat := by
    intro time htime
    have hzero : writtenAt? orderly.made .login = some 0 := by decide +kernel
    obtain rfl : time = 0 := Option.some.inj (htime.symm.trans hzero)
    decide +kernel
  obtain ⟨hresults, hsecond, -, hslot, -⟩ :=
    slot_lost_iff firstAndSecond hcalm hformer _ (by decide +kernel) rfl hdone hfresh
  rw [if_neg (by decide +kernel)] at hslot
  exact ⟨hcalm, hformer, hresults, hsecond, hslot⟩

/-- **A logout can damage a newer login.**  Both succeed and the newer token resolves, but
its slot is empty; after a third login two tokens of one owner resolve. -/
theorem slot_empty_crossedOver :
    signedIn.Calm ∧ Resolves signedIn "first" ⟨1, .web⟩ ∧
      (signedIn.run (Procedure.cache (.get (slotKey ⟨1, .web⟩)))).1 =
        .finished (.ok (some "first")) ∧
      (∀ party, crossedOver.tasks party = .done (.ok ())) ∧
      Resolves crossedOver.world "second" ⟨1, .web⟩ ∧
      (crossedOver.world.run (Procedure.cache (.get (slotKey ⟨1, .web⟩)))).1 =
        .finished (.ok none) ∧
      Resolves (Event.play crossedOver.world (.login ⟨1, .web⟩ "third" 60)) "second" ⟨1, .web⟩ ∧
      Resolves (Event.play crossedOver.world (.login ⟨1, .web⟩ "third" 60)) "third" ⟨1, .web⟩ := by
  refine ⟨⟨rfl, rfl⟩, by decide +kernel, by decide +kernel, ?_, by decide +kernel,
    by decide +kernel, by decide +kernel, by decide +kernel⟩
  intro party
  cases party with
  | logout => rfl
  | login => rfl

end Session
end AccountAccess
