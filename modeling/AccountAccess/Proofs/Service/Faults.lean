import AccountAccess.Proofs.Service.Calm

/-!
# Failing surroundings

A cache call can be made to fail before it reaches the cache, and a cache that does not
answer fails every call.  Either way the call is refused and changes nothing.  A call that
is not refused has the effect that it has in calm surroundings.

So failing surroundings are compared with the *unhindered* ones, in which the table is the
same and nothing fails: a call either is refused and leaves the unhindered surroundings as
they are, except that it is noted, or it changes them as in calm surroundings.  What was
proved of calm surroundings carries over in this way.

## Main definitions and results

* `unhindered`: the same surroundings, in which no call is made to fail and the cache answers.
* `Refuses`: a call fails and is noted, and nothing else changes.
* `answer_cases`: a call is refused, or it has the effect that it has in calm surroundings.
* `answer_of_unhindered`: the same, starting from what is known of the calm case.
* `lastKind?`, `of_refused`: which call was the last one, and what a refused one leaves behind.
-/

namespace AccountAccess
namespace World

variable {world : World}

/-! ## Unhindered surroundings -/

/-- The same surroundings, in which no call is made to fail and the cache answers. -/
def unhindered (world : World) : World :=
  { world with faults := fun _ => none, cache := { world.cache with isAvailable := true } }

theorem calm_unhindered (world : World) : world.unhindered.Calm :=
  ⟨rfl, rfl⟩

@[simp] theorem clock_unhindered (world : World) : world.unhindered.clock = world.clock := rfl

@[simp] theorem reads_unhindered (world : World) (key : String) :
    world.unhindered.reads key = world.reads key := rfl

theorem strike_eq (world : World) (kind : CallKind) :
    (world.strike kind).2.unhindered = world.unhindered ∧
      (world.strike kind).2.cache = world.cache ∧ (world.strike kind).2.clock = world.clock := by
  rw [strike]
  split
  · exact ⟨rfl, rfl, rfl⟩
  · exact ⟨rfl, rfl, rfl⟩
  · exact ⟨rfl, rfl, rfl⟩

theorem unhindered_with_cache {other : World} (h : other.unhindered = world.unhindered)
    {cache : MemoryCache} (havailable : cache.isAvailable = true) :
    ({ other with cache } : World).unhindered = { world.unhindered with cache } := by
  have hcache : ({ cache with isAvailable := true } : MemoryCache) = cache := by
    rw [← havailable]
  have hwith := congrArg (fun w : World => { w with cache }) h
  rw [unhindered]
  simp only [hcache]
  exact hwith

/-! ## Refusals -/

/-- A call is refused: it fails and is noted, and nothing else changes. -/
def Refuses (world : World) (call : CacheCall) : Prop :=
  ∃ e after, World.answer (.cache call) world = (.finished (.error e), after) ∧
    after.unhindered = world.unhindered.noted (.cache call)

/-- **A call is refused, or it has the effect that it has in calm surroundings.** -/
theorem answer_cases (world : World) (call : CacheCall) :
    world.Refuses call ∨ ∃ after, World.answer (.cache call) world =
        ((World.answer (.cache call) world.unhindered).1, after) ∧
      after.unhindered = (World.answer (.cache call) world.unhindered).2 := by
  obtain ⟨hunhindered, hcache, hclock⟩ := strike_eq (world.noted (.cache call)) call.kind
  rcases hstrike : (world.noted (.cache call)).strike call.kind with ⟨cause, struck⟩
  rw [hstrike] at hunhindered hcache hclock
  replace hcache : struck.cache = world.cache := hcache
  replace hclock : struck.clock = world.clock := hclock
  cases cause with
  | some cause =>
    refine Or.inl ⟨cause.cacheError, struck, ?_, hunhindered⟩
    simp only [World.answer, World.answerCache, hstrike]
  | none =>
    cases havailable : world.cache.isAvailable with
    | true =>
      have hopen : world.unhindered.cache = world.cache := by
        rw [unhindered, ← havailable]
      have hstays := world.cache.isAvailable_perform world.clock call
      rcases hperform : world.cache.perform world.clock call with ⟨answer, cache⟩
      rw [hperform, havailable] at hstays
      have hcalm := (calm_unhindered world).answer_eq call
      rw [hopen, clock_unhindered, hperform] at hcalm
      refine Or.inr ⟨{ struck with cache }, ?_, ?_⟩
      · rw [hcalm]
        cases answer with
        | some answer =>
          simp only [World.answer, World.answerCache, hstrike, hcache, hclock, MemoryCache.answer,
            if_pos havailable, hperform]
        | none =>
          simp only [World.answer, World.answerCache, hstrike, hcache, hclock, MemoryCache.answer,
            if_pos havailable, hperform]
      · rw [hcalm, unhindered_with_cache hunhindered hstays]
        cases answer with
        | some answer => rfl
        | none => rfl
    | false =>
      have hclosed : ¬world.cache.isAvailable = true := by
        rw [havailable]
        decide
      refine Or.inl ⟨.unavailable, struck, ?_, hunhindered⟩
      simp only [World.answer, World.answerCache, hstrike, hcache, MemoryCache.answer,
        if_neg hclosed]
      rw [← hcache]

theorem answer_of_unhindered {call : CacheCall} {answer : Outcome (Except CacheError call.Result)}
    {after : World} (h : World.answer (.cache call) world.unhindered = (answer, after)) :
    world.Refuses call ∨ ∃ after', World.answer (.cache call) world = (answer, after') ∧
      after'.unhindered = after := by
  rcases answer_cases world call with hrefused | ⟨after', hanswer, hafter⟩
  · exact Or.inl hrefused
  · rw [h] at hanswer hafter
    exact Or.inr ⟨after', hanswer, hafter⟩

/-- The kind of the last call, if it was a call of the cache. -/
def lastKind? (world : World) : Option CallKind :=
  match world.log with
  | .cache call :: _ => some call.kind
  | _ => none

theorem of_refused {call : CacheCall} {after : World}
    (h : after.unhindered = world.unhindered.noted (.cache call)) :
    after.lastKind? = some call.kind ∧ after.clock = world.clock ∧ after.entry = world.entry := by
  have hlog := congrArg World.log h
  have hclock := congrArg World.clock h
  have hentry := congrArg World.entry h
  refine ⟨?_, hclock, hentry⟩
  rw [lastKind?, show after.log = .cache call :: world.log from hlog]

end World
end AccountAccess
