import Mathlib.Data.List.Nodup
import FisheyeDock.Proofs.Timer.Lawful

/-! # The clock keeps its word

    A `Clock` numbers its timers, so its pending timers have handles that are all different and all
    below the next one.  In this order every timer is found under its handle, and scheduling,
    cancelling and firing do to the pending timers what a lawful service has to do. -/

namespace FisheyeDock

def PendingTimer.engagement (timer : PendingTimer) : Engagement :=
  ⟨timer.alarm, timer.every.isSome⟩

namespace Clock

/-- No handle has been given out twice, or ahead of its turn. -/
structure Numbered (next : TimerHandle) (timers : List PendingTimer) : Prop where
  below : ∀ timer ∈ timers, timer.handle < next
  nodup : (timers.map (·.handle)).Nodup

/-- What is armed under a handle. -/
def engagedUnder (timers : List PendingTimer) : Engagements := fun handle =>
  (timers.find? (·.handle == handle)).map PendingTimer.engagement

variable {timers : List PendingTimer} {handle : TimerHandle} {timer : PendingTimer}

/-- Nothing is engaged under a handle that no timer has. -/
theorem engagedUnder_eq_none (h : ∀ timer ∈ timers, timer.handle ≠ handle) :
    engagedUnder timers handle = none := by
  have hfind : timers.find? (·.handle == handle) = none := by
    rw [List.find?_eq_none]
    intro timer htimer
    simpa using h timer htimer
  rw [engagedUnder, hfind]
  rfl

/-- The timer under a handle. -/
def found (timers : List PendingTimer) (handle : TimerHandle) : Option PendingTimer :=
  timers.find? (·.handle == handle)

/-- A pending timer is found under its handle. -/
theorem found_of_mem (nodup : (timers.map (·.handle)).Nodup) (h : timer ∈ timers) :
    found timers timer.handle = some timer := by
  induction timers with
  | nil => exact nomatch h
  | cons first rest ih =>
      rw [List.map_cons, List.nodup_cons] at nodup
      rcases List.mem_cons.mp h with heq | hrest
      · subst heq
        rw [found, List.find?_cons_of_pos (by simp)]
      · have hne : first.handle ≠ timer.handle := by
          intro heq
          exact nodup.1 (List.mem_map.mpr ⟨timer, hrest, heq.symm⟩)
        rw [found, List.find?_cons_of_neg (by simpa using hne)]
        exact ih nodup.2 hrest

/-- Leaving out the timers of one handle. -/
theorem found_filter (timers : List PendingTimer) (handle : TimerHandle) :
    found (timers.filter (·.handle ≠ handle)) = Function.update (found timers) handle none := by
  funext other
  by_cases hother : other = handle
  · subst hother
    rw [Function.update_self, found, List.find?_eq_none]
    intro timer htimer
    simpa using (List.mem_filter.mp htimer).2
  · rw [Function.update_of_ne hother, found, found, List.find?_filter]
    congr 1
    funext timer
    by_cases htimer : timer.handle = other
    · simp [htimer, hother]
    · simp [htimer]

/-- A new timer is found under its handle, and hides no other. -/
theorem found_append (h : ∀ other ∈ timers, other.handle ≠ timer.handle) :
    found (timers ++ [timer]) = Function.update (found timers) timer.handle (some timer) := by
  funext other
  rw [found, List.find?_append]
  by_cases hother : other = timer.handle
  · subst hother
    have hnone : timers.find? (·.handle == timer.handle) = none := by
      rw [List.find?_eq_none]
      intro old hold
      simpa using h old hold
    rw [hnone, Function.update_self]
    simp
  · have hsingle : [timer].find? (·.handle == other) = none := by
      simpa using Ne.symm hother
    rw [hsingle, Function.update_of_ne hother, Option.or_none]
    rfl

/-- A timer is engaged under its handle. -/
theorem engagedUnder_of_mem (nodup : (timers.map (·.handle)).Nodup) (h : timer ∈ timers) :
    engagedUnder timers timer.handle = some timer.engagement :=
  congrArg (Option.map PendingTimer.engagement) (found_of_mem nodup h)

/-- What is dropped is engaged no more. -/
theorem engagedUnder_filter (timers : List PendingTimer) (handle : TimerHandle) :
    engagedUnder (timers.filter (·.handle ≠ handle))
      = Function.update (engagedUnder timers) handle none := by
  have hfound := congrArg (Option.map PendingTimer.engagement ∘ ·) (found_filter timers handle)
  rw [Function.comp_update] at hfound
  exact hfound

/-- What is added is engaged, next to the others. -/
theorem engagedUnder_append (h : ∀ other ∈ timers, other.handle ≠ timer.handle) :
    engagedUnder (timers ++ [timer])
      = Function.update (engagedUnder timers) timer.handle (some timer.engagement) := by
  have hfound := congrArg (Option.map PendingTimer.engagement ∘ ·) (found_append h)
  rw [Function.comp_update] at hfound
  exact hfound

/-- Putting deadlines off arms nothing anew. -/
theorem engagedUnder_map (change : PendingTimer → PendingTimer)
    (hhandle : ∀ timer, (change timer).handle = timer.handle)
    (hengagement : ∀ timer, (change timer).engagement = timer.engagement) :
    engagedUnder (timers.map change) = engagedUnder timers := by
  funext handle
  have hsame : (fun timer : PendingTimer => timer.handle == handle) ∘ change
      = fun timer => timer.handle == handle := by
    funext timer
    rw [Function.comp_apply, hhandle]
  rw [engagedUnder, engagedUnder, List.find?_map, hsame, Option.map_map]
  congr 1
  funext timer
  exact hengagement timer

/-! ## The laws -/

/-- Fewer timers are still numbered. -/
theorem Numbered.filter {next : TimerHandle} (h : Numbered next timers)
    (keep : PendingTimer → Bool) : Numbered next (timers.filter keep) where
  below := fun timer htimer => h.below timer (List.mem_filter.mp htimer).1
  nodup := h.nodup.sublist (List.filter_sublist.map _)

/-- One more timer takes the next handle. -/
theorem Numbered.append (h : Numbered timer.handle timers) :
    Numbered (timer.handle + 1) (timers ++ [timer]) where
  below := by
    intro other hother
    rcases List.mem_append.mp hother with hold | hnew
    · exact Nat.lt_succ_of_lt (h.below other hold)
    · rw [List.mem_singleton.mp hnew]
      exact Nat.lt_succ_self _
  nodup := by
    rw [List.map_append, List.nodup_append]
    refine ⟨h.nodup, List.nodup_singleton _, ?_⟩
    intro a ha b hb
    obtain ⟨other, hother, rfl⟩ := List.mem_map.mp ha
    rw [List.mem_singleton.mp hb]
    exact Nat.ne_of_lt (h.below other hother)

/-- The clock answers by a handle that it has not given before. -/
private theorem schedule_isAnswer (clock : Clock) (delay : Nat) (every : Option Nat)
    (alarm : Alarm) (h : Numbered clock.nextHandle clock.pending) :
    IsAnswer (fun clock => Numbered clock.nextHandle clock.pending)
      (fun clock => engagedUnder clock.pending) clock ⟨alarm, every.isSome⟩
      (clock.schedule delay every alarm) := by
  by_cases hrefuse : clock.refusing = true
  · rw [schedule, if_pos hrefuse]
    exact ⟨h, rfl⟩
  · rw [schedule, if_neg hrefuse]
    have hnew : ∀ timer ∈ clock.pending, timer.handle ≠ clock.nextHandle :=
      fun timer htimer => Nat.ne_of_lt (h.below timer htimer)
    let timer : PendingTimer := ⟨clock.nextHandle, alarm, clock.now + delay, every⟩
    have hnumbered : Numbered (timer.handle + 1) (clock.pending ++ [timer]) :=
      Numbered.append (show Numbered timer.handle clock.pending from h)
    have hadded : engagedUnder (clock.pending ++ [timer])
        = Function.update (engagedUnder clock.pending) timer.handle (some timer.engagement) :=
      engagedUnder_append hnew
    exact ⟨hnumbered, engagedUnder_eq_none hnew, hadded⟩

instance : LawfulTimerService Clock where
  Proper clock := Numbered clock.nextHandle clock.pending
  pending clock := engagedUnder clock.pending
  scheduleRepeating_law clock interval alarm :=
    clock.schedule_isAnswer interval (some interval) alarm
  scheduleOnce_law clock delay alarm := clock.schedule_isAnswer delay none alarm
  cancel_law clock handle h := ⟨h.filter _, engagedUnder_filter clock.pending handle⟩

/-- A clock that starts has given no handle. -/
theorem start_proper : Proper Clock.start :=
  ⟨fun _ htimer => (nomatch htimer), List.nodup_nil⟩

/-- What the clock fires on its way to a time is a pending timer. -/
theorem fires_of_popDue {clock clock' : Clock} {time : Nat} {alarm : Alarm} (h : Proper clock)
    (hpop : clock.popDue time = some (alarm, clock')) :
    ∃ handle engagement, engagement.alarm = alarm ∧ Fires clock handle engagement clock' := by
  obtain ⟨timer, hfirst, heq⟩ := Option.map_eq_some_iff.mp hpop
  obtain ⟨rfl, rfl⟩ := Prod.mk.inj heq
  have hmem : timer ∈ clock.pending := (List.mem_filter.mp (mem_of_earliest? hfirst)).1
  have hengaged := engagedUnder_of_mem h.nodup hmem
  refine ⟨timer.handle, timer.engagement, rfl, ?_⟩
  cases hevery : timer.every with
  | none =>
      -- a timer that fires once is gone
      have hspend : spend timer clock.pending = clock.pending.filter (·.handle ≠ timer.handle) := by
        rw [spend, hevery]
      have honce : timer.engagement.repeats = false := congrArg Option.isSome hevery
      rw [hspend]
      refine ⟨h.filter _, hengaged, ?_⟩
      rw [honce]
      exact engagedUnder_filter clock.pending timer.handle
  | some interval =>
      -- one that repeats has another deadline, and the others are as they were
      let rearm (other : PendingTimer) : PendingTimer :=
        if other.handle = timer.handle then { other with deadline := other.deadline + interval }
        else other
      have hspend : spend timer clock.pending = clock.pending.map rearm := by
        rw [spend, hevery]
      have hhandle : ∀ other, (rearm other).handle = other.handle := by
        intro other
        unfold rearm
        split <;> rfl
      have hsame : ∀ other, (rearm other).engagement = other.engagement := by
        intro other
        unfold rearm
        split <;> rfl
      have hrepeat : timer.engagement.repeats = true := congrArg Option.isSome hevery
      rw [hspend]
      refine ⟨⟨?_, ?_⟩, hengaged, ?_⟩
      · intro other hother
        obtain ⟨old, hold, rfl⟩ := List.mem_map.mp hother
        rw [hhandle]
        exact h.below old hold
      · rw [List.map_map, show (·.handle) ∘ rearm = (·.handle) from funext hhandle]
        exact h.nodup
      · rw [hrepeat]
        exact engagedUnder_map rearm hhandle hsame

/-- Time that passes engages nothing. -/
theorem drifts_to (clock : Clock) (time : Nat) (h : Proper clock) :
    Drifts clock { clock with now := time } :=
  ⟨⟨h.below, h.nodup⟩, rfl⟩

end Clock

end FisheyeDock
