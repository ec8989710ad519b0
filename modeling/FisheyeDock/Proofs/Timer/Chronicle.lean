import FisheyeDock.Proofs.Timer.Clock
import FisheyeDock.Proofs.Timer.Timetable

/-! # A clock with a journal

    A `Chronicle` is a `Clock` next to which everything is noted that is asked of it.  It keeps time
    as a `TimedService` has to, as long as the clock does not refuse.  Any of its pending timers that
    no other one precedes can ring, at its deadline or later (`rings`). -/

namespace FisheyeDock

def PendingTimer.plan (timer : PendingTimer) : Plan := ⟨timer.alarm, timer.deadline, timer.every⟩

structure Chronicle where
  clock : Clock
  /-- The latest first. -/
  journal : List Note

namespace Chronicle

open TimerService

/-- A clock at time zero, next to which nothing has been noted. -/
def start : Chronicle := ⟨Clock.start, []⟩

/-- Notes what the clock is asked for. -/
def note (journal : List Note) (alarm : Alarm) (answer : Option TimerHandle × Clock) :
    Option TimerHandle × Chronicle :=
  (answer.1, ⟨answer.2, .asked alarm :: journal⟩)

instance : TimerService Chronicle where
  scheduleRepeating chronicle interval alarm :=
    note chronicle.journal alarm (scheduleRepeating chronicle.clock interval alarm)
  scheduleOnce chronicle delay alarm :=
    note chronicle.journal alarm (scheduleOnce chronicle.clock delay alarm)
  cancel chronicle handle := { chronicle with clock := cancel chronicle.clock handle }

/-- What is noted of an answer does not change what it says of timers. -/
theorem isAnswer_note {clock : Clock} {engagement : Engagement} {journal journal' : List Note}
    {alarm : Alarm} {answer : Option TimerHandle × Clock}
    (h : IsAnswer Proper pending clock engagement answer) :
    IsAnswer (fun chronicle : Chronicle => Proper chronicle.clock)
      (fun chronicle => pending chronicle.clock) ⟨clock, journal⟩ engagement
      (note journal' alarm answer) := by
  obtain ⟨_ | handle, clock'⟩ := answer
  · exact h
  · exact h

instance : LawfulTimerService Chronicle where
  Proper chronicle := Proper chronicle.clock
  pending chronicle := pending chronicle.clock
  scheduleRepeating_law chronicle interval alarm h :=
    isAnswer_note (LawfulTimerService.scheduleRepeating_law chronicle.clock interval alarm h)
  scheduleOnce_law chronicle delay alarm h :=
    isAnswer_note (LawfulTimerService.scheduleOnce_law chronicle.clock delay alarm h)
  cancel_law chronicle handle h := LawfulTimerService.cancel_law chronicle.clock handle h

/-- The timetable of a clock with a journal. -/
def table (chronicle : Chronicle) : Timetable where
  now := chronicle.clock.now
  plans handle := (Clock.found chronicle.clock.pending handle).map PendingTimer.plan
  journal := chronicle.journal

/-- The clock is in order and does not refuse. -/
structure IsObliging (chronicle : Chronicle) : Prop where
  proper : Proper chronicle.clock
  accepting : chronicle.clock.refusing = false

/-- A new chronicle refuses nothing, and has nothing pending. -/
theorem start_isObliging : start.IsObliging := ⟨Clock.start_proper, rfl⟩

variable {chronicle : Chronicle}

/-- What is asked for is granted, and noted. -/
theorem IsObliging.granted (h : chronicle.IsObliging) (delay : Nat) (every : Option Nat)
    (alarm : Alarm) : ∃ handle chronicle',
      note chronicle.journal alarm (chronicle.clock.schedule delay every alarm)
        = (some handle, chronicle') ∧
      chronicle'.IsObliging ∧ chronicle.table.Grants handle
        ⟨alarm, chronicle.clock.now + delay, every⟩ chronicle'.table := by
  have hnew : ∀ timer ∈ chronicle.clock.pending, timer.handle ≠ chronicle.clock.nextHandle :=
    fun timer htimer => Nat.ne_of_lt (h.proper.below timer htimer)
  let timer : PendingTimer :=
    ⟨chronicle.clock.nextHandle, alarm, chronicle.clock.now + delay, every⟩
  have hfound : Clock.found (chronicle.clock.pending ++ [timer]) =
      Function.update (Clock.found chronicle.clock.pending) timer.handle (some timer) :=
    Clock.found_append hnew
  have hadded := congrArg (Option.map PendingTimer.plan ∘ ·) hfound
  rw [Function.comp_update] at hadded
  have haccept : ¬ chronicle.clock.refusing = true := by
    rw [h.accepting]
    decide
  rw [Clock.schedule, if_neg haccept]
  have hproper : Clock.Numbered (timer.handle + 1) (chronicle.clock.pending ++ [timer]) :=
    .append h.proper
  refine ⟨_, _, rfl, ⟨hproper, h.accepting⟩, ?_, ?_⟩
  · have hnone : Clock.found chronicle.clock.pending chronicle.clock.nextHandle = none := by
      rw [Clock.found, List.find?_eq_none]
      intro old hold
      simpa using hnew old hold
    exact congrArg (Option.map PendingTimer.plan) hnone
  · exact congrArg (fun plans => Timetable.mk chronicle.clock.now plans
      (.asked alarm :: chronicle.journal)) hadded

/-- To cancel a timer strikes its plan. -/
theorem table_cancel (chronicle : Chronicle) (handle : TimerHandle) :
    (cancel chronicle handle).table = chronicle.table.strike handle := by
  have hleft := congrArg (Option.map PendingTimer.plan ∘ ·)
    (Clock.found_filter chronicle.clock.pending handle)
  rw [Function.comp_update] at hleft
  exact congrArg (fun plans => Timetable.mk chronicle.clock.now plans chronicle.journal) hleft

instance : TimedService Chronicle where
  timetable := table
  Obliges := IsObliging
  proper_of_obliges h := h.proper
  pending_eq {chronicle} _ := by
    funext handle
    show (Clock.found chronicle.clock.pending handle).map PendingTimer.engagement =
      ((Clock.found chronicle.clock.pending handle).map PendingTimer.plan).map Plan.engagement
    rw [Option.map_map]
    rfl
  repeating_granted interval alarm h := h.granted interval (some interval) alarm
  once_granted delay alarm h := h.granted delay none alarm
  cancel_granted {chronicle} handle h :=
    ⟨⟨(LawfulTimerService.cancel_law chronicle.clock handle h.proper).1, h.accepting⟩,
      chronicle.table_cancel handle⟩

/-! ## Ringing -/

/-- A timer with another deadline. -/
def putOff (next : Nat) (timer : PendingTimer) : PendingTimer := { timer with deadline := next }

/-- Puts the timers of a handle off. -/
def putOffAt (handle : TimerHandle) (next : Nat) (timer : PendingTimer) : PendingTimer :=
  if timer.handle = handle then putOff next timer else timer

/-- To put a timer off keeps its handle. -/
theorem handle_putOffAt (handle : TimerHandle) (next : Nat) (timer : PendingTimer) :
    (putOffAt handle next timer).handle = timer.handle := by
  unfold putOffAt
  split <;> rfl

/-- A timer that is put off is found with its new deadline. -/
theorem found_putOffAt {timers : List PendingTimer} {timer : PendingTimer}
    (h : Clock.found timers timer.handle = some timer) (next : Nat) :
    Clock.found (timers.map (putOffAt timer.handle next)) =
      Function.update (Clock.found timers) timer.handle (some (putOff next timer)) := by
  have hmap : ∀ other, Clock.found (timers.map (putOffAt timer.handle next)) other =
      (Clock.found timers other).map (putOffAt timer.handle next) := by
    intro other
    rw [Clock.found, List.find?_map]
    congr 2
    funext old
    rw [Function.comp_apply, handle_putOffAt]
  funext other
  rw [hmap]
  by_cases hother : other = timer.handle
  · subst hother
    rw [h, Function.update_self, Option.map_some, putOffAt, if_pos rfl]
  · rw [Function.update_of_ne hother]
    cases hfound : Clock.found timers other with
    | none => rfl
    | some old =>
        have hold : old.handle = other := by simpa using List.find?_some hfound
        rw [Option.map_some, putOffAt, if_neg (hold ▸ hother)]

/-- The alarm of a timer rings at a time, and a timer that repeats is put off. -/
def ring (chronicle : Chronicle) (timer : PendingTimer) (time next : Nat) : Chronicle where
  clock :=
    { chronicle.clock with
      now := time
      pending := match timer.every with
        | some _ => chronicle.clock.pending.map (putOffAt timer.handle next)
        | none => chronicle.clock.pending.filter (·.handle ≠ timer.handle) }
  journal := .rang timer.alarm (time - timer.deadline) :: chronicle.journal

variable {timer : PendingTimer} {time next : Nat}

/-- What rings leaves a chronicle obliging. -/
theorem IsObliging.ring (h : chronicle.IsObliging) : (chronicle.ring timer time next).IsObliging := by
  refine ⟨?_, h.accepting⟩
  unfold Chronicle.ring
  cases timer.every with
  | none => exact h.proper.filter _
  | some interval =>
      refine ⟨?_, ?_⟩
      · intro other hother
        obtain ⟨old, hold, rfl⟩ := List.mem_map.mp hother
        rw [handle_putOffAt]
        exact h.proper.below old hold
      · show ((chronicle.clock.pending.map (putOffAt timer.handle next)).map (·.handle)).Nodup
        rw [List.map_map, show (·.handle) ∘ putOffAt timer.handle next = (·.handle) from
          funext (handle_putOffAt timer.handle next)]
        exact h.proper.nodup

/-- Time passes until some time. -/
def waitUntil (chronicle : Chronicle) (time : Nat) : Chronicle :=
  { chronicle with clock := { chronicle.clock with now := time } }

theorem IsObliging.waitUntil (h : chronicle.IsObliging) : (chronicle.waitUntil time).IsObliging :=
  ⟨h.proper, h.accepting⟩

/-- To wait lets time pass. -/
theorem passes (h : chronicle.clock.now ≤ time) :
    chronicle.table.Passes (chronicle.waitUntil time).table where
  now_le := h
  plans_eq := rfl
  journal_eq := rfl

/-- Whether the alarm of a timer can ring at a time, and the timer be put off until another. -/
def canRing (chronicle : Chronicle) (timer : PendingTimer) (time next : Nat) : Bool :=
  decide (timer ∈ chronicle.clock.pending) &&
    decide (∀ other ∈ chronicle.clock.pending, timer.deadline ≤ other.deadline) &&
    decide (timer.deadline ≤ time ∧ chronicle.clock.now ≤ time) &&
    decide (∀ interval ∈ timer.every, next ≤ time + interval)

/-- Any pending timer that no other one precedes can ring. -/
theorem rings (timer : PendingTimer) (time next : Nat) (h : chronicle.IsObliging)
    (hcan : chronicle.canRing timer time next = true) :
    chronicle.table.Rings timer.handle timer.plan (chronicle.ring timer time next).table := by
  simp only [canRing, Bool.and_eq_true, decide_eq_true_eq] at hcan
  obtain ⟨⟨⟨hmem, hfirst⟩, hdue, hnow⟩, hnext⟩ := hcan
  constructor
  · exact congrArg (Option.map PendingTimer.plan) (Clock.found_of_mem h.proper.nodup hmem)
  · intro other plan hplan
    obtain ⟨old, hold, rfl⟩ := Option.map_eq_some_iff.mp hplan
    exact hfirst old (List.mem_of_find?_eq_some hold)
  · exact hdue
  · exact hnow
  · refine ⟨next, hnext, ?_⟩
    unfold Chronicle.ring
    cases hevery : timer.every with
    | none =>
        have hleft := congrArg (Option.map PendingTimer.plan ∘ ·)
          (Clock.found_filter chronicle.clock.pending timer.handle)
        rw [Function.comp_update] at hleft
        rw [show timer.plan.every = none from hevery]
        exact hleft
    | some interval =>
        have hleft := congrArg (Option.map PendingTimer.plan ∘ ·)
          (found_putOffAt (Clock.found_of_mem h.proper.nodup hmem) next)
        rw [Function.comp_update] at hleft
        have hplan : (putOff next timer).plan = ⟨timer.alarm, next, some interval⟩ :=
          congrArg (Plan.mk timer.alarm next) hevery
        rw [Option.map_some, hplan] at hleft
        rw [show timer.plan.every = some interval from hevery]
        exact hleft
  · rfl

end Chronicle

end FisheyeDock
