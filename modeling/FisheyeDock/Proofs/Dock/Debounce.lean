import Mathlib.Data.List.Chain
import FisheyeDock.Proofs.Dock.Pulse

/-! # The cadence stops once after the last rearm

    Whatever rearms a running cadence begins a new quiet period, and the old one is forgotten.  So a
    cadence runs exactly while one end of a quiet period is pending, and that is due one interval
    and `quietPeriod` after the latest rearm.  However many rearms there are, as long as each comes
    before the quiet period of the one before has passed, they end in one stop, which is timed from
    the last (`Logged.debounced`).

    A `Logged` run notes when the cadence was rearmed, when it stopped, and when the dock withdrew.
        -/

namespace FisheyeDock.Dock

open Scene (Command)
open TimerService

/-! ## The log -/

/-- What is noted of a cadence, with the time. -/
inductive Entry where
  /-- A quiet period has begun, with so long a time between two ticks. -/
  | rearmed (time interval : Nat)
  /-- The quiet period has passed. -/
  | stopped (time : Nat)
  /-- The dock has withdrawn. -/
  | withdrawn (time : Nat)
  deriving Repr, DecidableEq

namespace Entry

def time : Entry → Nat
  | rearmed time _ | stopped time | withdrawn time => time

/-- The time of a rearm, and when the quiet period that it has begun will have passed. -/
def window? : Entry → Option (Nat × Nat)
  | rearmed time interval => some (time, time + (Cadence.quietPeriod + interval))
  | _ => none

/-- A window begins when the rearm is noted. -/
theorem time_of_window {entry : Entry} {window : Nat × Nat} (h : entry.window? = some window) :
    entry.time = window.1 := by
  cases entry with
  | rearmed time interval =>
      obtain rfl := Option.some.inj h
      rfl
  | stopped time | withdrawn time => exact nomatch h

def isStop : Entry → Bool
  | stopped _ => true
  | _ => false

end Entry

/-- A log, the latest entry first, up to a time.  The cadence has stopped only when the quiet period
    of the latest rearm had passed. -/
structure Orderly (now : Nat) (log : List Entry) : Prop where
  past : ∀ entry ∈ log, entry.time ≤ now
  sorted : log.Pairwise fun later earlier => earlier.time ≤ later.time
  stops : ∀ {later : List Entry} {time : Nat} {earlier : List Entry},
    log = later ++ .stopped time :: earlier → ∃ rearm interval rest,
      earlier = .rearmed rearm interval :: rest ∧ rearm + (Cadence.quietPeriod + interval) ≤ time

/-- Each rearm comes before the quiet period of the one before has passed. -/
def Close (log : List Entry) : Prop :=
  (log.filterMap Entry.window?).IsChain fun later earlier => later.1 < earlier.2

instance (log : List Entry) : Decidable (Close log) :=
  inferInstanceAs (Decidable (List.IsChain _ _))

namespace Orderly

variable {now now' : Nat} {log later burst earlier : List Entry} {entry : Entry}

/-- Nothing that has been noted is in order. -/
theorem nil (now : Nat) : Orderly now [] where
  past := nofun
  sorted := .nil
  stops := by simp

/-- An order lasts as time goes on. -/
theorem mono (h : Orderly now log) (hle : now ≤ now') : Orderly now' log :=
  ⟨fun entry hentry => Nat.le_trans (h.past entry hentry) hle, h.sorted, h.stops⟩

/-- An entry at the present is in order, if a stop comes when the quiet period is over. -/
theorem cons (h : Orderly now log) (htime : entry.time = now)
    (stop : ∀ time, entry = .stopped time → ∃ rearm interval rest,
      log = .rearmed rearm interval :: rest ∧ rearm + (Cadence.quietPeriod + interval) ≤ time) :
    Orderly now (entry :: log) where
  past := by
    simpa [htime] using h.past
  sorted := by
    refine .cons ?_ h.sorted
    intro old hold
    rw [htime]
    exact h.past old hold
  stops := by
    intro later time earlier hsplit
    cases later with
    | nil =>
        obtain ⟨rfl, rfl⟩ := List.cons.inj hsplit
        exact stop time rfl
    | cons first later =>
        obtain ⟨-, hrest⟩ := List.cons.inj hsplit
        exact h.stops hrest

/-- A rearm that comes latest has the latest window. -/
theorem head_windows {rearm interval : Nat} (h : log.head? = some (.rearmed rearm interval)) :
    (rearm, rearm + (Cadence.quietPeriod + interval)) ∈ (log.filterMap Entry.window?).head? := by
  cases log with
  | nil => exact nomatch h
  | cons first log =>
      obtain rfl := Option.some.inj h
      rfl

/-- A stop comes directly after the rearm that it follows. -/
theorem of_stop (h : Orderly now log) {later between earlier : List Entry}
    {stop rearm interval : Nat}
    (split : log = later ++ .stopped stop :: (between ++ .rearmed rearm interval :: earlier)) :
    ∃ rearm' interval', (between ++ [Entry.rearmed rearm interval]).head?
        = some (.rearmed rearm' interval') ∧
      rearm' + (Cadence.quietPeriod + interval') ≤ stop := by
  obtain ⟨rearm', interval', rest, heq, hle⟩ := h.stops split
  cases between with
  | nil =>
      obtain ⟨hentry, -⟩ := List.cons.inj heq
      obtain ⟨rfl, rfl⟩ := Entry.rearmed.inj hentry
      exact ⟨_, _, rfl, hle⟩
  | cons first between =>
      obtain ⟨rfl, -⟩ := List.cons.inj heq
      exact ⟨_, _, rfl, hle⟩

/-- Rearms that come close on each other keep the cadence from stopping. -/
theorem no_stop (h : Orderly now log) {later burst earlier : List Entry}
    {last lastInterval first firstInterval : Nat}
    (split : log = later ++ .rearmed last lastInterval ::
      (burst ++ .rearmed first firstInterval :: earlier))
    (close : Close (.rearmed last lastInterval :: (burst ++ [.rearmed first firstInterval])))
    (time : Nat) : .stopped time ∉ burst := by
  intro hmem
  obtain ⟨after, before, rfl⟩ := List.append_of_mem hmem
  have hsplit : log = (later ++ .rearmed last lastInterval :: after) ++
      .stopped time :: (before ++ .rearmed first firstInterval :: earlier) := by
    rw [split]
    simp
  obtain ⟨rearm, interval, hhead, hpassed⟩ := h.of_stop hsplit
  have hwindows : (Entry.rearmed last lastInterval :: (after ++ .stopped time :: before ++
        [.rearmed first firstInterval])).filterMap Entry.window? =
      (Entry.rearmed last lastInterval :: after).filterMap Entry.window? ++
        (before ++ [Entry.rearmed first firstInterval]).filterMap Entry.window? := by
    simp [List.filterMap_cons, Entry.window?]
  rw [Close, hwindows, List.isChain_append] at close
  have hopened : (last, last + (Cadence.quietPeriod + lastInterval)) ∈
      (Entry.rearmed last lastInterval :: after).filterMap Entry.window? :=
    List.mem_filterMap.mpr ⟨_, List.mem_cons_self, rfl⟩
  obtain ⟨next, hnext⟩ :=
    Option.isSome_iff_exists.mp (List.getLast?_isSome.mpr (List.ne_nil_of_mem hopened))
  obtain ⟨entry, hentry, hof⟩ := List.mem_filterMap.mp (List.mem_of_getLast? hnext)
  -- the next rearm after the stop comes no earlier, and yet before the quiet period has passed
  have hlater : time ≤ entry.time := by
    have hsorted := h.sorted
    rw [hsplit] at hsorted
    exact (List.pairwise_append.mp hsorted).2.2 entry (List.mem_append_right _ hentry) _
      List.mem_cons_self
  have hclose : next.1 < rearm + (Cadence.quietPeriod + interval) :=
    close.2.2 next hnext _ (head_windows hhead)
  rw [Entry.time_of_window hof] at hlater
  omega

/-- Between two rearms the cadence stops once at most. -/
theorem stops_le_one (h : Orderly now log) {later earlier : List Entry} {rearm interval : Nat}
    (split : log = later ++ .rearmed rearm interval :: earlier)
    (alone : ∀ entry ∈ later, entry.window? = none) :
    (later.filter Entry.isStop).length ≤ 1 ∧ ∀ time, .stopped time ∈ later →
      rearm + (Cadence.quietPeriod + interval) ≤ time := by
  -- a stop stands next to the rearm that it follows
  have hnext : ∀ {after : List Entry} {time : Nat} {before : List Entry},
      later = after ++ .stopped time :: before →
        before = [] ∧ rearm + (Cadence.quietPeriod + interval) ≤ time := by
    rintro after time before rfl
    have hsplit : log =
        after ++ .stopped time :: (before ++ .rearmed rearm interval :: earlier) := by
      rw [split]
      simp
    obtain ⟨rearm', interval', hhead, hpassed⟩ := h.of_stop hsplit
    cases before with
    | nil =>
        obtain ⟨rfl, rfl⟩ := Entry.rearmed.inj (Option.some.inj hhead)
        exact ⟨rfl, hpassed⟩
    | cons first before =>
        obtain rfl := Option.some.inj hhead
        have hwindow := alone (.rearmed rearm' interval') (by simp)
        exact nomatch hwindow
  constructor
  · rcases List.eq_nil_or_concat' later with rfl | ⟨front, last, rfl⟩
    · simp
    · have hfront : front.filter Entry.isStop = [] := by
        rw [List.filter_eq_nil_iff]
        intro entry hentry hstop
        cases entry with
        | stopped time =>
            obtain ⟨after, before, rfl⟩ := List.append_of_mem hentry
            have hnothing := (hnext (List.append_assoc after (.stopped time :: before) [last])).1
            simp at hnothing
        | rearmed | withdrawn => exact nomatch hstop
      rw [List.filter_append, hfront, List.nil_append]
      exact List.length_filter_le _ [last]
  · intro time hmem
    obtain ⟨after, before, heq⟩ := List.append_of_mem hmem
    exact (hnext heq).2

end Orderly

/-! ## Runs with a log -/

variable {α τ : Type} [Scalar α] [TimerService τ]

section Record

variable [TimedService τ]

/-- What is noted of an event that has led from one dock to another. -/
def record (dock : Dock α τ) (host : Host α) (event : Event) (dock' : Dock α τ)
    (log : List Entry) : List Entry :=
  let now := (timetable dock'.cadence.timers).now
  if dock.rearmsOn host event && dock'.cadence.isRunning then
    .rearmed now dock'.cadence.interval :: log
  else if event = .alarm .quiet then .stopped now :: log
  else if dock.withdrawsOn host event then .withdrawn now :: log
  else log

/-- The docks that a run in time leads to, with its log. -/
inductive Logged : Dock α τ → List Entry → Prop where
  | new (timers : τ) (obliges : Obliges timers)
      (nothing : ∀ handle, (timetable timers).plans handle = none) : Logged (new timers) []
  | call {dock dock' : Dock α τ} {log : List Entry} {commands : List (Command α)} (host : Host α)
      (event : Event) (before : Logged dock log) (call : ∀ alarm, event ≠ .alarm alarm)
      (step : dock.handle host event = .ok (dock', commands)) :
      Logged dock' (dock.record host event dock' log)
  | ring {dock dock' : Dock α τ} {log : List Entry} {commands : List (Command α)} {timers : τ}
      {handle : TimerHandle} {plan : Plan} (host : Host α) (before : Logged dock log)
      (obliges : Obliges timers)
      (rings : (timetable dock.cadence.timers).Rings handle plan (timetable timers))
      (step : (dock.withTimers timers).handle host (.alarm plan.alarm) = .ok (dock', commands)) :
      Logged dock' ((dock.withTimers timers).record host (.alarm plan.alarm) dock' log)
  | pass {dock : Dock α τ} {log : List Entry} {timers : τ} (before : Logged dock log)
      (obliges : Obliges timers)
      (passes : (timetable dock.cadence.timers).Passes (timetable timers)) :
      Logged (dock.withTimers timers) log

variable {dock dock' : Dock α τ} {log : List Entry} {host : Host α} {event : Event}
variable {commands : List (Command α)}

/-- The log aside, such a run is a run in time. -/
theorem Logged.timed (h : Logged dock log) : Timed (fun _ => True) dock := by
  induction h with
  | new timers obliges nothing => exact .new timers obliges nothing
  | call host event before call step ih => exact ih.call host event trivial call step
  | ring host before obliges rings step ih =>
      exact ih.step (.ring host trivial obliges rings step)
  | pass before obliges passes ih => exact ih.step (.pass obliges passes)

/-! ## One event -/

/-- The cadence runs exactly while the latest that is noted is a rearm, and its quiet period is the
    one that was begun then. -/
structure Rearmed (dock : Dock α τ) (log : List Entry) : Prop where
  running_iff : dock.cadence.phase = .running ↔
    ∃ rearm interval rest, log = .rearmed rearm interval :: rest
  guarded : ∀ {rearm interval : Nat} {rest : List Entry}, log = .rearmed rearm interval :: rest →
    dock.cadence.interval = interval ∧
      ∃ tick quiet next, dock.cadence.Guarded tick quiet next rearm

/-- What is noted of a rearm is its time and the interval. -/
theorem record_of_rearms (rearms : dock.rearmsOn host event = true)
    (running : dock'.cadence.phase = .running) : dock.record host event dock' log =
      .rearmed (timetable dock'.cadence.timers).now dock'.cadence.interval :: log := by
  have hif : (dock.rearmsOn host event && dock'.cadence.isRunning) = true := by
    simp [rearms, Cadence.isRunning, running]
  rw [record, if_pos hif]

/-- What is noted of a cadence that does not run is no rearm. -/
theorem record_of_stops (marked : event = .alarm .quiet ∨ dock.withdrawsOn host event = true)
    (phase : dock'.cadence.phase ≠ .running) (rearm interval : Nat) (rest : List Entry) :
    dock.record host event dock' log ≠ .rearmed rearm interval :: rest := by
  have hif : ¬ (dock.rearmsOn host event && dock'.cadence.isRunning) = true := by
    simp [Cadence.isRunning, phase]
  rw [record, if_neg hif]
  by_cases hquiet : event = .alarm .quiet
  · rw [if_pos hquiet]
    exact nofun
  · rw [if_neg hquiet, if_pos (marked.resolve_left hquiet)]
    exact nofun

/-- Nothing is noted of what neither rearms nor stops. -/
theorem record_of_passes (unmarked : ¬ (event = .alarm .quiet ∨ dock.withdrawsOn host event = true))
    (off : dock'.cadence.phase = .running → dock.rearmsOn host event = false) :
    dock.record host event dock' log = log := by
  have hif : ¬ (dock.rearmsOn host event && dock'.cadence.isRunning) = true := by
    rw [Bool.and_eq_true, not_and]
    intro hrearms hruns
    exact nomatch hrearms.symm.trans (off (of_decide_eq_true hruns))
  rw [not_or] at unmarked
  rw [record, if_neg hif, if_neg unmarked.1, if_neg unmarked.2]

/-- A pulse keeps to what is noted of it. -/
theorem Rearmed.step (pulse : Pulse dock host event dock') (before : dock.cadence.phase = .running ↔
      ∃ rearm interval rest, log = .rearmed rearm interval :: rest)
    (guarded : event ≠ .alarm .quiet → ∀ {rearm interval : Nat} {rest : List Entry},
      log = .rearmed rearm interval :: rest → dock.cadence.interval = interval ∧
        ∃ tick quiet next, dock.cadence.Guarded tick quiet next rearm) :
    dock'.Rearmed (dock.record host event dock' log) := by
  cases pulse with
  | rearms rearms running fresh =>
      rw [record_of_rearms rearms running]
      refine ⟨iff_of_true running ⟨_, _, _, rfl⟩, ?_⟩
      intro rearm interval rest heq
      obtain ⟨hentry, -⟩ := List.cons.inj heq
      obtain ⟨rfl, rfl⟩ := Entry.rearmed.inj hentry
      exact ⟨rfl, fresh running⟩
  | stops marked phase =>
      have hno : ∀ rearm interval rest,
          dock.record host event dock' log ≠ .rearmed rearm interval :: rest :=
        record_of_stops marked phase
      refine ⟨iff_of_false phase ?_, fun heq => absurd heq (hno _ _ _)⟩
      rintro ⟨rearm, interval, rest, heq⟩
      exact hno _ _ _ heq
  | passes unmarked running_iff keeps =>
      rw [record_of_passes unmarked fun running => (keeps running).1]
      refine ⟨running_iff.trans before, ?_⟩
      intro rearm interval rest heq
      have hrunning := before.mpr ⟨_, _, _, heq⟩
      have halike := (keeps (running_iff.mpr hrunning)).2
      obtain ⟨hinterval, tick, quiet, next, hguarded⟩ :=
        guarded (fun hquiet => unmarked (.inl hquiet)) heq
      exact ⟨halike.interval.trans hinterval, tick, quiet, next, halike.guarded hguarded⟩

/-- What is noted at an event keeps the log in order, if an alarm for the quiet period comes when
    that is over. -/
theorem Orderly.record (h : Orderly (timetable dock'.cadence.timers).now log)
    (passed : event = .alarm .quiet → ∃ rearm interval rest, log = .rearmed rearm interval :: rest ∧
      rearm + (Cadence.quietPeriod + interval) ≤ (timetable dock'.cadence.timers).now) :
    Orderly (timetable dock'.cadence.timers).now (dock.record host event dock' log) := by
  unfold Dock.record
  dsimp only
  split
  · exact h.cons rfl nofun
  · split
    · rename_i hquiet
      refine h.cons rfl ?_
      intro time heq
      obtain rfl := Entry.stopped.inj heq
      exact passed hquiet
    · split
      · exact h.cons rfl nofun
      · exact h

/-! ## One alarm -/

section Ring

variable {timers : τ} {handle : TimerHandle} {plan : Plan}

omit [Scalar α] in
/-- A timer that rings was held for its alarm. -/
theorem held_of_rings (sound : dock.Sound) (obliges : Obliges dock.cadence.timers)
    (rings : (timetable dock.cadence.timers).Rings handle plan (timetable timers)) :
    dock.cadence.held plan.alarm = some handle := by
  obtain ⟨alarm, deadline, every⟩ := plan
  exact held_of_due sound obliges rings.planned

/-- An alarm that rings has a pulse. -/
theorem pulse_of_ring (sound : dock.Sound) (timely : dock.cadence.Timely) (obliges : Obliges timers)
    (rings : (timetable dock.cadence.timers).Rings handle plan (timetable timers))
    (step : (dock.withTimers timers).handle host (.alarm plan.alarm) = .ok (dock', commands)) :
    Pulse (dock.withTimers timers) host (.alarm plan.alarm) dock' := by
  obtain ⟨-, -, acc⟩ := sound.cadence.accounts.fire (fires_of_rings timely.obliges obliges rings)
  have hheld := held_of_rings sound timely.obliges rings
  cases halarm : plan.alarm with
  | tick =>
      rw [halarm] at step hheld
      obtain ⟨animated, htick⟩ := tick_of_handle step
      have hrunning := sound.cadence.tick_iff.mp (Option.isSome_of_eq_some hheld)
      exact pulse_of_tick (timely.ring_tick hrunning hheld obliges rings).1 htick
  | quiet =>
      rw [halarm] at step
      obtain ⟨rfl, -⟩ := Prod.mk.inj (Except.ok.inj step)
      exact .stops (.inl rfl) (Cadence.phase_halt_ne_running _)
  | resume =>
      rw [halarm] at step hheld
      rw [show plan.engagement.alarm = .resume from halarm] at acc
      obtain ⟨hresume, -⟩ := resume_of_handle step
      have hsuspended := sound.cadence.resume_suspended (Option.isSome_of_eq_some hheld)
      exact pulse_of_resume sound obliges hsuspended acc hresume

omit [Scalar α] in
/-- An alarm that does not end the quiet period leaves it as it is. -/
theorem Rearmed.rung (h : dock.Rearmed log) (sound : dock.Sound) (timely : dock.cadence.Timely)
    (rings : (timetable dock.cadence.timers).Rings handle plan (timetable timers))
    (loud : plan.alarm ≠ .quiet) {rearm interval : Nat} {rest : List Entry}
    (heq : log = .rearmed rearm interval :: rest) :
    (dock.withTimers timers).cadence.interval = interval ∧
      ∃ tick quiet next, (dock.withTimers timers).cadence.Guarded tick quiet next rearm := by
  have hrunning := h.running_iff.mpr ⟨_, _, _, heq⟩
  obtain ⟨hinterval, tick, quiet, next, hguarded⟩ := h.guarded heq
  have hheld := held_of_rings sound timely.obliges rings
  refine ⟨hinterval, tick, quiet, ?_⟩
  cases halarm : plan.alarm with
  | tick =>
      rw [halarm] at hheld
      obtain rfl := Option.some.inj (hheld.symm.trans hguarded.tick_held)
      obtain ⟨next', -, -, hguarded'⟩ := hguarded.ring_tick rings
      exact ⟨next', hguarded'⟩
  | quiet => exact absurd halarm loud
  | resume =>
      rw [halarm] at hheld
      have hsuspended := sound.cadence.resume_suspended (Option.isSome_of_eq_some hheld)
      exact nomatch hrunning.symm.trans hsuspended

omit [Scalar α] in
/-- Where the quiet period ends, it has passed. -/
theorem Rearmed.passed (h : dock.Rearmed log) (sound : dock.Sound) (timely : dock.cadence.Timely)
    (rings : (timetable dock.cadence.timers).Rings handle plan (timetable timers))
    (quiet : plan.alarm = .quiet) : ∃ rearm interval rest, log = .rearmed rearm interval :: rest ∧
      rearm + (Cadence.quietPeriod + interval) ≤ (timetable timers).now := by
  have hheld := held_of_rings sound timely.obliges rings
  rw [quiet] at hheld
  have hrunning := sound.cadence.quiet_running (Option.isSome_of_eq_some hheld)
  obtain ⟨rearm, interval, rest, heq⟩ := h.running_iff.mp hrunning
  obtain ⟨rfl, tick, ended, next, hguarded⟩ := h.guarded heq
  obtain rfl := Option.some.inj (hheld.symm.trans hguarded.quiet_held)
  obtain rfl := Option.some.inj (rings.planned.symm.trans hguarded.quiet_plan)
  exact ⟨rearm, _, rest, heq, rings.due⟩

end Ring

/-! ## Runs -/

/-- What a run keeps up: the log tells the quiet period that is under way, and is in order. -/
theorem Logged.kept (h : Logged dock log) :
    dock.Rearmed log ∧ Orderly (timetable dock.cadence.timers).now log := by
  induction h with
  | new timers obliges nothing =>
      refine ⟨⟨iff_of_false ?_ ?_, nofun⟩, .nil _⟩
      · exact show Cadence.Phase.idle ≠ .running by decide
      · rintro ⟨_, _, _, heq⟩
        exact nomatch heq
  | call host event before call step ih =>
      obtain ⟨hrearmed, horderly⟩ := ih
      have htimed := before.timed
      refine ⟨.step (pulse_of_call call htimed.sound htimed.timely step) hrearmed.running_iff
        fun _ => hrearmed.guarded, ?_⟩
      rw [← (atOnce_handle htimed.timely.obliges step).now_eq] at horderly
      exact horderly.record fun hquiet => absurd hquiet (call _)
  | @ring dock dock' log commands timers handle plan host before obliges rings step ih =>
      obtain ⟨hrearmed, horderly⟩ := ih
      have htimed := before.timed
      have hnow : (timetable dock'.cadence.timers).now = (timetable timers).now :=
        (atOnce_handle obliges step).now_eq
      refine ⟨.step (pulse_of_ring htimed.sound htimed.timely obliges rings step)
        hrearmed.running_iff fun hloud => hrearmed.rung htimed.sound htimed.timely rings
          fun halarm => hloud (congrArg Event.alarm halarm), ?_⟩
      have hlater := horderly.mono rings.now_le
      rw [← hnow] at hlater
      refine hlater.record fun hquiet => ?_
      rw [hnow]
      exact hrearmed.passed htimed.sound htimed.timely rings (Event.alarm.inj hquiet)
  | pass before obliges passes ih =>
      obtain ⟨hrearmed, horderly⟩ := ih
      refine ⟨⟨hrearmed.running_iff, ?_⟩, horderly.mono passes.now_le⟩
      intro rearm interval rest heq
      obtain ⟨hinterval, tick, quiet, next, hguarded⟩ := hrearmed.guarded heq
      exact ⟨hinterval, tick, quiet, next, hguarded.pass passes⟩

/-! ## One stop after the last rearm -/

/-- The ticks come at an interval. -/
def TicksEvery (dock : Dock α τ) (interval : Nat) : Prop :=
  ∃ handle next, (timetable dock.cadence.timers).plans handle = some ⟨.tick, next, some interval⟩

/-- No alarm that should have rung is still pending. -/
def UpToDate (dock : Dock α τ) : Prop :=
  ∀ {alarm : Alarm} {deadline : Nat}, dock.Due alarm deadline →
    (timetable dock.cadence.timers).now ≤ deadline

/-- When a cadence stops that has been rearmed and stopped as the log says. -/
structure Debounced (dock : Dock α τ) (log : List Entry) : Prop where
  running_iff : dock.cadence.phase = .running ↔ ∃! handle, dock.Pending .quiet handle
  /-- The end of the quiet period is timed from the latest rearm, with which the log ends. -/
  due : ∀ {deadline : Nat}, dock.Due .quiet deadline → ∃ rearm interval earlier,
    log = .rearmed rearm interval :: earlier ∧ dock.TicksEvery interval ∧
      deadline = rearm + (Cadence.quietPeriod + interval)
  /-- A cadence that stops has been rearmed last, and the quiet period since then has passed. -/
  stops : ∀ {later : List Entry} {time : Nat} {earlier : List Entry},
    log = later ++ .stopped time :: earlier → ∃ rearm interval rest,
      earlier = .rearmed rearm interval :: rest ∧ rearm + (Cadence.quietPeriod + interval) ≤ time
  /-- Rearms that come close on each other keep it from stopping. -/
  no_stop : ∀ {later burst earlier : List Entry} {last lastInterval first firstInterval : Nat},
    log = later ++
      .rearmed last lastInterval :: (burst ++ .rearmed first firstInterval :: earlier) →
    Close (.rearmed last lastInterval :: (burst ++ [.rearmed first firstInterval])) →
    ∀ time, .stopped time ∉ burst
  /-- Between the last of them and the next there is one stop at most. -/
  stops_le_one : ∀ {later earlier : List Entry} {rearm interval : Nat},
    log = later ++ .rearmed rearm interval :: earlier → (∀ entry ∈ later, entry.window? = none) →
    (later.filter Entry.isStop).length ≤ 1
  /-- There is one as soon as the quiet period since the last of them has passed, unless the dock
      has withdrawn before. -/
  one_stop : ∀ {later earlier : List Entry} {rearm interval : Nat},
    log = later ++ .rearmed rearm interval :: earlier → (∀ entry ∈ later, entry.isStop = true) →
    rearm + (Cadence.quietPeriod + interval) < (timetable dock.cadence.timers).now →
    dock.UpToDate → ∃ time, later = [.stopped time] ∧
      rearm + (Cadence.quietPeriod + interval) ≤ time

omit [Scalar α] in
/-- A running dock waits for exactly one end of a quiet period, and no other dock waits for any. -/
theorem Rearmed.existsUnique_quiet (h : dock.Rearmed log) (sound : dock.Sound)
    (obliges : Obliges dock.cadence.timers) :
    dock.cadence.phase = .running ↔ ∃! handle, dock.Pending .quiet handle := by
  constructor
  · intro hrunning
    obtain ⟨rearm, interval, rest, heq⟩ := h.running_iff.mp hrunning
    obtain ⟨-, tick, quiet, next, hguarded⟩ := h.guarded heq
    refine ⟨quiet, ⟨false, ?_⟩, ?_⟩
    · rw [TimedService.pending_eq obliges]
      exact congrArg (Option.map Plan.engagement) hguarded.quiet_plan
    · rintro other ⟨repeats, hpending⟩
      have hheld := sound.cadence.accounts.held_of_pending hpending
      exact Option.some.inj (hheld.symm.trans hguarded.quiet_held)
  · rintro ⟨quiet, ⟨repeats, hpending⟩, -⟩
    have hheld := sound.cadence.accounts.held_of_pending hpending
    exact sound.cadence.quiet_running (Option.isSome_of_eq_some hheld)

omit [Scalar α] in
theorem Rearmed.due (h : dock.Rearmed log) (sound : dock.Sound)
    (obliges : Obliges dock.cadence.timers) {deadline : Nat} (due : dock.Due .quiet deadline) :
    ∃ rearm interval earlier, log = .rearmed rearm interval :: earlier ∧
      dock.TicksEvery interval ∧ deadline = rearm + (Cadence.quietPeriod + interval) := by
  obtain ⟨handle, every, hplan⟩ := id due
  have hheld : dock.cadence.quietTimer = some handle := held_of_due sound obliges hplan
  have hrunning := sound.cadence.quiet_running (Option.isSome_of_eq_some hheld)
  obtain ⟨rearm, interval, rest, heq⟩ := h.running_iff.mp hrunning
  obtain ⟨rfl, tick, quiet, next, hguarded⟩ := h.guarded heq
  exact ⟨rearm, _, rest, heq, ⟨tick, next, hguarded.tick_plan⟩,
    due.unique sound obliges ⟨quiet, none, hguarded.quiet_plan⟩⟩

omit [Scalar α] in
/-- Once the quiet period has passed and its end has rung, the latest rearm is followed by a stop.
    -/
theorem Rearmed.one_stop (h : dock.Rearmed log)
    (orderly : Orderly (timetable dock.cadence.timers).now log) {later earlier : List Entry}
    {rearm interval : Nat} (split : log = later ++ .rearmed rearm interval :: earlier)
    (stops : ∀ entry ∈ later, entry.isStop = true)
    (passed : rearm + (Cadence.quietPeriod + interval) < (timetable dock.cadence.timers).now)
    (upToDate : dock.UpToDate) : ∃ time, later = [.stopped time] ∧
      rearm + (Cadence.quietPeriod + interval) ≤ time := by
  have halone : ∀ entry ∈ later, entry.window? = none := by
    intro entry hentry
    have hstop := stops entry hentry
    cases entry with
    | stopped time => rfl
    | rearmed | withdrawn => exact nomatch hstop
  obtain ⟨hone, htimed⟩ := orderly.stops_le_one split halone
  rw [List.filter_eq_self.mpr stops] at hone
  cases later with
  | nil =>
      -- the end of the quiet period would be pending still
      obtain ⟨rfl, tick, quiet, next, hguarded⟩ := h.guarded split
      have hdue := upToDate ⟨quiet, none, hguarded.quiet_plan⟩
      exact absurd passed (Nat.not_lt.mpr hdue)
  | cons entry later =>
      obtain rfl : later = [] := List.eq_nil_of_length_eq_zero (by simpa using hone)
      have hstop := stops entry List.mem_cons_self
      cases entry with
      | stopped time => exact ⟨time, rfl, htimed time List.mem_cons_self⟩
      | rearmed | withdrawn => exact nomatch hstop

/-- **THE CADENCE STOPS ONCE**, one interval and `quietPeriod` after the last of any number of
    rearms that come close on each other. -/
theorem Logged.debounced (h : Logged dock log) : dock.Debounced log := by
  obtain ⟨hrearmed, horderly⟩ := h.kept
  have hsound := h.timed.sound
  have hobliges := h.timed.timely.obliges
  exact {
    running_iff := hrearmed.existsUnique_quiet hsound hobliges
    due := hrearmed.due hsound hobliges
    stops := horderly.stops
    no_stop := horderly.no_stop
    stops_le_one := fun split alone => (horderly.stops_le_one split alone).1
    one_stop := fun split stops passed upToDate =>
      hrearmed.one_stop horderly split stops passed upToDate }

end Record

/-- A favorite of a standard dock. -/
private def lonelyIcon : Host Float where
  settings := .standard
  geometry := .standard
  icons := [Icon.favorite 1 ⟨0.0, 0.0⟩]

set_option maxRecDepth 2048 in
/-- The pointer enters, and moves again when the quiet period has all but passed.  The cadence runs
    on for another quiet period, and then it stops once. -/
theorem debounced_after_late_motion : ∃ (dock : Dock Float Chronicle) (time : Nat),
    Logged dock [.stopped time, .rearmed (milliseconds 760) (milliseconds 15),
      .rearmed 0 (milliseconds 15)] ∧
    Close [.rearmed (milliseconds 760) (milliseconds 15), .rearmed 0 (milliseconds 15)] ∧
    milliseconds 1525 ≤ time ∧ dock.cadence.phase = .idle := by
  have hnew : Logged (new Chronicle.start : Dock Float Chronicle) [] :=
    .new _ Chronicle.start_isObliging fun _ => rfl
  have henabled := hnew.call lonelyIcon .enable nofun rfl
  have hwoken := henabled.call lonelyIcon .pointerEnter nofun rfl
  have hobliges := hwoken.timed.timely.obliges
  have hticked := hwoken.ring lonelyIcon hobliges.ring
    (Chronicle.rings ⟨0, .tick, milliseconds 15, some (milliseconds 15)⟩ (milliseconds 760)
      (milliseconds 775) hobliges rfl) rfl
  have hmoved := hticked.call lonelyIcon .pointerMotion nofun rfl
  have hobliges' := hmoved.timed.timely.obliges
  have hticked' := hmoved.ring lonelyIcon hobliges'.ring
    (Chronicle.rings ⟨0, .tick, milliseconds 775, some (milliseconds 15)⟩ (milliseconds 1520)
      (milliseconds 1535) hobliges' rfl) rfl
  have hobliges'' := hticked'.timed.timely.obliges
  have hquiet := hticked'.ring lonelyIcon hobliges''.ring
    (Chronicle.rings ⟨2, .quiet, milliseconds 1525, none⟩ (milliseconds 1526) 0 hobliges'' rfl) rfl
  have hlog : Logged _ ([.stopped (milliseconds 1526)] ++
      .rearmed (milliseconds 760) (milliseconds 15) :: [.rearmed 0 (milliseconds 15)]) := hquiet
  have hpassed :
      milliseconds 760 + (Cadence.quietPeriod + milliseconds 15) < milliseconds 1526 := by
    decide
  obtain ⟨time, heq, htime⟩ := hlog.debounced.one_stop rfl (by decide) hpassed (by
    rintro alarm deadline ⟨handle, every, hplan⟩
    have hnone : none = some _ := hplan
    exact nomatch hnone)
  obtain rfl := Entry.stopped.inj (List.cons.inj heq).1
  exact ⟨_, _, hlog, by decide, htime, rfl⟩

end FisheyeDock.Dock
