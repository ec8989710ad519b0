import FisheyeDock.Proofs.Dock.Debounce
import FisheyeDock.Proofs.Dock.Layers

/-! # Runs in time, with their history

    A `Dated` run is a `Timed` run that carries its history.  Each moment of it has a time, and a tick
    rings so much later than it was due (`Moment.delay`).  Such a run is also one whose ticks come from
    the timers (`Dated.driven`).

    A run of many alarms is tedious to put together.  On a clock it can be written as a script and
    computed (`play`), and what a script comes to is a run (`Dated.play`). -/

namespace FisheyeDock.Dock

open Scene (Command)
open TimerService

variable {α τ : Type} [TimerService τ] [TimedService τ]

namespace Moment

variable (moment : Moment α τ)

/-- When the event reaches the dock. -/
def time : Nat := (timetable moment.dock.cadence.timers).now

/-- How much later a tick rings than it was due. -/
def delay : Nat :=
  match moment.event, (timetable moment.dock.cadence.timers).journal with
  | .alarm .tick, .rang .tick delay :: _ => delay
  | _, _ => 0

/-- What the journal notes of a tick that rang is how late the tick was. -/
theorem delay_of_rang {moment : Moment α τ} {delay : Nat}
    {journal : List Note} (tick : moment.event = .alarm .tick)
    (rang : (timetable moment.dock.cadence.timers).journal = .rang .tick delay :: journal) :
    moment.delay = delay := by
  unfold Moment.delay
  rw [tick, rang]

end Moment

variable [Scalar α] {dock dock' : Dock α τ} {past : List (Moment α τ)}

/-- The docks that a run in time leads to, with what has happened, the latest first. -/
inductive Dated : Dock α τ → List (Moment α τ) → Prop where
  | new (timers : τ) (obliges : Obliges timers)
      (nothing : ∀ handle, (timetable timers).plans handle = none) : Dated (new timers) []
  | call {dock dock' : Dock α τ} {past : List (Moment α τ)} {commands : List (Command α)}
      (host : Host α) (event : Event) (before : Dated dock past)
      (call : ∀ alarm, event ≠ .alarm alarm)
      (step : dock.handle host event = .ok (dock', commands)) :
      Dated dock' (⟨dock, host, event⟩ :: past)
  | ring {dock dock' : Dock α τ} {past : List (Moment α τ)} {commands : List (Command α)}
      {timers : τ} {handle : TimerHandle} {plan : Plan} (host : Host α) (before : Dated dock past)
      (obliges : Obliges timers)
      (rings : (timetable dock.cadence.timers).Rings handle plan (timetable timers))
      (step : (dock.withTimers timers).handle host (.alarm plan.alarm) = .ok (dock', commands)) :
      Dated dock' (⟨dock.withTimers timers, host, .alarm plan.alarm⟩ :: past)
  | pass {dock : Dock α τ} {past : List (Moment α τ)} {timers : τ} (before : Dated dock past)
      (obliges : Obliges timers)
      (passes : (timetable dock.cadence.timers).Passes (timetable timers)) :
      Dated (dock.withTimers timers) past

/-- A dated run is one in time. -/
theorem Dated.timed (h : Dated dock past) : Timed (fun _ => True) dock := by
  induction h with
  | new timers obliges nothing => exact .new timers obliges nothing
  | call host event before call step ih => exact ih.call host event trivial call step
  | ring host before obliges rings step ih => exact (ih.ring host trivial obliges rings step).2
  | pass before obliges passes ih => exact ih.step (.pass obliges passes)

theorem Dated.driven (h : Dated dock past) : ∃ trace, Driven dock past trace := by
  induction h with
  | new timers obliges nothing =>
      refine ⟨_, .new timers (TimedService.proper_of_obliges obliges) fun handle => ?_⟩
      rw [TimedService.pending_eq obliges]
      exact congrArg (Option.map Plan.engagement) (nothing handle)
  | call host event before call step ih =>
      obtain ⟨trace, hdriven⟩ := ih
      exact ⟨_, hdriven.event host event (call .tick) step⟩
  | ring host before obliges rings step ih =>
      obtain ⟨trace, hdriven⟩ := ih
      have hfires := fires_of_rings before.timed.timely.obliges obliges rings
      exact ⟨_, hdriven.fire host hfires step⟩
  | pass before obliges passes ih =>
      obtain ⟨trace, hdriven⟩ := ih
      exact ⟨_, hdriven.drift (drifts_of_passes before.timed.timely.obliges obliges passes)⟩

/-- A tick of such a run is a pending one that has rung. -/
theorem Dated.rung {moment : Moment α τ} (h : Dated dock (moment :: past))
    (tick : moment.event = .alarm .tick) :
    ∃ (before : Dock α τ) (timers : τ) (handle : TimerHandle) (plan : Plan) (ticked : Dock α τ)
      (commands : List (Command α)),
      Dated before past ∧ moment.dock = before.withTimers timers ∧ plan.alarm = .tick ∧
      (timetable before.cadence.timers).Rings handle plan (timetable timers) ∧
      moment.dock.handle moment.host (.alarm .tick) = .ok (ticked, commands) := by
  generalize hpast : moment :: past = whole at h
  induction h with
  | new timers obliges nothing => exact nomatch hpast
  | call host event before call step ih =>
      obtain ⟨rfl, rfl⟩ := List.cons.inj hpast
      exact absurd tick (call .tick)
  | @ring dock dock' _ commands timers handle plan host before obliges rings step ih =>
      obtain ⟨rfl, rfl⟩ := List.cons.inj hpast
      have halarm : plan.alarm = .tick := Event.alarm.inj tick
      rw [halarm] at step
      exact ⟨dock, timers, handle, plan, dock', commands, before, rfl, halarm, rings, step⟩
  | pass before obliges passes ih => exact ih hpast

/-! ## Scripts -/

/-- What can happen next to a dock on a clock. -/
inductive Act (α : Type) where
  | call (host : Host α) (event : Event)
  /-- The next alarm rings, at its deadline. -/
  | ring (host : Host α)
  /-- Time passes until some time. -/
  | wait (time : Nat)

section Scripts

variable {dock dock' : Dock α Chronicle} {past newer : List (Moment α Chronicle)}

/-- What an act leads to, with its moment, unless it cannot happen. -/
def act (dock : Dock α Chronicle) : Act α → Option (Dock α Chronicle × List (Moment α Chronicle))
  | .call _ (.alarm _) => none
  | .call host event =>
    match dock.handle host event with
    | .ok (dock', _) => some (dock', [⟨dock, host, event⟩])
    | .error _ => none
  | .ring host =>
    match Clock.earliest? dock.cadence.timers.clock.pending with
    | none => none
    | some timer =>
      let next := timer.deadline + timer.every.getD 0
      if dock.cadence.timers.canRing timer timer.deadline next then
        let rung := dock.withTimers (dock.cadence.timers.ring timer timer.deadline next)
        match rung.handle host (.alarm timer.alarm) with
        | .ok (dock', _) => some (dock', [⟨rung, host, .alarm timer.alarm⟩])
        | .error _ => none
      else none
  | .wait time =>
    if dock.cadence.timers.clock.now ≤ time then
      some (dock.withTimers (dock.cadence.timers.waitUntil time), [])
    else none

/-- What a script leads to, with its moments, the latest first. -/
def play (dock : Dock α Chronicle) : List (Act α) →
    Option (Dock α Chronicle × List (Moment α Chronicle))
  | [] => some (dock, [])
  | first :: acts => do
    let (dock, moment) ← dock.act first
    let (dock, newer) ← dock.play acts
    pure (dock, newer ++ moment)

/-- An act leads to where its moments do. -/
theorem Dated.act (h : Dated dock past) {act : Act α}
    (hact : dock.act act = some (dock', newer)) : Dated dock' (newer ++ past) := by
  have hobliges : dock.cadence.timers.IsObliging := h.timed.timely.obliges
  unfold Dock.act at hact
  split at hact
  · exact nomatch hact
  · rename_i host event call
    split at hact
    · rename_i hstep
      obtain ⟨rfl, rfl⟩ := Prod.mk.inj (Option.some.inj hact)
      exact h.call host event (fun alarm heq => call alarm heq) hstep
    · exact nomatch hact
  · split at hact
    · exact nomatch hact
    · rename_i host _ timer hfirst
      dsimp only at hact
      split at hact
      · rename_i hcan
        split at hact
        · rename_i hstep
          obtain ⟨rfl, rfl⟩ := Prod.mk.inj (Option.some.inj hact)
          exact h.ring host hobliges.ring (Chronicle.rings timer _ _ hobliges hcan) hstep
        · exact nomatch hact
      · exact nomatch hact
  · split at hact
    · rename_i hle
      obtain ⟨rfl, rfl⟩ := Prod.mk.inj (Option.some.inj hact)
      exact h.pass hobliges.waitUntil (Chronicle.passes hle)
    · exact nomatch hact

/-- A script that can be played is a run. -/
theorem Dated.play {acts : List (Act α)} (h : Dated dock past)
    (hplay : dock.play acts = some (dock', newer)) : Dated dock' (newer ++ past) := by
  induction acts generalizing dock past newer with
  | nil =>
      obtain ⟨rfl, rfl⟩ := Prod.mk.inj (Option.some.inj hplay)
      exact h
  | cons first acts ih =>
      obtain ⟨⟨dock₁, moment⟩, hfirst, hrest⟩ := Option.bind_eq_some_iff.mp hplay
      obtain ⟨⟨dock₂, rest⟩, hplayed, hdone⟩ := Option.bind_eq_some_iff.mp hrest
      obtain ⟨rfl, rfl⟩ := Prod.mk.inj (Option.some.inj hdone)
      rw [List.append_assoc]
      exact ih (h.act hfirst) hplayed

end Scripts

end FisheyeDock.Dock
