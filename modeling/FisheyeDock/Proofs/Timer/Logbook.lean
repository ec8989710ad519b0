import FisheyeDock.Proofs.Timer.Lawful

/-! # A service with a logbook

    A `Logbook` passes everything on to a service, and writes down what timers are asked of it and
    what the answers are.  It is as lawful as the service, which may refuse any timer, and it tells
    what the service does not: what was last asked for an alarm, and what came of it (`latest?`).

    `Backs` is one half of `Accounts`.  It allows that timers are pending which nobody holds, and
    holds on when a handle is forgotten whose timer is pending still. -/

namespace FisheyeDock

open TimerService

/-! ## Handles that stand for timers -/

section Backs

variable {τ : Type} [TimerService τ] [LawfulTimerService τ] {timers timers' : τ}
variable {held : Alarm → Option TimerHandle} {handle : TimerHandle}

/-- Every handle that is held is that of a pending timer, which is armed for its alarm. -/
structure Backs (timers : τ) (held : Alarm → Option TimerHandle) : Prop where
  proper : Proper timers
  pending_of_held : ∀ {alarm handle}, held alarm = some handle →
    pending timers handle = some alarm.engagement

namespace Backs

/-- What holds nothing is backed by any timers. -/
theorem of_nothing_held (proper : Proper timers) : Backs timers fun _ => none := ⟨proper, nofun⟩

/-- What is pending alike backs alike. -/
theorem of_pending_eq (h : Backs timers held) (proper : Proper timers')
    (hpending : pending timers' = pending timers) : Backs timers' held where
  proper := proper
  pending_of_held hheld := hpending ▸ h.pending_of_held hheld

/-- A handle is forgotten, whether or not its timer is still pending. -/
theorem forget (h : Backs timers held) (a : Alarm) : Backs timers (Function.update held a none) where
  proper := h.proper
  pending_of_held := by
    intro b handle hb
    by_cases hba : b = a
    · subst hba
      rw [Function.update_self] at hb
      exact nomatch hb
    · rw [Function.update_of_ne hba] at hb
      exact h.pending_of_held hb

/-- The timer of one alarm is pending no longer, and its handle is forgotten. -/
theorem strike {engagement : Engagement} (h : Backs timers held)
    (engaged : pending timers handle = some engagement) (proper : Proper timers')
    (hpending : pending timers' = Function.update (pending timers) handle none) :
    Backs timers' (Function.update held engagement.alarm none) where
  proper := proper
  pending_of_held := by
    intro b other hb
    by_cases hba : b = engagement.alarm
    · subst hba
      rw [Function.update_self] at hb
      exact nomatch hb
    · rw [Function.update_of_ne hba] at hb
      have hother := h.pending_of_held hb
      -- a handle of another alarm is another handle
      have hne : other ≠ handle := by
        rintro rfl
        rw [engaged] at hother
        refine hba ?_
        rw [Option.some.inj hother, b.engagement_alarm]
      rw [hpending, Function.update_of_ne hne]
      exact hother

/-- To cancel a timer that is held gives its handle up. -/
theorem cancelAny (h : Backs timers held) (a : Alarm) :
    Backs (cancelAny timers (held a)) (Function.update held a none) := by
  cases ha : held a with
  | none => exact h.forget a
  | some handle =>
      obtain ⟨proper, hpending⟩ := LawfulTimerService.cancel_law timers handle h.proper
      have hstruck := h.strike (h.pending_of_held ha) proper hpending
      rwa [a.engagement_alarm] at hstruck

/-- The answer to a request is held from then on, instead of what was held before. -/
theorem ask (h : Backs timers held) {a : Alarm} {answer : Option TimerHandle}
    (law : IsAnswer Proper pending timers a.engagement (answer, timers')) :
    Backs timers' (Function.update held a answer) where
  proper := by
    cases answer with
    | none => exact law.1
    | some handle => exact law.1
  pending_of_held := by
    intro b other hb
    cases answer with
    | none =>
        rw [show pending timers' = pending timers from law.2]
        exact (h.forget a).pending_of_held hb
    | some handle =>
        obtain ⟨-, hfresh, hpending⟩ := law
        rw [hpending]
        by_cases hba : b = a
        · subst hba
          rw [Function.update_self] at hb
          obtain rfl := Option.some.inj hb
          exact Function.update_self _ _ _
        · rw [Function.update_of_ne hba] at hb
          have hother := h.pending_of_held hb
          have hne : other ≠ handle := by
            rintro rfl
            exact nomatch hfresh.symm.trans hother
          rw [Function.update_of_ne hne]
          exact hother

/-- A timer fires.  A tick is held on to, any other handle is forgotten. -/
theorem fire (h : Backs timers held) {engagement : Engagement}
    (fires : Fires timers handle engagement timers') :
    Backs timers' (if engagement.alarm = .tick then held
      else Function.update held engagement.alarm none) := by
  have hafter := fires.pending_after
  by_cases hrepeats : engagement.repeats = true
  · rw [if_pos hrepeats] at hafter
    have hkept := h.of_pending_eq fires.proper hafter
    split
    · exact hkept
    · exact hkept.forget _
  · rw [if_neg hrepeats] at hafter
    have hstruck := h.strike fires.engaged fires.proper hafter
    by_cases htick : engagement.alarm = .tick
    · rw [if_pos htick]
      -- a tick that does not repeat is none that is held
      refine ⟨fires.proper, fun {a other} hother => ?_⟩
      have hpending := h.pending_of_held hother
      have hne : other ≠ handle := by
        rintro rfl
        rw [fires.engaged] at hpending
        obtain rfl := Option.some.inj hpending
        cases a with
        | tick => exact hrepeats rfl
        | quiet | resume => exact nomatch htick
      rw [hafter, Function.update_of_ne hne]
      exact hpending
    · rw [if_neg htick]
      exact hstruck

end Backs

end Backs

/-! ## The logbook -/

/-- A request for a timer, and what came of it. -/
structure Request where
  alarm : Alarm
  /-- The interval of a timer that repeats, the delay of any other. -/
  wait : Nat
  /-- None where the timer was refused. -/
  answer : Option TimerHandle
  deriving Repr, DecidableEq

structure Logbook (τ : Type) where
  timers : τ
  /-- The latest first. -/
  requests : List Request

namespace Logbook

variable {τ : Type}

/-- The latest request for an alarm. -/
def latest? (log : Logbook τ) (alarm : Alarm) : Option Request :=
  log.requests.find? (·.alarm = alarm)

theorem latest?_congr {log log' : Logbook τ} (h : log'.requests = log.requests) (alarm : Alarm) :
    log'.latest? alarm = log.latest? alarm :=
  congrArg (List.find? _) h

/-- What has been asked for last is the latest of its kind. -/
theorem latest?_of_cons {log log' : Logbook τ} {request : Request}
    (h : log'.requests = request :: log.requests) :
    log'.latest? request.alarm = some request := by
  unfold latest?
  rw [h]
  exact List.find?_cons_of_pos (decide_eq_true rfl)

theorem latest?_of_ne {log log' : Logbook τ} {request : Request} {alarm : Alarm}
    (h : log'.requests = request :: log.requests) (hne : request.alarm ≠ alarm) :
    log'.latest? alarm = log.latest? alarm := by
  unfold latest?
  rw [h]
  exact List.find?_cons_of_neg (by simpa using hne)

variable [TimerService τ]

/-- Writes down what the service has answered. -/
def note (log : Logbook τ) (alarm : Alarm) (wait : Nat) (answer : Option TimerHandle × τ) :
    Option TimerHandle × Logbook τ :=
  (answer.1, ⟨answer.2, ⟨alarm, wait, answer.1⟩ :: log.requests⟩)

instance : TimerService (Logbook τ) where
  scheduleRepeating log interval alarm :=
    log.note alarm interval (scheduleRepeating log.timers interval alarm)
  scheduleOnce log delay alarm := log.note alarm delay (scheduleOnce log.timers delay alarm)
  cancel log handle := { log with timers := cancel log.timers handle }

section Requests

variable {log log' : Logbook τ} {answer : Option TimerHandle}

/-- A repeating timer is noted as it is asked for. -/
theorem requests_of_repeating {interval : Nat} {alarm : Alarm}
    (h : scheduleRepeating log interval alarm = (answer, log')) :
    log'.requests = ⟨alarm, interval, answer⟩ :: log.requests := by
  obtain ⟨rfl, rfl⟩ := Prod.mk.inj h
  rfl

theorem requests_of_once {delay : Nat} {alarm : Alarm}
    (h : scheduleOnce log delay alarm = (answer, log')) :
    log'.requests = ⟨alarm, delay, answer⟩ :: log.requests := by
  obtain ⟨rfl, rfl⟩ := Prod.mk.inj h
  rfl

/-- To cancel a timer notes nothing. -/
theorem requests_cancelAny (log : Logbook τ) (held : Option TimerHandle) :
    (cancelAny log held).requests = log.requests := by
  cases held <;> rfl

end Requests

variable [LawfulTimerService τ]

/-- The logbook answers as the timers do that it keeps. -/
theorem isAnswer_note {log : Logbook τ} {alarm : Alarm} {wait : Nat} {engagement : Engagement}
    {answer : Option TimerHandle × τ} (h : IsAnswer Proper pending log.timers engagement answer) :
    IsAnswer (fun log : Logbook τ => Proper log.timers) (fun log => pending log.timers) log
      engagement (log.note alarm wait answer) := by
  obtain ⟨_ | handle, timers⟩ := answer
  · exact h
  · exact h

instance : LawfulTimerService (Logbook τ) where
  Proper log := Proper log.timers
  pending log := pending log.timers
  scheduleRepeating_law log interval alarm h :=
    isAnswer_note (LawfulTimerService.scheduleRepeating_law log.timers interval alarm h)
  scheduleOnce_law log delay alarm h :=
    isAnswer_note (LawfulTimerService.scheduleOnce_law log.timers delay alarm h)
  cancel_law log handle h := LawfulTimerService.cancel_law log.timers handle h

/-- What fires in the service fires in the logbook, which has no note of it. -/
theorem fires {log : Logbook τ} {timers : τ} {handle : TimerHandle} {engagement : Engagement}
    (h : Fires log.timers handle engagement timers) :
    Fires log handle engagement { log with timers } :=
  ⟨h.proper, h.engaged, h.pending_after⟩

/-- Time passes for it as for these. -/
theorem drifts {log : Logbook τ} {timers : τ} (h : Drifts log.timers timers) :
    Drifts log { log with timers } :=
  ⟨h.proper, h.pending_eq⟩

end Logbook

end FisheyeDock
