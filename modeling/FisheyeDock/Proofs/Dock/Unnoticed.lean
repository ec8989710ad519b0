import FisheyeDock.Proofs.Dock.Steps

/-! # What a dock does not notice

    The interval between two ticks is set at every start and looked at only while the cadence runs. 
    The layouts that are due are set when the dock is enabled and counted only while it is.  Two
    docks that differ in nothing else are `Akin`: they answer every event with the same commands and
    stay akin (`Akin.handle`), as long as a tick finds them running. -/

namespace FisheyeDock

/-- Two attempts fail alike, or their results are related. -/
inductive Agree {β γ : Type} (Related : β → γ → Prop) : Except Fault β → Except Fault γ → Prop where
  | ok {b : β} {c : γ} (related : Related b c) : Agree Related (.ok b) (.ok c)
  | error (fault : Fault) : Agree Related (.error fault) (.error fault)

/-- What is related to itself agrees with itself. -/
theorem Agree.refl {β : Type} {Related : β → β → Prop} (related : ∀ b, Related b b)
    (x : Except Fault β) : Agree Related x x := by
  cases x with
  | ok b => exact .ok (related b)
  | error fault => exact .error fault

/-- Where one of two that agree is accepted, the other one is so too. -/
theorem Agree.exists_of_ok {β γ : Type} {Related : β → γ → Prop} {x : Except Fault β}
    {y : Except Fault γ} {b : β} (h : Agree Related x y) (ok : x = .ok b) :
    ∃ c, y = .ok c ∧ Related b c := by
  cases h with
  | ok related =>
      obtain rfl := Except.ok.inj ok
      exact ⟨_, rfl, related⟩
  | error fault => exact nomatch ok

/-- Steps that agree one after the other agree. -/
theorem Agree.bind {β β' γ γ' : Type} {Related : β → β' → Prop} {Related' : γ → γ' → Prop}
    {x : Except Fault β} {x' : Except Fault β'} {f : β → Except Fault γ} {f' : β' → Except Fault γ'}
    (h : Agree Related x x') (next : ∀ {b b'}, Related b b' → Agree Related' (f b) (f' b')) :
    Agree Related' (x >>= f) (x' >>= f') := by
  cases h with
  | ok related => exact next related
  | error fault => exact .error fault

theorem Agree.map {β β' γ γ' : Type} {Related : β → β' → Prop} {Related' : γ → γ' → Prop}
    {x : Except Fault β} {x' : Except Fault β'} {f : β → γ} {f' : β' → γ'}
    (h : Agree Related x x') (next : ∀ {b b'}, Related b b' → Related' (f b) (f' b')) :
    Agree Related' (f <$> x) (f' <$> x') := by
  cases h with
  | ok related => exact .ok (next related)
  | error fault => exact .error fault

/-- An attempt whose result is turned into another one agrees as it does itself. -/
theorem Agree.of_map {β β' γ : Type} {Related : β → γ → Prop} {Related' : β' → γ → Prop}
    {f : β → β'} {x : Except Fault β} {y : Except Fault γ} (h : Agree Related' (f <$> x) y)
    (imp : ∀ {b c}, Related' (f b) c → Related b c) : Agree Related x y := by
  cases x with
  | ok b =>
      cases h with
      | ok related => exact .ok (imp related)
  | error fault =>
      cases h
      exact .error fault

/-! ## Cadences -/

namespace Cadence

open TimerService

variable {τ : Type}

/-- Two cadences that differ at most in the interval, while they do not run, and in the layouts that
    are due, unless those count. -/
inductive Akin (counted : Prop) (c : Cadence τ) : Cadence τ → Prop where
  | mk (interval layoutsLeft : Nat) (interval_eq : c.phase = .running → interval = c.interval)
      (layouts_eq : counted → layoutsLeft = c.layoutsLeft) :
      Akin counted c { c with interval, layoutsLeft }

namespace Akin

variable {counted counted' : Prop} {c c' : Cadence τ}

theorem phase (h : Akin counted c c') : c'.phase = c.phase := by
  obtain ⟨⟩ := h
  rfl

/-- While they run and the layouts count, nothing is left in which they could differ. -/
theorem eq (h : Akin counted c c') (running : c.phase = .running) (count : counted) : c' = c := by
  obtain ⟨interval, layouts, hinterval, hlayouts⟩ := h
  obtain rfl := hinterval running
  obtain rfl := hlayouts count
  rfl

/-- Layouts may be counted otherwise by the two, as the order of layouts makes them. -/
theorem orderLayouts (h : Akin counted c c') (ticks : Nat) :
    Akin counted' (c.orderLayouts ticks) (c'.orderLayouts ticks) := by
  obtain ⟨interval, layouts, hinterval, -⟩ := h
  exact ⟨interval, ticks, hinterval, fun _ => rfl⟩

variable [TimerService τ]

theorem rearm (h : Akin counted c c') : Akin counted c.rearm c'.rearm := by
  obtain ⟨interval, layouts, hinterval, hlayouts⟩ := h
  unfold Cadence.rearm
  by_cases hrunning : c.phase = .running
  · obtain rfl := hinterval hrunning
    rw [if_pos hrunning, if_pos hrunning]
    exact ⟨c.interval, layouts, fun _ => rfl, hlayouts⟩
  · rw [if_neg hrunning, if_neg hrunning]
    exact ⟨interval, layouts, hinterval, hlayouts⟩

/-- Once halted, both have no layouts left. -/
theorem halt (h : Akin counted c c') : Akin counted' c.halt c'.halt := by
  obtain ⟨interval, layouts, -, -⟩ := h
  exact ⟨interval, 0, fun running => absurd running c.phase_halt_ne_running, fun _ => rfl⟩

/-- The end of a quiet period halts both. -/
theorem quietPassed (h : Akin counted c c') : Akin counted' c.quietPassed c'.quietPassed := by
  obtain ⟨interval, layouts, hinterval, hlayouts⟩ := h
  have hspent : Akin counted { c with quietTimer := none }
      { c with interval, layoutsLeft := layouts, quietTimer := none } :=
    ⟨interval, layouts, hinterval, hlayouts⟩
  exact hspent.halt

theorem suspend (h : Akin counted c c') : Akin counted' c.suspend c'.suspend := by
  obtain ⟨interval, layouts, -, -⟩ := h
  exact ⟨interval, 0, nofun, fun _ => rfl⟩

/-- After a reset both are the same. -/
theorem reset (h : Akin counted c c') : Akin counted' c.reset c'.reset := by
  obtain ⟨interval, layouts, -, -⟩ := h
  exact ⟨interval, 0, nofun, fun _ => rfl⟩

/-- A drag suspends both or is queued for both. -/
theorem beginDrag (h : Akin counted c c') : Akin counted c.beginDrag c'.beginDrag := by
  obtain ⟨interval, layouts, hinterval, hlayouts⟩ := h
  have hcancelled : Akin counted
      { c with timers := cancelAny c.timers c.resumeTimer, resumeTimer := none }
      { c with
        interval, layoutsLeft := layouts, timers := cancelAny c.timers c.resumeTimer
        resumeTimer := none } := ⟨interval, layouts, hinterval, hlayouts⟩
  unfold Cadence.beginDrag
  cases hphase : c.phase with
  | running =>
      rw [hphase] at hinterval
      exact ⟨interval, layouts, hinterval, hlayouts⟩
  | idle =>
      rw [hphase] at hcancelled
      exact hcancelled.suspend
  | suspended =>
      rw [hphase] at hcancelled
      exact hcancelled

omit [TimerService τ] in
/-- A resume ends the suspension of both, or of neither. -/
theorem resume (h : Akin counted c c') :
    c'.resume.1 = c.resume.1 ∧ Akin counted c.resume.2 c'.resume.2 := by
  obtain ⟨interval, layouts, hinterval, hlayouts⟩ := h
  unfold Cadence.resume
  dsimp only
  by_cases hsuspended : c.phase = .suspended
  · rw [if_pos hsuspended, if_pos hsuspended]
    exact ⟨rfl, interval, layouts, nofun, hlayouts⟩
  · rw [if_neg hsuspended, if_neg hsuspended]
    exact ⟨rfl, interval, layouts, hinterval, hlayouts⟩

/-- The end of a drag is the same to both. -/
theorem endDrag (h : Akin counted c c') : Akin counted c.endDrag c'.endDrag := by
  have hqueued : Akin counted (if c.dragQueued then c.suspend else c)
      (if c'.dragQueued then c'.suspend else c') := by
    have hdrag : c'.dragQueued = c.dragQueued := by
      obtain ⟨⟩ := h
      rfl
    rw [hdrag]
    split
    · exact h.suspend
    · exact h
  unfold Cadence.endDrag
  generalize (if c.dragQueued then c.suspend else c) = c₁ at hqueued
  generalize (if c'.dragQueued then c'.suspend else c') = c₁' at hqueued
  obtain ⟨interval, layouts, hinterval, hlayouts⟩ := hqueued
  dsimp only
  by_cases hsuspended : c₁.phase = .suspended
  · rw [if_pos hsuspended, if_pos hsuspended]
    rcases scheduleOnce (cancelAny c₁.timers c₁.resumeTimer) resumeDelay .resume with
      ⟨_ | handle, timers⟩
    · have hrefused : Akin counted { c₁ with timers, resumeTimer := none }
          { c₁ with interval, layoutsLeft := layouts, timers, resumeTimer := none } :=
        ⟨interval, layouts, hinterval, hlayouts⟩
      exact hrefused.resume.2
    · exact ⟨interval, layouts, hinterval, hlayouts⟩
  · rw [if_neg hsuspended, if_neg hsuspended]
    exact ⟨interval, layouts, hinterval, hlayouts⟩

/-- Cadences that are akin both start, both fail, or are both refused. -/
theorem start {α : Type} [Scalar α] (h : Akin counted c c') (fps : α) :
    Agree (Akin counted) (c.start fps) (c'.start fps) := by
  obtain ⟨interval, layouts, hinterval, hlayouts⟩ := h
  unfold Cadence.start
  dsimp only
  by_cases hidle : c.phase = .idle
  · rw [if_pos hidle, if_pos hidle]
    cases intervalFor fps with
    | error fault => exact .error fault
    | ok counted =>
        dsimp only [bind, Except.bind]
        rcases scheduleRepeating c.timers counted .tick with ⟨_ | handle, timers⟩
        · exact .ok ⟨interval, layouts, hinterval, hlayouts⟩
        · exact .ok ⟨counted, layouts, fun _ => rfl, hlayouts⟩
  · rw [if_neg hidle, if_neg hidle]
    exact .ok ⟨interval, layouts, hinterval, hlayouts⟩

end Akin

end Cadence

/-! ## Docks -/

namespace Dock

open Scene (Command)

variable {α τ : Type}

/-- Two docks whose cadences are akin, and which are the same otherwise. -/
inductive Akin (dock : Dock α τ) : Dock α τ → Prop where
  | mk (cadence : Cadence τ) (akin : Cadence.Akin (dock.enabled = true) dock.cadence cadence) :
      Akin dock { dock with cadence }

/-- The same commands, and docks that are akin. -/
def AkinStep (step step' : Dock α τ × List (Command α)) : Prop :=
  Akin step.1 step'.1 ∧ step'.2 = step.2

namespace Akin

variable {dock dock' : Dock α τ}

/-- Every dock is akin to itself. -/
theorem refl (dock : Dock α τ) : Akin dock dock :=
  ⟨dock.cadence, dock.cadence.interval, dock.cadence.layoutsLeft, fun _ => rfl, fun _ => rfl⟩

theorem enabled (h : Akin dock dock') : dock'.enabled = dock.enabled := by
  obtain ⟨⟩ := h
  rfl

theorem phase (h : Akin dock dock') : dock'.cadence.phase = dock.cadence.phase := by
  obtain ⟨_, hakin⟩ := h
  exact hakin.phase

/-- Docks that are akin are so with other timers. -/
theorem withTimers (h : Akin dock dock') (timers : τ) :
    Akin (dock.withTimers timers) (dock'.withTimers timers) := by
  obtain ⟨_, interval, layouts, hinterval, hlayouts⟩ := h
  exact ⟨_, interval, layouts, hinterval, hlayouts⟩

/-- What the layers are told is the same. -/
theorem showLayers (h : Akin dock dock') (visible : Bool) :
    AkinStep (dock.showLayers visible) (dock'.showLayers visible) := by
  obtain ⟨cadence, hakin⟩ := h
  unfold Dock.showLayers
  dsimp only
  split
  · exact ⟨⟨cadence, hakin⟩, rfl⟩
  · exact ⟨⟨cadence, hakin⟩, rfl⟩

theorem withdraw (h : Akin dock dock') : AkinStep dock.withdraw dock'.withdraw := by
  obtain ⟨cadence, hakin⟩ := h
  have hcleared : Akin { dock with
        row := dock.row.clear.1, pool := (dock.pool.clear (α := α)).1, tileCount := 0 }
      { dock with
        row := dock.row.clear.1, pool := (dock.pool.clear (α := α)).1, tileCount := 0, cadence } :=
    ⟨cadence, hakin⟩
  obtain ⟨hdock, hcommands⟩ := hcleared.showLayers false
  exact ⟨hdock, congrArg (dock.row.clear.2 ++ dock.pool.clear.2 ++ ·) hcommands⟩

theorem enable (h : Akin dock dock') (settings : Settings α) :
    Akin (dock.enable settings) (dock'.enable settings) := by
  obtain ⟨cadence, hakin⟩ := h
  unfold Dock.enable
  dsimp only
  split
  · exact ⟨cadence, hakin⟩
  · exact ⟨_, hakin.orderLayouts _⟩

theorem fullscreenChanged (h : Akin dock dock') (g : Geometry α) :
    AkinStep (dock.fullscreenChanged g) (dock'.fullscreenChanged g) := by
  unfold Dock.fullscreenChanged
  rw [h.enabled]
  split
  · exact h.showLayers _
  · exact ⟨h, rfl⟩

variable [TimerService τ]

/-- Docks that are akin are disabled alike. -/
theorem disable (h : Akin dock dock') : AkinStep dock.disable dock'.disable := by
  obtain ⟨cadence, hakin⟩ := h
  have hreset : Akin { dock with
        enabled := false, cadence := dock.cadence.reset, previewLeft := none }
      { dock with enabled := false, cadence := cadence.reset, previewLeft := none } :=
    ⟨cadence.reset, hakin.reset⟩
  unfold Dock.disable
  dsimp only
  split
  · exact hreset.withdraw
  · exact ⟨⟨cadence, hakin⟩, rfl⟩

/-- A drag begins alike for both. -/
theorem dragBegin (h : Akin dock dock') : AkinStep dock.dragBegin dock'.dragBegin := by
  obtain ⟨cadence, hakin⟩ := h
  have hbegun : Akin { dock with cadence := dock.cadence.beginDrag }
      { dock with cadence := cadence.beginDrag } := ⟨cadence.beginDrag, hakin.beginDrag⟩
  unfold Dock.dragBegin
  dsimp only
  rw [hakin.beginDrag.phase]
  split
  · split
    · exact hbegun.withdraw
    · exact ⟨hbegun, rfl⟩
  · exact ⟨⟨cadence, hakin⟩, rfl⟩

theorem dragEnd (h : Akin dock dock') : AkinStep dock.dragEnd dock'.dragEnd := by
  obtain ⟨cadence, hakin⟩ := h
  have hended : Akin { dock with cadence := dock.cadence.endDrag }
      { dock with cadence := cadence.endDrag } := ⟨cadence.endDrag, hakin.endDrag⟩
  unfold Dock.dragEnd
  dsimp only
  rw [hakin.phase, hakin.endDrag.phase]
  split
  · split
    · exact hended.withdraw
    · exact ⟨hended, rfl⟩
  · exact ⟨⟨cadence, hakin⟩, rfl⟩

variable [Scalar α]

theorem wake (h : Akin dock dock') (settings : Settings α) :
    Agree Akin (dock.wake settings) (dock'.wake settings) := by
  obtain ⟨cadence, hakin⟩ := h
  unfold Dock.wake
  dsimp only
  split
  · exact (hakin.start _).bind fun hstarted => .ok ⟨_, hstarted.rearm⟩
  · exact .ok ⟨cadence, hakin⟩

/-- A change of focus is the same to both. -/
theorem focusChanged (h : Akin dock dock') (settings : Settings α) :
    Agree Akin (dock.focusChanged settings) (dock'.focusChanged settings) := by
  obtain ⟨cadence, hakin⟩ := h
  have hhalted : Akin { dock with cadence := dock.cadence.halt }
      { dock with cadence := cadence.halt } := ⟨cadence.halt, hakin.halt⟩
  unfold Dock.focusChanged
  dsimp only
  split
  · refine (hhalted.wake settings).bind fun hwoken => .ok ?_
    obtain ⟨cadence, hakin⟩ := hwoken
    exact ⟨_, hakin.orderLayouts _⟩
  · exact .ok ⟨cadence, hakin⟩

theorem preview (h : Akin dock dock') (on : Bool) (settings : Settings α) :
    Agree Akin (dock.preview on settings) (dock'.preview on settings) := by
  obtain ⟨cadence, hakin⟩ := h
  cases on with
  | true =>
      have hset : Akin { dock with previewLeft := some previewPeriod }
          { dock with cadence, previewLeft := some previewPeriod } := ⟨cadence, hakin⟩
      exact hset.wake settings
  | false => exact .ok ⟨cadence, hakin⟩

theorem relayout (h : Akin dock dock') (settings : Settings α) :
    Agree Akin (dock.relayout settings) (dock'.relayout settings) := by
  obtain ⟨cadence, hakin⟩ := h
  have hordered : Akin { dock with cadence := dock.cadence.orderLayouts Cadence.longLayout }
      { dock with cadence := cadence.orderLayouts Cadence.longLayout } :=
    ⟨_, hakin.orderLayouts _⟩
  exact hordered.wake settings

theorem resume (h : Akin dock dock') (settings : Settings α) :
    Agree Akin (dock.resume settings) (dock'.resume settings) := by
  obtain ⟨cadence, hakin⟩ := h
  obtain ⟨hended, hresumed⟩ := hakin.resume
  unfold Dock.resume
  dsimp only
  generalize cadence.resume = resumed' at hended hresumed
  generalize dock.cadence.resume = resumed at hended hresumed
  obtain ⟨ended, resumed⟩ := resumed
  obtain ⟨ended', resumed'⟩ := resumed'
  obtain rfl : ended' = ended := hended
  cases ended' with
  | true =>
      have hordered : Akin { dock with cadence := resumed.orderLayouts Cadence.longLayout }
          { dock with cadence := resumed'.orderLayouts Cadence.longLayout } :=
        ⟨_, hresumed.orderLayouts _⟩
      exact hordered.wake settings
  | false => exact .ok ⟨resumed', hresumed⟩

/-- A tick that finds them running and enabled finds no difference. -/
theorem tick (h : Akin dock dock') (host : Host α) (running : dock.cadence.phase = .running) :
    Agree (fun step step' => Akin step.1 step'.1 ∧ step'.2 = step.2) (dock.tick host)
      (dock'.tick host) := by
  by_cases henabled : dock.enabled = true
  · obtain ⟨cadence, hakin⟩ := h
    obtain rfl := hakin.eq running henabled
    exact .refl (fun step => ⟨refl step.1, rfl⟩) _
  · have henabled' : ¬ dock'.enabled = true := h.enabled ▸ henabled
    rw [tick_eq, tick_eq, if_neg henabled, if_neg henabled']
    exact .ok ⟨h, rfl⟩

/-- Two docks that are akin answer every event alike. -/
theorem handle (h : Akin dock dock') (host : Host α) (event : Event)
    (running : event = .alarm .tick → dock.cadence.phase = .running) :
    Agree AkinStep (dock.handle host event) (dock'.handle host event) := by
  have hsilent : ∀ {attempt attempt' : Except Fault (Dock α τ)}, Agree Akin attempt attempt' →
      Agree AkinStep ((·, []) <$> attempt) ((·, []) <$> attempt') :=
    fun hagree => hagree.map fun hakin => ⟨hakin, rfl⟩
  cases event with
  | enable => exact .ok ⟨h.enable _, rfl⟩
  | disable => exact .ok h.disable
  | pointerEnter | pointerMotion => exact hsilent (h.wake _)
  | pointerLeave =>
      obtain ⟨cadence, hakin⟩ := h
      exact .ok ⟨⟨cadence.rearm, hakin.rearm⟩, rfl⟩
  | focusChanged => exact hsilent (h.focusChanged _)
  | fullscreenChanged => exact .ok (h.fullscreenChanged _)
  | dragBegin => exact .ok h.dragBegin
  | dragEnd => exact .ok h.dragEnd
  | preview on => exact hsilent (h.preview on _)
  | relayout => exact hsilent (h.relayout _)
  | alarm alarm =>
      cases alarm with
      | tick =>
          refine (h.tick host (running rfl)).bind fun hticked => .ok ?_
          exact ⟨hticked.1, congrArg Prod.fst hticked.2⟩
      | quiet =>
          obtain ⟨cadence, hakin⟩ := h
          exact .ok ⟨⟨cadence.quietPassed, hakin.quietPassed⟩, rfl⟩
      | resume => exact (h.resume _).bind fun hresumed => .ok ⟨hresumed, rfl⟩

end Akin

end Dock

end FisheyeDock
