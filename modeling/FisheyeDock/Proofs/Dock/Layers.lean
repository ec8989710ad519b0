import FisheyeDock.Proofs.Dock.Driven

/-! # When the layers are shown

    Three things have a say in whether the layers are shown.  A frame shows them at its end, a
    withdrawal hides them, and a change of what fills the screen is passed on to them as it is told.
    Where the host tells of every such change at once (`Announced`), the layers are shown exactly
    while no window fills the screen and the dock has drawn, or been told of a change, since it last
    withdrew (`Driven.layersKept`).

    A dock that is disabled is told nothing, so that its layers are hidden.  One that is suspended
    is told, although it has nothing to show: its layers are shown as soon as it learns that no
    window fills the screen. -/

namespace FisheyeDock

namespace Scene

variable {α : Type} {commands : List (Command α)}

/-- Whether the layers are shown. -/
def layersOf : Command α → Option Bool
  | .showLayers visible => some visible
  | _ => none

/-- The last that the scene has been told of the layers is to show them. -/
def ShowsLayers (commands : List (Command α)) : Prop := lastOf layersOf commands = some true

theorem layers_eq_none (h : ∀ visible, .showLayers visible ∉ commands) :
    lastOf layersOf commands = none := by
  refine lastOf_eq_none ?_
  intro command hmem
  cases command with
  | showLayers visible => exact absurd hmem (h visible)
  | _ => rfl

end Scene

namespace Dock

open Scene

variable {α τ : Type}

/-! ## What the scene is told of the layers -/

section Scene

/-- What some commands make of the layers, if they were shown or not before. -/
def layersAfter (shown : Bool) (commands : List (Command α)) : Bool :=
  (lastOf layersOf commands).getD shown

/-- What the layers are told later counts. -/
theorem layersAfter_append (shown : Bool) (before after : List (Command α)) :
    layersAfter shown (before ++ after) = layersAfter (layersAfter shown before) after := by
  unfold layersAfter
  rw [lastOf_append]
  cases lastOf layersOf after <;> rfl

/-- Where nothing is said of the layers, they stay. -/
theorem layersAfter_eq_self {commands : List (Command α)} (shown : Bool)
    (h : ∀ visible, .showLayers visible ∉ commands) : layersAfter shown commands = shown := by
  rw [layersAfter, layers_eq_none h]
  rfl

/-- Afterwards the layers show what they were told to. -/
theorem layersAfter_showLayers (dock : Dock α τ) (visible : Bool) :
    layersAfter dock.layersShown (dock.showLayers visible).2 = visible := by
  unfold showLayers
  by_cases hsame : dock.layersShown = visible
  · rw [if_pos hsame]
    exact hsame
  · rw [if_neg hsame]
    rfl

/-- Out of the scene the layers are hidden. -/
theorem layersAfter_withdraw (dock : Dock α τ) :
    layersAfter dock.layersShown dock.withdraw.2 = false := by
  have hrow : ∀ visible, .showLayers visible ∉ dock.row.clear.2 := by
    intro visible hmem
    obtain ⟨tile, -, hof⟩ := List.mem_flatMap.mp hmem
    simp [Tile.releases] at hof
  have hpool : ∀ visible, .showLayers visible ∉ (dock.pool.clear (α := α)).2 := by
    intro visible hmem
    obtain ⟨slot, -, heq⟩ := List.mem_map.mp hmem
    exact nomatch heq
  show layersAfter dock.layersShown (dock.row.clear.2 ++ dock.pool.clear.2 ++
    (showLayers { dock with
      row := dock.row.clear.1, pool := (dock.pool.clear (α := α)).1, tileCount := 0 } false).2)
    = false
  rw [layersAfter_append, layersAfter_append, layersAfter_eq_self _ hrow,
    layersAfter_eq_self _ hpool]
  exact layersAfter_showLayers { dock with
    row := dock.row.clear.1, pool := (dock.pool.clear (α := α)).1, tileCount := 0 } false

/-- A tick shows the layers, unless something is in fullscreen. -/
theorem layersAfter_layered (dock : Dock α τ) (host : Host α) :
    layersAfter dock.layersShown (dock.layered host).2 = (dock.layered host).1.layersShown := by
  unfold layered
  by_cases hfull : host.geometry.inFullscreen = true
  · rw [if_pos hfull]
    rfl
  · rw [if_neg hfull, showLayers_fst]
    exact layersAfter_showLayers dock true

end Scene

section Event

variable [Scalar α] {dock dock' : Dock α τ} {host : Host α} {event : Event}
variable {commands : List (Command α)}

/-- Bringing the row up to date leaves the layers as they are. -/
theorem updates_leaves_layers (visible : Bool) : .showLayers visible ∉ dock.updates host := by
  obtain ⟨kept, gone, new, hexchanges⟩ := Row.reconcile_exchanges dock.takeLayout.1.row host.icons
    host.settings.favoritesOnly host.geometry.iconSize
  intro hmem
  rcases List.mem_append.mp hmem with hlayout | hchange
  · unfold takeLayout at hlayout
    rcases dock.cadence.takeLayout with ⟨_ | _, cadence⟩
    · simp at hlayout
    · simp at hlayout
  · rw [(updateRow_cases _ host).2.2, hexchanges.commands_eq] at hchange
    simp [Tile.releases, Tile.creations] at hchange

/-- Drawing tiles does not touch the layers. -/
theorem layersShown_framed (tiles : List (Tile α)) :
    ((dock.updated host).framed host tiles).layersShown = dock.layersShown := by
  obtain ⟨cadence, hlayout, -⟩ := takeLayout_cases dock
  show dock.takeLayout.1.layersShown = _
  rw [hlayout]

variable [TimerService τ]

/-- A dock knows whether its layers are shown. -/
theorem Effect.layersAfter (h : Effect dock host event dock' commands) :
    layersAfter dock.layersShown commands = dock'.layersShown := by
  cases h with
  | rests passes cadence previewLeft awake => rfl
  | enables passes ticks => rfl
  | announces stays bare told =>
      rw [layersAfter_showLayers, showLayers_fst]
  | withdraws leaves enabled cadence previewLeft disables =>
      rw [withdraw_fst]
      exact layersAfter_withdraw { dock with enabled, cadence, previewLeft }
  | draws drawn tiles cadence phase =>
      have hactive : ∀ visible, .showLayers visible ∉ (dock.updated host).row.tiles.map
          fun tile => Command.activateTile (α := α) tile.id (!host.geometry.autohideHidden) := by
        simp
      have hframe : ∀ visible,
          .showLayers visible ∉ ((dock.updated host).frameOf host tiles).commands :=
        Frame.build_leaves_layers _ _ _ _ tiles
      have hlayered := layersAfter_layered ((dock.updated host).framed host tiles) host
      rw [layersShown_framed] at hlayered
      rw [layersAfter_append, layersAfter_append, layersAfter_append,
        layersAfter_eq_self _ updates_leaves_layers, layersAfter_eq_self _ hactive,
        layersAfter_eq_self _ hframe]
      exact hlayered

/-- The dock knows whether the layers are shown. -/
theorem Ran.layersAfter {trace : List (Command α)} (h : Ran dock trace) :
    layersAfter false trace = dock.layersShown := by
  induction h with
  | new timers => rfl
  | event host event before step ih =>
      rw [layersAfter_append, ih]
      exact (handle_effect step).layersAfter
  | drift timers before ih => exact ih

end Event

/-! ## What has happened -/

namespace Moment

variable [TimerService τ] (m : Moment α τ)

def withdraws : Bool := m.dock.withdrawsOn m.host m.event

def draws : Bool := m.dock.drawsOn m.host m.event

def announces : Bool := m.dock.announcesOn m.event

end Moment

/-- Whether a window fills the screen, as the host has last told. -/
def fullscreen : List (Moment α τ) → Bool
  | [] => false
  | m :: _ => m.host.geometry.inFullscreen

/-- Whenever a window comes to fill the screen, or does so no more, the next event tells the dock.
    -/
def Announced (past : List (Moment α τ)) : Prop :=
  past.IsChain fun later earlier =>
    later.host.geometry.inFullscreen = earlier.host.geometry.inFullscreen ∨
      later.event = .fullscreenChanged

variable [TimerService τ]

/-- Whether there has been a moment of a sort since the dock last withdrew. -/
def since (mark : Moment α τ → Bool) : List (Moment α τ) → Bool
  | [] => false
  | m :: past => !m.withdraws && (mark m || since mark past)

section Since

variable {m : Moment α τ} {past : List (Moment α τ)} {mark : Moment α τ → Bool}
variable {dock : Dock α τ} {host : Host α} {event : Event}

/-- A mark lasts until the scene is left. -/
theorem since_cons_of_stays (stays : dock.withdrawsOn host event = false) :
    since mark (⟨dock, host, event⟩ :: past) = (mark ⟨dock, host, event⟩ || since mark past) := by
  rw [since, Moment.withdraws, stays]
  rfl

/-- When the scene is left, no mark is left either. -/
theorem since_cons_of_leaves (leaves : dock.withdrawsOn host event = true) :
    since mark (⟨dock, host, event⟩ :: past) = false := by
  rw [since, Moment.withdraws, leaves]
  rfl

/-- Something that has been since the last withdrawal has a moment before it, and what the host has
    told then still stands, unless the dock is told otherwise. -/
theorem fullscreen_cons (announced : Announced (m :: past)) (untold : m.event ≠ .fullscreenChanged)
    (h : since mark past = true) : fullscreen (m :: past) = fullscreen past := by
  cases past with
  | nil => exact nomatch h
  | cons earlier past =>
      exact (List.isChain_cons_cons.mp announced).1.resolve_right untold

end Since

/-! ## Runs -/

/-- How the layers of a dock depend on what has happened. -/
structure LayersKept (dock : Dock α τ) (past : List (Moment α τ)) (trace : List (Command α)) :
    Prop where
  shown_iff : ShowsLayers trace ↔ fullscreen past = false ∧
    (since Moment.draws past = true ∨ since Moment.announces past = true)
  enabled : ShowsLayers trace → dock.enabled = true
  /-- While the dock is suspended, nothing but the news of the screen shows the layers. -/
  suspended_iff : dock.cadence.phase = .suspended →
    (ShowsLayers trace ↔ fullscreen past = false ∧ since Moment.announces past = true)

/-- What has been drawn or told since the last withdrawal, in terms of the dock. -/
structure Shown (dock : Dock α τ) (past : List (Moment α τ)) : Prop where
  shown_iff : dock.layersShown = true ↔ fullscreen past = false ∧
    (since Moment.draws past = true ∨ since Moment.announces past = true)
  enabled : since Moment.draws past = true ∨ since Moment.announces past = true →
    dock.enabled = true
  present : since Moment.draws past = true → ¬ dock.Away

variable [Scalar α] {dock dock' : Dock α τ} {host : Host α} {event : Event}
variable {commands : List (Command α)} {past : List (Moment α τ)} {trace : List (Command α)}

omit [Scalar α] in
/-- An event that the layers have no part in. -/
theorem Shown.of_passes (h : dock.Shown past) (announced : Announced (⟨dock, host, event⟩ :: past))
    (passes : dock.Passes host event) (layers : dock'.layersShown = dock.layersShown)
    (enabled : dock.enabled = true → dock'.enabled = true) (away : dock'.Away → dock.Away) :
    dock'.Shown (⟨dock, host, event⟩ :: past) := by
  have hdraws : since Moment.draws (⟨dock, host, event⟩ :: past) = since Moment.draws past := by
    rw [since_cons_of_stays passes.stays, Moment.draws, passes.bare, Bool.false_or]
  have htold : since Moment.announces (⟨dock, host, event⟩ :: past)
      = since Moment.announces past := by
    rw [since_cons_of_stays passes.stays, Moment.announces, passes.untold, Bool.false_or]
  -- an enabled dock is told of every change
  have hfull : since Moment.draws past = true ∨ since Moment.announces past = true →
      fullscreen (⟨dock, host, event⟩ :: past) = fullscreen past := by
    intro hsince
    have huntold : event ≠ .fullscreenChanged := by
      rintro rfl
      exact nomatch passes.untold.symm.trans (h.enabled hsince)
    exact hsince.elim (fullscreen_cons announced huntold) (fullscreen_cons announced huntold)
  constructor
  · rw [layers, h.shown_iff, hdraws, htold]
    constructor
    · exact fun ⟨hscreen, hsince⟩ => ⟨(hfull hsince).trans hscreen, hsince⟩
    · exact fun ⟨hscreen, hsince⟩ => ⟨(hfull hsince).symm.trans hscreen, hsince⟩
  · rw [hdraws, htold]
    exact fun hsince => enabled (h.enabled hsince)
  · rw [hdraws]
    exact fun hdrawn haway => h.present hdrawn (away haway)

omit [Scalar α] in
/-- After a withdrawal nothing has been drawn or told, and the layers are hidden. -/
theorem Shown.of_leaves (leaves : dock.withdrawsOn host event = true)
    (layers : dock'.layersShown = false) : dock'.Shown (⟨dock, host, event⟩ :: past) := by
  have hsince : ∀ mark, since mark (⟨dock, host, event⟩ :: past) = false :=
    fun mark => since_cons_of_leaves leaves
  constructor
  · rw [layers, hsince, hsince]
    simp
  · rw [hsince, hsince]
    simp
  · rw [hsince]
    exact nofun

/-- One event keeps what the layers show as it is to be. -/
theorem Shown.step (h : dock.Shown past) (announced : Announced (⟨dock, host, event⟩ :: past))
    (awake : dock.drawsOn host event = true → dock.cadence.phase ≠ .suspended)
    (effect : Effect dock host event dock' commands) :
    dock'.Shown (⟨dock, host, event⟩ :: past) := by
  cases effect with
  | rests passes cadence previewLeft awake =>
      exact h.of_passes announced passes rfl id (Or.imp id awake)
  | enables passes ticks => exact h.of_passes announced passes rfl (fun _ => rfl) (Or.imp nofun id)
  | announces stays bare told =>
      have htold : since Moment.announces (⟨dock, host, event⟩ :: past) = true := by
        rw [since_cons_of_stays stays, Moment.announces, told, Bool.true_or]
      have henabled : dock.enabled = true := by
        cases event with
        | fullscreenChanged => exact told
        | _ => exact nomatch told
      rw [showLayers_fst]
      constructor
      · rw [htold]
        simp [fullscreen]
      · exact fun _ => henabled
      · rw [since_cons_of_stays stays, Moment.draws, bare, Bool.false_or]
        exact h.present
  | withdraws leaves enabled cadence previewLeft disables =>
      refine .of_leaves leaves ?_
      rw [withdraw_fst]
  | draws drawn tiles cadence phase =>
      obtain ⟨rfl, henabled⟩ := drawsOn_cases drawn
      have hdrawn : since Moment.draws (⟨dock, host, .alarm .tick⟩ :: past) = true := by
        rw [since_cons_of_stays (withdrawsOn_of_drawsOn drawn), Moment.draws, drawn, Bool.true_or]
      rw [layered_fst]
      refine ⟨?_, fun _ => henabled, fun _ haway => ?_⟩
      · rw [layersShown_framed, hdrawn]
        cases hfull : host.geometry.inFullscreen with
        | false => simp [fullscreen, hfull]
        | true =>
            -- what fills the screen now has filled it before
            have hhidden : dock.layersShown ≠ true := by
              intro hshown
              obtain ⟨hscreen, hsince⟩ := h.shown_iff.mp hshown
              have hsame := hsince.elim (fullscreen_cons announced (by simp))
                (fullscreen_cons announced (by simp))
              exact nomatch hfull.symm.trans (hsame.trans hscreen)
            simpa [fullscreen, hfull] using hhidden
      · rcases haway with hdisabled | hsuspended
        · exact nomatch henabled.symm.trans hdisabled
        · exact awake drawn (phase.symm.trans hsuspended)

variable [LawfulTimerService τ]

theorem Driven.shown (h : Driven dock past trace) : Announced past → dock.Shown past := by
  refine h.holds (P := fun dock past _ => Announced past → dock.Shown past) ?_ ?_ ?_
  · exact fun timers _ => ⟨by simp [Dock.new, since], by simp [since], nofun⟩
  · intro dock past trace timers before announced
    exact ⟨(before announced).shown_iff, (before announced).enabled, (before announced).present⟩
  · intro dock dock' past trace host event commands before running step announced
    refine (before announced.of_cons).step announced ?_ (handle_effect step)
    intro hdraws
    rw [running (drawsOn_cases hdraws).1]
    decide

/-- **WHEN THE LAYERS ARE SHOWN**, in any run whose ticks come from the timers and in which the host
    tells the dock at once of what fills the screen: as long as no window does, the dock is enabled,
    and it has drawn or been told so since it last withdrew.  While it is suspended it has not
    drawn, and its layers are shown only if it has been told. -/
theorem Driven.layersKept (h : Driven dock past trace) (announced : Announced past) :
    dock.LayersKept past trace := by
  have hshown := h.shown announced
  have hscene : ShowsLayers trace ↔ dock.layersShown = true := by
    rw [← h.ran.layersAfter, layersAfter, ShowsLayers]
    cases lastOf layersOf trace <;> simp
  constructor
  · rw [hscene]
    exact hshown.shown_iff
  · rw [hscene, hshown.shown_iff]
    exact fun hshows => hshown.enabled hshows.2
  · intro hsuspended
    have hbare : since Moment.draws past ≠ true :=
      fun hdrawn => hshown.present hdrawn (.inr hsuspended)
    rw [hscene, hshown.shown_iff]
    simp [hbare]

/-- A standard dock without icons, below a window that fills the screen or not. -/
private def screen (inFullscreen : Bool) : Host Float where
  settings := .standard
  geometry := { Geometry.standard with inFullscreen }
  icons := []

/-- A window comes to fill the screen during a drag, and does so no more: the layers of the
    suspended dock are shown. -/
theorem layersKept_during_drag : ∃ (dock : Dock Float Clock) (past : List (Moment Float Clock))
    (trace : List (Command Float)), Driven dock past trace ∧ Announced past ∧
      dock.LayersKept past trace ∧ dock.cadence.phase = .suspended ∧ ShowsLayers trace := by
  have hnew : Driven (new Clock.start : Dock Float Clock) [] [] :=
    .new _ Clock.start_proper fun _ => rfl
  have henabled := hnew.event (screen false) .enable nofun rfl
  have hdragged := henabled.event (screen false) .dragBegin nofun rfl
  have hfilled := hdragged.event (screen true) .fullscreenChanged nofun rfl
  have hfreed := hfilled.event (screen false) .fullscreenChanged nofun rfl
  refine ⟨_, _, _, hfreed, ?_, hfreed.layersKept ?_, rfl, rfl⟩
  all_goals
    exact .cons_cons (.inr rfl) (.cons_cons (.inr rfl) (.cons_cons (.inl rfl) (.singleton _)))

end Dock

end FisheyeDock
