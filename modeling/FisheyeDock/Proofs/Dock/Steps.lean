import FisheyeDock.Dock.Run
import FisheyeDock.Proofs.Cadence.Sound

/-! # What an operation of the dock can do

    Each operation is taken apart once, here: `wake_cases` for those that start the cadence,
    `tick_cases` and `animate_cases` for a tick, and `tick_of_handle` and its like for the event that
    asks for it.  The other files argue from these cases and look into no operation again.

    A run is never stopped by a failure, as long as the settings let the interval between two ticks
    be counted (`handle_ok`). -/

namespace FisheyeDock.Dock

open Scene (Command)

/-! ## Layers, and what leaves the scene -/

section Scene

variable {α τ : Type} (dock : Dock α τ) (visible : Bool)

/-- The dock with its timer service in another state. -/
def withTimers (timers : τ) : Dock α τ :=
  { dock with cadence := dock.cadence.withTimers timers }

/-- Showing the layers changes nothing but whether they are shown. -/
theorem showLayers_fst :
    (dock.showLayers visible).1 = { dock with layersShown := visible } := by
  unfold showLayers
  by_cases hsame : dock.layersShown = visible
  · rw [if_pos hsame, ← hsame]
  · rw [if_neg hsame]

/-- The layers are told at most what they are to show. -/
theorem showLayers_snd : (dock.showLayers visible).2 = [] ∨
    (dock.showLayers visible).2 = [.showLayers visible] := by
  unfold showLayers
  by_cases hsame : dock.layersShown = visible
  · rw [if_pos hsame]
    exact .inl rfl
  · rw [if_neg hsame]
    exact .inr rfl

/-- A withdrawal empties the row and the pool, and hides the layers. -/
theorem withdraw_fst : dock.withdraw.1 =
    { dock with
      row := dock.row.clear.1
      pool := (dock.pool.clear (α := α)).1
      tileCount := 0
      layersShown := false } := by
  unfold withdraw
  dsimp only
  rw [showLayers_fst]

/-- The scene is left by the tiles first, then by the markers, and the layers are hidden at last. -/
theorem withdraw_snd : ∃ layers : List (Command α),
    (layers = [] ∨ layers = [.showLayers false]) ∧
    dock.withdraw.2 = dock.row.clear.2 ++ dock.pool.clear.2 ++ layers :=
  ⟨_, showLayers_snd _ false, rfl⟩

end Scene

variable {α τ : Type} [Scalar α] [TimerService τ] {dock dock' : Dock α τ} {host : Host α}
variable {commands : List (Command α)} {animated : Bool}

/-! ## Starting -/

/-- A wake-up touches the cadence alone: it starts it and rearms it. -/
theorem wake_cases {settings : Settings α} (h : dock.wake settings = .ok dock') :
    (dock.enabled = false ∧ dock' = dock) ∨
    (dock.enabled = true ∧ ∃ cadence, dock.cadence.start settings.magnification.fps = .ok cadence ∧
      dock' = { dock with cadence := cadence.rearm }) := by
  unfold wake at h
  by_cases henabled : dock.enabled = true
  · rw [if_pos henabled, bind_eq_ok_iff] at h
    obtain ⟨cadence, hstart, h⟩ := h
    exact .inr ⟨henabled, cadence, hstart, (Except.ok.inj h).symm⟩
  · rw [if_neg henabled] at h
    exact .inl ⟨Bool.not_eq_true _ ▸ henabled, (Except.ok.inj h).symm⟩

/-! ## Ticks -/

/-- The dock of a tick once the layout has been counted and the row is up to date. -/
def updated (dock : Dock α τ) (host : Host α) : Dock α τ :=
  (dock.takeLayout.1.updateRow host).1

/-- The commands on the way there. -/
def updates (dock : Dock α τ) (host : Host α) : List (Command α) :=
  dock.takeLayout.2 ++ (dock.takeLayout.1.updateRow host).2

/-- A tick asks in turn whether the dock is enabled, whether a drag waits, and whether the engine is
    turned off. -/
theorem tick_eq (dock : Dock α τ) (host : Host α) : dock.tick host =
    if dock.enabled then
      if dock.cadence.dragQueued then
        .ok ((withdraw { dock with cadence := dock.cadence.suspend }).1,
          (withdraw { dock with cadence := dock.cadence.suspend }).2, false)
      else if host.settings.magnification.off then .ok (dock.disable.1, dock.disable.2, false)
      else (dock.updated host).animate host >>= fun shown =>
        .ok (shown.1, dock.updates host ++ shown.2.1, shown.2.2)
    else .ok (dock, [], false) := by
  unfold tick Cadence.applyDrag
  cases dock.enabled with
  | false => rfl
  | true =>
      cases dock.cadence.dragQueued with
      | true => rfl
      | false =>
          cases host.settings.magnification.off with
          | true => rfl
          | false => rfl

/-- A tick does nothing, takes everything out of the scene, or runs through to the frame. -/
theorem tick_cases (h : dock.tick host = .ok (dock', commands, animated)) :
    (dock.enabled = false ∧ dock' = dock ∧ commands = []) ∨
    (dock.enabled = true ∧ dock.cadence.dragQueued = true ∧
      (dock', commands) = withdraw { dock with cadence := dock.cadence.suspend }) ∨
    (dock.enabled = true ∧ dock.cadence.dragQueued = false ∧
      host.settings.magnification.off = true ∧ (dock', commands) = dock.disable) ∨
    (dock.enabled = true ∧ dock.cadence.dragQueued = false ∧
      host.settings.magnification.off = false ∧ ∃ shown,
        (dock.updated host).animate host = .ok (dock', shown, animated) ∧
        commands = dock.updates host ++ shown) := by
  rw [tick_eq] at h
  by_cases henabled : dock.enabled = true
  · rw [if_pos henabled] at h
    by_cases hdrag : dock.cadence.dragQueued = true
    · rw [if_pos hdrag] at h
      obtain ⟨rfl, hrest⟩ := Prod.mk.inj (Except.ok.inj h)
      obtain ⟨rfl, -⟩ := Prod.mk.inj hrest
      exact .inr (.inl ⟨henabled, hdrag, rfl⟩)
    · rw [if_neg hdrag] at h
      by_cases hoff : host.settings.magnification.off = true
      · rw [if_pos hoff] at h
        obtain ⟨rfl, hrest⟩ := Prod.mk.inj (Except.ok.inj h)
        obtain ⟨rfl, -⟩ := Prod.mk.inj hrest
        exact .inr (.inr (.inl ⟨henabled, (Bool.not_eq_true _).mp hdrag, hoff, rfl⟩))
      · rw [if_neg hoff] at h
        obtain ⟨⟨dock₁, shown, animated₁⟩, hanimate, h⟩ := bind_eq_ok_iff.mp h
        obtain ⟨rfl, hrest⟩ := Prod.mk.inj (Except.ok.inj h)
        obtain ⟨rfl, rfl⟩ := Prod.mk.inj hrest
        exact .inr (.inr (.inr ⟨henabled, (Bool.not_eq_true _).mp hdrag,
          (Bool.not_eq_true _).mp hoff, shown, hanimate, rfl⟩))
  · rw [if_neg henabled] at h
    obtain ⟨rfl, hrest⟩ := Prod.mk.inj (Except.ok.inj h)
    obtain ⟨rfl, -⟩ := Prod.mk.inj hrest
    exact .inl ⟨(Bool.not_eq_true _).mp henabled, rfl, rfl⟩

/-- The frame that a tick builds from the tiles after the lens. -/
def frameOf (dock : Dock α τ) (host : Host α) (tiles : List (Tile α)) : Frame α :=
  Frame.build host.geometry host.settings (dock.focus host dock.row.reset.tiles).1.isNone
    dock.pool tiles

/-- The dock with that frame in place. -/
def framed (dock : Dock α τ) (host : Host α) (tiles : List (Tile α)) : Dock α τ :=
  { dock with
    row := { dock.row with tiles := (dock.frameOf host tiles).tiles }
    pool := (dock.frameOf host tiles).pool
    previewLeft := (dock.focus host dock.row.reset.tiles).2 }

/-- The layers are shown at the end of a tick, unless a window fills the screen. -/
def layered (dock : Dock α τ) (host : Host α) : Dock α τ × List (Command α) :=
  if host.geometry.inFullscreen then (dock, []) else dock.showLayers true

omit [Scalar α] [TimerService τ] in
/-- In fullscreen the layers stay as they are, otherwise they are shown. -/
theorem layered_fst (dock : Dock α τ) (host : Host α) : (dock.layered host).1 =
    { dock with
      layersShown := if host.geometry.inFullscreen then dock.layersShown else true } := by
  unfold layered
  by_cases hfull : host.geometry.inFullscreen = true
  · rw [if_pos hfull, if_pos hfull]
  · rw [if_neg hfull, if_neg hfull, showLayers_fst]

omit [Scalar α] [TimerService τ] in
theorem layered_snd (dock : Dock α τ) (host : Host α) :
    (dock.layered host).2 = [] ∨ (dock.layered host).2 = [.showLayers true] := by
  unfold layered
  by_cases hfull : host.geometry.inFullscreen = true
  · rw [if_pos hfull]
    exact .inl rfl
  · rw [if_neg hfull]
    exact showLayers_snd dock true

/-- A tick is animated by the lens first, and then by the frame. -/
theorem animate_eq (dock : Dock α τ) (host : Host α) : dock.animate host =
    magnify host (dock.focus host dock.row.reset.tiles).1 dock.row.reset.tiles >>= fun lens =>
      let animated := lens.2 || (dock.frameOf host lens.1).glided
      let shown := (dock.framed host lens.1).layered host
      .ok ({ shown.1 with
              cadence := if animated then shown.1.cadence.rearm else shown.1.cadence },
        dock.row.tiles.map (fun tile => .activateTile tile.id (!host.geometry.autohideHidden))
          ++ (dock.frameOf host lens.1).commands ++ shown.2, animated) := rfl

/-- What a tick does from an up-to-date row on: it builds a frame, and shows the layers. -/
theorem animate_shows (h : dock.animate host = .ok (dock', commands, animated)) :
    ∃ tiles magnified,
      magnify host (dock.focus host dock.row.reset.tiles).1 dock.row.reset.tiles
        = .ok (tiles, magnified) ∧
      animated = (magnified || (dock.frameOf host tiles).glided) ∧
      commands = dock.row.tiles.map
          (fun tile => .activateTile tile.id (!host.geometry.autohideHidden))
        ++ (dock.frameOf host tiles).commands ++ ((dock.framed host tiles).layered host).2 ∧
      dock' = { ((dock.framed host tiles).layered host).1 with
        cadence := if animated then dock.cadence.rearm else dock.cadence } := by
  rw [animate_eq, bind_eq_ok_iff] at h
  obtain ⟨⟨tiles, magnified⟩, hmagnify, h⟩ := h
  obtain ⟨hdock, hrest⟩ := Prod.mk.inj (Except.ok.inj h)
  obtain ⟨hcommands, hanimated⟩ := Prod.mk.inj hrest
  refine ⟨tiles, magnified, hmagnify, hanimated.symm, hcommands.symm, ?_⟩
  rw [← hdock, layered_fst, ← hanimated]
  rfl

/-- The same, field by field. -/
theorem animate_cases (h : dock.animate host = .ok (dock', commands, animated)) :
    ∃ tiles magnified layers,
      magnify host (dock.focus host dock.row.reset.tiles).1 dock.row.reset.tiles
        = .ok (tiles, magnified) ∧
      animated = (magnified || (dock.frameOf host tiles).glided) ∧
      (layers = [] ∨ layers = [.showLayers true]) ∧
      commands = dock.row.tiles.map
          (fun tile => .activateTile tile.id (!host.geometry.autohideHidden))
        ++ (dock.frameOf host tiles).commands ++ layers ∧
      dock' = { dock with
        row := { dock.row with tiles := (dock.frameOf host tiles).tiles }
        pool := (dock.frameOf host tiles).pool
        cadence := if animated then dock.cadence.rearm else dock.cadence
        previewLeft := (dock.focus host dock.row.reset.tiles).2
        layersShown := if host.geometry.inFullscreen then dock.layersShown else true } := by
  obtain ⟨tiles, magnified, hmagnify, hanimated, hcommands, hdock⟩ := animate_shows h
  refine ⟨tiles, magnified, _, hmagnify, hanimated, layered_snd _ host, hcommands, ?_⟩
  rw [hdock, layered_fst]
  rfl

/-! ## What an event is taken apart into -/

section Handle

variable {dock dock' : Dock α τ} {host : Host α} {event : Event} {commands : List (Command α)}

/-- Where it can be told beforehand what an event comes to, it comes to that. -/
theorem eq_of_handle {result : Dock α τ × List (Command α)}
    (h : dock.handle host event = .ok (dock', commands))
    (told : .ok result = dock.handle host event) : dock' = result.1 :=
  congrArg Prod.fst (Except.ok.inj (told.trans h)).symm

omit [Scalar α] [TimerService τ] in
/-- An event that gives no commands comes to what its operation does. -/
theorem ok_of_silent {operation : Except Fault (Dock α τ)}
    (h : (·, ([] : List (Command α))) <$> operation = .ok (dock', commands)) :
    operation = .ok dock' ∧ commands = [] := by
  obtain ⟨done, hoperation, heq⟩ := map_eq_ok_iff.mp h
  obtain ⟨rfl, rfl⟩ := Prod.mk.inj heq
  exact ⟨hoperation, rfl⟩

theorem tick_of_handle (h : dock.handle host (.alarm .tick) = .ok (dock', commands)) :
    ∃ animated, dock.tick host = .ok (dock', commands, animated) := by
  obtain ⟨⟨ticked, shown, animated⟩, htick, hdone⟩ := bind_eq_ok_iff.mp h
  obtain ⟨rfl, rfl⟩ := Prod.mk.inj (Except.ok.inj hdone)
  exact ⟨animated, htick⟩

theorem resume_of_handle (h : dock.handle host (.alarm .resume) = .ok (dock', commands)) :
    dock.resume host.settings = .ok dock' ∧ commands = [] := by
  obtain ⟨resumed, hresume, hdone⟩ := bind_eq_ok_iff.mp h
  obtain ⟨rfl, rfl⟩ := Prod.mk.inj (Except.ok.inj hdone)
  exact ⟨hresume, rfl⟩

end Handle

/-! ## Nothing fails

    A tick always comes to its end.  The only setting that an event can fail on is one whose interval
    between two ticks is too long to be counted. -/

section Total

variable {settings : Settings α}

/-- Waking does not fail where the setting has an interval. -/
theorem wake_ok (dock : Dock α τ) {interval : Nat}
    (hfps : Cadence.intervalFor settings.magnification.fps = .ok interval) :
    ∃ dock', dock.wake settings = .ok dock' := by
  have hstart : ∃ cadence, dock.cadence.start settings.magnification.fps = .ok cadence := by
    unfold Cadence.start
    rw [hfps]
    by_cases hidle : dock.cadence.phase = .idle
    · rw [if_pos hidle]
      dsimp only [bind, Except.bind]
      split
      · exact ⟨_, rfl⟩
      · exact ⟨_, rfl⟩
    · rw [if_neg hidle]
      exact ⟨_, rfl⟩
  obtain ⟨cadence, hcadence⟩ := hstart
  unfold wake
  by_cases henabled : dock.enabled = true
  · rw [if_pos henabled]
    exact ⟨_, bind_eq_ok_iff.mpr ⟨cadence, hcadence, rfl⟩⟩
  · rw [if_neg henabled]
    exact ⟨_, rfl⟩

omit [TimerService τ] in
/-- The lens is only put on tiles that there are. -/
theorem focus_index_lt {tiles : List (Tile α)} {focus : Focus α}
    (h : (dock.focus host tiles).1 = some focus) : focus.index < tiles.length := by
  have hpointer : pointerFocus host tiles = some focus → focus.index < tiles.length := by
    intro hfocus
    unfold pointerFocus at hfocus
    dsimp only at hfocus
    split at hfocus
    · exact nomatch hfocus
    · exact Lens.index_lt_of_nearest? hfocus
  have hpreview : previewFocus tiles = some focus → focus.index < tiles.length := by
    intro hfocus
    obtain ⟨tile, hmiddle, rfl⟩ := Option.map_eq_some_iff.mp hfocus
    exact (List.getElem?_eq_some_iff.mp (Option.filter_eq_some_iff.mp hmiddle).1).1
  unfold Dock.focus at h
  split at h
  · exact hpreview h
  · exact hpointer h

/-- A tick does not fail as it is animated: the lens is on one of the tiles. -/
theorem animate_ok (dock : Dock α τ) (host : Host α) :
    ∃ result, dock.animate host = .ok result := by
  have hlens : ∃ lens, magnify host (dock.focus host dock.row.reset.tiles).1 dock.row.reset.tiles
      = .ok lens := by
    cases hfocus : (dock.focus host dock.row.reset.tiles).1 with
    | none => exact ⟨_, rfl⟩
    | some focus => exact Lens.magnify_eq_ok _ _ (focus_index_lt hfocus)
  obtain ⟨lens, hmagnify⟩ := hlens
  rw [animate_eq]
  exact ⟨_, bind_eq_ok_iff.mpr ⟨lens, hmagnify, rfl⟩⟩

/-- Every tick comes to its end. -/
theorem tick_ok (dock : Dock α τ) (host : Host α) : ∃ result, dock.tick host = .ok result := by
  unfold tick
  split
  · exact ⟨_, rfl⟩
  · split
    · exact ⟨_, rfl⟩
    · split
      · exact ⟨_, rfl⟩
      · obtain ⟨result, hanimate⟩ := animate_ok (dock.updated host) host
        exact ⟨_, bind_eq_ok_iff.mpr ⟨result, hanimate, rfl⟩⟩

/-- **NO EVENT FAILS** as long as the interval between two ticks can be counted. -/
theorem handle_ok (dock : Dock α τ) (host : Host α) (event : Event) {interval : Nat}
    (hfps : Cadence.intervalFor host.settings.magnification.fps = .ok interval) :
    ∃ result, dock.handle host event = .ok result := by
  -- what can fail is a start of the cadence, and it fails only for want of an interval
  have hsilent : ∀ {attempt : Except Fault (Dock α τ)}, (∃ dock', attempt = .ok dock') →
      ∃ result, (·, ([] : List (Command α))) <$> attempt = .ok result := by
    rintro attempt ⟨dock', hdock'⟩
    exact ⟨_, map_eq_ok_iff.mpr ⟨dock', hdock', rfl⟩⟩
  cases event with
  | enable | disable | pointerLeave | fullscreenChanged | dragBegin | dragEnd => exact ⟨_, rfl⟩
  | pointerEnter | pointerMotion => exact hsilent (wake_ok dock hfps)
  | focusChanged =>
      refine hsilent ?_
      unfold focusChanged
      by_cases henabled : dock.enabled = true
      · rw [if_pos henabled]
        obtain ⟨woken, hwoken⟩ := wake_ok { dock with cadence := dock.cadence.halt } hfps
        exact ⟨_, bind_eq_ok_iff.mpr ⟨woken, hwoken, rfl⟩⟩
      · rw [if_neg henabled]
        exact ⟨_, rfl⟩
  | preview on =>
      refine hsilent ?_
      cases on with
      | true => exact wake_ok { dock with previewLeft := some previewPeriod } hfps
      | false => exact ⟨_, rfl⟩
  | relayout =>
      exact hsilent
        (wake_ok { dock with cadence := dock.cadence.orderLayouts Cadence.longLayout } hfps)
  | alarm alarm =>
      cases alarm with
      | tick =>
          obtain ⟨result, htick⟩ := tick_ok dock host
          exact ⟨_, bind_eq_ok_iff.mpr ⟨result, htick, rfl⟩⟩
      | quiet => exact ⟨_, rfl⟩
      | resume =>
          have hresume : ∃ dock', dock.resume host.settings = .ok dock' := by
            unfold Dock.resume
            rcases dock.cadence.resume with ⟨_ | _, cadence⟩
            · exact ⟨_, rfl⟩
            · exact wake_ok { dock with cadence := cadence.orderLayouts Cadence.longLayout } hfps
          obtain ⟨dock', hdock'⟩ := hresume
          exact ⟨_, bind_eq_ok_iff.mpr ⟨dock', hdock', rfl⟩⟩

end Total

end FisheyeDock.Dock
