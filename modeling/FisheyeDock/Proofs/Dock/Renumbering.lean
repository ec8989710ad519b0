import FisheyeDock.Proofs.Dock.Steps
import FisheyeDock.Proofs.Frame.Renumbering

/-! # Docks with other numbers

    A dock whose tiles and markers have other numbers answers every event in the same way, with the
    same commands on the same objects (`handle_renumber`).  Neither the cadence nor its timers are
    touched by numbers. -/

namespace FisheyeDock.Dock

open Scene (Command)

variable {α τ : Type} {ahead : Offset}

/-- The dock with the numbers of its tiles and markers moved on. -/
def renumber (ahead : Offset) (dock : Dock α τ) : Dock α τ :=
  { dock with row := dock.row.renumber ahead, pool := dock.pool.renumber ahead }

/-- What an event leads to, with the numbers moved on. -/
def renumberStep (ahead : Offset) (step : Dock α τ × List (Command α)) :
    Dock α τ × List (Command α) :=
  (step.1.renumber ahead, step.2.map (Command.renumber ahead))

section Scene

variable (dock : Dock α τ)

/-- What the layers are told has no numbers. -/
theorem showLayers_renumber (visible : Bool) : (dock.renumber ahead).showLayers visible =
    renumberStep ahead (dock.showLayers visible) := by
  unfold showLayers
  show (if dock.layersShown = visible then _ else _) = _
  split
  · rfl
  · rfl

/-- What is taken out of the scene is numbered as the rest. -/
theorem withdraw_renumber : (dock.renumber ahead).withdraw = renumberStep ahead dock.withdraw := by
  have hshow : showLayers (renumber ahead { dock with
        row := dock.row.clear.1, pool := (dock.pool.clear (α := α)).1, tileCount := 0 })
      false = _ := showLayers_renumber _ false
  dsimp only [renumber] at hshow
  simp only [withdraw, renumber, Row.clear_renumber, Marker.Pool.clear_renumber, hshow,
    renumberStep, List.map_append]

theorem fullscreenChanged_renumber (g : Geometry α) :
    (dock.renumber ahead).fullscreenChanged g = renumberStep ahead (dock.fullscreenChanged g) := by
  unfold fullscreenChanged
  show (if dock.enabled then _ else _) = _
  split
  · exact showLayers_renumber dock _
  · rfl

theorem enable_renumber (settings : Settings α) :
    (dock.renumber ahead).enable settings = (dock.enable settings).renumber ahead := by
  unfold enable
  show (if dock.enabled || settings.magnification.off then _ else _) = _
  split
  · rfl
  · rfl

theorem takeLayout_renumber :
    (dock.renumber ahead).takeLayout = renumberStep ahead dock.takeLayout := by
  have hcadence : (dock.renumber ahead).cadence.takeLayout = dock.cadence.takeLayout := rfl
  unfold takeLayout
  rw [hcadence]
  rcases dock.cadence.takeLayout with ⟨_ | _, cadence⟩
  · rfl
  · rfl

variable [TimerService τ]

theorem disable_renumber : (dock.renumber ahead).disable = renumberStep ahead dock.disable := by
  unfold disable
  show (if dock.enabled then _ else _) = _
  split
  · exact withdraw_renumber
      { dock with enabled := false, cadence := dock.cadence.reset, previewLeft := none }
  · rfl

theorem dragBegin_renumber :
    (dock.renumber ahead).dragBegin = renumberStep ahead dock.dragBegin := by
  unfold dragBegin
  show (if dock.enabled then _ else _) = _
  split
  · show (if dock.cadence.beginDrag.phase = .suspended then _ else _) = renumberStep ahead
      (if dock.cadence.beginDrag.phase = .suspended then _ else _)
    split
    · exact withdraw_renumber { dock with cadence := dock.cadence.beginDrag }
    · rfl
  · rfl

theorem dragEnd_renumber : (dock.renumber ahead).dragEnd = renumberStep ahead dock.dragEnd := by
  unfold dragEnd
  show (if dock.enabled then _ else _) = _
  split
  · show (if dock.cadence.phase ≠ .suspended ∧ dock.cadence.endDrag.phase = .suspended
        then _ else _) = renumberStep ahead
      (if dock.cadence.phase ≠ .suspended ∧ dock.cadence.endDrag.phase = .suspended then _ else _)
    split
    · exact withdraw_renumber { dock with cadence := dock.cadence.endDrag }
    · rfl
  · rfl

end Scene

/-! ## Frames -/

variable [Scalar α] (dock : Dock α τ) (host : Host α)

/-- New tiles are numbered from where the row stands, and so are as far ahead as that. -/
theorem updateRow_renumber :
    (dock.renumber ahead).updateRow host = renumberStep ahead (dock.updateRow host) := by
  have hsize : ∀ row : Row α, (row.renumber ahead).size = row.size := by
    intro row
    exact List.length_map _
  unfold updateRow
  simp only [renumber, Row.reconcile_renumber, Row.arrangeFor, Row.arrange_renumber, hsize]
  rfl

/-- A reset leaves numbers as they are. -/
theorem tiles_reset_renumber : (dock.renumber ahead).row.reset.tiles =
    dock.row.reset.tiles.map (Tile.renumber ahead) :=
  congrArg Row.tiles (Row.reset_renumber dock.row)

/-- The lens is found by places, not by numbers. -/
theorem focus_renumber (tiles : List (Tile α)) :
    (dock.renumber ahead).focus host (tiles.map (Tile.renumber ahead)) = dock.focus host tiles := by
  have hpreview : previewFocus (tiles.map (Tile.renumber ahead)) = previewFocus tiles := by
    unfold previewFocus
    simp only [List.length_map, List.getElem?_map]
    cases tiles[tiles.length / 2]? with
    | none => rfl
    | some tile =>
        rw [Option.map_some, Option.filter_some, Option.filter_some]
        show Option.map _ (if tile.visible then _ else _) = _
        split <;> rfl
  have hpointer : pointerFocus host (tiles.map (Tile.renumber ahead)) =
      pointerFocus host tiles := by
    unfold pointerFocus Lens.nearest?
    dsimp only
    rw [Lens.nearestFrom_renumber]
  unfold focus
  rw [hpreview, hpointer]
  rfl

theorem magnify_renumber (focus : Option (Focus α)) (tiles : List (Tile α)) :
    magnify host focus (tiles.map (Tile.renumber ahead)) =
      Prod.map (List.map (Tile.renumber ahead)) id <$> magnify host focus tiles := by
  cases focus with
  | none => rfl
  | some focus => exact Lens.magnify_renumber _ _ focus tiles

/-- The frame is that of the tiles with numbers ahead. -/
theorem frameOf_renumber (tiles : List (Tile α)) :
    (dock.renumber ahead).frameOf host (tiles.map (Tile.renumber ahead)) =
      (dock.frameOf host tiles).renumber ahead := by
  unfold frameOf
  rw [tiles_reset_renumber, focus_renumber]
  exact Frame.build_renumber _ _ _ dock.pool tiles

theorem framed_renumber (tiles : List (Tile α)) :
    (dock.renumber ahead).framed host (tiles.map (Tile.renumber ahead)) =
      (dock.framed host tiles).renumber ahead := by
  unfold framed
  rw [frameOf_renumber, tiles_reset_renumber, focus_renumber]
  rfl

omit [Scalar α] in
theorem layered_renumber :
    (dock.renumber ahead).layered host = renumberStep ahead (dock.layered host) := by
  unfold layered
  split
  · rfl
  · exact showLayers_renumber dock true

theorem updated_renumber :
    (dock.renumber ahead).updated host = (dock.updated host).renumber ahead := by
  unfold updated
  rw [takeLayout_renumber]
  exact congrArg Prod.fst (updateRow_renumber dock.takeLayout.1 host)

theorem updates_renumber :
    (dock.renumber ahead).updates host = (dock.updates host).map (Command.renumber ahead) := by
  have hrow : ((dock.takeLayout.1.renumber ahead).updateRow host).2 = _ :=
    congrArg Prod.snd (updateRow_renumber dock.takeLayout.1 host)
  unfold updates
  rw [takeLayout_renumber, List.map_append]
  exact congrArg _ hrow

variable [TimerService τ]

/-! ## Starting -/

/-- Whether a wake fails has nothing to do with numbers. -/
theorem wake_renumber (settings : Settings α) :
    (dock.renumber ahead).wake settings = renumber ahead <$> dock.wake settings := by
  unfold wake
  show (if dock.enabled then dock.cadence.start settings.magnification.fps >>= _ else _) = _
  split
  · cases dock.cadence.start settings.magnification.fps with
    | error fault => rfl
    | ok cadence => rfl
  · rfl

theorem focusChanged_renumber (settings : Settings α) :
    (dock.renumber ahead).focusChanged settings =
      renumber ahead <$> dock.focusChanged settings := by
  have hwake : wake (renumber ahead { dock with cadence := dock.cadence.halt }) settings = _ :=
    wake_renumber _ settings
  unfold focusChanged
  show (if dock.enabled then
    wake (renumber ahead { dock with cadence := dock.cadence.halt }) settings >>= _ else _) = _
  rw [hwake]
  split
  · cases wake { dock with cadence := dock.cadence.halt } settings with
    | error fault => rfl
    | ok woken => rfl
  · rfl

theorem preview_renumber (on : Bool) (settings : Settings α) :
    (dock.renumber ahead).preview on settings = renumber ahead <$> dock.preview on settings := by
  cases on with
  | true => exact wake_renumber { dock with previewLeft := some previewPeriod } settings
  | false => rfl

theorem resume_renumber (settings : Settings α) :
    (dock.renumber ahead).resume settings = renumber ahead <$> dock.resume settings := by
  have hcadence : (dock.renumber ahead).cadence.resume = dock.cadence.resume := rfl
  unfold resume
  rw [hcadence]
  rcases dock.cadence.resume with ⟨_ | _, cadence⟩
  · rfl
  · exact wake_renumber { dock with cadence := cadence.orderLayouts Cadence.longLayout } settings

/-! ## Ticks -/

/-- What a tick leads to, with the numbers moved on. -/
def renumberTick (ahead : Offset) (step : Dock α τ × List (Command α) × Bool) :
    Dock α τ × List (Command α) × Bool :=
  (step.1.renumber ahead, step.2.1.map (Command.renumber ahead), step.2.2)

/-- A tick is animated with numbers ahead as without. -/
theorem animate_renumber : (dock.renumber ahead).animate host =
    renumberTick ahead <$> dock.animate host := by
  have hactive : ((dock.renumber ahead).row.tiles.map fun tile =>
        (.activateTile tile.id (!host.geometry.autohideHidden) : Command α)) =
      (dock.row.tiles.map fun tile => .activateTile tile.id (!host.geometry.autohideHidden)).map
        (Command.renumber ahead) := by
    show (dock.row.tiles.map (Tile.renumber ahead)).map _ = _
    rw [List.map_map, List.map_map]
    rfl
  rw [animate_eq, animate_eq, hactive, tiles_reset_renumber, focus_renumber, magnify_renumber]
  cases magnify host (dock.focus host dock.row.reset.tiles).1 dock.row.reset.tiles with
  | error fault => rfl
  | ok lens =>
      obtain ⟨tiles, magnified⟩ := lens
      dsimp only [bind, Except.bind, Functor.map, Except.map, Prod.map, id]
      rw [framed_renumber, layered_renumber, frameOf_renumber]
      simp only [renumberTick, List.map_append]
      rfl

theorem tick_renumber :
    (dock.renumber ahead).tick host = renumberTick ahead <$> dock.tick host := by
  have hsuspend : withdraw (renumber ahead { dock with cadence := dock.cadence.suspend }) = _ :=
    withdraw_renumber _
  rw [tick_eq, tick_eq, disable_renumber, updated_renumber, updates_renumber, animate_renumber]
  show (if dock.enabled then if dock.cadence.dragQueued then
    Except.ok ((withdraw (renumber ahead { dock with cadence := dock.cadence.suspend })).1,
      (withdraw (renumber ahead { dock with cadence := dock.cadence.suspend })).2, false)
    else _ else _) = _
  rw [hsuspend]
  split
  · split
    · rfl
    · split
      · rfl
      · cases (dock.updated host).animate host with
        | error fault => rfl
        | ok shown =>
            simp only [renumberTick, Functor.map, Except.map, bind, Except.bind, List.map_append]
  · rfl

/-! ## Events -/

/-- A dock answers every event in the same way, whatever the numbers are. -/
theorem handle_renumber (event : Event) :
    (dock.renumber ahead).handle host event = renumberStep ahead <$> dock.handle host event := by
  have hsilent : ∀ attempt : Except Fault (Dock α τ),
      (·, ([] : List (Command α))) <$> renumber ahead <$> attempt =
        renumberStep ahead <$> (·, []) <$> attempt := by
    intro attempt
    cases attempt <;> rfl
  cases event with
  | enable =>
      show Except.ok ((dock.renumber ahead).enable host.settings, []) = _
      rw [enable_renumber]
      rfl
  | disable => exact congrArg Except.ok (disable_renumber dock)
  | pointerEnter | pointerMotion =>
      exact (congrArg _ (wake_renumber dock host.settings)).trans (hsilent _)
  | pointerLeave => rfl
  | focusChanged => exact (congrArg _ (focusChanged_renumber dock host.settings)).trans (hsilent _)
  | fullscreenChanged => exact congrArg Except.ok (fullscreenChanged_renumber dock host.geometry)
  | dragBegin => exact congrArg Except.ok (dragBegin_renumber dock)
  | dragEnd => exact congrArg Except.ok (dragEnd_renumber dock)
  | preview on => exact (congrArg _ (preview_renumber dock on host.settings)).trans (hsilent _)
  | relayout =>
      exact (congrArg _ (wake_renumber
        { dock with cadence := dock.cadence.orderLayouts Cadence.longLayout } host.settings)).trans
        (hsilent _)
  | alarm alarm =>
      cases alarm with
      | tick =>
          show (dock.renumber ahead).tick host >>= _ = _ <$> (dock.tick host >>= _)
          rw [tick_renumber]
          cases dock.tick host <;> rfl
      | quiet => rfl
      | resume =>
          show (dock.renumber ahead).resume host.settings >>= _ =
            _ <$> (dock.resume host.settings >>= _)
          rw [resume_renumber]
          cases dock.resume host.settings <;> rfl

end FisheyeDock.Dock
