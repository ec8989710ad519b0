import FisheyeDock.Proofs.Dock.Picture
import FisheyeDock.Proofs.Frame.Sound
import FisheyeDock.Proofs.Frame.Writing

/-! # Nothing unsound is drawn

    Whatever numbers the host and the settings hand in during a run, every tile stays sound, and every
    tile that has ever been drawn was drawn at a finite position and in a finite scale that is not
    below the one at rest (`Ran.drawnSoundly`).

    What a tick writes is what there is to be written of the visible tiles of the row that it leaves
    (`Outcome.writings_eq`), so that it is enough to know that these are sound.  Their soundness is
    an induction over the run. -/

namespace FisheyeDock.Dock

open Scene Marker

variable {α τ : Type}

/-! ## What an event writes -/

section Silent

variable {commands : List (Command α)}

/-- The backdrop is not written. -/
theorem filter_backdrop (h : ∀ command ∈ commands, IsBackdrop command) :
    commands.filter Command.isWriting = [] := by
  refine List.filter_eq_nil_iff.mpr ?_
  intro command hmem
  have hbackdrop := h command hmem
  cases command with
  | relayout | showLayers visible => exact Bool.false_ne_true
  | _ => exact hbackdrop.elim

/-- Commands for every tile that write nothing. -/
theorem filter_flatMap_eq_nil {commandsOf : Tile α → List (Command α)}
    (h : ∀ tile, (commandsOf tile).filter Command.isWriting = []) (tiles : List (Tile α)) :
    (tiles.flatMap commandsOf).filter Command.isWriting = [] := by
  rw [List.filter_flatMap]
  exact List.flatMap_eq_nil_iff.mpr fun tile _ => h tile

/-- To activate tiles writes nothing. -/
theorem filter_activations (active : Bool) (tiles : List (Tile α)) :
    (tiles.map fun tile => Command.activateTile (α := α) tile.id active).filter
      Command.isWriting = [] := by
  rw [List.map_eq_flatMap]
  exact filter_flatMap_eq_nil (fun _ => rfl) tiles

/-- To empty the pool writes nothing. -/
theorem filter_clear (pool : Pool) : (pool.clear (α := α)).2.filter Command.isWriting = [] := by
  refine List.filter_eq_nil_iff.mpr ?_
  intro command hmem
  obtain ⟨slot, -, rfl⟩ := List.mem_map.mp hmem
  exact Bool.false_ne_true

end Silent

variable [Scalar α] {dock dock' : Dock α τ} {host : Host α} {event : Event}
variable {trace commands : List (Command α)}

/-- Bringing the row up to date writes nothing. -/
theorem filter_updates (dock : Dock α τ) (host : Host α) :
    (dock.updates host).filter Command.isWriting = [] := by
  obtain ⟨cadence, hlayout, hbackdrop⟩ := takeLayout_cases dock
  obtain ⟨kept, gone, new, hexchanges⟩ := Row.reconcile_exchanges dock.row host.icons
    host.settings.favoritesOnly host.geometry.iconSize
  obtain ⟨-, -, hchanges⟩ := updateRow_cases dock.takeLayout.1 host
  rw [hlayout] at hchanges
  unfold updates
  rw [List.filter_append, filter_backdrop hbackdrop, hlayout, hchanges, hexchanges.commands_eq,
    List.filter_append, filter_flatMap_eq_nil fun _ => rfl, filter_flatMap_eq_nil fun _ => rfl]
  rfl

variable [TimerService τ]

/-- A tick that runs to its end writes what there is to be written of the visible tiles of its row.
    No other event writes anything. -/
theorem Outcome.writings_eq (h : Outcome dock host event dock' commands) :
    commands.filter Command.isWriting =
      if dock.drawsOn host event then
        (dock'.row.tiles.filter Tile.visible).flatMap
          (Tile.writings host.geometry host.settings)
      else [] := by
  cases h with
  | rests stays bare row pool backdrop =>
      rw [bare]
      exact filter_backdrop backdrop
  | withdraws leaves row pool layers backdrop commands_eq =>
      have hbare : ¬ dock.drawsOn host event = true := by
        intro hdraws
        rw [withdrawsOn_of_drawsOn hdraws] at leaves
        exact nomatch leaves
      have hreleased : dock.row.clear.2.filter Command.isWriting = [] :=
        filter_flatMap_eq_nil (fun _ => rfl) dock.row.tiles
      rw [if_neg hbare, commands_eq, List.filter_append, List.filter_append, hreleased,
        filter_clear, filter_backdrop backdrop]
      rfl
  | draws stays drawn tiles magnified layers magnify_eq backdrop commands_eq row_eq pool_eq =>
      obtain ⟨created, hidden, hmarking⟩ := marking_frameOf dock host tiles
      rw [if_pos drawn, row_eq, commands_eq, List.filter_append, List.filter_append,
        List.filter_append, filter_updates, filter_activations, filter_backdrop backdrop,
        hmarking.writings_eq (isFinite_of_framed magnify_eq), List.append_nil]
      rfl

/-- Each writing is of a visible tile of the row as it stands after the event. -/
theorem Outcome.mem_of_writing (h : Outcome dock host event dock' commands) {command : Command α}
    (hmem : command ∈ commands) (hwriting : command.isWriting = true) :
    ∃ tile ∈ dock'.row.tiles, tile.visible = true ∧
      command ∈ tile.writings host.geometry host.settings := by
  have hwritten := List.mem_filter.mpr ⟨hmem, hwriting⟩
  rw [h.writings_eq] at hwritten
  obtain ⟨-, hwritten⟩ := List.mem_ite_nil_right.mp hwritten
  obtain ⟨tile, htile, hof⟩ := List.mem_flatMap.mp hwritten
  obtain ⟨hrow, hvisible⟩ := List.mem_filter.mp htile
  exact ⟨tile, hrow, hvisible, hof⟩

/-! ## Sound rows -/

section Sound

variable (rest : SoundScale (1.0 : α))
include rest

omit [TimerService τ] in
/-- An update keeps every scale sound: a new tile has the scale of rest. -/
theorem sound_updated (h : ∀ tile ∈ dock.row.tiles, tile.Sound) :
    ∀ tile ∈ (dock.updated host).row.tiles, tile.Sound := by
  intro tile hmem
  obtain ⟨old, hold, icon, -, rfl⟩ | ⟨id, icon, -, rfl⟩ := mem_updated hmem
  · exact (h old hold).refresh icon
  · exact Tile.sound_ofIcon rest id icon

/-- Every event leaves sound tiles sound. -/
theorem Outcome.sound (outcome : Outcome dock host event dock' commands)
    (h : ∀ tile ∈ dock.row.tiles, tile.Sound) : ∀ tile ∈ dock'.row.tiles, tile.Sound := by
  cases outcome with
  | rests stays bare row pool backdrop =>
      rw [row]
      exact h
  | withdraws leaves row pool layers backdrop commands_eq =>
      rw [row]
      exact fun _ hmem => nomatch hmem
  | draws stays drawn tiles magnified layers magnify_eq backdrop commands_eq row_eq pool_eq =>
      rw [row_eq]
      refine Frame.sound_of_mem rest ?_
      -- the lens and the reset before it have only aimed the tiles
      have haimed : tiles.map Tile.Sound = (dock.updated host).row.tiles.map Tile.Sound :=
        (map_magnify Tile.steady_sound magnify_eq).trans (Row.map_reset Tile.steady_sound _)
      exact Tile.sound_of_map haimed (sound_updated rest h)

end Sound

/-! ## Runs -/

/-- In every run the tiles of the row are sound. -/
theorem Ran.sound_row (rest : SoundScale (1.0 : α)) (h : Ran dock trace) :
    ∀ tile ∈ dock.row.tiles, tile.Sound := by
  induction h with
  | new timers => exact fun _ hmem => nomatch hmem
  | event host event before step ih => exact (handle_outcome step).sound rest ih
  | drift timers before ih => exact ih

/-- Whatever has been drawn was sound when it was drawn. -/
theorem Ran.sound_trace (rest : SoundScale (1.0 : α)) (h : Ran dock trace) {id : Tile.Id}
    {position : Point α} {scale : α} (hmem : .transformTile id position scale ∈ trace) :
    position.isFinite = true ∧ SoundScale scale := by
  induction h with
  | new timers => exact nomatch hmem
  | event host event before step ih =>
      rcases List.mem_append.mp hmem with hold | hnew
      · exact ih hold
      · obtain ⟨tile, htile, hvisible, hof⟩ := (handle_outcome step).mem_of_writing hnew rfl
        obtain ⟨rfl, rfl⟩ := Tile.eq_of_transform_mem hof
        have hsound := (before.event host event step).sound_row rest tile htile
        exact ⟨hsound.position hvisible, hsound.scale⟩
  | drift timers before ih => exact ih hmem

/-- The scale at rest is a double to draw in. -/
theorem soundScale_rest : SoundScale (1.0 : Float) := ⟨by decide, by decide⟩

/-- **NOTHING UNSOUND IS DRAWN** in any run, whatever doubles the host and the settings hand in: every
    tile has a finite scale of at least one and, if it is visible, finite positions, and a tile is
    only ever drawn at a finite position and in a finite scale of at least one. -/
theorem Ran.drawnSoundly {dock : Dock Float τ} {trace : List (Command Float)} (h : Ran dock trace) :
    (∀ tile ∈ dock.row.tiles, tile.Sound) ∧
      ∀ id position scale, .transformTile id position scale ∈ trace →
        position.isFinite = true ∧ SoundScale scale :=
  ⟨h.sound_row soundScale_rest, fun _ _ _ hmem => h.sound_trace soundScale_rest hmem⟩

/-- A favorite under the pointer, with settings by which it rises nowhere and grows without end. -/
private def endless : Host Float where
  settings :=
    { (Settings.standard : Settings Float) with
      magnification :=
        { off := false
          rise := Scalar.undefined
          magnify := 1.0 / 0.0
          spread := 0.5
          fps := 0.0 } }
  geometry := { Geometry.standard with pointer := ⟨24.0, 24.0⟩ }
  icons := [Icon.favorite 7 ⟨0.0, 0.0⟩]

set_option maxRecDepth 2048 in
/-- The lens is on its tile, which has no target then and is drawn where it is. -/
theorem drawnSoundly_endless : ∃ (dock : Dock Float Clock) (trace : List (Command Float))
    (position : Point Float) (scale : Float), Ran dock trace ∧
      dock.row.tiles.map (fun tile => (tile.distance.isSome, tile.target.isFinite)) =
        [(true, false)] ∧
      .transformTile ⟨0⟩ position scale ∈ trace ∧ position.isFinite = true ∧ SoundScale scale := by
  have henabled := (Ran.new (α := Float) Clock.start).event endless .enable rfl
  have hticked := henabled.event endless (.alarm .tick) rfl
  refine ⟨_, _, _, _, hticked, rfl, List.mem_of_getElem? (i := 6) rfl, ?_⟩
  exact hticked.drawnSoundly.2 ⟨0⟩ _ _ (List.mem_of_getElem? (i := 6) rfl)

end FisheyeDock.Dock
