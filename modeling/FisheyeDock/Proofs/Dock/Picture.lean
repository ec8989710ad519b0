import FisheyeDock.Proofs.Dock.HandOver
import FisheyeDock.Proofs.Dock.SceneProtocol
import FisheyeDock.Proofs.Frame.Faces

/-! # What the scene shows

    After a tick that runs to its end the scene shows the row as it stands, with its labels and its
    markers (`Recorded.pictured`).  The tiles are easy, since every tick says all about them.  A
    marker is only spoken of when it comes or goes, so that what is seen of it depends on the whole
    run.  `Stocked` is the part that must be kept from event to event: what the pool does not take to
    be shown is not seen.

    A run that is `Recorded` keeps what its frames have asked the pool for since everything was last
    taken out of the scene.  The pool holds just the most of it. -/

namespace FisheyeDock.Dock

open Scene Marker

variable {α τ : Type} [Scalar α]
variable {dock dock' : Dock α τ} {host : Host α} {trace commands : List (Command α)}

/-! ## What is to be seen -/

/-- The scene shows some tiles as they stand, with the labels of the visible ones. -/
structure TilesSeen (tiles : List (Tile α)) (host : Host α) (trace : List (Command α)) : Prop where
  visible : ∀ tile ∈ tiles, lastOf (visibilityOf tile.id) trace = some tile.visible
  reactive : ∀ tile ∈ tiles,
    lastOf (activityOf tile.id) trace = some (!host.geometry.autohideHidden)
  transform : ∀ tile ∈ tiles, tile.visible = true →
    lastOf (transformOf tile.id) trace = some (tile.position, tile.scale)
  label : ∀ tile ∈ tiles, tile.visible = true →
    lastOf (labelOf tile.key) trace = some (Label.ofIcon tile.position tile.scale host.geometry)

/-- The scene shows the markers of some tiles and no others.  The tiles have just those markers that
    they are to have. -/
structure MarkersSeen (tiles : List (Tile α)) (host : Host α) (trace : List (Command α)) :
    Prop where
  dot_iff : ∀ tile ∈ tiles, tile.dot.isSome = true ↔
    tile.visible = true ∧ host.settings.dot.off = false ∧ 0 < tile.windows
  badge_iff : ∀ tile ∈ tiles, tile.badge.isSome = true ↔
    tile.visible = true ∧ host.settings.badge.off = false ∧ 0 < tile.notifications
  dots : ∀ id dot, lastOf (faceOf id) trace = some (.dot dot) ↔
    ∃ tile ∈ tiles, tile.dot = some id ∧
      dot = Dot.ofIcon tile.position tile.scale tile.windows host.geometry host.settings.dot
  badges : ∀ id badge, lastOf (faceOf id) trace = some (.badge badge) ↔
    ∃ tile ∈ tiles, tile.badge = some id ∧
      badge = Badge.ofIcon tile.position tile.scale tile.notifications host.geometry
        host.settings.badge
  /-- No marker serves two tiles. -/
  unshared : (tiles.filterMap Tile.dot ++ tiles.filterMap Tile.badge).Nodup

/-! ## What a tick says -/

/-- Bringing the row up to date says nothing of markers. -/
theorem face_updates (dock : Dock α τ) (host : Host α) (id : Marker.Id) :
    lastOf (faceOf id) (dock.updates host) = none := by
  obtain ⟨cadence, hlayout, hbackdrop⟩ := takeLayout_cases dock
  obtain ⟨kept, gone, new, hexchanges⟩ := Row.reconcile_exchanges dock.row host.icons
    host.settings.favoritesOnly host.geometry.iconSize
  obtain ⟨-, -, hchanges⟩ := updateRow_cases dock.takeLayout.1 host
  rw [hlayout] at hchanges
  unfold updates
  rw [hlayout, hchanges, hexchanges.commands_eq, lastOf_append, lastOf_append,
    lastOf_backdrop rfl (fun _ => rfl) hbackdrop, lastOf_flatMap_eq_none fun _ _ => rfl,
    lastOf_flatMap_eq_none fun _ _ => rfl]
  rfl

theorem updated_pool (dock : Dock α τ) (host : Host α) : (dock.updated host).pool = dock.pool := by
  obtain ⟨cadence, hlayout, -⟩ := takeLayout_cases dock
  unfold updated
  rw [hlayout, (updateRow_cases _ host).2.1]

/-- The visible tiles of a row that is up to date have usable positions. -/
theorem isFinite_of_updated {tile : Tile α} (hmem : tile ∈ (dock.updated host).row.tiles)
    (hvisible : tile.visible = true) : tile.position.isFinite = true := by
  obtain ⟨old, -, icon, -, rfl⟩ | ⟨id, icon, -, rfl⟩ := mem_updated hmem
  · exact Tile.isFinite_refresh hvisible
  · exact Tile.isFinite_ofIcon hvisible

/-- The lens moves no tile yet. -/
theorem isFinite_of_magnified {focus : Option (Focus α)} {tiles : List (Tile α)} {magnified : Bool}
    (h : magnify host focus (dock.updated host).row.reset.tiles = .ok (tiles, magnified)) :
    ∀ tile ∈ tiles, tile.visible = true → tile.position.isFinite = true := by
  intro tile hmem hvisible
  have hsame : tiles.map (fun tile => (tile.visible, tile.position)) =
      (dock.updated host).row.tiles.map fun tile => (tile.visible, tile.position) :=
    (map_magnify (fun _ _ _ _ _ => rfl) h).trans (Row.map_reset (fun _ _ _ _ _ => rfl) _)
  have hread : (tile.visible, tile.position) ∈
      tiles.map fun tile => (tile.visible, tile.position) := List.mem_map_of_mem hmem
  rw [hsame] at hread
  obtain ⟨other, hother, heq⟩ := List.mem_map.mp hread
  obtain ⟨hshown, hposition⟩ := Prod.mk.inj heq
  rw [← hposition]
  exact isFinite_of_updated hother (hshown.trans hvisible)

/-- What a frame asks for does not depend on the lens. -/
theorem demand_magnified {focus : Option (Focus α)} {tiles : List (Tile α)} {magnified : Bool}
    (h : magnify host focus (dock.updated host).row.reset.tiles = .ok (tiles, magnified)) :
    Frame.demand host.settings tiles =
      Frame.demand host.settings (dock.updated host).row.tiles := by
  have hwindows : tiles.map Tile.windows = (dock.updated host).row.tiles.map Tile.windows :=
    (map_magnify (fun _ _ _ _ _ => rfl) h).trans (Row.map_reset (fun _ _ _ _ _ => rfl) _)
  have hlength := congrArg List.length hwindows
  rw [List.length_map, List.length_map] at hlength
  have hcount : ∀ tiles : List (Tile α),
      (tiles.filter fun tile => decide (0 < tile.windows)).length =
        ((tiles.map Tile.windows).filter fun windows => decide (0 < windows)).length := by
    intro tiles
    rw [List.filter_map, List.length_map]
    rfl
  unfold Frame.demand
  rw [hcount, hcount, hwindows, hlength]

/-- The frame of a tick marks its tiles from the pool of the dock. -/
theorem marking_frameOf (dock : Dock α τ) (host : Host α) (tiles : List (Tile α)) :
    ∃ created hidden, Frame.Marking host.geometry host.settings dock.pool tiles
      ((dock.updated host).frameOf host tiles) created hidden := by
  unfold frameOf
  rw [updated_pool]
  exact Frame.marking_build host.geometry host.settings _ dock.pool tiles

/-- A tick goes through with the tiles of the row. -/
theorem identities_frameOf {tiles : List (Tile α)} {magnified : Bool}
    (h : magnify host ((dock.updated host).focus host (dock.updated host).row.reset.tiles).1
      (dock.updated host).row.reset.tiles = .ok (tiles, magnified)) :
    Tile.identities ((dock.updated host).frameOf host tiles).tiles =
      Tile.identities (dock.updated host).row.tiles := by
  obtain ⟨markers, drawn, hframe⟩ := Frame.build_exhibits host.geometry host.settings
    ((dock.updated host).focus host (dock.updated host).row.reset.tiles).1.isNone
    (dock.updated host).pool tiles
  exact hframe.identities.trans ((identities_magnify h).trans (Row.identities_reset _))

/-- The visible tiles of a frame have usable positions. -/
theorem isFinite_of_framed {focus : Option (Focus α)} {tiles : List (Tile α)} {magnified : Bool}
    (h : magnify host focus (dock.updated host).row.reset.tiles = .ok (tiles, magnified)) :
    ∀ tile ∈ ((dock.updated host).frameOf host tiles).tiles,
      tile.visible = true → tile.position.isFinite = true :=
  Frame.isFinite_of_mem (isFinite_of_magnified h)

/-- What a frame says last about a marker is what its tick says last about it. -/
theorem face_tick {layers : List (Command α)} (frame : List (Command α)) (id : Marker.Id)
    (backdrop : ∀ command ∈ layers, IsBackdrop command) :
    lastOf (faceOf id) (dock.updates host
        ++ ((dock.updated host).row.tiles.map
            (fun tile => .activateTile tile.id (!host.geometry.autohideHidden)) ++ frame ++ layers))
      = lastOf (faceOf id) frame := by
  have hactive : lastOf (faceOf id) ((dock.updated host).row.tiles.map fun tile =>
      Command.activateTile (α := α) tile.id (!host.geometry.autohideHidden)) = none := by
    refine lastOf_eq_none ?_
    intro command hmem
    obtain ⟨tile, -, rfl⟩ := List.mem_map.mp hmem
    rfl
  rw [lastOf_append, lastOf_append, lastOf_append, face_updates, hactive,
    lastOf_backdrop rfl (fun _ => rfl) backdrop]
  exact Option.or_none.trans (Option.none_or.trans Option.or_none)

/-- What a frame says is what its tick says last. -/
theorem lastOf_tick {β : Type} {view : Command α → Option β} {said : β}
    {before active frame layers : List (Command α)} (hlayers : lastOf view layers = none)
    (hsaid : lastOf view frame = some said) :
    lastOf view (before ++ (dock.updates host ++ (active ++ frame ++ layers))) = some said := by
  rw [lastOf_append, lastOf_append, lastOf_append, lastOf_append, hlayers, hsaid]
  rfl

omit [Scalar α] in
/-- All tiles are told alike whether they take clicks. -/
theorem activity_activations {tiles : List (Tile α)} {id : Tile.Id} (active : Bool)
    (hmem : id ∈ tiles.map Tile.id) :
    lastOf (activityOf id)
      (tiles.map fun tile => Command.activateTile (α := α) tile.id active) = some active := by
  obtain ⟨tile, htile, rfl⟩ := List.mem_map.mp hmem
  refine lastOf_of_mem (List.mem_map_of_mem htile) (if_pos rfl) ?_
  intro command hcommand
  obtain ⟨other, -, rfl⟩ := List.mem_map.mp hcommand
  by_cases hsame : other.id = tile.id
  · exact .inr (if_pos hsame)
  · exact .inl (if_neg hsame)

/-- A visible tile has a usable position, so that nothing more is asked of it. -/
theorem and_isFinite {tile : Tile α} {asked : Bool}
    (h : tile.visible = true → tile.position.isFinite = true) :
    (tile.visible && asked && tile.position.isFinite) = (tile.visible && asked) := by
  cases hvisible : tile.visible with
  | true => rw [h hvisible, Bool.and_true]
  | false => rfl

section Frame

variable {pool : Pool} {frame : Frame α} {tiles : List (Tile α)}
variable {created hidden before active layers : List (Command α)}
variable (marking : Frame.Marking host.geometry host.settings pool tiles frame created hidden)
variable (finite : ∀ tile ∈ frame.tiles, tile.visible = true → tile.position.isFinite = true)
variable (backdrop : ∀ command ∈ layers, IsBackdrop command)

include marking finite backdrop

/-- A tick says all about its tiles. -/
theorem tilesSeen_tick (hids : (frame.tiles.map Tile.id).Nodup)
    (hkeys : (frame.tiles.map Tile.key).Nodup)
    (hactive : ∀ tile ∈ frame.tiles,
      lastOf (activityOf tile.id) active = some (!host.geometry.autohideHidden)) :
    TilesSeen frame.tiles host
      (before ++ (dock.updates host ++ (active ++ frame.commands ++ layers))) := by
  have hdrawn : ∀ tile ∈ frame.tiles, tile.visible = true →
      (tile.visible && tile.position.isFinite) = true := by
    intro tile hmem hvisible
    rw [hvisible, finite tile hmem hvisible]
    rfl
  constructor
  · intro tile hmem
    exact lastOf_tick (lastOf_backdrop rfl (fun _ => rfl) backdrop) (marking.visibility hmem hids)
  · intro tile hmem
    rw [lastOf_append, lastOf_append, lastOf_append, lastOf_append,
      lastOf_backdrop rfl (fun _ => rfl) backdrop, marking.activity, hactive tile hmem]
    rfl
  · intro tile hmem hvisible
    exact lastOf_tick (lastOf_backdrop rfl (fun _ => rfl) backdrop)
      (marking.transform hmem hids (hdrawn tile hmem hvisible))
  · intro tile hmem hvisible
    exact lastOf_tick (lastOf_backdrop rfl (fun _ => rfl) backdrop)
      (marking.label hmem hkeys (hdrawn tile hmem hvisible))

/-- A tick says what is to be seen of markers, where nothing is left to be seen of the others. -/
theorem markersSeen_tick (hslots : ((frame.pool.dots ++ frame.pool.badges).map Slot.id).Nodup)
    (hunseen : ∀ id ∉ frame.pool.lit,
      lastOf (faceOf id) (before ++ (dock.updates host ++ (active ++ frame.commands ++ layers)))
        = none ∨
      lastOf (faceOf id) (before ++ (dock.updates host ++ (active ++ frame.commands ++ layers)))
        = some .hidden) :
    MarkersSeen frame.tiles host
      (before ++ (dock.updates host ++ (active ++ frame.commands ++ layers))) := by
  have hlast : ∀ id face, lastOf (faceOf id) frame.commands = some face →
      lastOf (faceOf id) (before ++ (dock.updates host ++ (active ++ frame.commands ++ layers)))
        = some face :=
    fun _ _ hsaid => lastOf_tick (lastOf_backdrop rfl (fun _ => rfl) backdrop) hsaid
  -- which tiles have markers, which faces are shown for them, and that no slot serves twice
  constructor
  · intro tile hmem
    rw [marking.dot_iff tile hmem, Tile.wantsDot, and_isFinite (finite tile hmem),
      Bool.and_eq_true, Bool.and_eq_true, Bool.not_eq_true', decide_eq_true_eq]
  · intro tile hmem
    rw [marking.badge_iff tile hmem, Tile.wantsBadge, and_isFinite (finite tile hmem),
      Bool.and_eq_true, Bool.and_eq_true, Bool.not_eq_true', decide_eq_true_eq]
  · intro id dot
    have hseen : Face.dot dot ≠ .hidden := by
      intro heq
      cases heq
    rw [marking.face_iff hslots hlast hunseen hseen]
    constructor
    · rintro (⟨tile, hmem, hid, heq⟩ | ⟨_, _, _, heq⟩)
      · exact ⟨tile, hmem, hid, Face.dot.inj heq⟩
      · cases heq
    · rintro ⟨tile, hmem, hid, rfl⟩
      exact .inl ⟨tile, hmem, hid, rfl⟩
  · intro id badge
    have hseen : Face.badge badge ≠ .hidden := by
      intro heq
      cases heq
    rw [marking.face_iff hslots hlast hunseen hseen]
    constructor
    · rintro (⟨_, _, _, heq⟩ | ⟨tile, hmem, hid, heq⟩)
      · cases heq
      · exact ⟨tile, hmem, hid, Face.badge.inj heq⟩
    · rintro ⟨tile, hmem, hid, rfl⟩
      exact .inr ⟨tile, hmem, hid, rfl⟩
  · exact marking.nodup_markers hslots

end Frame

/-! ## Runs, and what is said of them -/

variable [TimerService τ]

/-- What the frames since the last withdrawal have asked the pool for once an event is over, the
    latest first.  A frame asks when the lens is on its tiles already, but the lens makes no
    difference to it (`demand_magnified`). -/
def demandsAfter (dock : Dock α τ) (host : Host α) (event : Event) (demands : List (Nat × Nat)) :
    List (Nat × Nat) :=
  if dock.withdrawsOn host event then []
  else if dock.drawsOn host event then
    Frame.demand host.settings (dock.updated host).row.tiles :: demands
  else demands

/-- The runs of a dock, with what the frames since the last withdrawal have asked the pool for. -/
inductive Recorded : Dock α τ → List (Command α) → List (Nat × Nat) → Prop
  | new (timers : τ) : Recorded (new timers) [] []
  | event {dock dock' : Dock α τ} {trace commands : List (Command α)} {demands : List (Nat × Nat)}
      (host : Host α) (event : Event) (before : Recorded dock trace demands)
      (step : dock.handle host event = .ok (dock', commands)) :
      Recorded dock' (trace ++ commands) (dock.demandsAfter host event demands)
  | drift {dock : Dock α τ} {trace : List (Command α)} {demands : List (Nat × Nat)} (timers : τ)
      (before : Recorded dock trace demands) : Recorded (dock.withTimers timers) trace demands

/-- The largest of some numbers. -/
def most (numbers : List Nat) : Nat := numbers.foldr max 0

/-- The scene shows the row as it stands, and the pool holds what its frames have asked for. -/
structure Pictured (dock : Dock α τ) (host : Host α) (trace : List (Command α))
    (demands : List (Nat × Nat)) : Prop where
  tiles : TilesSeen dock.row.tiles host trace
  markers : MarkersSeen dock.row.tiles host trace
  dots_length : dock.pool.dots.length = most (demands.map Prod.fst)
  badges_length : dock.pool.badges.length = most (demands.map Prod.snd)

variable {event : Event} {demands : List (Nat × Nat)}

/-- What is recorded has been run. -/
theorem Recorded.ran (h : Recorded dock trace demands) : Ran dock trace := by
  induction h with
  | new timers => exact .new timers
  | event host event before step ih => exact ih.event host event step
  | drift timers before ih => exact ih.drift timers

/-! ## Markers -/

/-- What the pool does not take to be shown is not seen, and the pool holds the most that has been
    asked for. -/
structure Stocked (dock : Dock α τ) (trace : List (Command α)) (demands : List (Nat × Nat)) :
    Prop where
  unseen : ∀ id ∉ dock.pool.lit,
    lastOf (faceOf id) trace = none ∨ lastOf (faceOf id) trace = some .hidden
  dots_length : dock.pool.dots.length = most (demands.map Prod.fst)
  badges_length : dock.pool.badges.length = most (demands.map Prod.snd)

/-- Every event keeps the markers in stock. -/
theorem Stocked.step (h : dock.Stocked trace demands)
    (outcome : Outcome dock host event dock' commands) :
    dock'.Stocked (trace ++ commands) (dock.demandsAfter host event demands) := by
  cases outcome with
  | rests stays bare row pool backdrop =>
      have hdemands : dock.demandsAfter host event demands = demands := by
        unfold demandsAfter
        rw [stays, bare]
        rfl
      rw [hdemands]
      refine ⟨?_, ?_, ?_⟩
      · intro id hid
        rw [pool] at hid
        rw [lastOf_append, lastOf_backdrop rfl (fun _ => rfl) backdrop]
        exact h.unseen id hid
      · rw [pool]
        exact h.dots_length
      · rw [pool]
        exact h.badges_length
  | withdraws leaves row pool layers backdrop commands_eq =>
      have hdemands : dock.demandsAfter host event demands = [] := by
        unfold demandsAfter
        rw [leaves]
        rfl
      rw [hdemands]
      refine ⟨?_, by rw [pool]; rfl, by rw [pool]; rfl⟩
      -- a marker of the pool is hidden as it goes, and any other was not seen before
      intro id _
      have hrow : lastOf (faceOf id) dock.row.clear.2 = none :=
        lastOf_flatMap_eq_none fun _ _ => rfl
      rw [commands_eq, lastOf_append, lastOf_append, lastOf_append, hrow,
        lastOf_backdrop rfl (fun _ => rfl) backdrop]
      rcases dock.pool.face_clear id with hcleared | ⟨hsilent, hid⟩
      · rw [hcleared]
        exact .inr rfl
      · rw [hsilent]
        exact h.unseen id hid
  | draws stays drawn tiles magnified layers magnify_eq backdrop commands_eq row_eq pool_eq =>
      have hdemands : dock.demandsAfter host event demands =
          Frame.demand host.settings tiles :: demands := by
        unfold demandsAfter
        rw [stays, drawn, demand_magnified magnify_eq]
        rfl
      obtain ⟨created, hidden, hmarking⟩ := dock.marking_frameOf host tiles
      rw [hdemands]
      refine ⟨?_, ?_, ?_⟩
      · -- where the frame is silent about a marker, it was not lit before
        intro id hid
        rw [pool_eq] at hid
        rw [commands_eq, lastOf_append, face_tick _ id backdrop]
        rcases hmarking.face_other hid with hhidden | ⟨hsilent, hbefore⟩
        · rw [hhidden]
          exact .inr rfl
        · rw [hsilent]
          exact h.unseen id hbefore
      · rw [pool_eq, hmarking.dots_length, h.dots_length]
        rfl
      · rw [pool_eq, hmarking.badges_length, h.badges_length]
        rfl

theorem Recorded.stocked (h : Recorded dock trace demands) : dock.Stocked trace demands := by
  induction h with
  | new timers => exact ⟨fun _ _ => .inl rfl, rfl, rfl⟩
  | event host event before step ih => exact ih.step (handle_outcome step)
  | drift timers before ih => exact ⟨ih.unseen, ih.dots_length, ih.badges_length⟩

/-! ## The whole picture -/

/-- No two tiles and no two markers are the same to the scene. -/
theorem Ran.nodup_ids (h : Ran dock trace) (htiles : dock.row.created ≤ UInt64.size)
    (hmarkers : dock.pool.created ≤ UInt64.size) :
    (dock.row.tiles.map Tile.id).Nodup ∧
      ((dock.pool.dots ++ dock.pool.badges).map Slot.id).Nodup := by
  obtain ⟨stage, hstage⟩ := h.staged htiles hmarkers
  have hobjects : dock.roster.map Prod.fst = (dock.row.tiles.map Tile.id).map Object.tile
      ++ ((dock.pool.dots ++ dock.pool.badges).map Slot.id).map Object.marker := by
    unfold roster Pool.roster Tile.identities
    simp only [List.map_append, List.map_map]
    rfl
  have hnodup := hstage.nodup
  rw [hobjects] at hnodup
  obtain ⟨hrow, hpool, -⟩ := List.nodup_append'.mp hnodup
  exact ⟨hrow.of_map _, hpool.of_map _⟩

/-- **THE SCENE SHOWS THE ROW** after every tick that runs to its end, whatever happened before: the
    tiles as they stand, the labels of the visible ones, and a dot and a badge on exactly those that
    are to have one.  No marker serves two tiles, and there are as many of them as the frames since
    the last withdrawal have asked for at most. -/
theorem Recorded.pictured (h : Recorded dock trace demands)
    (hdraws : dock.drawsOn host (.alarm .tick) = true)
    (step : dock.handle host (.alarm .tick) = .ok (dock', commands))
    (htiles : dock'.row.created ≤ UInt64.size) (hmarkers : dock'.pool.created ≤ UInt64.size) :
    dock'.Pictured host (trace ++ commands) (dock.demandsAfter host (.alarm .tick) demands) := by
  have hafter := h.event host (.alarm .tick) step
  obtain ⟨hids, hslots⟩ := hafter.ran.nodup_ids htiles hmarkers
  have hkeys := hafter.ran.handedOver.nodup
  obtain ⟨hunseen, hdotsLength, hbadgesLength⟩ := hafter.stocked
  cases handle_outcome step with
  | rests stays bare =>
      rw [hdraws] at bare
      exact nomatch bare
  | withdraws leaves =>
      rw [withdrawsOn_of_drawsOn hdraws] at leaves
      exact nomatch leaves
  | draws stays drawn tiles magnified layers magnify_eq backdrop commands_eq row_eq pool_eq =>
      obtain ⟨created, hidden, hmarking⟩ := dock.marking_frameOf host tiles
      have hfinite := isFinite_of_framed magnify_eq
      have hsame := identities_frameOf magnify_eq
      have hrow : dock'.row.tiles = ((dock.updated host).frameOf host tiles).tiles := by rw [row_eq]
      -- from here on it does not matter how the frame has come about
      generalize (dock.updated host).frameOf host tiles = frame at *
      rw [hrow] at hids hkeys
      rw [pool_eq] at hslots hunseen
      subst commands_eq
      refine ⟨?_, ?_, hdotsLength, hbadgesLength⟩
      · rw [hrow]
        refine tilesSeen_tick hmarking hfinite backdrop hids hkeys ?_
        intro tile hmem
        refine activity_activations _ ?_
        rw [Tile.map_id_eq, ← hsame, ← Tile.map_id_eq]
        exact List.mem_map_of_mem hmem
      · rw [hrow]
        exact markersSeen_tick hmarking hfinite backdrop hslots hunseen

/-- One favorite with a notification in a standard dock, and with some windows. -/
private def oneBusy (windows : UInt32) : Host Float where
  settings := .standard
  geometry := .standard
  icons := [{ Icon.favorite 7 ⟨0.0, 0.0⟩ with windows, notifications := 1 }]

set_option maxRecDepth 2048 in
/-- When the windows are closed between two ticks, the dot is put away and the badge stays. -/
theorem pictured_after_closing : ∃ (dock : Dock Float Clock) (trace : List (Command Float)),
    dock.Pictured (oneBusy 0) trace [(0, 1), (1, 1)] ∧
      dock.row.tiles.map (fun tile => (tile.dot, tile.badge)) = [(none, some ⟨1⟩)] ∧
      ∀ id dot, lastOf (faceOf id) trace ≠ some (.dot dot) := by
  have henabled := (Recorded.new (α := Float) Clock.start).event (oneBusy 2) .enable rfl
  have hopen := henabled.event (oneBusy 2) (.alarm .tick) rfl
  have htiles : 1 ≤ UInt64.size := by decide
  have hmarkers : 2 ≤ UInt64.size := by decide
  have hclosed := hopen.pictured (show drawsOn _ (oneBusy 0) _ = true from rfl) rfl htiles hmarkers
  refine ⟨_, _, hclosed, rfl, ?_⟩
  intro id dot hseen
  obtain ⟨tile, hmem, hdot, -⟩ := (hclosed.markers.dots id dot).mp hseen
  rw [List.mem_singleton.mp hmem] at hdot
  exact nomatch hdot

end FisheyeDock.Dock
