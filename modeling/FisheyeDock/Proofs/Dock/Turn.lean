import FisheyeDock.Proofs.Dock.Staging
import FisheyeDock.Proofs.Frame.Sights
import FisheyeDock.Proofs.Lens.Visible

/-! # What is not visible has no influence

    What a tick without a preview does from an up-to-date row on is a `turn` of the row: the row is
    put in order and sent back to rest, the lens is put on the tile nearest to the pointer, and a
    frame is built.  A tile that is not visible may lie anywhere, or nowhere at all.  It makes no
    difference to what a turn comes to for the visible tiles (`turn_overlooks`). -/

namespace FisheyeDock

open Scene (Command)

variable {α : Type} [Scalar α]

/-- The settings do not keep the pointer from magnifying a tile. -/
def Host.allowsLens (host : Host α) : Bool :=
  !(host.settings.magnification.isInert
    || (host.geometry.autohideHidden && !host.settings.peekHiddenIcons))

namespace Dock

/-- Puts the lens on the nearest of some tiles at rest, builds a frame from them, and tells whether
    anything is animated. -/
def present (host : Host α) (lens : Bool) (pool : Marker.Pool) (resting : List (Tile α)) :
    Except Fault (Frame α × Bool) := do
  let focus := if lens then Lens.nearest? host.geometry resting else none
  let (tiles, magnified) ← magnify host focus resting
  let frame := Frame.build host.geometry host.settings focus.isNone pool tiles
  pure (frame, magnified || frame.glided)

/-- A turn of a row, and whether anything is animated by it. -/
def turn (host : Host α) (lens : Bool) (pool : Marker.Pool) (row : Row α) :
    Except Fault (Frame α × Bool) :=
  present host lens pool (row.arrangeFor host.geometry).reset.tiles

/-- The lens is where the pointer is nearest, if the host allows for a lens. -/
theorem pointerFocus_eq (host : Host α) (tiles : List (Tile α)) : pointerFocus host tiles =
    if host.allowsLens then Lens.nearest? host.geometry tiles else none := by
  unfold pointerFocus Host.allowsLens
  dsimp only
  cases host.settings.magnification.isInert
      || (host.geometry.autohideHidden && !host.settings.peekHiddenIcons) <;> rfl

/-- Without a preview, a tick turns the row that is up to date. -/
theorem animate_turns {τ : Type} [TimerService τ] {dock dock' : Dock α τ} {host : Host α}
    {commands : List (Command α)} {animated : Bool} (hpreview : dock.previewLeft = none)
    (h : animate { dock with row := dock.row.arrangeFor host.geometry } host
      = .ok (dock', commands, animated)) :
    ∃ frame before after, turn host host.allowsLens dock.pool dock.row = .ok (frame, animated) ∧
      dock'.row.tiles = frame.tiles ∧ commands = before ++ frame.commands ++ after := by
  obtain ⟨tiles, magnified, layers, hmagnify, hanimated, -, hcommands, rfl⟩ := animate_cases h
  have hfocus : (focus { dock with row := dock.row.arrangeFor host.geometry } host
      (dock.row.arrangeFor host.geometry).reset.tiles).1 =
        if host.allowsLens then
          Lens.nearest? host.geometry (dock.row.arrangeFor host.geometry).reset.tiles
        else none := by
    unfold focus
    rw [show previewLeft { dock with row := dock.row.arrangeFor host.geometry } = none from
      hpreview]
    exact pointerFocus_eq host _
  rw [frameOf] at hanimated hcommands
  rw [hfocus] at hmagnify hanimated hcommands
  refine ⟨_, _, layers, bind_eq_ok_iff.mpr ⟨_, hmagnify, ?_⟩, ?_, hcommands⟩
  · rw [hanimated]
    rfl
  · rw [frameOf, hfocus]

/-- The lens goes over what is behind the tiles next to it, and leaves it as it was but for where it
    is heading. -/
theorem magnify_append {host : Host α} {focus : Option (Focus α)} {tiles : List (Tile α)}
    (hfocus : ∀ known ∈ focus, known.index < tiles.length) (more : List (Tile α)) :
    ∃ moved aimed magnified, magnify host focus tiles = .ok (moved, magnified) ∧
      magnify host focus (tiles ++ more) = .ok (moved ++ aimed, magnified) ∧
      aimed.map Tile.reset = more.map Tile.reset := by
  cases focus with
  | none => exact ⟨tiles, more, false, rfl, rfl, rfl⟩
  | some focus =>
      have hindex := hfocus focus rfl
      obtain ⟨⟨moved, magnified⟩, hmoved⟩ := Lens.magnify_eq_ok host.geometry
        (.ofMagnification host.settings.magnification) hindex
      obtain ⟨aimed, happend, hrest⟩ := Lens.magnify_of_append (g := host.geometry)
        (s := .ofMagnification host.settings.magnification) hindex more
      rw [hmoved] at happend
      exact ⟨moved, aimed, magnified, hmoved, happend, hrest⟩

/-! ## Two turns -/

/-- What is seen of one frame is what is seen of another one, all tiles of which are visible. -/
structure SameSight (frame frame' : Frame α) : Prop where
  tiles : (Tile.seen frame.tiles).map Tile.look = frame'.tiles.map Tile.look
  sights : frame.commands.filterMap Command.sight? = frame'.commands.filterMap Command.sight?

/-- The lens does the same to the visible tiles of a row in order, whether there are others or
    not. -/
theorem magnify_overlooks {host : Host α} {focus : Option (Focus α)} {tiles ghosts : List (Tile α)}
    (hvisible : ∀ tile ∈ tiles, tile.visible = true) (hghosts : Lens.Ghosts ghosts)
    (hfocus : ∀ known ∈ focus, known.index < tiles.length) :
    ∃ moved moved' magnified, magnify host focus (tiles ++ ghosts) = .ok (moved, magnified) ∧
      magnify host focus tiles = .ok (moved', magnified) ∧ Tile.seen moved = moved' ∧
      Tile.seen moved' = moved' := by
  obtain ⟨moved, aimed, magnified, hmoved, happend, hrest⟩ := magnify_append hfocus ghosts
  have hmovedVisible :=
    Tile.forall_visible_of_map (map_magnify (fun _ _ _ _ _ => rfl) hmoved) hvisible
  exact ⟨_, _, _, happend, hmoved, Lens.seen_append hmovedVisible (hghosts.of_reset hrest),
    List.filter_eq_self.mpr hmovedVisible⟩

/-- Tiles that are not visible change nothing of what the others are in the frame. -/
theorem present_overlooks {host : Host α} {tiles ghosts : List (Tile α)}
    (hvisible : ∀ tile ∈ tiles, tile.visible = true) (hghosts : Lens.Ghosts ghosts) (lens : Bool)
    (pool pool' : Marker.Pool) : ∃ frame frame' animated,
      present host lens pool (tiles ++ ghosts) = .ok (frame, animated) ∧
      present host lens pool' tiles = .ok (frame', animated) ∧ SameSight frame frame' := by
  unfold present
  rw [Lens.nearest?_append_ghosts hghosts]
  have hfocus : ∀ known ∈ (if lens then Lens.nearest? host.geometry tiles else none),
      known.index < tiles.length := by
    intro known hknown
    cases lens with
    | true => exact Lens.index_lt_of_nearest? hknown
    | false => exact nomatch hknown
  generalize (if lens then Lens.nearest? host.geometry tiles else none) = focus at *
  obtain ⟨moved, moved', magnified, hmoved, hmoved', hseen, hseen'⟩ :=
    magnify_overlooks hvisible hghosts hfocus
  dsimp only
  rw [hmoved, hmoved']
  have hglided : (Frame.build host.geometry host.settings focus.isNone pool moved).glided =
      (Frame.build host.geometry host.settings focus.isNone pool' moved').glided := by
    rw [Frame.glided_build, Frame.glided_build, hseen, hseen']
  refine ⟨_, Frame.build host.geometry host.settings focus.isNone pool' moved', _, rfl, ?_, ?_, ?_⟩
  · rw [hglided]
    rfl
  · -- in the row without the others, all tiles are seen
    have hall :
        Tile.seen (Frame.build host.geometry host.settings focus.isNone pool' moved').tiles =
          (Frame.build host.geometry host.settings focus.isNone pool' moved').tiles := by
      refine List.filter_eq_self.mpr fun tile hmem => ?_
      obtain ⟨old, hold, hbare⟩ := Frame.moved_of_mem hmem
      have hsame : tile.visible = (old.advance host.geometry.iconSize focus.isNone).1.visible :=
        (congrArg Tile.visible hbare).symm
      rw [hsame, Tile.visible_advance]
      exact Tile.visible_of_mem_seen (hseen'.symm ▸ hold)
    rw [← hall, Frame.look_build, Frame.look_build, hseen, hseen']
  · rw [Frame.sights_build, Frame.sights_build, hseen, hseen']

/-- **WHAT IS NOT VISIBLE HAS NO INFLUENCE**, wherever it lies: the visible tiles of a row come to
    the same by a turn of the row as by a turn of a row that they are alone in. -/
theorem turn_overlooks {host : Host α} {row : Row α}
    (hmeasured : Row.Measured host.geometry.anchor row.tiles) (lens : Bool)
    (pool pool' : Marker.Pool) : ∃ frame frame' animated,
      turn host lens pool row = .ok (frame, animated) ∧
      turn host lens pool' { row with tiles := Tile.seen row.tiles } = .ok (frame', animated) ∧
      SameSight frame frame' := by
  have hsorted : (row.arrangeFor host.geometry).reset.tiles =
      (Row.sortTiles host.geometry.anchor (Tile.seen row.tiles)
          host.geometry.anchorNegative).map Tile.reset
        ++ (Tile.unseen row.tiles).map Tile.reset := by
    rw [← List.map_append, ← Row.sortTiles_eq_append hmeasured]
    rfl
  unfold turn
  rw [hsorted]
  refine present_overlooks ?_ ?_ lens pool pool'
  · intro tile hmem
    obtain ⟨old, hold, rfl⟩ := List.mem_map.mp hmem
    show old.visible = true
    exact Tile.visible_of_mem_seen ((Row.sortTiles_perm _ _ _).mem_iff.mp hold)
  · intro tile hmem
    obtain ⟨old, hold, rfl⟩ := List.mem_map.mp hmem
    show old.visible = false
    exact Tile.visible_of_mem_unseen hold

/-- A dock with the pointer on the icon at the corner of the screen. -/
private def pointed : Host Float where
  settings := .standard
  geometry := { Geometry.standard with pointer := ⟨24.0, 24.0⟩ }
  icons := []

/-- A tile at the corner of the screen, with a window. -/
private def nearTile : Tile Float :=
  Tile.ofIcon ⟨1⟩ { Icon.favorite 1 ⟨0.0, 0.0⟩ with windows := 1 }

/-- A tile that has been laid out nowhere. -/
private def lostTile : Tile Float :=
  Tile.ofIcon ⟨0⟩ { Icon.favorite 0 ⟨0.0, 0.0⟩ with position := none }

set_option maxRecDepth 2048 in
/-- The lens is put on a tile that has a window, next to one that has been laid out nowhere.  The
    tile moves, and it has its dot, as if it were alone. -/
theorem turn_overlooks_lostTile : ∃ frame frame' : Frame Float,
    Row.Measured pointed.geometry.anchor [lostTile, nearTile] ∧
    turn pointed true .empty ⟨[lostTile, nearTile], 2⟩ = .ok (frame, true) ∧
    turn pointed true .empty ⟨[nearTile], 2⟩ = .ok (frame', true) ∧
    frame'.tiles.map (fun tile => tile.look.dotted) = [true] ∧ SameSight frame frame' := by
  have hmeasured : Row.Measured pointed.geometry.anchor [lostTile, nearTile] := by
    intro tile hmem hvisible
    rcases List.mem_cons.mp hmem with rfl | hmem
    · exact nomatch hvisible
    · rw [List.mem_singleton.mp hmem]
      rfl
  have hturn := @turn_overlooks Float _ pointed ⟨[lostTile, nearTile], 2⟩ hmeasured true .empty .empty
  obtain ⟨frame, frame', animated, hframe, hframe', hsame⟩ := hturn
  have halone : turn pointed true .empty ⟨[nearTile], 2⟩ = .ok (frame', animated) := hframe'
  obtain ⟨rfl, rfl⟩ := Prod.mk.inj (Except.ok.inj (show Except.ok _ = _ from halone))
  exact ⟨frame, _, hmeasured, hframe, halone, by decide +kernel, hsame⟩

end Dock

end FisheyeDock
