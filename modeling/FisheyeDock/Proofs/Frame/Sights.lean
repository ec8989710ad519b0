import FisheyeDock.Proofs.Frame.Marking
import FisheyeDock.Proofs.Row.Visible

/-! # What is seen of a frame

    What is seen of a tile is all of it but the names of its markers (`Tile.look`), and what is seen
    of a command is what it tells of a tile that is shown, or of a marker, whichever it is
    (`Command.sight?`).  Both can be told from the visible tiles that a frame is built from
    (`look_build`, `sights_build`).  The other tiles do not count, and neither does the pool: there
    is a marker for every tile that is to have one. -/

namespace FisheyeDock

open Scene (Command)

variable {α : Type}

/-- What is seen of a tile. -/
structure Look (α : Type) where
  /-- The tile without its markers. -/
  tile : Tile α
  dotted : Bool
  badged : Bool

def Tile.look (tile : Tile α) : Look α := ⟨tile.bare, tile.dot.isSome, tile.badge.isSome⟩

/-- What is seen of a command. -/
inductive Sight (α : Type) where
  | tile (id : Tile.Id)
  | transform (id : Tile.Id) (position : Point α) (scale : α)
  | label (key : Icon.Key) (label : Label α)
  | dot (dot : Dot α)
  | badge (badge : Badge α)

def Scene.Command.sight? : Command α → Option (Sight α)
  | .showTile id true => some (.tile id)
  | .transformTile id position scale => some (.transform id position scale)
  | .placeLabel key label => some (.label key label)
  | .showDot _ dot => some (.dot dot)
  | .showBadge _ badge => some (.badge badge)
  | _ => none

variable [Scalar α] (g : Geometry α) (settings : Settings α) (retracting : Bool)

namespace Look

/-- What is seen of a tile with some markers, or with none where it has no usable position. -/
def sights (look : Look α) : List (Sight α) :=
  if look.tile.visible then
    .tile look.tile.id ::
      if look.tile.position.isFinite then
        .transform look.tile.id look.tile.position look.tile.scale
          :: .label look.tile.key (Label.ofIcon look.tile.position look.tile.scale g)
          :: ((if look.badged then [.badge (look.tile.badgeFace g settings)] else [])
            ++ if look.dotted then [.dot (look.tile.dotFace g settings)] else [])
      else []
  else []

/-- A tile with the markers that it is to have. -/
def marked (tile : Tile α) : Look α where
  tile := tile.bare
  dotted := tile.wantsDot settings && tile.position.isFinite
  badged := tile.wantsBadge settings && tile.position.isFinite

/-- What is seen of a tile after the next frame. -/
def next (tile : Tile α) : Look α := marked settings (tile.advance g.iconSize retracting).1

end Look

/-! ## One tile -/

theorem Tile.visible_advance (tile : Tile α) (iconSize : α) :
    (tile.advance iconSize retracting).1.visible = tile.visible := by
  unfold advance
  split
  · rfl
  · rfl

/-- What is seen of the drawing of a tile are the sights of its look. -/
theorem sights_drawing (tile : Tile α) :
    (tile.drawing g settings).filterMap Command.sight? = tile.look.sights g settings := by
  unfold Tile.drawing Look.sights Tile.look
  cases hvisible : tile.visible with
  | false => simp [Command.sight?, Tile.bare, hvisible]
  | true =>
      cases hfinite : tile.position.isFinite with
      | false => simp [Command.sight?, Tile.bare, hvisible, hfinite]
      | true =>
          have hbadge : (tile.badge.toList.map fun id =>
              Command.showBadge id (tile.badgeFace g settings)).filterMap Command.sight? =
                if tile.badge.isSome then [.badge (tile.badgeFace g settings)] else [] := by
            cases tile.badge <;> rfl
          have hdot : (tile.dot.toList.map fun id =>
              Command.showDot id (tile.dotFace g settings)).filterMap Command.sight? =
                if tile.dot.isSome then [.dot (tile.dotFace g settings)] else [] := by
            cases tile.dot <;> rfl
          simp only [Bool.and_true, if_true, List.filterMap_cons, List.filterMap_append,
            Command.sight?, hbadge, hdot]
          simp only [Tile.bare, hvisible, hfinite, if_true]
          rfl

namespace Frame

open Marker

variable (pool : Pool) (tiles : List (Tile α))

/-! ## All tiles -/

/-- The tiles of a frame have the markers that they are to have. -/
theorem look_of_mem {tile : Tile α} (h : tile ∈ (build g settings retracting pool tiles).tiles) :
    tile.look = Look.marked settings tile.bare := by
  obtain ⟨created, hidden, hmarking⟩ := marking_build g settings retracting pool tiles
  unfold Tile.look
  rw [hmarking.dot_iff tile h, hmarking.badge_iff tile h]
  rfl

/-- The visible tiles of a frame look as the given ones do next, whatever the pool was. -/
theorem look_build : (Tile.seen (build g settings retracting pool tiles).tiles).map Tile.look =
    (Tile.seen tiles).map (Look.next g settings retracting) := by
  have hmoved := (build_moves g settings retracting pool tiles).1
  have hlook : ∀ tile ∈ Tile.seen (build g settings retracting pool tiles).tiles,
      tile.look = Look.marked settings tile.bare :=
    fun tile htile => look_of_mem g settings retracting pool tiles (List.mem_filter.mp htile).1
  rw [List.map_congr_left hlook]
  show (Tile.seen _).map (Look.marked settings ∘ Tile.bare) = _
  have hbare : ∀ tiles : List (Tile α),
      (Tile.seen tiles).map Tile.bare = Tile.seen (tiles.map Tile.bare) := by
    intro tiles
    rw [Tile.seen, Tile.seen, List.filter_map]
    rfl
  rw [← List.map_map, hbare, hmoved, Tile.seen, List.filter_map]
  have hvisible : (·.visible) ∘
      (fun tile : Tile α => (tile.advance g.iconSize retracting).1.bare) = (·.visible) :=
    funext fun tile => tile.visible_advance retracting g.iconSize
  rw [hvisible, List.map_map]
  rfl

/-- A frame has glided exactly if one of its visible tiles has. -/
theorem glided_build : (build g settings retracting pool tiles).glided =
    (Tile.seen tiles).any fun tile => (tile.advance g.iconSize retracting).2 := by
  rw [(build_moves g settings retracting pool tiles).2, Tile.seen, List.any_filter]
  congr 1
  funext tile
  unfold Tile.advance
  cases tile.visible <;> rfl

/-- What is seen of a frame is what is seen of its visible tiles, one after the other. -/
theorem sights_build : (build g settings retracting pool tiles).commands.filterMap Command.sight? =
    ((Tile.seen tiles).map (Look.next g settings retracting)).flatMap
      (Look.sights g settings) := by
  obtain ⟨created, hidden, hmarking⟩ := marking_build g settings retracting pool tiles
  have hcreated : created.filterMap Command.sight? = [] := by
    refine List.filterMap_eq_nil_iff.mpr fun command hmem => ?_
    obtain ⟨id, kind, rfl⟩ := hmarking.creates command hmem
    rfl
  have hhidden : hidden.filterMap Command.sight? = [] := by
    refine List.filterMap_eq_nil_iff.mpr fun command hmem => ?_
    obtain ⟨id, rfl⟩ := hmarking.hides command hmem
    rfl
  have hdrawn : ∀ tiles : List (Tile α),
      (tiles.flatMap (Tile.drawing g settings)).filterMap Command.sight? =
        ((Tile.seen tiles).map Tile.look).flatMap (Look.sights g settings) := by
    intro tiles
    induction tiles with
    | nil => rfl
    | cons tile rest ih =>
        rw [List.flatMap_cons, List.filterMap_append, ih, sights_drawing]
        cases hvisible : tile.visible with
        | true =>
            rw [(Tile.split_cons_of_visible rest hvisible).1, List.map_cons, List.flatMap_cons]
        | false =>
            rw [(Tile.split_cons_of_invisible rest hvisible).1]
            unfold Look.sights
            rw [if_neg (by simp [Tile.look, Tile.bare, hvisible])]
            rfl
  rw [hmarking.commands_eq, List.filterMap_append, List.filterMap_append, hcreated, hhidden, hdrawn,
    look_build, List.nil_append, List.append_nil]

end Frame

end FisheyeDock
