import FisheyeDock.Proofs.Frame.Marking

/-! # What a frame writes

    Four commands say where and how large something is drawn: one for a tile, one for the label of its
    icon, and one for either marker.  A frame gives them for its visible tiles, one tile after the
    other and each as it then stands (`Frame.Marking.writings_eq`).  It gives them for nothing else,
    and no visible tile goes without. -/

namespace FisheyeDock

open Scene Marker

variable {α : Type}

/-- Whether a command says where and how large something is drawn. -/
def Scene.Command.isWriting : Command α → Bool
  | .transformTile _ _ _ | .placeLabel _ _ | .showDot _ _ | .showBadge _ _ => true
  | _ => false

variable [Scalar α] (g : Geometry α) (settings : Settings α)

namespace Tile

/-- What is written of a tile that is drawn. -/
def writings (tile : Tile α) : List (Command α) :=
  .transformTile tile.id tile.position tile.scale
    :: .placeLabel tile.key (Label.ofIcon tile.position tile.scale g)
    :: (tile.badge.toList.map (fun id => .showBadge id (tile.badgeFace g settings))
      ++ tile.dot.toList.map fun id => .showDot id (tile.dotFace g settings))

variable {g settings}

/-- What is written of a tile: its transform, its label, and the markers that it has. -/
theorem mem_writings {tile : Tile α} {command : Command α} :
    command ∈ tile.writings g settings ↔
      command = .transformTile tile.id tile.position tile.scale ∨
      command = .placeLabel tile.key (Label.ofIcon tile.position tile.scale g) ∨
      (∃ id, tile.badge = some id ∧ command = .showBadge id (tile.badgeFace g settings)) ∨
      ∃ id, tile.dot = some id ∧ command = .showDot id (tile.dotFace g settings) := by
  simp only [writings, List.mem_cons, List.mem_append, List.mem_map, Option.mem_toList,
    eq_comm (a := command)]

/-- The writings of a tile tell its position and its scale. -/
theorem eq_of_transform_mem {tile : Tile α} {id : Tile.Id} {position : Point α} {scale : α}
    (h : .transformTile id position scale ∈ tile.writings g settings) :
    position = tile.position ∧ scale = tile.scale := by
  obtain heq | heq | ⟨_, -, heq⟩ | ⟨_, -, heq⟩ := mem_writings.mp h
  · obtain ⟨-, hposition, hscale⟩ := Command.transformTile.inj heq
    exact ⟨hposition, hscale⟩
  all_goals exact nomatch heq

/-- Only what is visible at a finite position is written. -/
theorem filter_drawing (tile : Tile α) :
    (tile.drawing g settings).filter Command.isWriting =
      if tile.visible && tile.position.isFinite then tile.writings g settings else [] := by
  have hwritings : (tile.writings g settings).filter Command.isWriting =
      tile.writings g settings := by
    refine List.filter_eq_self.mpr ?_
    intro command hmem
    obtain rfl | rfl | ⟨id, -, rfl⟩ | ⟨id, -, rfl⟩ := mem_writings.mp hmem <;> rfl
  unfold drawing
  rw [List.filter_cons_of_neg Bool.false_ne_true]
  by_cases hdrawn : (tile.visible && tile.position.isFinite) = true
  · rw [if_pos hdrawn, if_pos hdrawn]
    exact hwritings
  · rw [if_neg hdrawn, if_neg hdrawn]
    rfl

/-- Of tiles with usable positions, the visible ones are written. -/
theorem filter_drawings {tiles : List (Tile α)}
    (h : ∀ tile ∈ tiles, tile.visible = true → tile.position.isFinite = true) :
    (tiles.flatMap (drawing g settings)).filter Command.isWriting =
      (tiles.filter Tile.visible).flatMap (writings g settings) := by
  induction tiles with
  | nil => rfl
  | cons tile rest ih =>
      have hrest := ih fun other hmem => h other (List.mem_cons_of_mem _ hmem)
      rw [List.flatMap_cons, List.filter_append, hrest, filter_drawing]
      cases hvisible : tile.visible with
      | true =>
          rw [h tile List.mem_cons_self hvisible, List.filter_cons_of_pos hvisible]
          rfl
      | false =>
          rw [List.filter_cons_of_neg (Bool.not_eq_true _ ▸ hvisible)]
          rfl

end Tile

namespace Frame

variable {g settings} {pool : Pool} {tiles : List (Tile α)} {frame : Frame α}
variable {created hidden : List (Command α)}

/-- A frame writes what there is to be written of its visible tiles, if these have usable
    positions. -/
theorem Marking.writings_eq (h : Marking g settings pool tiles frame created hidden)
    (hfinite : ∀ tile ∈ frame.tiles, tile.visible = true → tile.position.isFinite = true) :
    frame.commands.filter Command.isWriting =
      (frame.tiles.filter Tile.visible).flatMap (Tile.writings g settings) := by
  have hcreated : created.filter Command.isWriting = [] := by
    refine List.filter_eq_nil_iff.mpr ?_
    intro command hmem
    obtain ⟨id, kind, rfl⟩ := h.creates command hmem
    exact Bool.false_ne_true
  have hhidden : hidden.filter Command.isWriting = [] := by
    refine List.filter_eq_nil_iff.mpr ?_
    intro command hmem
    obtain ⟨id, rfl⟩ := h.hides command hmem
    exact Bool.false_ne_true
  rw [h.commands_eq, List.filter_append, List.filter_append, hcreated, hhidden,
    Tile.filter_drawings hfinite, List.nil_append, List.append_nil]

end Frame

end FisheyeDock
