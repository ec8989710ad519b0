import FisheyeDock.Frame
import FisheyeDock.Proofs.Lens.Names
import FisheyeDock.Proofs.Row.Sorting

/-! # Other numbers for the same objects

    Tiles and markers are numbered in the order in which they are created, and nothing is ever done
    with a number but to pass it on to the scene.  So a row and a pool whose numbers are ahead of
    those of others by an `Offset` go the same way: each function commutes with `renumber`, which
    moves all numbers on. -/

namespace FisheyeDock

open Scene (Command)

/-- By how much the numbers of tiles and markers are ahead of others. -/
structure Offset where
  tiles : Nat
  markers : Nat
  deriving Repr, DecidableEq

section Renumber

variable {α : Type} (ahead : Offset)

def Tile.Id.renumber (id : Tile.Id) : Tile.Id := ⟨id.val + UInt64.ofNat ahead.tiles⟩

def Marker.Id.renumber (id : Marker.Id) : Marker.Id := ⟨id.val + UInt64.ofNat ahead.markers⟩

/-- The same command on the same objects. -/
def Scene.Command.renumber : Command α → Command α
  | .relayout => .relayout
  | .createTile id key size => .createTile (id.renumber ahead) key size
  | .releaseTile id => .releaseTile (id.renumber ahead)
  | .showTile id visible => .showTile (id.renumber ahead) visible
  | .activateTile id reactive => .activateTile (id.renumber ahead) reactive
  | .transformTile id position scale => .transformTile (id.renumber ahead) position scale
  | .placeLabel key label => .placeLabel key label
  | .setIconOpacity key opacity => .setIconOpacity key opacity
  | .createMarker id kind => .createMarker (id.renumber ahead) kind
  | .releaseMarker id => .releaseMarker (id.renumber ahead)
  | .hideMarker id => .hideMarker (id.renumber ahead)
  | .showDot id dot => .showDot (id.renumber ahead) dot
  | .showBadge id badge => .showBadge (id.renumber ahead) badge
  | .showLayers visible => .showLayers visible

def Tile.renumber (tile : Tile α) : Tile α :=
  { tile with
    id := tile.id.renumber ahead
    dot := tile.dot.map (Marker.Id.renumber ahead)
    badge := tile.badge.map (Marker.Id.renumber ahead) }

/-- A row that has created so many tiles more. -/
def Row.renumber (row : Row α) : Row α where
  tiles := row.tiles.map (Tile.renumber ahead)
  created := row.created + ahead.tiles

def Marker.Slot.renumber (slot : Marker.Slot) : Marker.Slot :=
  { slot with id := slot.id.renumber ahead }

/-- A pool that has created so many markers more. -/
def Marker.Pool.renumber (pool : Marker.Pool) : Marker.Pool where
  dots := pool.dots.map (Marker.Slot.renumber ahead)
  badges := pool.badges.map (Marker.Slot.renumber ahead)
  created := pool.created + ahead.markers

def Frame.renumber (frame : Frame α) : Frame α where
  pool := frame.pool.renumber ahead
  tiles := frame.tiles.map (Tile.renumber ahead)
  commands := frame.commands.map (Command.renumber ahead)
  glided := frame.glided

end Renumber

variable {α : Type} {ahead : Offset}

/-! ## The row -/

theorem Tile.releases_renumber (tile : Tile α) :
    (tile.renumber ahead).releases = tile.releases.map (Command.renumber ahead) := rfl

theorem Tile.creations_renumber (size : α) (tile : Tile α) :
    (tile.renumber ahead).creations size =
      (tile.creations size).map (Command.renumber ahead) := rfl

namespace Row

/-- Numbers ahead are added to those that are counted from the start. -/
theorem idAt_add (n : Nat) : idAt (n + ahead.tiles) = (idAt n).renumber ahead :=
  congrArg Tile.Id.mk (UInt64.ofNat_add n ahead.tiles)

theorem clear_renumber (row : Row α) : (row.renumber ahead).clear =
    (row.clear.1.renumber ahead, row.clear.2.map (Command.renumber ahead)) := by
  simp only [clear, renumber, List.flatMap_map, List.map_flatMap, Tile.releases_renumber,
    List.map_nil]

variable [Scalar α]

theorem reset_renumber (row : Row α) : (row.renumber ahead).reset = row.reset.renumber ahead := by
  simp only [reset, renumber, List.map_map]
  rfl

/-- New tiles that are numbered from ahead are the tiles numbered from the start, ahead. -/
theorem newTiles_renumber (first : Nat) (icons : List (Icon α)) :
    newTiles (first + ahead.tiles) icons =
      (newTiles first icons).map (Tile.renumber ahead) := by
  induction icons generalizing first with
  | nil => rfl
  | cons icon icons ih =>
      rw [newTiles, newTiles, List.map_cons, idAt_add, Nat.add_right_comm, ih]
      rfl

theorem refreshFrom_renumber (icons : List (Icon α)) (tile : Tile α) :
    refreshFrom icons (tile.renumber ahead) = (refreshFrom icons tile).renumber ahead := by
  unfold refreshFrom
  rw [show (tile.renumber ahead).key = tile.key from rfl]
  cases Icon.ofKey? icons tile.key with
  | none => rfl
  | some icon =>
      dsimp only [Tile.refresh]
      cases icon.restingPosition with
      | none => rfl
      | some resting => rfl

/-- The row is reconciled by keys, which have no numbers. -/
theorem reconcile_renumber (row : Row α) (icons : List (Icon α)) (favoritesOnly : Bool)
    (iconSize : α) : (row.renumber ahead).reconcile icons favoritesOnly iconSize =
      ((row.reconcile icons favoritesOnly iconSize).1.renumber ahead,
        (row.reconcile icons favoritesOnly iconSize).2.1.map (Command.renumber ahead),
        (row.reconcile icons favoritesOnly iconSize).2.2) := by
  have hwanted : ∀ shown : List (Icon α), isWanted shown ∘ Tile.renumber ahead = isWanted shown :=
    fun _ => rfl
  have hunwanted : ∀ shown : List (Icon α),
      (not ∘ isWanted shown) ∘ Tile.renumber ahead = not ∘ isWanted shown := fun _ => rfl
  have hkeyed : ∀ (kept : List (Tile α)) (icon : Icon α),
      (kept.map (Tile.renumber ahead)).any (·.key == icon.key) = kept.any (·.key == icon.key) := by
    intro kept icon
    rw [List.any_map]
    rfl
  have hfresh : ∀ (shown : List (Icon α)) (kept : List (Tile α)),
      (kept.map (Tile.renumber ahead)).map (refreshFrom shown) =
        (kept.map (refreshFrom shown)).map (Tile.renumber ahead) := by
    intro shown kept
    rw [List.map_map, List.map_map]
    exact List.map_congr_left fun tile _ => refreshFrom_renumber shown tile
  simp only [reconcile, renumber, List.partition_eq_filter_filter, List.filter_map, hwanted,
    hunwanted, hkeyed, hfresh, newTiles_renumber, List.length_map, List.map_append,
    List.flatMap_map, List.map_flatMap, Tile.releases_renumber, Tile.creations_renumber,
    Nat.add_right_comm]

/-! ### Order -/

/-- The order of tiles has nothing to do with their numbers. -/
theorem sortTiles_renumber (anchor : Point α) (negative : Bool) (tiles : List (Tile α)) :
    sortTiles anchor (tiles.map (Tile.renumber ahead)) negative =
      (sortTiles anchor tiles negative).map (Tile.renumber ahead) :=
  sortTiles_map (Tile.renumber ahead) (fun _ => rfl) tiles

theorem arrange_renumber (row : Row α) (anchor : Point α) (negative : Bool) :
    (row.renumber ahead).arrange anchor negative = (row.arrange anchor negative).renumber ahead := by
  simp only [arrange, renumber, sortTiles_renumber]

end Row

/-! ## The lens -/

namespace Lens

variable [Scalar α] (g : Geometry α) (s : Strengths α)

theorem nearestFrom_renumber (best : Option (Focus α)) (index : Nat) (tiles : List (Tile α)) :
    nearestFrom g best index (tiles.map (Tile.renumber ahead)) =
      nearestFrom g best index tiles :=
  nearestFrom_rename g (Tile.Id.renumber ahead) (Option.map (Marker.Id.renumber ahead)) _ _ _

theorem magnify_renumber (focus : Focus α) (tiles : List (Tile α)) :
    magnify g s focus (tiles.map (Tile.renumber ahead)) =
      Prod.map (List.map (Tile.renumber ahead)) id <$> magnify g s focus tiles :=
  magnify_rename g s (Tile.Id.renumber ahead) (Option.map (Marker.Id.renumber ahead)) _ _

end Lens

/-! ## The pool of markers -/

namespace Marker.Pool

theorem idAt_add (n : Nat) : idAt (n + ahead.markers) = (idAt n).renumber ahead :=
  congrArg Marker.Id.mk (UInt64.ofNat_add n ahead.markers)

/-- New slots that are numbered from ahead are ahead of those from the start. -/
theorem fresh_renumber (first count : Nat) :
    fresh (first + ahead.markers) count = (fresh first count).map (Slot.renumber ahead) := by
  rw [fresh, fresh, List.map_map]
  refine List.map_congr_left fun i _ => ?_
  rw [Nat.add_right_comm, idAt_add]
  rfl

theorem creations_renumber (kind : Kind) (slots : List Slot) :
    (creations kind (slots.map (Slot.renumber ahead)) : List (Command α)) =
      (creations kind slots).map (Command.renumber ahead) := by
  rw [creations, creations, List.map_map, List.map_map]
  rfl

/-- A pool grows by what it lacks, which has nothing to do with numbers. -/
theorem grow_renumber (pool : Pool) (dots badges : Nat) :
    (pool.renumber ahead).grow (α := α) dots badges =
      ((pool.grow (α := α) dots badges).1.renumber ahead,
        (pool.grow dots badges).2.map (Command.renumber ahead)) := by
  have hcreated : ∀ created count : Nat,
      created + ahead.markers + count = created + count + ahead.markers :=
    fun created count => Nat.add_right_comm created ahead.markers count
  simp only [grow, renumber, List.length_map, hcreated, fresh_renumber, List.map_append,
    creations_renumber]

theorem freeAll_renumber (pool : Pool) :
    (pool.renumber ahead).freeAll = pool.freeAll.renumber ahead := by
  simp only [freeAll, renumber, List.map_map]
  rfl

/-- The first free slot is so whatever its number. -/
theorem takeSlot_renumber (slots : List Slot) : takeSlot (slots.map (Slot.renumber ahead)) =
    (takeSlot slots).map (Prod.map (Id.renumber ahead) (List.map (Slot.renumber ahead))) := by
  induction slots with
  | nil => rfl
  | cons slot slots ih =>
      rw [List.map_cons, takeSlot, takeSlot, ih]
      show (if slot.taken then _ else _) = _
      split
      · rw [Option.map_map, Option.map_map]
        rfl
      · rfl

theorem take_renumber (pool : Pool) (kind : Kind) : (pool.renumber ahead).take kind =
    ((pool.take kind).1.map (Id.renumber ahead), (pool.take kind).2.renumber ahead) := by
  cases kind with
  | dot =>
      simp only [take, renumber, takeSlot_renumber]
      cases takeSlot pool.dots <;> rfl
  | badge =>
      simp only [take, renumber, takeSlot_renumber]
      cases takeSlot pool.badges <;> rfl

/-- Those that are idle are hidden under their own numbers. -/
theorem hideIdle_renumber (pool : Pool) : (pool.renumber ahead).hideIdle (α := α) =
    ((pool.hideIdle (α := α)).1.renumber ahead,
      pool.hideIdle.2.map (Command.renumber ahead)) := by
  have hhidings : ∀ slots : List Slot,
      (hidings (slots.map (Slot.renumber ahead)) : List (Command α)) =
        (hidings slots).map (Command.renumber ahead) := by
    intro slots
    rw [hidings, hidings, List.filterMap_map, List.map_filterMap]
    congr 1
    funext slot
    show (if slot.shown && !slot.taken then _ else _) = _
    cases slot.shown && !slot.taken <;> rfl
  simp only [hideIdle, renumber, ← List.map_append, hhidings, List.map_map]
  rfl

theorem clear_renumber (pool : Pool) : (pool.renumber ahead).clear (α := α) =
    ((pool.clear (α := α)).1.renumber ahead, pool.clear.2.map (Command.renumber ahead)) := by
  simp only [clear, renumber, ← List.map_append, List.map_map, List.map_nil]
  rfl

end Marker.Pool

/-! ## Frames -/

namespace Frame

open Marker

variable [Scalar α] (g : Geometry α) (settings : Settings α) (retracting : Bool)

omit [Scalar α] in
/-- What tiles ask for has no numbers. -/
theorem demand_renumber (tiles : List (Tile α)) :
    demand settings (tiles.map (Tile.renumber ahead)) = demand settings tiles := by
  have hwindows : (fun tile : Tile α => decide (0 < tile.windows)) ∘ Tile.renumber ahead =
      fun tile => decide (0 < tile.windows) := rfl
  simp only [demand, List.filter_map, hwindows, List.length_map]

/-- Where a step of a frame leads with other numbers. -/
def renumberStep (ahead : Offset) (step : Pool × Tile α × List (Command α)) :
    Pool × Tile α × List (Command α) :=
  (step.1.renumber ahead, step.2.1.renumber ahead, step.2.2.map (Command.renumber ahead))

theorem placeBadge_renumber (pool : Pool) (tile : Tile α) :
    placeBadge g settings (pool.renumber ahead) (tile.renumber ahead) =
      renumberStep ahead (placeBadge g settings pool tile) := by
  unfold placeBadge
  rw [Pool.take_renumber]
  show (if !settings.badge.off && decide (0 < tile.notifications) then _ else _) = _
  split
  · rcases pool.take .badge with ⟨_ | id, pool'⟩ <;> rfl
  · rfl

theorem placeDot_renumber (pool : Pool) (tile : Tile α) :
    placeDot g settings (pool.renumber ahead) (tile.renumber ahead) =
      renumberStep ahead (placeDot g settings pool tile) := by
  unfold placeDot
  rw [Pool.take_renumber]
  show (if !settings.dot.off && decide (0 < tile.windows) then _ else _) = _
  split
  · rcases pool.take .dot with ⟨_ | id, pool'⟩ <;> rfl
  · rfl

theorem writeTile_renumber (pool : Pool) (tile : Tile α) :
    writeTile g settings (pool.renumber ahead) (tile.renumber ahead) =
      renumberStep ahead (writeTile g settings pool tile) := by
  unfold writeTile
  rw [placeBadge_renumber]
  rcases placeBadge g settings pool tile with ⟨pool₁, tile₁, badge⟩
  dsimp only [renumberStep]
  rw [placeDot_renumber]
  rcases placeDot g settings pool₁ tile₁ with ⟨pool₂, tile₂, dot⟩
  simp only [renumberStep, List.map_cons, List.map_append]
  rfl

/-- A tile as placed, with other numbers. -/
def Placed.renumber (ahead : Offset) (placed : Placed α) : Placed α where
  pool := placed.pool.renumber ahead
  tile := placed.tile.renumber ahead
  commands := placed.commands.map (Command.renumber ahead)
  glided := placed.glided

/-- A tile is placed with numbers ahead as without. -/
theorem placeTile_renumber (pool : Pool) (tile : Tile α) :
    placeTile g settings retracting (pool.renumber ahead) (tile.renumber ahead) =
      (placeTile g settings retracting pool tile).renumber ahead := by
  unfold placeTile
  dsimp only
  by_cases hvisible : tile.visible = true
  · have hvisible' : (tile.renumber ahead).visible = true := hvisible
    rw [if_pos hvisible, if_pos hvisible']
    generalize hstep : Tile.step { tile with dot := none, badge := none } g.iconSize retracting
      = stepped
    generalize hstep' : Tile.step { tile.renumber ahead with dot := none, badge := none }
      g.iconSize retracting = stepped'
    obtain rfl : stepped' = (stepped.1.renumber ahead, stepped.2) := by
      rw [← hstep, ← hstep']
      rfl
    by_cases hfinite : stepped.1.position.isFinite = true
    · have hfinite' : (stepped.1.renumber ahead).position.isFinite = true := hfinite
      rw [if_pos hfinite, if_pos hfinite', writeTile_renumber]
      rfl
    · have hfinite' : ¬ (stepped.1.renumber ahead).position.isFinite = true := hfinite
      rw [if_neg hfinite, if_neg hfinite']
      rfl
  · have hvisible' : ¬ (tile.renumber ahead).visible = true := hvisible
    rw [if_neg hvisible, if_neg hvisible']
    rfl

theorem placeTiles_renumber (pool : Pool) (tiles : List (Tile α)) :
    placeTiles g settings retracting (pool.renumber ahead) (tiles.map (Tile.renumber ahead)) =
      (placeTiles g settings retracting pool tiles).renumber ahead := by
  induction tiles generalizing pool with
  | nil => rfl
  | cons tile rest ih =>
      simp only [List.map_cons, placeTiles, placeTile_renumber, Placed.renumber, ih, renumber,
        List.map_append]

/-- A frame is the same whatever the numbers are. -/
theorem build_renumber (pool : Pool) (tiles : List (Tile α)) :
    build g settings retracting (pool.renumber ahead) (tiles.map (Tile.renumber ahead)) =
      (build g settings retracting pool tiles).renumber ahead := by
  simp only [build, demand_renumber, Pool.grow_renumber, Pool.freeAll_renumber,
    placeTiles_renumber, renumber, Pool.hideIdle_renumber, List.map_append]

end Frame

end FisheyeDock
