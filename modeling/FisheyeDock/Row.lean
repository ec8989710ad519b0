import FisheyeDock.Tile.Basic

/-! # The row of tiles

    The tiles of the dock, one for each icon shown.  `reconcile` brings them in line with the icons,
    `arrange` puts them in the order in which they lie. -/

namespace FisheyeDock

structure Row (α : Type) where
  tiles : List (Tile α)
  /-- How many tiles have been created so far. -/
  created : Nat

/-- How far a tile lies from the anchor, as far as the order of the row goes. -/
inductive Row.Reach (α : Type) where
  | at (distance : α)
  /-- The tile has no usable position, or lies at no finite distance. -/
  | beyond
  /-- The distance is undefined.  It has a sign all the same, and ranks by it. -/
  | unmeasured (negative : Bool)

namespace Row

variable {α : Type} [Scalar α]

/-- A row without tiles. -/
def empty : Row α := ⟨[], 0⟩

/-- The identity of the tile created after `n` others. -/
def idAt (n : Nat) : Tile.Id := ⟨UInt64.ofNat n⟩

def get? (row : Row α) (key : Icon.Key) : Option (Tile α) := row.tiles.find? (·.key == key)

def size (row : Row α) : Nat := row.tiles.length

def isEmpty (row : Row α) : Bool := row.tiles.isEmpty

/-! ## Reconciling with the icons -/

/-- What a reconciliation has changed. -/
structure Changes where
  added : Nat
  removed : Nat
  deriving Repr, DecidableEq

def Changes.isEmpty (c : Changes) : Bool := c.added == 0 && c.removed == 0

/-- New tiles for icons, created after `first` others. -/
def newTiles (first : Nat) : List (Icon α) → List (Tile α)
  | [] => []
  | icon :: icons => Tile.ofIcon (idAt first) icon :: newTiles (first + 1) icons

/-- Whether a tile stands in for one of the icons. -/
def isWanted (icons : List (Icon α)) (tile : Tile α) : Bool :=
  icons.any (·.key == tile.key)

/-- A tile brought up to date with the icon it stands in for. -/
def refreshFrom (icons : List (Icon α)) (tile : Tile α) : Tile α :=
  match Icon.ofKey? icons tile.key with
  | some icon => tile.refresh icon
  | none => tile

/-- Lets go of the tiles whose icon is gone, brings the others up to date, and appends a tile for
    each icon that has none. -/
def reconcile (row : Row α) (icons : List (Icon α)) (favoritesOnly : Bool) (iconSize : α) :
    Row α × List (Scene.Command α) × Changes :=
  let shown := Icon.shown favoritesOnly icons
  let (kept, gone) := row.tiles.partition (isWanted shown)
  let arriving := shown.filter fun icon => !(kept.any (·.key == icon.key))
  let new := newTiles row.created arriving
  ({ tiles := kept.map (refreshFrom shown) ++ new, created := row.created + new.length },
    gone.flatMap Tile.releases ++ new.flatMap (Tile.creations iconSize),
    { added := new.length, removed := gone.length })

/-! ## Order -/

/-- How far a tile lies from the anchor.  A coordinate that is undefined hands its sign on to the
    distance; scalars do not tell that sign, so that it is said apart whether it is `negative`.
    Between the anchor and a tile at the same infinity, a negative sign comes up by itself. -/
def reach (anchor : Point α) (tile : Tile α) (negative : Bool := false) : Reach α :=
  let distance := Point.distance anchor tile.fixed
  let unmeasured (coordinate place : α) : Reach α :=
    .unmeasured (negative || !(Scalar.isUndefined coordinate || Scalar.isUndefined place))
  if !tile.visible then .beyond
  else if Scalar.isFinite distance then .at distance
  else if Scalar.isUndefined (anchor.x - tile.fixed.x) then unmeasured anchor.x tile.fixed.x
  else if Scalar.isUndefined (anchor.y - tile.fixed.y) then unmeasured anchor.y tile.fixed.y
  else .beyond

namespace Reach

/-- Which comes first of what is not compared by distance.  What is undefined comes before all else if
    its sign is negative, and behind all else if it is not. -/
def rank : Reach α → Nat
  | unmeasured true => 0
  | .at _ => 1
  | beyond => 2
  | unmeasured false => 3

/-- The order of the row. -/
def le : Reach α → Reach α → Bool
  | .at d, .at e => decide (d ≤ e)
  | a, b => decide (a.rank ≤ b.rank)

end Reach

/-- Puts an entry before the first one that is not nearer. -/
def insertByReach (entry : Reach α × Tile α) : List (Reach α × Tile α) → List (Reach α × Tile α)
  | [] => [entry]
  | next :: rest =>
    if entry.1.le next.1 then entry :: next :: rest
    else next :: insertByReach entry rest

/-- Tiles in the order of their reach.  Tiles of equal reach keep their order. -/
def sortTiles (anchor : Point α) (tiles : List (Tile α)) (negative : Bool := false) :
    List (Tile α) :=
  ((tiles.map fun tile => (reach anchor tile negative, tile)).foldr insertByReach []).map (·.2)

/-- Sorting neither adds nor loses an entry. -/
theorem insertByReach_perm (entry : Reach α × Tile α) (entries : List (Reach α × Tile α)) :
    (insertByReach entry entries).Perm (entry :: entries) := by
  induction entries with
  | nil => exact .refl _
  | cons next rest ih =>
    simp only [insertByReach]
    split
    · exact .refl _
    · exact (ih.cons next).trans (.swap entry next rest)

/-- The sorted tiles are the tiles. -/
theorem sortTiles_perm (anchor : Point α) (tiles : List (Tile α)) (negative : Bool := false) :
    (sortTiles anchor tiles negative).Perm tiles := by
  have sorted : ∀ entries : List (Reach α × Tile α),
      (entries.foldr insertByReach []).Perm entries := by
    intro entries
    induction entries with
    | nil => exact .refl _
    | cons entry rest ih =>
      exact (insertByReach_perm entry _).trans (ih.cons entry)
  have tiles_of_entries :
      (tiles.map fun tile => (reach anchor tile negative, tile)).map (·.2) = tiles := by
    rw [List.map_map]
    exact List.map_id tiles
  have mapped := (sorted (tiles.map fun tile => (reach anchor tile negative, tile))).map (·.2)
  rw [tiles_of_entries] at mapped
  exact mapped

/-- Puts the tiles in the order of their distance from the anchor. -/
def arrange (row : Row α) (anchor : Point α) (negative : Bool := false) : Row α :=
  { row with tiles := sortTiles anchor row.tiles negative }

/-- Puts the tiles in the order in which they lie in the dock. -/
def arrangeFor (row : Row α) (g : Geometry α) : Row α := row.arrange g.anchor g.anchorNegative

@[simp] theorem length_arrange (row : Row α) (anchor : Point α) (negative : Bool) :
    (row.arrange anchor negative).tiles.length = row.tiles.length :=
  (sortTiles_perm anchor row.tiles negative).length_eq

/-! ## All tiles at once -/

/-- Sends every tile back to rest. -/
def reset (row : Row α) : Row α := { row with tiles := row.tiles.map Tile.reset }

/-- Lets go of every tile and brings the icons back. -/
def clear (row : Row α) : Row α × List (Scene.Command α) :=
  ({ row with tiles := [] }, row.tiles.flatMap Tile.releases)

end Row

end FisheyeDock
