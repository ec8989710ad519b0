import FisheyeDock.Proofs.Frame.Motion
import FisheyeDock.Proofs.Marker.Service

/-! # Which markers a frame puts where

    A tile is placed with what the pool hands out for it (`Marks`), and is drawn as it then stands
    (`Tile.drawing`).  A frame is therefore the drawings of its tiles, between the creation of markers
    and the hiding of others (`Marking`), and what the pool calls shown after it is what its tiles
    have.

    No tile goes without a marker it is to have: the pool has been grown to what the frame can need
    before the first is taken. -/

namespace FisheyeDock

open Scene Marker

variable {α : Type} [Scalar α]

namespace Tile

omit [Scalar α] in
/-- Whether a tile is to have a dot. -/
def wantsDot (settings : Settings α) (tile : Tile α) : Bool :=
  tile.visible && (!settings.dot.off && decide (0 < tile.windows))

omit [Scalar α] in
/-- Whether a tile is to have a badge. -/
def wantsBadge (settings : Settings α) (tile : Tile α) : Bool :=
  tile.visible && (!settings.badge.off && decide (0 < tile.notifications))

/-- The dot of a tile as it stands. -/
def dotFace (g : Geometry α) (settings : Settings α) (tile : Tile α) : Dot α :=
  Dot.ofIcon tile.position tile.scale tile.windows g settings.dot

/-- The badge of a tile as it stands. -/
def badgeFace (g : Geometry α) (settings : Settings α) (tile : Tile α) : Badge α :=
  Badge.ofIcon tile.position tile.scale tile.notifications g settings.badge

/-- The commands that draw a tile as it stands, with its label and the markers it has. -/
def drawing (g : Geometry α) (settings : Settings α) (tile : Tile α) : List (Command α) :=
  .showTile tile.id tile.visible ::
    if tile.visible && tile.position.isFinite then
      .transformTile tile.id tile.position tile.scale
        :: .placeLabel tile.key (Label.ofIcon tile.position tile.scale g)
        :: (tile.badge.toList.map (fun id => .showBadge id (tile.badgeFace g settings))
          ++ tile.dot.toList.map fun id => .showDot id (tile.dotFace g settings))
    else []

end Tile

namespace Frame

variable (g : Geometry α) (settings : Settings α) (retracting : Bool)

/-! ## One tile -/

/-- The badge of a tile is what the pool hands out for it. -/
theorem placeBadge_cases (pool : Pool) (tile : Tile α) (hbare : tile.badge = none) :
    ∃ badges badge, placeBadge g settings pool tile =
        ({ pool with badges }, { tile with badge },
          badge.toList.map fun id => .showBadge id (tile.badgeFace g settings)) ∧
      Pool.Hands pool.badges badges (!settings.badge.off && decide (0 < tile.notifications))
        badge := by
  have hsame : tile = { tile with badge := none } := by rw [← hbare]
  unfold placeBadge
  cases hwanted : (!settings.badge.off && decide (0 < tile.notifications)) with
  | true =>
      rw [if_pos rfl]
      unfold Pool.take
      obtain ⟨id, rest, htake, hhands⟩ | ⟨htake, hhands⟩ := Pool.hands_takeSlot pool.badges
      · rw [htake]
        exact ⟨rest, some id, rfl, hhands⟩
      · rw [htake]
        exact ⟨pool.badges, none, congrArg (pool, ·, []) hsame, hhands⟩
  | false =>
      rw [if_neg Bool.false_ne_true]
      exact ⟨pool.badges, none, congrArg (pool, ·, []) hsame, Pool.hands_nothing _⟩

/-- The dot of a tile is what the pool hands out for it. -/
theorem placeDot_cases (pool : Pool) (tile : Tile α) (hbare : tile.dot = none) :
    ∃ dots dot, placeDot g settings pool tile =
        ({ pool with dots }, { tile with dot },
          dot.toList.map fun id => .showDot id (tile.dotFace g settings)) ∧
      Pool.Hands pool.dots dots (!settings.dot.off && decide (0 < tile.windows)) dot := by
  have hsame : tile = { tile with dot := none } := by rw [← hbare]
  unfold placeDot
  cases hwanted : (!settings.dot.off && decide (0 < tile.windows)) with
  | true =>
      rw [if_pos rfl]
      unfold Pool.take
      obtain ⟨id, rest, htake, hhands⟩ | ⟨htake, hhands⟩ := Pool.hands_takeSlot pool.dots
      · rw [htake]
        exact ⟨rest, some id, rfl, hhands⟩
      · rw [htake]
        exact ⟨pool.dots, none, congrArg (pool, ·, []) hsame, hhands⟩
  | false =>
      rw [if_neg Bool.false_ne_true]
      exact ⟨pool.dots, none, congrArg (pool, ·, []) hsame, Pool.hands_nothing _⟩

/-- A tile that is placed is drawn as it then stands, with what it has been handed out. -/
structure Marks (pool : Pool) (placed : Placed α) : Prop where
  drawn : placed.commands = placed.tile.drawing g settings
  dots : Pool.Hands pool.dots placed.pool.dots
    (placed.tile.wantsDot settings && placed.tile.position.isFinite) placed.tile.dot
  badges : Pool.Hands pool.badges placed.pool.badges
    (placed.tile.wantsBadge settings && placed.tile.position.isFinite) placed.tile.badge

/-- A tile that is not drawn takes nothing. -/
theorem marks_idle (pool : Pool) (tile : Tile α) (glided : Bool)
    (hdot : tile.dot = none) (hbadge : tile.badge = none)
    (hidle : (tile.visible && tile.position.isFinite) = false) :
    Marks g settings pool ⟨pool, tile, [.showTile tile.id tile.visible], glided⟩ := by
  have hwants : ∀ wanted : Bool, (tile.visible && wanted && tile.position.isFinite) = false := by
    intro wanted
    rw [Bool.and_right_comm, hidle, Bool.false_and]
  constructor
  · unfold Tile.drawing
    rw [hidle]
    rfl
  · dsimp only
    rw [hdot, Tile.wantsDot, hwants]
    exact Pool.hands_nothing pool.dots
  · dsimp only
    rw [hbadge, Tile.wantsBadge, hwants]
    exact Pool.hands_nothing pool.badges

/-- A tile that is drawn takes its badge, then its dot. -/
theorem marks_writeTile (pool : Pool) (tile : Tile α) (glided : Bool)
    (hdot : tile.dot = none) (hbadge : tile.badge = none) (hvisible : tile.visible = true)
    (hfinite : tile.position.isFinite = true) :
    Marks g settings pool
      ⟨(writeTile g settings pool tile).1, (writeTile g settings pool tile).2.1,
        .showTile tile.id tile.visible :: (writeTile g settings pool tile).2.2, glided⟩ := by
  obtain ⟨badges, badge, hplaced, hbadges⟩ := placeBadge_cases g settings pool tile hbadge
  obtain ⟨dots, dot, hmarked, hdots⟩ :=
    placeDot_cases g settings { pool with badges } { tile with badge } hdot
  unfold writeTile
  rw [hplaced]
  dsimp only
  rw [hmarked]
  constructor
  · unfold Tile.drawing
    dsimp only
    rw [hvisible, hfinite]
    rfl
  · dsimp only [Tile.wantsDot]
    rw [hvisible, hfinite, Bool.true_and, Bool.and_true]
    exact hdots
  · dsimp only [Tile.wantsBadge]
    rw [hvisible, hfinite, Bool.true_and, Bool.and_true]
    exact hbadges

/-- A placed tile is drawn as it then stands. -/
theorem marks_placeTile (pool : Pool) (tile : Tile α) :
    Marks g settings pool (placeTile g settings retracting pool tile) := by
  unfold placeTile
  dsimp only
  by_cases hvisible : tile.visible = true
  · rw [if_pos hvisible]
    generalize hstep : Tile.step { tile with dot := none, badge := none } g.iconSize retracting
      = stepped
    obtain ⟨moved, glided⟩ := stepped
    obtain rfl := congrArg Prod.fst hstep
    dsimp only
    by_cases hfinite : (Tile.step { tile with dot := none, badge := none } g.iconSize
        retracting).1.position.isFinite = true
    · rw [if_pos hfinite]
      exact marks_writeTile g settings pool _ glided rfl rfl hvisible hfinite
    · rw [if_neg hfinite]
      refine marks_idle g settings pool _ glided rfl rfl ?_
      rw [(Bool.not_eq_true _).mp hfinite, Bool.and_false]
  · rw [if_neg hvisible]
    refine marks_idle g settings pool { tile with dot := none, badge := none } false rfl rfl ?_
    show (tile.visible && tile.position.isFinite) = false
    rw [(Bool.not_eq_true _).mp hvisible, Bool.false_and]

/-! ## All tiles -/

/-- What has been handed out of some slots for the tiles of a frame.  None that wants a marker goes
    without, as long as there are enough. -/
structure Supplied (marker : Tile α → Option Id) (wants : Tile α → Bool) (slots slots' : List Slot)
    (tiles tiles' : List (Tile α)) : Prop where
  serves : Pool.Serves slots slots' (tiles'.filterMap marker)
  wanted : ∀ tile ∈ tiles', (marker tile).isSome = true →
    (wants tile && tile.position.isFinite) = true
  given : (Pool.takenIds slots).length + (tiles.filter wants).length ≤ slots.length →
    ∀ tile ∈ tiles', (wants tile && tile.position.isFinite) = true → (marker tile).isSome = true

section Supplied

variable {marker : Tile α → Option Id} {wants : Tile α → Bool} {slots slots' slots'' : List Slot}
variable {tile tile' : Tile α} {tiles tiles' rest rest' : List (Tile α)}

/-- What is handed out for the first tile leaves enough for the others. -/
theorem Supplied.cons
    (first : Pool.Hands slots slots' (wants tile' && tile'.position.isFinite) (marker tile'))
    (others : Supplied marker wants slots' slots'' rest rest')
    (hwants : wants tile' = wants tile) :
    Supplied marker wants slots slots'' (tile :: rest) (tile' :: rest') where
  serves := by
    have hserved : (tile' :: rest').filterMap marker =
        (marker tile').toList ++ rest'.filterMap marker := by
      rw [List.filterMap_cons]
      cases marker tile' <;> rfl
    rw [hserved]
    exact first.serves.trans others.serves
  wanted := by
    intro other hmem
    rcases List.mem_cons.mp hmem with rfl | hlater
    · exact first.wanted
    · exact others.wanted other hlater
  given := by
    intro hroom other hmem hwanted
    rcases List.mem_cons.mp hmem with rfl | hlater
    · have hfirst : wants tile = true := hwants ▸ ((Bool.and_eq_true _ _).mp hwanted).1
      rw [List.filter_cons_of_pos hfirst, List.length_cons] at hroom
      exact first.given hwanted (by omega)
    · refine others.given ?_ other hlater hwanted
      rw [first.serves.length_taken, first.serves.length_eq]
      -- the first tile has taken no more than was set aside for it
      cases htaken : marker tile' with
      | none =>
          have hsub := ((List.sublist_cons_self tile rest).filter wants).length_le
          rw [Option.toList_none, List.length_nil]
          omega
      | some id =>
          have hfirst : wants tile = true := by
            have hgiven := first.wanted (by rw [htaken]; rfl)
            exact hwants ▸ ((Bool.and_eq_true _ _).mp hgiven).1
          rw [List.filter_cons_of_pos hfirst, List.length_cons] at hroom
          rw [Option.toList_some, List.length_singleton]
          omega

/-- What a frame begun with free markers leaves: what is shown after it is what its tiles have. -/
theorem Supplied.leaves (h : Supplied marker wants (slots.map Pool.free) slots' tiles tiles') :
    (Pool.shownIds (slots'.map Pool.settle)).Perm (tiles'.filterMap marker) ∧
    (slots'.map Pool.settle).length = slots.length ∧
    ∀ id, id ∈ Pool.shownIds slots' ↔ id ∈ Pool.shownIds slots := by
  refine ⟨?_, ?_, ?_⟩
  · have htaken := h.serves.taken_perm
    rw [Pool.takenIds_free, List.append_nil] at htaken
    rw [Pool.shownIds_settle]
    exact htaken
  · rw [List.length_map, h.serves.length_eq, List.length_map]
  · intro id
    rw [h.serves.mem_shownIds_iff, Pool.mem_shownIds, Pool.mem_shownIds, Pool.past_free]

/-- With room for all of them, exactly those tiles have a marker that are to have one. -/
theorem Supplied.isSome_eq (h : Supplied marker wants (slots.map Pool.free) slots' tiles tiles')
    (hroom : (tiles.filter wants).length ≤ slots.length) (hmem : tile ∈ tiles') :
    (marker tile).isSome = (wants tile && tile.position.isFinite) := by
  rw [Bool.eq_iff_iff]
  refine ⟨h.wanted tile hmem, h.given ?_ tile hmem⟩
  rw [Pool.takenIds_free, List.length_map, List.length_nil, Nat.zero_add]
  exact hroom

end Supplied

/-- Tiles that are placed are drawn as they then stand, with what they have been handed out. -/
structure Marked (pool : Pool) (tiles : List (Tile α)) (frame : Frame α) : Prop where
  drawn : frame.commands = frame.tiles.flatMap (Tile.drawing g settings)
  dots : Supplied Tile.dot (Tile.wantsDot settings) pool.dots frame.pool.dots tiles frame.tiles
  badges : Supplied Tile.badge (Tile.wantsBadge settings) pool.badges frame.pool.badges tiles
    frame.tiles

/-- Placing a tile changes nothing of what it wants. -/
theorem wants_placeTile (pool : Pool) (tile : Tile α) :
    (placeTile g settings retracting pool tile).tile.wantsDot settings = tile.wantsDot settings ∧
    (placeTile g settings retracting pool tile).tile.wantsBadge settings =
      tile.wantsBadge settings := by
  have hbare := (placeTile_moves g settings retracting pool tile).1
  have hadvance : (tile.advance g.iconSize retracting).1.wantsDot settings = tile.wantsDot settings ∧
      (tile.advance g.iconSize retracting).1.wantsBadge settings = tile.wantsBadge settings := by
    unfold Tile.advance
    split <;> exact ⟨rfl, rfl⟩
  exact ⟨(congrArg (Tile.wantsDot settings) hbare).trans hadvance.1,
    (congrArg (Tile.wantsBadge settings) hbare).trans hadvance.2⟩

theorem marked_placeTiles (pool : Pool) (tiles : List (Tile α)) :
    Marked g settings pool tiles (placeTiles g settings retracting pool tiles) := by
  have hnone : ∀ (marker : Tile α → Option Id) (wants : Tile α → Bool) (slots : List Slot),
      Supplied marker wants slots slots [] [] := fun _ _ _ => ⟨.refl _, nofun, nofun⟩
  -- each tile is placed with the pool that the tiles before it have left
  induction tiles generalizing pool with
  | nil => exact ⟨rfl, hnone _ _ _, hnone _ _ _⟩
  | cons tile rest ih =>
      have hfirst := marks_placeTile g settings retracting pool tile
      have hrest := ih (placeTile g settings retracting pool tile).pool
      obtain ⟨hdot, hbadge⟩ := wants_placeTile g settings retracting pool tile
      exact ⟨congrArg₂ (· ++ ·) hfirst.drawn hrest.drawn, .cons hfirst.dots hrest.dots hdot,
        .cons hfirst.badges hrest.badges hbadge⟩

/-! ## A frame -/

omit [Scalar α] in
/-- Where markers of a kind are off, no tile wants one. -/
theorem filter_eq_nil_of_off {wants asks : Tile α → Bool} {off : Bool} (hoff : off = true)
    (hwants : ∀ tile, wants tile = (tile.visible && (!off && asks tile))) (tiles : List (Tile α)) :
    tiles.filter wants = [] := by
  refine List.filter_eq_nil_iff.mpr ?_
  intro tile _ hwanted
  rw [hwants, hoff, Bool.not_true, Bool.false_and, Bool.and_false] at hwanted
  exact nomatch hwanted

omit [Scalar α] in
/-- A frame can need no more than is set aside for it. -/
theorem wanted_le_demand (tiles : List (Tile α)) :
    (tiles.filter (Tile.wantsDot settings)).length ≤ (demand settings tiles).1 ∧
      (tiles.filter (Tile.wantsBadge settings)).length ≤ (demand settings tiles).2 := by
  unfold demand
  constructor
  · cases hoff : settings.dot.off with
    | true =>
        have hnone : tiles.filter (Tile.wantsDot settings) = [] :=
          filter_eq_nil_of_off hoff (fun _ => rfl) tiles
        rw [hnone]
        exact Nat.zero_le _
    | false =>
        refine (List.monotone_filter_right tiles ?_).length_le
        intro tile hwants
        exact ((Bool.and_eq_true _ _).mp ((Bool.and_eq_true _ _).mp hwants).2).2
  · cases hoff : settings.badge.off with
    | true =>
        have hnone : tiles.filter (Tile.wantsBadge settings) = [] :=
          filter_eq_nil_of_off hoff (fun _ => rfl) tiles
        rw [hnone]
        exact Nat.zero_le _
    | false => exact List.length_filter_le _ _

/-- What a frame comes to: markers are created, the tiles are drawn, and then the markers are hidden
    that were shown before and are on no tile now. -/
structure Marking (pool : Pool) (tiles : List (Tile α)) (frame : Frame α)
    (created hidden : List (Command α)) : Prop where
  commands_eq : frame.commands =
    created ++ frame.tiles.flatMap (Tile.drawing g settings) ++ hidden
  creates : ∀ command ∈ created, ∃ id kind, command = .createMarker id kind
  hides : ∀ command ∈ hidden, ∃ id, command = .hideMarker id
  retired : ∀ id ∈ pool.lit, id ∉ frame.pool.lit → .hideMarker id ∈ hidden
  stays : ((frame.pool.dots ++ frame.pool.badges).map Slot.id).Nodup →
    ∀ id ∈ frame.pool.lit, .hideMarker id ∉ hidden
  dots_lit : (Pool.shownIds frame.pool.dots).Perm (frame.tiles.filterMap Tile.dot)
  badges_lit : (Pool.shownIds frame.pool.badges).Perm (frame.tiles.filterMap Tile.badge)
  dots_length : frame.pool.dots.length = max (demand settings tiles).1 pool.dots.length
  badges_length : frame.pool.badges.length = max (demand settings tiles).2 pool.badges.length
  dot_iff : ∀ tile ∈ frame.tiles,
    tile.dot.isSome = (tile.wantsDot settings && tile.position.isFinite)
  badge_iff : ∀ tile ∈ frame.tiles,
    tile.badge.isSome = (tile.wantsBadge settings && tile.position.isFinite)

/-- A frame creates the markers that its tiles want more, and hides those that are left. -/
theorem marking_build (pool : Pool) (tiles : List (Tile α)) : ∃ created hidden,
    Marking g settings pool tiles (build g settings retracting pool tiles) created hidden := by
  obtain ⟨hdotsWanted, hbadgesWanted⟩ := wanted_le_demand settings tiles
  unfold build
  rcases hdemand : demand settings tiles with ⟨dots, badges⟩
  rw [hdemand] at hdotsWanted hbadgesWanted
  dsimp only
  obtain ⟨hdotsLength, hbadgesLength⟩ := Pool.length_grow (α := α) pool dots badges
  obtain ⟨hdotsOld, hbadgesOld⟩ := Pool.shownIds_grow (α := α) pool dots badges
  have hcreates := Pool.creates_grow (α := α) pool dots badges
  rcases hgrow : pool.grow (α := α) dots badges with ⟨grown, creations⟩
  rw [hgrow] at hdotsLength hbadgesLength hdotsOld hbadgesOld hcreates
  dsimp only at *
  obtain ⟨hdrawn, hdots, hbadges⟩ := marked_placeTiles g settings retracting grown.freeAll tiles
  generalize placeTiles g settings retracting grown.freeAll tiles = placed at *
  obtain ⟨hdotsLit, hdotsCount, hdotsKept⟩ := hdots.leaves
  obtain ⟨hbadgesLit, hbadgesCount, hbadgesKept⟩ := hbadges.leaves
  -- hiding what is idle leaves just those markers lit that a tile has taken
  have hlit : (placed.pool.hideIdle (α := α)).1.lit =
      Pool.takenIds (placed.pool.dots ++ placed.pool.badges) := by
    rw [Pool.takenIds_append, ← Pool.shownIds_settle, ← Pool.shownIds_settle]
    rfl
  refine ⟨creations, Pool.hidings (placed.pool.dots ++ placed.pool.badges), ?_⟩
  constructor
  · rw [← hdrawn]
    rfl
  · exact hcreates
  · exact Pool.hides_hidings _
  · intro id hold hfree
    rw [hlit] at hfree
    refine Pool.mem_hidings ?_ hfree
    rw [Pool.shownIds_append, List.mem_append, hdotsKept, hbadgesKept, hdotsOld, hbadgesOld]
    exact List.mem_append.mp hold
  · intro hnodup id hmem hhidden
    rw [hlit] at hmem
    refine Pool.not_mem_takenIds_of_hidings ?_ hhidden hmem
    -- settling a slot changes what it shows and not what it is called
    have hids : ∀ slots : List Slot, (slots.map Pool.settle).map Slot.id = slots.map Slot.id := by
      intro slots
      rw [List.map_map]
      rfl
    have hsettled : ((placed.pool.dots.map Pool.settle
        ++ placed.pool.badges.map Pool.settle).map Slot.id).Nodup := hnodup
    rw [List.map_append, hids, hids, ← List.map_append] at hsettled
    exact hsettled
  · exact hdotsLit
  · exact hbadgesLit
  · rw [hdemand]
    exact hdotsCount.trans hdotsLength
  · rw [hdemand]
    exact hbadgesCount.trans hbadgesLength
  · intro tile hmem
    refine hdots.isSome_eq ?_ hmem
    rw [hdotsLength]
    exact Nat.le_trans hdotsWanted (Nat.le_max_left _ _)
  · intro tile hmem
    refine hbadges.isSome_eq ?_ hmem
    rw [hbadgesLength]
    exact Nat.le_trans hbadgesWanted (Nat.le_max_left _ _)

end Frame

end FisheyeDock
