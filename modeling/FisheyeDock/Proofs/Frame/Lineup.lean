import FisheyeDock.Proofs.Frame.Motion
import FisheyeDock.Proofs.Lens.Names
import FisheyeDock.Proofs.Lens.Visible
import FisheyeDock.Proofs.Row.Sorting

/-! # Rows that differ in names

    The names of tiles are of no account to a frame, which passes them on to the scene and does
    nothing else with them.  Nor is the order of the tiles that are not visible: they come last, and
    take nothing from the pool.  Two rows that differ in nothing else are a `Lineup`.  Tiles that
    need not even be in one order become one by being sorted (`lineup_sortTiles`), and the frames
    that are built from a lineup are the same but for names (`Lineup.build`). -/

namespace FisheyeDock

open Scene (Command)

variable {α : Type}

/-- A tile without its name. -/
def Tile.nameless (tile : Tile α) : Tile α := tile.rename (fun _ => ⟨0⟩) fun marker => marker

/-- A tile without its name and its markers. -/
def Tile.plain (tile : Tile α) : Tile α := tile.rename (fun _ => ⟨0⟩) fun _ => none

/-- A command without the name of the tile that it is about. -/
def Scene.Command.nameless : Command α → Command α
  | .createTile _ key size => .createTile ⟨0⟩ key size
  | .releaseTile _ => .releaseTile ⟨0⟩
  | .showTile _ visible => .showTile ⟨0⟩ visible
  | .activateTile _ reactive => .activateTile ⟨0⟩ reactive
  | .transformTile _ position scale => .transformTile ⟨0⟩ position scale
  | command => command

variable [Scalar α]

/-- A tile as it comes to the next tick, but for its name. -/
def Tile.lasting (tile : Tile α) : Tile α := tile.plain.reset

namespace Frame

open Marker

variable (g : Geometry α) (settings : Settings α) (retracting : Bool) (pool : Pool)

/-! ## Without names -/

omit [Scalar α] in
def nameless (frame : Frame α) : Frame α :=
  { frame with
    tiles := frame.tiles.map Tile.nameless
    commands := frame.commands.map Command.nameless }

omit [Scalar α] in
def Placed.nameless (placed : Placed α) : Placed α :=
  { placed with
    tile := placed.tile.nameless
    commands := placed.commands.map Command.nameless }

omit [Scalar α] in
/-- Where a step of a frame leads without names. -/
def namelessStep (step : Pool × Tile α × List (Command α)) : Pool × Tile α × List (Command α) :=
  (step.1, step.2.1.nameless, step.2.2.map Command.nameless)

/-- A badge is placed by what a tile is, not by its name. -/
theorem placeBadge_nameless (tile : Tile α) : placeBadge g settings pool tile.nameless =
    namelessStep (placeBadge g settings pool tile) := by
  unfold placeBadge
  show (if !settings.badge.off && decide (0 < tile.notifications) then _ else _) = _
  split
  · rcases pool.take .badge with ⟨_ | id, pool'⟩ <;> rfl
  · rfl

theorem placeDot_nameless (tile : Tile α) : placeDot g settings pool tile.nameless =
    namelessStep (placeDot g settings pool tile) := by
  unfold placeDot
  show (if !settings.dot.off && decide (0 < tile.windows) then _ else _) = _
  split
  · rcases pool.take .dot with ⟨_ | id, pool'⟩ <;> rfl
  · rfl

theorem writeTile_nameless (tile : Tile α) : writeTile g settings pool tile.nameless =
    namelessStep (writeTile g settings pool tile) := by
  unfold writeTile
  rw [placeBadge_nameless]
  rcases placeBadge g settings pool tile with ⟨pool₁, tile₁, badge⟩
  dsimp only [namelessStep]
  rw [placeDot_nameless]
  rcases placeDot g settings pool₁ tile₁ with ⟨pool₂, tile₂, dot⟩
  simp only [namelessStep, List.map_cons, List.map_append]
  rfl

/-- A tile is placed in the same way without its name, and has no markers before it is placed. -/
theorem placeTile_plain (tile : Tile α) : placeTile g settings retracting pool tile.plain =
    (placeTile g settings retracting pool tile).nameless := by
  unfold placeTile
  dsimp only
  by_cases hvisible : tile.visible = true
  · have hvisible' : tile.plain.visible = true := hvisible
    rw [if_pos hvisible, if_pos hvisible']
    generalize hstep : Tile.step { tile with dot := none, badge := none } g.iconSize retracting
      = stepped
    generalize hstep' : Tile.step { tile.plain with dot := none, badge := none } g.iconSize
      retracting = stepped'
    obtain rfl : stepped' = (stepped.1.nameless, stepped.2) := by
      rw [← hstep, ← hstep']
      rfl
    by_cases hfinite : stepped.1.position.isFinite = true
    · have hfinite' : stepped.1.nameless.position.isFinite = true := hfinite
      rw [if_pos hfinite, if_pos hfinite', writeTile_nameless]
      rfl
    · have hfinite' : ¬ stepped.1.nameless.position.isFinite = true := hfinite
      rw [if_neg hfinite, if_neg hfinite']
      rfl
  · have hvisible' : ¬ tile.plain.visible = true := hvisible
    rw [if_neg hvisible, if_neg hvisible']
    rfl

/-- Tiles without what names them are placed alike. -/
theorem placeTiles_plain (tiles : List (Tile α)) :
    placeTiles g settings retracting pool (tiles.map Tile.plain) =
      (placeTiles g settings retracting pool tiles).nameless := by
  induction tiles generalizing pool with
  | nil => rfl
  | cons tile rest ih =>
      simp only [List.map_cons, placeTiles, placeTile_plain, Placed.nameless, ih, nameless,
        List.map_append]

/-! ## Without what is not visible -/

/-- What is not visible is hidden, and nothing else happens to it. -/
theorem placeTiles_ghosts {ghosts : List (Tile α)} (h : Lens.Ghosts ghosts) :
    placeTiles g settings retracting pool ghosts =
      { pool
        tiles := ghosts.map Tile.bare
        commands := ghosts.map fun tile => .showTile tile.id false
        glided := false } := by
  induction ghosts with
  | nil => rfl
  | cons tile rest ih =>
      obtain ⟨htile, hrest⟩ := List.forall_mem_cons.mp h
      have hplaced : placeTile g settings retracting pool tile =
          ⟨pool, tile.bare, [.showTile tile.id false], false⟩ := by
        have hhidden : ¬ tile.visible = true := by
          rw [htile]
          exact Bool.false_ne_true
        unfold placeTile
        dsimp only
        rw [if_neg hhidden]
        show Placed.mk pool tile.bare [.showTile tile.id tile.visible] false = _
        rw [htile]
      rw [placeTiles, hplaced]
      dsimp only
      rw [ih hrest]
      rfl

/-- Tiles are placed before those behind them, which get what is left of the pool. -/
theorem placeTiles_append (tiles more : List (Tile α)) :
    placeTiles g settings retracting pool (tiles ++ more) =
      let first := placeTiles g settings retracting pool tiles
      let others := placeTiles g settings retracting first.pool more
      { pool := others.pool
        tiles := first.tiles ++ others.tiles
        commands := first.commands ++ others.commands
        glided := first.glided || others.glided } := by
  induction tiles generalizing pool with
  | nil => rfl
  | cons tile rest ih =>
      rw [List.cons_append, placeTiles, ih]
      simp only [placeTiles, List.cons_append, List.append_assoc, Bool.or_assoc]

/-- Tiles are as visible once they are placed as they were before. -/
theorem visible_placeTiles {tiles : List (Tile α)} {visible : Bool}
    (h : ∀ tile ∈ tiles, tile.visible = visible) :
    ∀ tile ∈ (placeTiles g settings retracting pool tiles).tiles, tile.visible = visible := by
  refine Tile.forall_visible_of_map ?_ h
  have hbare := congrArg (List.map Tile.visible)
    (placeTiles_moves g settings retracting pool tiles).1
  rw [List.map_map, List.map_map] at hbare
  refine hbare.trans (List.map_congr_left fun tile _ => ?_)
  show (tile.advance g.iconSize retracting).1.visible = tile.visible
  unfold Tile.advance
  split <;> rfl

end Frame

/-! ## Lineups -/

/-- Two rows in order: their visible tiles are the same but for their names and their markers, and
    so are the other ones but for their order, too. -/
inductive Lineup : List (Tile α) → List (Tile α) → Prop where
  | mk {tiles tiles' ghosts ghosts' : List (Tile α)}
      (visible : ∀ tile ∈ tiles, tile.visible = true)
      (visible' : ∀ tile ∈ tiles', tile.visible = true)
      (hidden : Lens.Ghosts ghosts) (hidden' : Lens.Ghosts ghosts')
      (same : tiles'.map Tile.plain = tiles.map Tile.plain)
      (perm : (ghosts'.map Tile.lasting).Perm (ghosts.map Tile.lasting)) :
      Lineup (tiles ++ ghosts) (tiles' ++ ghosts')

/-- The frames that two rows come to are the same but for the names of tiles. -/
structure SameFrame (frame frame' : Frame α) : Prop where
  pool : frame'.pool = frame.pool
  glided : frame'.glided = frame.glided
  commands : frame'.commands.map Command.nameless = frame.commands.map Command.nameless
  seen : (Tile.seen frame'.tiles).map Tile.nameless = (Tile.seen frame.tiles).map Tile.nameless
  perm : (frame'.tiles.map Tile.lasting).Perm (frame.tiles.map Tile.lasting)

variable {tiles tiles' : List (Tile α)} {anchor : Point α} {negative : Bool}

/-- What tiles are the same but for their names and markers is the same of what comes of them. -/
theorem map_lasting_of_plain (h : tiles'.map Tile.plain = tiles.map Tile.plain) :
    tiles'.map Tile.lasting = tiles.map Tile.lasting := by
  have hreset := congrArg (List.map Tile.reset) h
  rw [List.map_map, List.map_map] at hreset
  exact hreset

/-- Tiles in line have the same lasting tiles in another order. -/
theorem Lineup.perm (h : Lineup tiles tiles') :
    (tiles'.map Tile.lasting).Perm (tiles.map Tile.lasting) := by
  obtain ⟨-, -, -, -, same, perm⟩ := h
  rw [List.map_append, List.map_append, map_lasting_of_plain same]
  exact perm.append_left _

theorem Lineup.length (h : Lineup tiles tiles') : tiles'.length = tiles.length := by
  have hlength := h.perm.length_eq
  rw [List.length_map, List.length_map] at hlength
  exact hlength

theorem Lineup.map_visible (h : Lineup tiles tiles') :
    tiles'.map Tile.visible = tiles.map Tile.visible := by
  obtain ⟨-, -, hidden, hidden', same, perm⟩ := h
  have hghosts : ∀ {ghosts : List (Tile α)}, Lens.Ghosts ghosts →
      ghosts.map Tile.visible = List.replicate ghosts.length false := by
    intro ghosts hghosts
    rw [List.map_congr_left hghosts]
    exact List.map_const'
  have hvisible := congrArg (List.map Tile.visible) same
  rw [List.map_map, List.map_map] at hvisible
  have hlength := perm.length_eq
  rw [List.length_map, List.length_map] at hlength
  rw [List.map_append, List.map_append, hghosts hidden, hghosts hidden', hlength]
  exact congrArg (· ++ _) hvisible

/-! ### Sorting -/

/-- Tiles are measured in whatever order. -/
theorem Row.Measured.of_perm (h : Row.Measured anchor tiles)
    (perm : (tiles'.map Tile.lasting).Perm (tiles.map Tile.lasting)) :
    Row.Measured anchor tiles' := by
  intro tile hmem hvisible
  obtain ⟨other, hother, heq⟩ := List.mem_map.mp (perm.mem_iff.mp (List.mem_map_of_mem hmem))
  have hfixed : other.fixed = tile.fixed := (congrArg Tile.fixed heq :)
  have hsame : other.visible = tile.visible := (congrArg Tile.visible heq :)
  rw [← hfixed]
  exact h other hother (hsame.trans hvisible)

/-- Sorted and at rest, tiles line up that come in whatever order, as long as no two of the visible
    ones are equally far. -/
theorem lineup_sortTiles [OrderedScalar α]
    (perm : (tiles'.map Tile.lasting).Perm (tiles.map Tile.lasting))
    (measured : Row.Measured anchor tiles)
    (apart : Row.Apart anchor negative ((Tile.seen tiles).map Tile.lasting)) :
    Lineup ((Row.sortTiles anchor tiles negative).map Tile.reset)
      ((Row.sortTiles anchor tiles' negative).map Tile.reset) := by
  have hseen : ∀ tiles : List (Tile α),
      (Tile.seen tiles).map Tile.lasting = Tile.seen (tiles.map Tile.lasting) := by
    intro tiles
    rw [Tile.seen, Tile.seen, List.filter_map]
    rfl
  have hunseen : ∀ tiles : List (Tile α),
      (Tile.unseen tiles).map Tile.lasting = Tile.unseen (tiles.map Tile.lasting) := by
    intro tiles
    rw [Tile.unseen, Tile.unseen, List.filter_map]
    rfl
  have hvisible : ∀ tiles : List (Tile α),
      ∀ tile ∈ (Row.sortTiles anchor (Tile.seen tiles) negative).map Tile.reset, tile.visible = true := by
    intro tiles tile hmem
    obtain ⟨old, hold, rfl⟩ := List.mem_map.mp hmem
    show old.visible = true
    exact Tile.visible_of_mem_seen ((Row.sortTiles_perm _ _ _).mem_iff.mp hold)
  have hhidden : ∀ tiles : List (Tile α), Lens.Ghosts ((Tile.unseen tiles).map Tile.reset) := by
    intro tiles tile hmem
    obtain ⟨old, hold, rfl⟩ := List.mem_map.mp hmem
    show old.visible = false
    exact Tile.visible_of_mem_unseen hold
  rw [Row.sortTiles_eq_append measured, Row.sortTiles_eq_append (measured.of_perm perm),
    List.map_append, List.map_append]
  refine .mk (hvisible tiles) (hvisible tiles') (hhidden tiles) (hhidden tiles') ?_ ?_
  · -- without their names, there is one order for the visible tiles of both
    have hsorted : ∀ tiles : List (Tile α),
        ((Row.sortTiles anchor (Tile.seen tiles) negative).map Tile.reset).map Tile.plain =
          Row.sortTiles anchor ((Tile.seen tiles).map Tile.lasting) negative := by
      intro tiles
      rw [Row.sortTiles_map Tile.lasting (fun _ => rfl), List.map_map]
      rfl
    have hperm : ((Tile.seen tiles).map Tile.lasting).Perm
        ((Tile.seen tiles').map Tile.lasting) := by
      rw [hseen, hseen]
      exact perm.symm.filter _
    rw [hsorted, hsorted, Row.sortTiles_eq_of_perm hperm apart]
  · -- the others come behind them in whatever order
    have hrest : ∀ tiles : List (Tile α),
        ((Tile.unseen tiles).map Tile.reset).map Tile.lasting =
          Tile.unseen (tiles.map Tile.lasting) := by
      intro tiles
      rw [← hunseen, List.map_map]
      rfl
    rw [hrest, hrest]
    exact perm.filter _

/-! ### The lens -/

/-- In two rows in line the same tile is nearest. -/
theorem Lineup.nearest? (h : Lineup tiles tiles') (g : Geometry α) :
    Lens.nearest? g tiles' = Lens.nearest? g tiles := by
  obtain ⟨-, -, hidden, hidden', same, -⟩ := h
  rw [Lens.nearest?_append_ghosts hidden, Lens.nearest?_append_ghosts hidden']
  have hplain := congrArg (Lens.nearestFrom g none 0) same
  unfold Tile.plain at hplain
  rw [Lens.nearestFrom_rename, Lens.nearestFrom_rename] at hplain
  exact hplain

/-! ### Frames -/

/-- In whatever order, tiles ask for the same markers. -/
theorem demand_of_perm (settings : Settings α)
    (h : (tiles'.map Tile.lasting).Perm (tiles.map Tile.lasting)) :
    Frame.demand settings tiles' = Frame.demand settings tiles := by
  have hwindows : ∀ tiles : List (Tile α),
      (tiles.filter fun tile => decide (0 < tile.windows)).length =
        ((tiles.map Tile.lasting).filter fun tile => decide (0 < tile.windows)).length := by
    intro tiles
    rw [List.filter_map, List.length_map]
    rfl
  have hlength := h.length_eq
  rw [List.length_map, List.length_map] at hlength
  unfold Frame.demand
  rw [hwindows tiles', hwindows tiles, (h.filter _).length_eq, hlength]

/-- The frames that are built from a lineup are the same but for names. -/
theorem Lineup.build (h : Lineup tiles tiles') (g : Geometry α) (settings : Settings α)
    (retracting : Bool) (pool : Marker.Pool) :
    SameFrame (Frame.build g settings retracting pool tiles)
      (Frame.build g settings retracting pool tiles') := by
  unfold Frame.build
  rw [demand_of_perm settings h.perm]
  rcases Frame.demand settings tiles with ⟨dots, badges⟩
  dsimp only
  rcases pool.grow (α := α) dots badges with ⟨grown, creations⟩
  dsimp only
  generalize grown.freeAll = pool
  obtain ⟨visible, visible', hidden, hidden', same, perm⟩ := h
  rename_i tiles tiles' ghosts ghosts'
  rw [Frame.placeTiles_append, Frame.placeTiles_append]
  dsimp only
  rw [Frame.placeTiles_ghosts _ _ _ _ hidden, Frame.placeTiles_ghosts _ _ _ _ hidden']
  -- the visible tiles are placed in the same way
  have hplaced : (Frame.placeTiles g settings retracting pool tiles').nameless =
      (Frame.placeTiles g settings retracting pool tiles).nameless := by
    rw [← Frame.placeTiles_plain, ← Frame.placeTiles_plain, same]
  have hseen := Frame.visible_placeTiles g settings retracting pool visible
  have hseen' := Frame.visible_placeTiles g settings retracting pool visible'
  generalize Frame.placeTiles g settings retracting pool tiles = placed at *
  generalize Frame.placeTiles g settings retracting pool tiles' = placed' at *
  have hpool : placed'.pool = placed.pool := (congrArg Frame.pool hplaced :)
  have htiles : placed'.tiles.map Tile.nameless = placed.tiles.map Tile.nameless :=
    (congrArg Frame.tiles hplaced :)
  have hcommands : placed'.commands.map Command.nameless = placed.commands.map Command.nameless :=
    (congrArg Frame.commands hplaced :)
  have hglided : placed'.glided = placed.glided := (congrArg Frame.glided hplaced :)
  have hbare : ∀ {ghosts : List (Tile α)}, Lens.Ghosts ghosts →
      Lens.Ghosts (ghosts.map Tile.bare) := fun hghosts => List.forall_mem_map.mpr hghosts
  have hlength := perm.length_eq
  rw [List.length_map, List.length_map] at hlength
  constructor
  · dsimp only
    rw [hpool]
  · dsimp only
    rw [hglided]
  · have hcovered : ∀ ghosts : List (Tile α),
        (ghosts.map fun tile => Command.showTile (α := α) tile.id false).map Command.nameless =
          List.replicate ghosts.length (.showTile ⟨0⟩ false) := by
      intro ghosts
      rw [List.map_map]
      exact List.map_const'
    dsimp only
    simp only [List.map_append, hcommands, hcovered, hlength, hpool]
  · dsimp only
    rw [Lens.seen_append hseen (hbare hidden), Lens.seen_append hseen' (hbare hidden'), htiles]
  · have hlasting : ∀ ghosts : List (Tile α),
        (ghosts.map Tile.bare).map Tile.lasting = ghosts.map Tile.lasting := by
      intro ghosts
      rw [List.map_map]
      rfl
    have hmoved := congrArg (List.map Tile.lasting) htiles
    rw [List.map_map, List.map_map] at hmoved
    dsimp only
    rw [List.map_append, List.map_append, hlasting, hlasting]
    exact (List.Perm.of_eq hmoved).append perm

end FisheyeDock
