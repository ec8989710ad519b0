import FisheyeDock.Proofs.Dock.Staging

/-! # Every object of the scene lives once

    Whatever happens to a dock, every tile and every marker that it mentions to the scene is created
    once and before anything else, used as what it was created as, released at most once and not
    mentioned afterwards.  What is alive between two events is what the row and the pool hold
    (`Ran.objectsLiveOnce`).

    The run is an induction over `Stage.Agrees` with the roster of the dock, and with the identities
    that neither the row nor the pool has numbered yet.  The three cases of `Staging` are the step. -/

namespace FisheyeDock.Dock

open Scene Marker

variable {α τ : Type}

/-- What the dock holds, as the scene knows it. -/
def roster (dock : Dock α τ) : Roster :=
  (Tile.identities dock.row.tiles).map Tile.entry ++ dock.pool.roster

/-- The objects whose numbers are still to come. -/
def Ahead (tiles markers : Nat) : Object → Prop
  | .tile id => tiles ≤ id.val.toNat
  | .marker id => markers ≤ id.val.toNat

/-- The commands so far have made the scene what the dock takes it for. -/
def Staged (dock : Dock α τ) (stage : Stage) (told : List Deed) : Prop :=
  stage.Agrees told dock.roster (Ahead dock.row.created dock.pool.created)

/-! ## The next numbers -/

section Numbers

variable {stage : Stage} {told : List Deed} {roster new : Roster} {tiles markers : Nat}

/-- An object is numbered as the tile was that it is made for. -/
theorem number_tile {n : Nat} (hn : n < UInt64.size) :
    (Object.tile (Row.idAt n)).number = n :=
  UInt64.toNat_ofNat_of_lt' hn

theorem number_marker {n : Nat} (hn : n < UInt64.size) :
    (Object.marker (Pool.idAt n)).number = n :=
  UInt64.toNat_ofNat_of_lt' hn

theorem ne_of_number_lt {object object' : Object} (h : object'.number < object.number) :
    object ≠ object' := by
  rintro rfl
  exact Nat.lt_irrefl _ h

/-- New tiles may be created on a stage on which nothing is numbered from there on. -/
theorem createTiles (h : stage.Agrees told roster (Ahead tiles markers))
    (hids : new.map Prod.fst = (List.range' tiles new.length).map fun n => .tile (Row.idAt n))
    (hbound : tiles + new.length ≤ UInt64.size) :
    ∃ stage' : Stage, stage'.Agrees (told ++ new.map fun entry => .create entry.1 entry.2)
      (roster ++ new) (Ahead (tiles + new.length) markers) := by
  have hfresh : ∀ n, tiles ≤ n → n < UInt64.size →
      Ahead tiles markers (.tile (Row.idAt n)) := by
    intro n hle hlt
    show tiles ≤ (Object.tile (Row.idAt n)).number
    rw [number_tile hlt]
    exact hle
  obtain ⟨stage', hstage'⟩ := h.createNumbered (fun _ => number_tile) hids hbound hfresh
  refine ⟨stage', hstage'.congr (.refl _) ?_⟩
  intro object hahead
  cases object with
  | tile id =>
      have hnumber : tiles + new.length ≤ (Object.tile id).number := hahead
      refine ⟨Nat.le_trans (Nat.le_add_right _ _) hnumber, fun n hn => ne_of_number_lt ?_⟩
      rw [number_tile (by omega)]
      omega
  | marker id => exact ⟨hahead, fun n _ => nofun⟩

theorem createMarkers (h : stage.Agrees told roster (Ahead tiles markers))
    (hids : new.map Prod.fst = (List.range' markers new.length).map fun n => .marker (Pool.idAt n))
    (hbound : markers + new.length ≤ UInt64.size) :
    ∃ stage' : Stage, stage'.Agrees (told ++ new.map fun entry => .create entry.1 entry.2)
      (roster ++ new) (Ahead tiles (markers + new.length)) := by
  have hfresh : ∀ n, markers ≤ n → n < UInt64.size →
      Ahead tiles markers (.marker (Pool.idAt n)) := by
    intro n hle hlt
    show markers ≤ (Object.marker (Pool.idAt n)).number
    rw [number_marker hlt]
    exact hle
  obtain ⟨stage', hstage'⟩ := h.createNumbered (fun _ => number_marker) hids hbound hfresh
  refine ⟨stage', hstage'.congr (.refl _) ?_⟩
  intro object hahead
  cases object with
  | tile id => exact ⟨hahead, fun n _ => nofun⟩
  | marker id =>
      have hnumber : markers + new.length ≤ (Object.marker id).number := hahead
      refine ⟨Nat.le_trans (Nat.le_add_right _ _) hnumber, fun n hn => ne_of_number_lt ?_⟩
      rw [number_marker (by omega)]
      omega

end Numbers

/-! ## What the commands of a tick are about -/

section Deeds

/-- The backdrop is no object of the protocol. -/
theorem deeds_of_backdrop {commands : List (Command α)}
    (h : ∀ command ∈ commands, IsBackdrop command) : deeds commands = [] := by
  refine deeds_eq_nil ?_
  intro command hmem
  have hbackdrop := h command hmem
  cases command <;> first | rfl | exact hbackdrop.elim

/-- Released tiles release what stands for them. -/
theorem deeds_releases (tiles : List (Tile α)) : deeds (tiles.flatMap Tile.releases) =
    ((Tile.identities tiles).map Tile.entry).map fun entry => .release entry.1 := by
  induction tiles with
  | nil => rfl
  | cons tile rest ih => exact congrArg (Deed.release (.tile tile.id) :: ·) ih

/-- Created tiles create what stands for them. -/
theorem deeds_creations (size : α) (tiles : List (Tile α)) :
    deeds (tiles.flatMap (Tile.creations size)) =
      ((Tile.identities tiles).map Tile.entry).map fun entry => .create entry.1 entry.2 := by
  induction tiles with
  | nil => rfl
  | cons tile rest ih =>
      exact congrArg (Deed.create (.tile tile.id) (.standIn tile.key) :: ·) ih

/-- A tile that is activated is used. -/
theorem deeds_activations (tiles : List (Tile α)) (active : Bool) :
    deeds (tiles.map fun tile => Command.activateTile (α := α) tile.id active) =
      (Tile.identities tiles).map fun identity => .use (.tile identity.1) none := by
  show deeds _ = (tiles.map Tile.identity).map fun identity => .use (.tile identity.1) none
  rw [List.map_map]
  exact deeds_map (fun _ => rfl) tiles

/-- Tiles on the roster can be activated. -/
theorem allows_activations {roster : Roster} {identities : List (Tile.Id × Icon.Key)}
    (hsub : identities.map Tile.entry ⊆ roster) :
    ∀ deed ∈ identities.map fun identity => Deed.use (.tile identity.1) none,
      roster.Allows deed := by
  intro deed hdeed
  obtain ⟨identity, hidentity, rfl⟩ := List.mem_map.mp hdeed
  exact ⟨Tile.entry identity, hsub (List.mem_map_of_mem hidentity), .inl rfl⟩

end Deeds

/-! ## One event -/

variable {dock dock' : Dock α τ} {host : Host α} {commands : List (Command α)}
variable {stage : Stage} {told : List Deed}

/-- A withdrawal releases what is on the roster. -/
theorem deeds_withdrawal (dock : Dock α τ) : deeds (dock.row.clear.2 ++ dock.pool.clear.2) =
    dock.roster.map fun entry => .release entry.1 := by
  unfold Row.clear
  rw [deeds_append, Pool.deeds_clear, deeds_releases]
  exact List.map_append.symm

/-- The roster of a dock that has withdrawn is empty. -/
theorem roster_cleared (row : dock'.row = dock.row.clear.1)
    (pool : dock'.pool = (dock.pool.clear (α := α)).1) : dock'.roster = [] := by
  show (Tile.identities dock'.row.tiles).map Tile.entry ++ dock'.pool.roster = []
  rw [row, pool]
  rfl

/-- To take everything out of the scene releases all of it. -/
theorem Staged.withdraws (h : dock.Staged stage told) (row : dock'.row = dock.row.clear.1)
    (pool : dock'.pool = (dock.pool.clear (α := α)).1) : ∃ stage' : Stage,
    dock'.Staged stage' (told ++ deeds (dock.row.clear.2 ++ dock.pool.clear.2)) := by
  have hall : stage.Agrees told (dock.roster ++ [])
      (Ahead dock.row.created dock.pool.created) := by
    rw [List.append_nil]
    exact h
  obtain ⟨stage', hstage'⟩ := hall.releaseAll
  refine ⟨stage', ?_⟩
  show stage'.Agrees _ dock'.roster (Ahead dock'.row.created dock'.pool.created)
  rw [deeds_withdrawal, roster_cleared row pool, row, pool]
  exact hstage'

/-- The exchange of tiles releases what is gone and creates what is new. -/
theorem exchange {row row' : Row α} {size : α} {changes : List (Command α)}
    {kept gone new : List (Tile α)} {markers : Roster} {made : Nat}
    (h : stage.Agrees told ((Tile.identities row.tiles).map Tile.entry ++ markers)
      (Ahead row.created made))
    (exchanges : Row.Exchanges row row' size changes kept gone new)
    (hbound : row'.created ≤ UInt64.size) :
    ∃ stage' : Stage, stage'.Agrees (told ++ deeds changes)
      ((Tile.identities row'.tiles).map Tile.entry ++ markers) (Ahead row'.created made) := by
  have hsplit := (exchanges.split.map Tile.identity).map Tile.entry
  rw [List.map_append, List.map_append] at hsplit
  -- first what is gone is released, then what is new is created
  have hgone := h.perm (hsplit.append_right markers)
  rw [List.append_assoc] at hgone
  obtain ⟨stage₁, hkept⟩ := hgone.releaseAll
  rw [exchanges.created] at hbound ⊢
  have hlength : ((Tile.identities new).map Tile.entry).length = new.length := by
    show ((new.map Tile.identity).map Tile.entry).length = new.length
    rw [List.length_map, List.length_map]
  have hids : ((Tile.identities new).map Tile.entry).map Prod.fst =
      (List.range' row.created ((Tile.identities new).map Tile.entry).length).map
        fun n => .tile (Row.idAt n) := by
    have hobjects := congrArg (List.map Object.tile) exchanges.ids
    rw [List.map_map, List.map_map] at hobjects
    rw [hlength]
    unfold Tile.identities
    rw [List.map_map, List.map_map]
    exact hobjects
  obtain ⟨stage₂, hnew⟩ := createTiles hkept hids (by omega)
  rw [hlength] at hnew
  refine ⟨stage₂, ?_⟩
  rw [exchanges.commands_eq, deeds_append, deeds_releases, deeds_creations, exchanges.identities,
    Tile.identities_append, List.map_append, ← List.append_assoc]
  refine hnew.perm ?_
  show List.Perm _ _
  rw [List.append_assoc, List.append_assoc]
  exact List.perm_append_comm.append_left _

/-- A frame creates the markers that it lacks and uses what there is. -/
theorem exhibit {pool : Pool} {tiles : List (Tile α)} {frame : Frame α} {new : Roster}
    {drawn : List Deed} {made : Nat}
    (h : stage.Agrees told ((Tile.identities tiles).map Tile.entry ++ pool.roster)
      (Ahead made pool.created))
    (exhibits : Frame.Exhibits pool tiles frame new drawn)
    (hbound : frame.pool.created ≤ UInt64.size) :
    ∃ stage' : Stage, stage'.Agrees (told ++ deeds frame.commands)
      ((Tile.identities frame.tiles).map Tile.entry ++ frame.pool.roster)
      (Ahead made frame.pool.created) := by
  rw [exhibits.created] at hbound
  obtain ⟨stage', hnew⟩ := createMarkers h exhibits.ids hbound
  rw [List.append_assoc] at hnew
  have hdrawn := hnew.useAll exhibits.allows
  refine ⟨stage', ?_⟩
  rw [exhibits.deeds_eq, exhibits.created, exhibits.identities, ← List.append_assoc]
  exact hdrawn.perm (exhibits.roster.symm.append_left _)

variable [Scalar α]

/-- Numbers are only counted up. -/
theorem Staging.created_le (h : Staging dock host dock' commands) :
    dock.row.created ≤ dock'.row.created ∧ dock.pool.created ≤ dock'.pool.created := by
  cases h with
  | rests row pool backdrop =>
      rw [row, pool]
      exact ⟨Nat.le_refl _, Nat.le_refl _⟩
  | withdraws row pool layers backdrop commands_eq =>
      rw [row, pool]
      exact ⟨Nat.le_refl _, Nat.le_refl _⟩
  | frames layouts changes layers row kept gone new arranged tiles retracting active backdrop
      exchanges arrangedPerm moved commands_eq row_eq pool_eq =>
      obtain ⟨markers, drawn, hframe⟩ := Frame.build_exhibits host.geometry host.settings retracting
        dock.pool tiles
      rw [row_eq, pool_eq, hframe.created]
      refine ⟨?_, Nat.le_add_right _ _⟩
      show dock.row.created ≤ row.created
      rw [exchanges.created]
      exact Nat.le_add_right _ _

/-- Every event keeps the scene what the dock takes it for. -/
theorem Staged.step (h : dock.Staged stage told) (staging : Staging dock host dock' commands)
    (htiles : dock'.row.created ≤ UInt64.size) (hmarkers : dock'.pool.created ≤ UInt64.size) :
    ∃ stage' : Stage, dock'.Staged stage' (told ++ deeds commands) := by
  cases staging with
  | rests row pool backdrop =>
      refine ⟨stage, ?_⟩
      unfold Staged roster at h ⊢
      rw [deeds_of_backdrop backdrop, List.append_nil, row, pool]
      exact h
  | withdraws row pool layers backdrop commands_eq =>
      rw [commands_eq, deeds_append, deeds_of_backdrop backdrop, List.append_nil]
      exact h.withdraws row pool
  | frames layouts changes layers row kept gone new arranged tiles retracting active backdrop
      exchanges arrangedPerm moved commands_eq row_eq pool_eq =>
      obtain ⟨markers, drawn, hframe⟩ := Frame.build_exhibits host.geometry host.settings retracting
        dock.pool tiles
      generalize Frame.build host.geometry host.settings retracting dock.pool tiles = frame at *
      rw [row_eq] at htiles
      rw [pool_eq] at hmarkers
      obtain ⟨stage₁, hrow⟩ := exchange h exchanges htiles
      -- neither the order of the row nor the lens changes which tiles there are
      have harranged := hrow.perm ((arrangedPerm.symm.map Tile.entry).append_right _)
      have hactive := harranged.useAll
        (allows_activations (List.subset_append_left (List.map Tile.entry _) _))
      rw [← moved] at hactive
      obtain ⟨stage₂, hshown⟩ := exhibit hactive hframe hmarkers
      refine ⟨stage₂, ?_⟩
      have hlayouts : deeds layouts = [] :=
        deeds_of_backdrop fun command hmem => backdrop command (List.mem_append_left _ hmem)
      have hlayers : deeds layers = [] :=
        deeds_of_backdrop fun command hmem => backdrop command (List.mem_append_right _ hmem)
      unfold Staged roster
      rw [row_eq, pool_eq, commands_eq]
      simp only [deeds_append, hlayouts, hlayers, deeds_activations, List.nil_append,
        List.append_nil, ← List.append_assoc]
      rw [moved] at hshown
      exact hshown

/-! ## Runs -/

variable [TimerService τ] {trace : List (Command α)}

/-- At every time of a run there is a stage on which all was allowed. -/
theorem Ran.staged (h : Ran dock trace) (htiles : dock.row.created ≤ UInt64.size)
    (hmarkers : dock.pool.created ≤ UInt64.size) :
    ∃ stage : Stage, dock.Staged stage (deeds trace) := by
  induction h with
  | new timers => exact ⟨fun _ => .unborn, .bare _⟩
  | event host event before step ih =>
      have hstaging := handle_staging step
      -- the limit on the numbers holds at every earlier moment, too
      obtain ⟨hrow, hpool⟩ := hstaging.created_le
      obtain ⟨stage, hstage⟩ := ih (Nat.le_trans hrow htiles) (Nat.le_trans hpool hmarkers)
      rw [deeds_append]
      exact hstage.step hstaging htiles hmarkers
  | drift timers before ih => exact ih htiles hmarkers

/-- **EVERY OBJECT OF THE SCENE LIVES ONCE** in every run, as long as no more objects of a sort are
    created than there are identities: there is a life for each object that its commands tell, and
    the objects that are alive are the tiles of the row and the markers of the pool, as what they
    are there. -/
theorem Ran.objectsLiveOnce (h : Ran dock trace) (htiles : dock.row.created ≤ UInt64.size)
    (hmarkers : dock.pool.created ≤ UInt64.size) :
    ∃ stage : Stage, (∀ object, (stage object).Tells object (deedsOn object (deeds trace))) ∧
      (∀ object role, stage object = .live role ↔ (object, role) ∈ dock.roster) ∧
      (dock.roster.map Prod.fst).Nodup := by
  obtain ⟨stage, hstage⟩ := h.staged htiles hmarkers
  exact ⟨stage, hstage.tells, hstage.live_iff, hstage.nodup⟩

/-- One favorite with a notification in a standard dock. -/
private def oneCalling : Host Float where
  settings := .standard
  geometry := .standard
  icons := [{ Icon.favorite 7 ⟨0.0, 0.0⟩ with notifications := 1 }]

set_option maxRecDepth 2048 in
/-- A first tick creates a tile and a badge for it, and both are alive. -/
theorem objectsLiveOnce_after_tick : ∃ (dock : Dock Float Clock) (trace : List (Command Float))
    (stage : Stage), Ran dock trace ∧
      dock.roster = [(.tile ⟨0⟩, .standIn 7), (.marker ⟨0⟩, .marker .badge)] ∧
      ∀ object role, stage object = .live role ↔ (object, role) ∈ dock.roster := by
  have henabled := (Ran.new (α := Float) Clock.start).event oneCalling .enable rfl
  have hticked := henabled.event oneCalling (.alarm .tick) rfl
  have hbound : 1 ≤ UInt64.size := by decide
  obtain ⟨stage, -, hlive, -⟩ := hticked.objectsLiveOnce hbound hbound
  exact ⟨_, _, stage, hticked, rfl, hlive⟩

end FisheyeDock.Dock
