import FisheyeDock.Proofs.Dock.Picture
import FisheyeDock.Proofs.Dock.Relisting

/-! # What the scene is told about a tile

    A tick tells the scene all about every tile of the row: whether it takes clicks, whether it is
    shown and, if so, where.  It creates those that are new before (`said`).  No other event tells
    anything about a tile that stays (`Ran.told_event`). -/

namespace FisheyeDock

open Scene (Command Subject Object told told_nil told_cons told_append told_eq_nil
  told_flatMap_eq_nil told_flatMap_of_nodup)

variable {α τ : Type}

/-! ## Exchanging tiles -/

namespace Row

variable [Scalar α] {row : Row α} {icons : List (Icon α)} {favoritesOnly : Bool} {iconSize : α}
variable {tile : Tile α}

omit [Scalar α] in
/-- What creates a tile is said of that tile only. -/
theorem told_creations_tile (size : α) (id : Tile.Id) : told (.tile id) (tile.creations size) =
    if tile.id = id then [.createTile ⟨0⟩ tile.key size] else [] := by
  simp only [Tile.creations, told_cons, told_nil, Command.subject, Command.nameless,
    Subject.tile.injEq, reduceCtorEq, if_false]

omit [Scalar α] in
theorem told_releases_tile (id : Tile.Id) : told (.tile id) tile.releases =
    if tile.id = id then [.releaseTile ⟨0⟩] else [] := by
  simp only [Tile.releases, told_cons, told_nil, Command.subject, Command.nameless,
    Subject.tile.injEq, reduceCtorEq, if_false]

/-- No two of some tiles have one name, and none of them has one that is still to come. -/
structure Numbered (row : Row α) : Prop where
  nodup : (row.tiles.map Tile.id).Nodup
  lt : ∀ tile ∈ row.tiles, tile.id.val.toNat < row.created

/-- New tiles are numbered from where the row stands. -/
theorem created_le_number {first : Nat} {icons : List (Icon α)}
    (hbound : first + (newTiles first icons).length ≤ UInt64.size)
    (hmem : tile ∈ newTiles first icons) : first ≤ tile.id.val.toNat := by
  have hid : tile.id ∈ (newTiles first icons).map Tile.id := List.mem_map_of_mem hmem
  rw [ids_newTiles] at hid
  obtain ⟨n, hn, heq⟩ := List.mem_map.mp hid
  obtain ⟨hle, hlt⟩ := List.mem_range'_1.mp hn
  have hnumber : (idAt n).val.toNat = n := UInt64.toNat_ofNat_of_lt' (by omega)
  rw [← heq, hnumber]
  exact hle

/-- A tile that stays is not spoken of when a row is brought in line with the icons, and a new one is
    created. -/
theorem told_reconcile_tile (numbered : row.Numbered)
    (hbound : (row.reconcile icons favoritesOnly iconSize).1.created ≤ UInt64.size)
    (nodup : ((row.reconcile icons favoritesOnly iconSize).1.tiles.map Tile.id).Nodup)
    (hmem : tile.identity ∈
      Tile.identities (row.reconcile icons favoritesOnly iconSize).1.tiles) :
    (∃ old ∈ row.tiles, old.identity = tile.identity ∧
      told (.tile tile.id) (row.reconcile icons favoritesOnly iconSize).2.1 = []) ∨
    (tile.key ∉ row.tiles.map Tile.key ∧ row.created ≤ tile.id.val.toNat ∧
      told (.tile tile.id) (row.reconcile icons favoritesOnly iconSize).2.1 =
        [.createTile ⟨0⟩ tile.key iconSize]) := by
  rw [reconcile_eq] at *
  dsimp only at *
  generalize Icon.shown favoritesOnly icons = shown at *
  rw [Tile.identities_append, identities_refreshFrom] at hmem
  rw [Tile.map_id_eq, Tile.identities_append, identities_refreshFrom, ← Tile.identities_append,
    ← Tile.map_id_eq, List.map_append] at nodup
  have hnewer : ∀ new ∈ newTiles row.created (row.arrivals shown),
      row.created ≤ new.id.val.toNat := fun new hnew => created_le_number hbound hnew
  -- a tile that is kept has another name than those that come or go
  rcases List.mem_append.mp hmem with hkept | hnew
  · obtain ⟨old, hold, hidentity⟩ := List.mem_map.mp hkept
    obtain ⟨hrow, hwanted⟩ := List.mem_filter.mp hold
    have hid : old.id = tile.id := congrArg Prod.fst hidentity
    refine .inl ⟨old, hrow, hidentity, ?_⟩
    rw [told_append, told_flatMap_eq_nil, told_flatMap_eq_nil]
    · rfl
    · intro new hnew
      rw [told_creations_tile, if_neg]
      intro hsame
      have hlt := numbered.lt old hrow
      rw [hid, ← hsame] at hlt
      exact absurd (hnewer new hnew) (Nat.not_le_of_lt hlt)
    · intro gone hgone
      obtain ⟨hgone, hunwanted⟩ := List.mem_filter.mp hgone
      rw [told_releases_tile, if_neg]
      intro hsame
      obtain rfl := List.inj_on_of_nodup_map numbered.nodup hgone hrow (hsame.trans hid.symm)
      rw [Function.comp_apply, hwanted] at hunwanted
      exact nomatch hunwanted
  · obtain ⟨new, hnew, hidentity⟩ := List.mem_map.mp hnew
    obtain ⟨hid, hkey⟩ := Prod.mk.inj hidentity
    have hfree : new.key ∉ row.tiles.map Tile.key := by
      have harrives : new.key ∈ (newTiles row.created (row.arrivals shown)).map Tile.key :=
        List.mem_map_of_mem hnew
      rw [keys_newTiles] at harrives
      exact (mem_keys_arrivals.mp harrives).2
    refine .inr ⟨hkey ▸ hfree, hid ▸ hnewer new hnew, ?_⟩
    rw [told_append, told_flatMap_eq_nil, ← hid, told_flatMap_of_nodup nodup.of_append_right hnew,
      told_creations_tile, if_pos rfl, hkey]
    · rfl
    · intro other _ hne
      rw [told_creations_tile, if_neg hne]
    · intro gone hgone
      rw [told_releases_tile, if_neg]
      intro hsame
      have hlt := numbered.lt gone (List.mem_filter.mp hgone).1
      rw [hsame, ← hid] at hlt
      exact absurd (hnewer new hnew) (Nat.not_le_of_lt hlt)

end Row

/-! ## Frames -/

section Frame

variable [Scalar α] {tile : Tile α}

/-- What the scene is told about a tile as it stands. -/
def Tile.telling (tile : Tile α) : List (Command α) :=
  .showTile ⟨0⟩ tile.visible ::
    if tile.visible && tile.position.isFinite then [.transformTile ⟨0⟩ tile.position tile.scale]
    else []

/-- What draws a tile is said of that tile only. -/
theorem told_drawing (g : Geometry α) (settings : Settings α) (id : Tile.Id) :
    told (.tile id) (tile.drawing g settings) = if tile.id = id then tile.telling else [] := by
  have hbadge : told (.tile id) (tile.badge.toList.map fun id =>
      Command.showBadge id (tile.badgeFace g settings)) = [] := by
    cases tile.badge <;> rfl
  have hdot : told (.tile id) (tile.dot.toList.map fun id =>
      Command.showDot id (tile.dotFace g settings)) = [] := by
    cases tile.dot <;> rfl
  unfold Tile.drawing Tile.telling
  by_cases hid : tile.id = id
  · cases tile.visible && tile.position.isFinite <;>
      simp [told_cons, told_nil, told_append, Command.subject, Command.nameless, hid, hbadge, hdot]
  · cases tile.visible && tile.position.isFinite <;>
      simp [told_cons, told_nil, told_append, Command.subject, hid, hbadge, hdot]

/-- A frame tells about a tile what is to be told about it. -/
theorem Frame.Marking.told_tile {g : Geometry α} {settings : Settings α} {pool : Marker.Pool}
    {tiles : List (Tile α)} {frame : Frame α} {created hidden : List (Command α)}
    (h : Frame.Marking g settings pool tiles frame created hidden)
    (nodup : (frame.tiles.map Tile.id).Nodup) (hmem : tile ∈ frame.tiles) :
    told (.tile tile.id) frame.commands = tile.telling := by
  have hcreated : told (.tile tile.id) created = [] := by
    refine told_eq_nil fun command hcommand => ?_
    obtain ⟨id, kind, rfl⟩ := h.creates command hcommand
    exact nofun
  have hhidden : told (.tile tile.id) hidden = [] := by
    refine told_eq_nil fun command hcommand => ?_
    obtain ⟨id, rfl⟩ := h.hides command hcommand
    exact nofun
  rw [h.commands_eq, told_append, told_append, hcreated, hhidden, List.nil_append, List.append_nil,
    told_flatMap_of_nodup nodup hmem, told_drawing, if_pos rfl]
  intro other _ hne
  rw [told_drawing, if_neg hne]

omit [Scalar α] in
/-- Of each tile it is said once whether it is active. -/
theorem told_activations {tiles : List (Tile α)} (nodup : (tiles.map Tile.id).Nodup)
    {id : Tile.Id} (hmem : id ∈ tiles.map Tile.id) (active : Bool) :
    told (.tile id) (tiles.map fun tile => Command.activateTile (α := α) tile.id active) =
      [.activateTile ⟨0⟩ active] := by
  obtain ⟨tile, htile, rfl⟩ := List.mem_map.mp hmem
  have hone : ∀ other : Tile α, told (.tile tile.id) [Command.activateTile (α := α) other.id active] =
      if other.id = tile.id then [.activateTile ⟨0⟩ active] else [] := by
    intro other
    simp only [told_cons, told_nil, Command.subject, Command.nameless, Subject.tile.injEq]
  rw [List.map_eq_flatMap, told_flatMap_of_nodup nodup htile, hone, if_pos rfl]
  intro other _ hne
  rw [hone, if_neg hne]

end Frame

namespace Dock

variable {dock dock' : Dock α τ} {trace commands : List (Command α)} {tile : Tile α}

/-! ## Names to come -/

/-- A command about a tile is a deed on it. -/
theorem deed?_of_subject {command : Command α} {id : Tile.Id} (h : command.subject = .tile id) :
    ∃ deed, command.deed? = some deed ∧ deed.object = .tile id := by
  cases command with
  | createTile | releaseTile | showTile | activateTile | transformTile =>
      exact ⟨_, rfl, congrArg Object.tile (Subject.tile.inj h)⟩
  | _ => exact Subject.noConfusion h

/-- The backdrop says nothing of any tile. -/
theorem told_backdrop {id : Tile.Id} (h : ∀ command ∈ commands, IsBackdrop command) :
    told (.tile id) commands = [] := by
  refine told_eq_nil fun command hmem => ?_
  have hbackdrop := h command hmem
  cases command <;> first | exact hbackdrop.elim | exact nofun

/-- What has been told about the tile of a key. -/
def toldOf (dock : Dock α τ) (trace : List (Command α)) (key : Icon.Key) : List (Command α) :=
  (dock.row.get? key).elim [] fun tile => told (.tile tile.id) trace

variable [Scalar α] {host : Host α} {event : Event}

/-- What an event tells about a tile that is there after it. -/
def said (dock : Dock α τ) (host : Host α) (event : Event) (tile : Tile α) : List (Command α) :=
  if dock.drawsOn host event then
    (if tile.key ∈ dock.row.tiles.map Tile.key then []
      else [.createTile ⟨0⟩ tile.key host.geometry.iconSize]) ++
      .activateTile ⟨0⟩ (!host.geometry.autohideHidden) :: tile.telling
  else []

variable [TimerService τ]

/-- Nothing is told about a tile before it has a name. -/
theorem Ran.untold (h : Ran dock trace) (htiles : dock.row.created ≤ UInt64.size)
    (hmarkers : dock.pool.created ≤ UInt64.size) {id : Tile.Id}
    (hahead : dock.row.created ≤ id.val.toNat) : told (.tile id) trace = [] := by
  obtain ⟨stage, hstage⟩ := h.staged htiles hmarkers
  have htells := hstage.tells (.tile id)
  rw [hstage.unborn (.tile id) hahead] at htells
  refine told_eq_nil fun command hmem hsubject => ?_
  obtain ⟨deed, hdeed, hobject⟩ := deed?_of_subject hsubject
  have hdeeds : deed ∈ Scene.deedsOn (.tile id) (Scene.deeds trace) :=
    List.mem_filter.mpr ⟨List.mem_filterMap.mpr ⟨command, hmem, hdeed⟩, decide_eq_true hobject⟩
  have hnone : Scene.deedsOn (.tile id) (Scene.deeds trace) = [] := htells
  rw [hnone] at hdeeds
  exact nomatch hdeeds

/-- The tiles of a row are numbered below what it has created. -/
theorem Ran.numbered (h : Ran dock trace) (htiles : dock.row.created ≤ UInt64.size)
    (hmarkers : dock.pool.created ≤ UInt64.size) : dock.row.Numbered := by
  refine ⟨(h.nodup_ids htiles hmarkers).1, fun tile hmem => ?_⟩
  obtain ⟨stage, hstage⟩ := h.staged htiles hmarkers
  by_contra hahead
  have hunborn := hstage.unborn (.tile tile.id) (Nat.le_of_not_lt hahead)
  have hroster : (Object.tile tile.id, Scene.Role.standIn tile.key) ∈ dock.roster :=
    List.mem_append_left _ (List.mem_map_of_mem (List.mem_map_of_mem hmem))
  have hlive := (hstage.live_iff _ _).mpr hroster
  rw [hunborn] at hlive
  exact nomatch hlive

/-! ## Events -/

omit [Scalar α] [TimerService τ] in
/-- A tile is found by its key, which no other has. -/
theorem get?_eq_some (keys : (dock.row.tiles.map Tile.key).Nodup) (hmem : tile ∈ dock.row.tiles) :
    dock.row.get? tile.key = some tile := by
  unfold Row.get?
  cases hfind : dock.row.tiles.find? (·.key == tile.key) with
  | none => exact absurd (beq_self_eq_true _) (List.find?_eq_none.mp hfind tile hmem)
  | some other =>
      have hkey : other.key = tile.key := beq_iff_eq.mp (List.find?_some hfind :)
      rw [List.inj_on_of_nodup_map keys (List.mem_of_find?_eq_some hfind) hmem hkey]

omit [Scalar α] [TimerService τ] in
/-- What is said of a key is said of the tile that has it. -/
theorem toldOf_eq (keys : (dock.row.tiles.map Tile.key).Nodup) (hmem : tile ∈ dock.row.tiles) :
    dock.toldOf trace tile.key = told (.tile tile.id) trace := by
  unfold toldOf
  rw [get?_eq_some keys hmem]
  rfl

omit [Scalar α] [TimerService τ] in
/-- Of a key that no tile has nothing is said. -/
theorem toldOf_eq_nil {key : Icon.Key} (hfree : key ∉ dock.row.tiles.map Tile.key) :
    dock.toldOf trace key = [] := by
  unfold toldOf Row.get?
  rw [List.find?_eq_none.mpr]
  · rfl
  · intro tile hmem hkey
    exact hfree (beq_iff_eq.mp hkey ▸ List.mem_map_of_mem hmem)

omit [TimerService τ] in
/-- What is told about the tiles of a row while it is brought up to date. -/
theorem told_updates (numbered : dock.row.Numbered)
    (hbound : (dock.updated host).row.created ≤ UInt64.size)
    (nodup : ((dock.updated host).row.tiles.map Tile.id).Nodup)
    (hmem : tile.identity ∈ Tile.identities (dock.updated host).row.tiles) :
    (∃ old ∈ dock.row.tiles, old.identity = tile.identity ∧
      told (.tile tile.id) (dock.updates host) = []) ∨
    (tile.key ∉ dock.row.tiles.map Tile.key ∧ dock.row.created ≤ tile.id.val.toNat ∧
      told (.tile tile.id) (dock.updates host) =
        [.createTile ⟨0⟩ tile.key host.geometry.iconSize]) := by
  obtain ⟨cadence, hlayout, hbackdrop⟩ := takeLayout_cases dock
  have hupdates : told (.tile tile.id) (dock.updates host) = told (.tile tile.id)
      (dock.row.reconcile host.icons host.settings.favoritesOnly host.geometry.iconSize).2.1 := by
    unfold updates
    rw [told_append, told_backdrop hbackdrop, hlayout]
    rfl
  rw [updated_row] at hbound nodup hmem
  have hperm := Row.identities_arrangeFor (host.reconciled dock.row) host.geometry
  rw [Tile.map_id_eq, (hperm.map Prod.fst).nodup_iff, ← Tile.map_id_eq] at nodup
  rw [hupdates]
  exact Row.told_reconcile_tile numbered hbound nodup (hperm.mem_iff.mp hmem)

/-- What has been told about a tile that is there after an event is what had been told about the tile
    of its key before, and what the event tells about it. -/
theorem Ran.told_event (h : Ran dock trace) (step : dock.handle host event = .ok (dock', commands))
    (htiles : dock'.row.created ≤ UInt64.size) (hmarkers : dock'.pool.created ≤ UInt64.size)
    (hmem : tile ∈ dock'.row.tiles) :
    dock'.toldOf (trace ++ commands) tile.key =
      dock.toldOf trace tile.key ++ dock.said host event tile := by
  have hafter := h.event host event step
  have hkeys := h.handedOver.nodup
  obtain ⟨hrow, hpool⟩ := (handle_staging step).created_le
  have hnumbered := h.numbered (hrow.trans htiles) (hpool.trans hmarkers)
  have hids := (hafter.nodup_ids htiles hmarkers).1
  rw [toldOf_eq hafter.handedOver.nodup hmem, told_append]
  cases handle_outcome step with
  | rests stays bare row pool backdrop =>
      rw [row] at hmem
      rw [toldOf_eq hkeys hmem, told_backdrop backdrop, said, bare]
      rfl
  | withdraws leaves row pool layers backdrop commands_eq =>
      rw [row] at hmem
      exact nomatch hmem
  | draws stays drawn tiles magnified layers magnify_eq backdrop commands_eq row_eq pool_eq =>
      obtain ⟨created, hidden, hmarking⟩ := dock.marking_frameOf host tiles
      have hsame := identities_frameOf magnify_eq
      have hframe : dock'.row.tiles = ((dock.updated host).frameOf host tiles).tiles := by rw [row_eq]
      rw [hframe] at hids hmem
      have hrowIds : ((dock.updated host).row.tiles.map Tile.id).Nodup := by
        rw [Tile.map_id_eq, ← hsame, ← Tile.map_id_eq]
        exact hids
      have hidentity : tile.identity ∈ Tile.identities (dock.updated host).row.tiles :=
        hsame ▸ List.mem_map_of_mem hmem
      have hid : tile.id ∈ (dock.updated host).row.tiles.map Tile.id := by
        rw [Tile.map_id_eq]
        exact List.mem_map_of_mem hidentity
      have hbound : (dock.updated host).row.created ≤ UInt64.size := by
        rw [row_eq] at htiles
        exact htiles
      have hcommands : told (.tile tile.id) commands = told (.tile tile.id) (dock.updates host) ++
          .activateTile ⟨0⟩ (!host.geometry.autohideHidden) :: tile.telling := by
        rw [commands_eq, told_append, told_append, told_append, told_activations hrowIds hid,
          hmarking.told_tile hids hmem, told_backdrop backdrop, List.append_nil]
        rfl
      rw [hcommands, said, drawn, if_pos rfl]
      -- of a tile that is kept the story goes on, and that of a new one begins here
      obtain ⟨old, hold, hsameTile, hsilent⟩ | ⟨hfree, hahead, hcreated⟩ :=
        told_updates hnumbered hbound hrowIds hidentity
      · obtain ⟨hid, hkey⟩ := Prod.mk.inj hsameTile
        have hkept : tile.key ∈ dock.row.tiles.map Tile.key := hkey ▸ List.mem_map_of_mem hold
        rw [if_pos hkept, hsilent, ← hid, ← hkey, toldOf_eq hkeys hold]
      · rw [if_neg hfree, hcreated, toldOf_eq_nil hfree,
          h.untold (hrow.trans htiles) (hpool.trans hmarkers) hahead]

end Dock

end FisheyeDock
