import FisheyeDock.Proofs.Dock.Staging

/-! # Icons and the tiles that stand in for them

    A tile takes the place of an icon that is made transparent, and gives the place back when it
    goes.  The last opacity that a key was given tells who is seen: none, or 255, and the icon is; 0,
    and there is a tile for it (`Ran.iconsHandedOver`).

    This rests on there being one tile for a key at most: with two of them, the first to go would
    reveal an icon that the other still covers.  So both are one invariant, `HandedOver`. -/

namespace FisheyeDock.Dock

open Scene (Command lastOf_append lastOf_eq_none lastOf_singleton)

variable {α τ : Type}

/-- The opacity that a command gives to the icon of a key. -/
def opacityOf (key : Icon.Key) : Command α → Option UInt8
  | .setIconOpacity other opacity => if other = key then some opacity else none
  | _ => none

/-- The last opacity that some commands give to the icon of a key. -/
def lastOpacity (key : Icon.Key) (commands : List (Command α)) : Option UInt8 :=
  (commands.filterMap (opacityOf key)).getLast?

/-- No key has two tiles, the icons of the tiles are transparent, and all others are as the host has
    them, or opaque again. -/
structure HandedOver (dock : Dock α τ) (trace : List (Command α)) : Prop where
  nodup : (dock.row.tiles.map Tile.key).Nodup
  covered : ∀ key ∈ dock.row.tiles.map Tile.key, lastOpacity key trace = some 0
  revealed : ∀ key ∉ dock.row.tiles.map Tile.key,
    lastOpacity key trace = none ∨ lastOpacity key trace = some 255

/-! ## The last opacity -/

section LastOpacity

variable {key : Icon.Key} {commands : List (Command α)}

/-- What is sent later counts. -/
theorem lastOpacity_append (before after : List (Command α)) :
    lastOpacity key (before ++ after) = (lastOpacity key after).or (lastOpacity key before) :=
  lastOf_append (opacityOf key) before after

theorem lastOpacity_eq_none (h : ∀ command ∈ commands, opacityOf key command = none) :
    lastOpacity key commands = none :=
  lastOf_eq_none h

theorem lastOpacity_singleton (command : Command α) :
    lastOpacity key [command] = opacityOf key command :=
  lastOf_singleton (opacityOf key) command

/-- Commands that give every tile's icon one opacity. -/
theorem lastOpacity_flatMap {commandsOf : Tile α → List (Command α)} {opacity : UInt8}
    (h : ∀ tile, lastOpacity key (commandsOf tile) =
      if tile.key = key then some opacity else none) (tiles : List (Tile α)) :
    lastOpacity key (tiles.flatMap commandsOf) =
      if key ∈ tiles.map Tile.key then some opacity else none := by
  induction tiles with
  | nil => rfl
  | cons tile rest ih =>
      rw [List.flatMap_cons, lastOpacity_append, ih, h, List.map_cons]
      by_cases hrest : key ∈ rest.map Tile.key
      · rw [if_pos hrest, if_pos (List.mem_cons_of_mem _ hrest)]
        rfl
      · rw [if_neg hrest]
        by_cases hkey : tile.key = key
        · rw [if_pos hkey, if_pos (hkey ▸ List.mem_cons_self)]
          rfl
        · have hnot : key ∉ tile.key :: rest.map Tile.key := by
            rw [List.mem_cons, not_or]
            exact ⟨Ne.symm hkey, hrest⟩
          rw [if_neg hkey, if_neg hnot]
          rfl

/-- Tiles that are released hand the icons over, which are opaque then. -/
theorem lastOpacity_releases (tiles : List (Tile α)) :
    lastOpacity key (tiles.flatMap Tile.releases) =
      if key ∈ tiles.map Tile.key then some 255 else none := by
  refine lastOpacity_flatMap ?_ tiles
  intro tile
  show lastOpacity key ([.releaseTile tile.id] ++ [.setIconOpacity tile.key 255]) = _
  rw [lastOpacity_append, lastOpacity_singleton, lastOpacity_singleton]
  exact Option.or_none

/-- Tiles that are created take the icons over, which are not seen then. -/
theorem lastOpacity_creations (size : α) (tiles : List (Tile α)) :
    lastOpacity key (tiles.flatMap (Tile.creations size)) =
      if key ∈ tiles.map Tile.key then some 0 else none := by
  refine lastOpacity_flatMap ?_ tiles
  intro tile
  show lastOpacity key ([.createTile tile.id tile.key size] ++ [.setIconOpacity tile.key 0]) = _
  rw [lastOpacity_append, lastOpacity_singleton, lastOpacity_singleton]
  exact Option.or_none

theorem lastOpacity_backdrop (h : ∀ command ∈ commands, IsBackdrop command) :
    lastOpacity key commands = none :=
  lastOf_backdrop rfl (fun _ => rfl) h

end LastOpacity

/-! ## One event -/

variable {dock dock' : Dock α τ} {trace commands : List (Command α)}

/-- What the exchange of tiles sends last to an icon. -/
theorem lastOpacity_exchange {row row' : Row α} {size : α} {changes : List (Command α)}
    {kept gone new : List (Tile α)} (exchanges : Row.Exchanges row row' size changes kept gone new)
    (key : Icon.Key) : lastOpacity key changes =
      if key ∈ new.map Tile.key then some 0
      else if key ∈ gone.map Tile.key then some 255 else none := by
  rw [exchanges.commands_eq, lastOpacity_append, lastOpacity_creations, lastOpacity_releases]
  by_cases hnew : key ∈ new.map Tile.key
  · rw [if_pos hnew, if_pos hnew]
    rfl
  · rw [if_neg hnew, if_neg hnew]
    rfl

/-- An exchange of tiles hands the icons over. -/
theorem HandedOver.exchange (h : dock.HandedOver trace) {row' : Row α} {size : α}
    {changes : List (Command α)} {kept gone new : List (Tile α)}
    (exchanges : Row.Exchanges dock.row row' size changes kept gone new)
    (sameTiles : (Tile.identities dock'.row.tiles).Perm (Tile.identities row'.tiles))
    (sent : ∀ key, lastOpacity key commands = lastOpacity key changes) :
    dock'.HandedOver (trace ++ commands) := by
  have hold : (dock.row.tiles.map Tile.key).Perm (gone.map Tile.key ++ kept.map Tile.key) := by
    rw [← List.map_append]
    exact exchanges.split.map Tile.key
  have hkeys : (dock'.row.tiles.map Tile.key).Perm (kept.map Tile.key ++ new.map Tile.key) := by
    rw [Tile.map_key_eq, ← List.map_append, Tile.map_key_eq, ← exchanges.identities]
    exact sameTiles.map Prod.snd
  obtain ⟨-, hkept, hdisjoint⟩ := List.nodup_append'.mp (hold.nodup_iff.mp h.nodup)
  have hlast : ∀ key, lastOpacity key (trace ++ commands) =
      (if key ∈ new.map Tile.key then some 0
        else if key ∈ gone.map Tile.key then some 255 else none).or (lastOpacity key trace) := by
    intro key
    rw [lastOpacity_append, sent, lastOpacity_exchange exchanges]
  constructor
  · rw [hkeys.nodup_iff]
    exact hkept.append exchanges.keys exchanges.disjoint
  · intro key hkey
    rw [hlast]
    rw [hkeys.mem_iff, List.mem_append] at hkey
    rcases hkey with hstays | hcomes
    · -- a tile that stays has no double that could have revealed its icon
      rw [if_neg (exchanges.disjoint hstays), if_neg (fun hgone => hdisjoint hgone hstays)]
      exact h.covered key (hold.mem_iff.mpr (List.mem_append_right _ hstays))
    · rw [if_pos hcomes]
      rfl
  · intro key hkey
    rw [hlast]
    rw [hkeys.mem_iff, List.mem_append, not_or] at hkey
    rw [if_neg hkey.2]
    by_cases hgone : key ∈ gone.map Tile.key
    · rw [if_pos hgone]
      exact .inr rfl
    · rw [if_neg hgone]
      refine h.revealed key ?_
      rw [hold.mem_iff, List.mem_append, not_or]
      exact ⟨hgone, hkey.1⟩

/-- A withdrawal gives every icon back. -/
theorem HandedOver.withdraws (h : dock.HandedOver trace) (row : dock'.row = dock.row.clear.1)
    (sent : ∀ key, lastOpacity key commands = lastOpacity key dock.row.clear.2) :
    dock'.HandedOver (trace ++ commands) := by
  constructor
  · rw [row]
    exact List.nodup_nil
  · rw [row]
    intro key hkey
    exact nomatch hkey
  · intro key _
    have hclear : lastOpacity key dock.row.clear.2 =
        if key ∈ dock.row.tiles.map Tile.key then some 255 else none :=
      lastOpacity_releases dock.row.tiles
    rw [lastOpacity_append, sent, hclear]
    by_cases hkey : key ∈ dock.row.tiles.map Tile.key
    · rw [if_pos hkey]
      exact .inr rfl
    · rw [if_neg hkey]
      exact h.revealed key hkey

/-- Where the row stays and nothing but the backdrop changes, all is as before. -/
theorem HandedOver.rests (h : dock.HandedOver trace) (row : dock'.row = dock.row)
    (sent : ∀ key, lastOpacity key commands = none) : dock'.HandedOver (trace ++ commands) := by
  have hlast : ∀ key, lastOpacity key (trace ++ commands) = lastOpacity key trace := by
    intro key
    rw [lastOpacity_append, sent]
    rfl
  constructor
  · rw [row]
    exact h.nodup
  · intro key hkey
    rw [hlast]
    rw [row] at hkey
    exact h.covered key hkey
  · intro key hkey
    rw [hlast]
    rw [row] at hkey
    exact h.revealed key hkey

/-- To activate tiles says nothing of icons. -/
theorem lastOpacity_activations (key : Icon.Key) (tiles : List (Tile α)) (active : Bool) :
    lastOpacity key (tiles.map fun tile => Command.activateTile (α := α) tile.id active) = none := by
  refine lastOpacity_eq_none ?_
  intro command hmem
  obtain ⟨tile, _, rfl⟩ := List.mem_map.mp hmem
  rfl

/-- Nor does it to clear the markers away. -/
theorem lastOpacity_clearPool (key : Icon.Key) (pool : Marker.Pool) :
    lastOpacity key (pool.clear (α := α)).2 = none := by
  refine lastOpacity_eq_none ?_
  intro command hmem
  obtain ⟨slot, _, rfl⟩ := List.mem_map.mp hmem
  rfl

variable [Scalar α] {host : Host α}

/-- Nor does a frame. -/
theorem lastOpacity_build (key : Icon.Key) (g : Geometry α) (settings : Settings α)
    (retracting : Bool) (pool : Marker.Pool) (tiles : List (Tile α)) :
    lastOpacity key (Frame.build g settings retracting pool tiles).commands = none := by
  refine lastOpacity_eq_none ?_
  intro command hmem
  cases hcommand : command with
  | setIconOpacity other opacity =>
      rw [hcommand] at hmem
      exact absurd hmem (Frame.build_leaves_icons _ _ _ _ _ other opacity)
  | _ => rfl

/-- Every event leaves the icons handed over. -/
theorem HandedOver.step (h : dock.HandedOver trace) (staging : Staging dock host dock' commands) :
    dock'.HandedOver (trace ++ commands) := by
  cases staging with
  | rests row pool backdrop => exact h.rests row fun _ => lastOpacity_backdrop backdrop
  | withdraws row pool layers backdrop commands_eq =>
      refine h.withdraws row ?_
      intro key
      rw [commands_eq, lastOpacity_append, lastOpacity_append, lastOpacity_clearPool,
        lastOpacity_backdrop backdrop]
      rfl
  | frames layouts changes layers row kept gone new arranged tiles retracting active backdrop
      exchanges arrangedPerm moved commands_eq row_eq pool_eq =>
      obtain ⟨markers, drawn, hframe⟩ := Frame.build_exhibits host.geometry host.settings retracting
        dock.pool tiles
      refine h.exchange exchanges ?_ ?_
      · rw [row_eq]
        show (Tile.identities (Frame.build _ _ _ _ _).tiles).Perm _
        rw [hframe.identities, moved]
        exact arrangedPerm
      · intro key
        have hlayouts : lastOpacity key layouts = none :=
          lastOpacity_backdrop fun command hmem => backdrop command (List.mem_append_left _ hmem)
        have hlayers : lastOpacity key layers = none :=
          lastOpacity_backdrop fun command hmem => backdrop command (List.mem_append_right _ hmem)
        -- of all that a tick tells, only the changes to the row speak of icons
        rw [commands_eq, lastOpacity_append, lastOpacity_append, lastOpacity_append,
          lastOpacity_append, hlayouts, hlayers, lastOpacity_activations, lastOpacity_build]
        exact Option.or_none

/-! ## Runs -/

variable [TimerService τ]

/-- After a whole run the icons are handed over. -/
theorem Ran.handedOver (h : Ran dock trace) : dock.HandedOver trace := by
  induction h with
  | new timers =>
      exact ⟨List.nodup_nil, fun _ hmem => (nomatch hmem), fun _ _ => .inl rfl⟩
  | event host event before step ih => exact ih.step (handle_staging step)
  | drift timers before ih => exact ⟨ih.nodup, ih.covered, ih.revealed⟩

/-- **NO ICON IS LOST** in any run: no key has two tiles, the last opacity of a key is 0 exactly if
    there is a tile for it, and a key without a tile has been given back its opacity, or never lost
    it. -/
theorem Ran.iconsHandedOver (h : Ran dock trace) :
    (dock.row.tiles.map Tile.key).Nodup ∧
      ∀ key, (lastOpacity key trace = some 0 ↔ key ∈ dock.row.tiles.map Tile.key) ∧
        (key ∉ dock.row.tiles.map Tile.key →
          lastOpacity key trace = none ∨ lastOpacity key trace = some 255) := by
  have hover := h.handedOver
  refine ⟨hover.nodup, ?_⟩
  intro key
  refine ⟨⟨?_, hover.covered key⟩, hover.revealed key⟩
  intro htransparent
  by_contra hkey
  rcases hover.revealed key hkey with hnone | hopaque
  · rw [htransparent] at hnone
    exact nomatch hnone
  · rw [htransparent] at hopaque
    exact absurd (Option.some.inj hopaque) (by decide)

/-- Two icons that share a key. -/
private def sharedKey : Host Float where
  settings := .standard
  geometry := .standard
  icons := [Icon.favorite 1 ⟨0.0, 0.0⟩, Icon.favorite 1 ⟨48.0, 0.0⟩]

set_option maxRecDepth 2048 in
/-- Icons that share a key have one tile, and are transparent behind it. -/
theorem iconsHandedOver_after_tick : ∃ (dock : Dock Float Clock) (trace : List (Command Float)),
    Ran dock trace ∧ (dock.row.tiles.map Tile.key).Nodup ∧ lastOpacity 1 trace = some 0 := by
  have henabled := (Ran.new (α := Float) Clock.start).event sharedKey .enable rfl
  have hticked := henabled.event sharedKey (.alarm .tick) rfl
  obtain ⟨hnodup, hopacity⟩ := hticked.iconsHandedOver
  exact ⟨_, _, hticked, hnodup, (hopacity 1).1.mpr List.mem_cons_self⟩

end FisheyeDock.Dock
