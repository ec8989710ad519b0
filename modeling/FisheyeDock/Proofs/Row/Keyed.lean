import FisheyeDock.Proofs.Row.Pass

/-! # A difference of keys

    To bring a row in line with the icons is to compare two sets of keys: those of the tiles, and
    those of the icons that count.  Tiles of keys that are in both stay, in their order, and take over
    what the host owns.  Behind them come new tiles for the keys that have none, in the order of the
    icons (`Row.ByKey`).

    `Row.reconciled_byKey` says so of every row in which no key has two tiles, and adds that a row
    that is in line with the icons is left alone. -/

namespace FisheyeDock

variable {α : Type} [Scalar α]

/-! ## One tile and its icon -/

namespace Tile

variable {icon : Icon α}

/-- The tile as its icon has it stay: the host owns whether it is visible, what runs, and where it
    rests, which a tile keeps in mind while its icon has no usable position.  All else is the tile's
    own, and so is its position as long as it has one. -/
def takeOver (tile : Tile α) (icon : Icon α) : Tile α :=
  { tile with
    position :=
      if tile.position.isFinite then tile.position
      else icon.restingPosition.getD tile.position
    fixed := icon.restingPosition.getD tile.fixed
    visible := icon.restingPosition.isSome
    windows := icon.windows
    notifications := icon.notifications }

/-- A tile as it comes: at rest on its icon. -/
structure IsNewOn (icon : Icon α) (tile : Tile α) : Prop where
  key : tile.key = icon.key
  position : tile.position = icon.restingPosition.getD Point.undefined
  target : tile.target = tile.position
  fixed : tile.fixed = tile.position
  scale : tile.scale = 1.0
  targetScale : tile.targetScale = 1.0
  visible : tile.visible = icon.restingPosition.isSome
  windows : tile.windows = icon.windows
  notifications : tile.notifications = icon.notifications
  unmagnified : tile.distance = none
  unmarked : tile.dot = none ∧ tile.badge = none

/-- Refreshing takes everything over from the icon that a tile has not of its own. -/
theorem refresh_eq (tile : Tile α) (icon : Icon α) : tile.refresh icon = tile.takeOver icon := by
  unfold refresh takeOver
  cases icon.restingPosition with
  | none => simp
  | some resting => rfl

theorem isNewOn_ofIcon (id : Tile.Id) (icon : Icon α) : (ofIcon id icon).IsNewOn icon :=
  ⟨rfl, rfl, rfl, rfl, rfl, rfl, rfl, rfl, rfl, rfl, rfl, rfl⟩

/-- An icon that has been seen says nothing new. -/
theorem refresh_refresh (tile : Tile α) (icon : Icon α) :
    (tile.refresh icon).refresh icon = tile.refresh icon := by
  cases hresting : icon.restingPosition with
  | none => simp [refresh, hresting]
  | some resting =>
      have hfinite : resting.isFinite = true := (Option.filter_eq_some_iff.mp hresting).2
      by_cases hposition : tile.position.isFinite = true
      · simp [refresh, hresting, hposition]
      · simp [refresh, hresting, hposition, hfinite]

/-- A new tile has nothing to take over. -/
theorem refresh_ofIcon (id : Tile.Id) (icon : Icon α) :
    (ofIcon id icon).refresh icon = ofIcon id icon := by
  cases hresting : icon.restingPosition with
  | none => simp [refresh, ofIcon, hresting]
  | some resting => simp [refresh, ofIcon, hresting]

end Tile

namespace Row

open Scene (Command)

variable {row : Row α} {icons : List (Icon α)} {favoritesOnly : Bool} {iconSize : α}

/-! ## The tiles of a row and the icons -/

/-- A row is brought in line with the icons key by key, by commands that let go of the tiles that go
    and create those that come. -/
structure ByKey (favoritesOnly : Bool) (icons : List (Icon α)) (iconSize : α) (row row' : Row α)
    (commands : List (Command α)) (changes : Changes) (arriving : List (Tile α)) : Prop where
  /-- Those that stay come first, in their order. -/
  tiles_eq : row'.tiles = row.tiles.filterMap (fun tile =>
    (Icon.live? favoritesOnly icons tile.key).map tile.takeOver) ++ arriving
  /-- Behind them comes a new tile for each icon that counts and has none. -/
  arrive : List.Forall₂ Tile.IsNewOn ((Icon.liveIcons favoritesOnly icons).filter fun icon =>
    decide (icon.key ∉ row.tiles.map Tile.key)) arriving
  ids : arriving.map Tile.id = (List.range' row.created arriving.length).map idAt
  commands_eq : commands = (row.tiles.filter fun tile =>
      (Icon.live? favoritesOnly icons tile.key).isNone).flatMap Tile.releases ++
    arriving.flatMap (Tile.creations iconSize)
  added : changes.added = arriving.length
  removed : changes.removed = (row.tiles.filter fun tile =>
    (Icon.live? favoritesOnly icons tile.key).isNone).length

/-- New tiles are new on their icons, one by one. -/
theorem isNewOn_newTiles (first : Nat) (icons : List (Icon α)) :
    List.Forall₂ Tile.IsNewOn icons (newTiles first icons) := by
  induction icons generalizing first with
  | nil => exact .nil
  | cons icon rest ih => exact .cons (Tile.isNewOn_ofIcon _ icon) (ih (first + 1))

omit [Scalar α] in
/-- A tile is wanted exactly while its key has a live icon. -/
theorem isWanted_shown (favoritesOnly : Bool) (icons : List (Icon α)) (tile : Tile α) :
    isWanted (Icon.shown favoritesOnly icons) tile =
      (Icon.live? favoritesOnly icons tile.key).isSome := by
  rw [Bool.eq_iff_iff, isWanted_iff, Icon.isSome_live?_iff]

/-- The tiles that stay, each with what it takes over. -/
theorem map_refreshFrom_shown (favoritesOnly : Bool) (icons : List (Icon α))
    (tiles : List (Tile α)) :
    (tiles.filter (isWanted (Icon.shown favoritesOnly icons))).map
        (refreshFrom (Icon.shown favoritesOnly icons)) =
      tiles.filterMap fun tile => (Icon.live? favoritesOnly icons tile.key).map tile.takeOver := by
  induction tiles with
  | nil => rfl
  | cons tile rest ih =>
      have hwanted := isWanted_shown favoritesOnly icons tile
      rw [List.filter_cons, List.filterMap_cons, hwanted, ← ih]
      cases hlive : Icon.live? favoritesOnly icons tile.key with
      | none => rfl
      | some icon =>
          rw [Icon.live?_eq] at hlive
          simp [refreshFrom, hlive, Tile.refresh_eq]

/-- To reconcile a row goes by keys. -/
theorem byKey_reconcile (row : Row α) (icons : List (Icon α)) (favoritesOnly : Bool)
    (iconSize : α) : ∃ arriving,
      ByKey favoritesOnly icons iconSize row (row.reconcile icons favoritesOnly iconSize).1
        (row.reconcile icons favoritesOnly iconSize).2.1
        (row.reconcile icons favoritesOnly iconSize).2.2 arriving := by
  have hgone : row.tiles.filter (not ∘ isWanted (Icon.shown favoritesOnly icons)) =
      row.tiles.filter fun tile => (Icon.live? favoritesOnly icons tile.key).isNone := by
    refine List.filter_congr fun tile _ => ?_
    rw [Function.comp_apply, isWanted_shown, Option.not_isSome]
  have harrivals : row.arrivals (Icon.shown favoritesOnly icons) =
      (Icon.liveIcons favoritesOnly icons).filter fun icon =>
        decide (icon.key ∉ row.tiles.map Tile.key) := by
    rw [Icon.liveIcons_eq]
    refine List.filter_congr fun icon _ => ?_
    rw [decide_not]
    exact congrArg not (Bool.eq_iff_iff.mpr
      ((any_key_iff row.tiles).trans decide_eq_true_iff.symm))
  refine ⟨newTiles row.created (row.arrivals (Icon.shown favoritesOnly icons)), ?_⟩
  rw [reconcile_eq]
  dsimp only
  rw [hgone]
  constructor
  · rw [map_refreshFrom_shown]
  · rw [harrivals]
    exact isNewOn_newTiles row.created _
  · exact ids_newTiles _ _
  · rfl
  · rfl
  · rfl

/-! ## A row in line with the icons -/

/-- Every tile of a row that is in line with the icons has its icon, and nothing to take over. -/
theorem current_of_mem {tile : Tile α}
    (h : tile ∈ (row.reconcile icons favoritesOnly iconSize).1.tiles) :
    ∃ icon, Icon.ofKey? (Icon.shown favoritesOnly icons) tile.key = some icon ∧
      tile.refresh icon = tile := by
  have hshown : ((Icon.shown favoritesOnly icons).map Icon.key).Nodup :=
    Icon.nodup_keys_firstOfEachKey _
  rw [reconcile_eq] at h
  rcases List.mem_append.mp h with hkept | hnew
  · obtain ⟨old, hold, rfl⟩ := List.mem_map.mp hkept
    obtain ⟨-, hwanted⟩ := List.mem_filter.mp hold
    rw [isWanted_shown, Icon.live?_eq] at hwanted
    obtain ⟨icon, hicon⟩ := Option.isSome_iff_exists.mp hwanted
    refine ⟨icon, ?_, ?_⟩
    · rw [refreshFrom, hicon, key_refresh, hicon]
    · rw [refreshFrom, hicon, Tile.refresh_refresh]
  · obtain ⟨id, icon, harrives, rfl⟩ := mem_newTiles hnew
    refine ⟨icon, (Icon.ofKey?_eq_some_iff hshown).mpr ⟨?_, rfl⟩, Tile.refresh_ofIcon id icon⟩
    exact (List.mem_filter.mp harrives).1

/-- No icon that counts is without a tile in such a row. -/
theorem mem_keys_reconcile {key : Icon.Key}
    (h : key ∈ (Icon.shown favoritesOnly icons).map Icon.key) :
    key ∈ (row.reconcile icons favoritesOnly iconSize).1.tiles.map Tile.key := by
  rw [reconcile_eq, List.map_append, List.mem_append]
  by_cases hold : key ∈ row.tiles.map Tile.key
  · obtain ⟨tile, htile, rfl⟩ := List.mem_map.mp hold
    refine .inl ?_
    rw [Tile.map_key_eq, identities_refreshFrom, ← Tile.map_key_eq]
    exact List.mem_map_of_mem (List.mem_filter.mpr ⟨htile, isWanted_iff.mpr h⟩)
  · refine .inr ?_
    rw [keys_newTiles]
    exact mem_keys_arrivals.mpr ⟨h, hold⟩

/-- A row that is in line with the icons is left alone. -/
theorem reconcile_reconcile (row : Row α) (icons : List (Icon α)) (favoritesOnly : Bool)
    (iconSize : α) :
    (row.reconcile icons favoritesOnly iconSize).1.reconcile icons favoritesOnly iconSize =
      ((row.reconcile icons favoritesOnly iconSize).1, [], ⟨0, 0⟩) := by
  have hcurrent := @current_of_mem α _ row icons favoritesOnly iconSize
  have hkeys := @mem_keys_reconcile α _ row icons favoritesOnly iconSize
  generalize (row.reconcile icons favoritesOnly iconSize).1 = row' at *
  have hkept : row'.tiles.filter (isWanted (Icon.shown favoritesOnly icons)) = row'.tiles := by
    refine List.filter_eq_self.mpr fun tile hmem => ?_
    obtain ⟨icon, hicon, -⟩ := hcurrent hmem
    rw [isWanted_shown, Icon.live?_eq, hicon]
    rfl
  have hgone : row'.tiles.filter (not ∘ isWanted (Icon.shown favoritesOnly icons)) = [] := by
    refine List.filter_eq_nil_iff.mpr fun tile hmem => ?_
    have hwanted := (List.filter_eq_self.mp hkept) tile hmem
    rw [Function.comp_apply, hwanted]
    exact Bool.false_ne_true
  have harrivals : row'.arrivals (Icon.shown favoritesOnly icons) = [] := by
    refine List.filter_eq_nil_iff.mpr fun icon hicon => ?_
    rw [(any_key_iff row'.tiles).mpr (hkeys (List.mem_map_of_mem hicon))]
    exact Bool.false_ne_true
  have hfresh : row'.tiles.map (refreshFrom (Icon.shown favoritesOnly icons)) = row'.tiles := by
    refine (List.map_congr_left fun tile hmem => ?_).trans (List.map_id _)
    obtain ⟨icon, hicon, hsame⟩ := hcurrent hmem
    rw [refreshFrom, hicon]
    exact hsame
  rw [reconcile_eq]
  dsimp only
  rw [hkept, hgone, harrivals, hfresh]
  show ((⟨row'.tiles ++ [], row'.created⟩ : Row α), _, _) = _
  rw [List.append_nil]
  rfl

/-- **A ROW FOLLOWS THE ICONS KEY BY KEY.**  Tiles whose key has an icon that counts stay, in their
    order, with what they take over from it; new tiles come behind them for the keys that have none,
    in the order of the icons; and the rest go.  The same is done by one pass over the icons in
    place.  No key has two tiles after it, and to do it again changes nothing and tells the scene
    nothing. -/
theorem reconciled_byKey (keys : (row.tiles.map Tile.key).Nodup) (icons : List (Icon α))
    (favoritesOnly : Bool) (iconSize : α) : ∃ row' commands changes arriving,
      row.reconcile icons favoritesOnly iconSize = (row', commands, changes) ∧
      row.passOver icons favoritesOnly iconSize = .ok (row', commands, changes) ∧
      ByKey favoritesOnly icons iconSize row row' commands changes arriving ∧
      (row'.tiles.map Tile.key).Nodup ∧
      row'.reconcile icons favoritesOnly iconSize = (row', [], ⟨0, 0⟩) ∧
      row'.passOver icons favoritesOnly iconSize = .ok (row', [], ⟨0, 0⟩) := by
  obtain ⟨arriving, hbyKey⟩ := byKey_reconcile row icons favoritesOnly iconSize
  have hpass := passOver_eq keys icons favoritesOnly iconSize
  have hkeys := nodup_keys_reconcile keys icons favoritesOnly iconSize
  have hagain := reconcile_reconcile row icons favoritesOnly iconSize
  have hpassAgain := passOver_eq hkeys icons favoritesOnly iconSize
  rw [hagain] at hpassAgain
  exact ⟨_, _, _, arriving, rfl, hpass, hbyKey, hkeys, hagain, hpassAgain⟩

/-! ### Icons of which some count

    Under favorites only, two icons of one key are listed of which the first one is on its way out, and
    an icon that is not a favorite.  A third one is listed twice and has no tile yet. -/

private def someIcons : List (Icon Float) :=
  [{ Icon.favorite 3 ⟨0.0, 0.0⟩ with isLeaving := true }, { Icon.favorite 3 ⟨96.0, 0.0⟩ with windows := 2 },
    Icon.favorite 4 ⟨144.0, 0.0⟩, { Icon.favorite 1 ⟨0.0, 0.0⟩ with isFavorite := false },
    Icon.favorite 4 ⟨0.0, 0.0⟩]

private def someTiles : List (Tile Float) :=
  [Tile.ofIcon ⟨0⟩ (Icon.favorite 1 ⟨0.0, 0.0⟩), Tile.ofIcon ⟨1⟩ (Icon.favorite 2 ⟨48.0, 0.0⟩),
    Tile.ofIcon ⟨2⟩ (Icon.favorite 3 ⟨96.0, 0.0⟩)]

/-- The third tile stays and takes over from the icon that counts, the other two go, and one comes. -/
theorem reconciled_byKey_duplicates : (someTiles.map Tile.key).Nodup ∧
    ∃ row' commands changes arriving,
      Row.reconcile ⟨someTiles, 3⟩ someIcons true 48.0 = (row', commands, changes) ∧
      ByKey true someIcons 48.0 ⟨someTiles, 3⟩ row' commands changes arriving ∧
      row'.tiles.map (fun tile => (tile.key, tile.id, tile.windows)) = [(3, ⟨2⟩, 2), (4, ⟨3⟩, 0)] ∧
      changes = ⟨1, 2⟩ := by
  have hkeys : (someTiles.map Tile.key).Nodup := by decide
  obtain ⟨row', commands, changes, arriving, hreconcile, -, hbyKey, -⟩ :=
    @reconciled_byKey Float _ ⟨someTiles, 3⟩ hkeys someIcons true 48.0
  have htiles : (Row.reconcile ⟨someTiles, 3⟩ someIcons true 48.0).1.tiles.map
      (fun tile => (tile.key, tile.id, tile.windows)) = [(3, ⟨2⟩, 2), (4, ⟨3⟩, 0)] := by
    decide +kernel
  have hchanges : (Row.reconcile ⟨someTiles, 3⟩ someIcons true 48.0).2.2 = ⟨1, 2⟩ := by
    decide +kernel
  rw [hreconcile] at htiles hchanges
  exact ⟨hkeys, row', commands, changes, arriving, hreconcile, hbyKey, htiles, hchanges⟩

end Row

end FisheyeDock
