import FisheyeDock.Proofs.Row.Identity
import FisheyeDock.Proofs.Scene.Told

/-! # Icons in another order

    A row is brought in line with the icons key by key.  The order in which the icons are listed
    decides the order in which tiles come, and the names of new ones.  It does not decide what tiles
    there are, nor what they stand in for (`SameStock.reconcile`), nor what is told about an icon
    (`told_reconcile_icon`). -/

namespace FisheyeDock

open Scene (Command Subject SameTelling told told_nil told_cons told_append told_flatMap_eq_nil
  told_flatMap_of_nodup)

variable {α : Type}

/-! ## Icons with keys of their own -/

namespace Icon

variable {icons icons' : List (Icon α)} {key : Icon.Key} {icon : Icon α}

/-- Icons with keys of their own are all kept. -/
theorem firstOfEachKey_of_nodup (h : (icons.map Icon.key).Nodup) :
    firstOfEachKey icons = icons := by
  induction icons with
  | nil => rfl
  | cons first rest ih =>
      obtain ⟨hfirst, hrest⟩ := List.nodup_cons.mp h
      rw [firstOfEachKey, ih hrest, List.filter_eq_self.mpr]
      intro other hother
      refine decide_eq_true fun hsame => hfirst ?_
      exact hsame ▸ List.mem_map_of_mem hother

theorem shown_of_nodup (h : (icons.map Icon.key).Nodup) (favoritesOnly : Bool) :
    shown favoritesOnly icons = icons.filter (isEligible favoritesOnly) :=
  firstOfEachKey_of_nodup (h.sublist (List.filter_sublist.map _))

/-- By such a key its icon is found. -/
theorem ofKey?_eq_some_iff (h : (icons.map Icon.key).Nodup) :
    ofKey? icons key = some icon ↔ icon ∈ icons ∧ icon.key = key := by
  constructor
  · intro hfind
    exact ⟨List.mem_of_find?_eq_some hfind, beq_iff_eq.mp (List.find?_some hfind :)⟩
  · rintro ⟨hmem, rfl⟩
    cases hfind : ofKey? icons icon.key with
    | none => exact absurd (beq_self_eq_true _) (List.find?_eq_none.mp hfind icon hmem)
    | some other =>
        have hkey : other.key = icon.key := beq_iff_eq.mp (List.find?_some hfind :)
        rw [List.inj_on_of_nodup_map h (List.mem_of_find?_eq_some hfind) hmem hkey]

theorem ofKey?_perm (h : icons'.Perm icons) (keys : (icons.map Icon.key).Nodup) :
    ofKey? icons' key = ofKey? icons key := by
  have keys' := ((h.map Icon.key).nodup_iff).mpr keys
  ext icon
  show ofKey? icons' key = some icon ↔ ofKey? icons key = some icon
  rw [ofKey?_eq_some_iff keys', ofKey?_eq_some_iff keys, h.mem_iff]

end Icon

namespace Row

variable [Scalar α] {row row' : Row α} {icons icons' : List (Icon α)} {key : Icon.Key}

/-! ## What a reconciliation does -/

/-- The icons that are to get a tile. -/
def arrivals (row : Row α) (icons : List (Icon α)) : List (Icon α) :=
  icons.filter fun icon => !row.tiles.any (·.key == icon.key)

omit [Scalar α] in
/-- A tile is wanted if its key is listed. -/
theorem isWanted_iff {tile : Tile α} : isWanted icons tile = true ↔ tile.key ∈ icons.map Icon.key := by
  rw [isWanted, List.any_eq_true, List.mem_map]
  refine exists_congr fun icon => and_congr_right fun _ => beq_iff_eq

omit [Scalar α] in
theorem any_key_iff (tiles : List (Tile α)) :
    tiles.any (·.key == key) = true ↔ key ∈ tiles.map Tile.key := by
  rw [List.any_eq_true, List.mem_map]
  refine exists_congr fun tile => and_congr_right fun _ => beq_iff_eq

omit [Scalar α] in
/-- What arrives is listed, and not in the row. -/
theorem mem_keys_arrivals : key ∈ (row.arrivals icons).map Icon.key ↔
    key ∈ icons.map Icon.key ∧ key ∉ row.tiles.map Tile.key := by
  rw [arrivals, ← any_key_iff row.tiles, Bool.not_eq_true, ← Bool.not_eq_true']
  simp only [List.mem_map, List.mem_filter]
  constructor
  · rintro ⟨icon, ⟨hmem, hfree⟩, rfl⟩
    exact ⟨⟨icon, hmem, rfl⟩, hfree⟩
  · rintro ⟨⟨icon, hmem, rfl⟩, hfree⟩
    exact ⟨icon, ⟨hmem, hfree⟩, rfl⟩

/-- To reconcile a row is to keep what is wanted, to refresh it, and to add what arrives. -/
theorem reconcile_eq (row : Row α) (icons : List (Icon α)) (favoritesOnly : Bool) (iconSize : α) :
    row.reconcile icons favoritesOnly iconSize =
      let shown := Icon.shown favoritesOnly icons
      let kept := row.tiles.filter (isWanted shown)
      let gone := row.tiles.filter (not ∘ isWanted shown)
      let new := newTiles row.created (row.arrivals shown)
      (⟨kept.map (refreshFrom shown) ++ new, row.created + new.length⟩,
        gone.flatMap Tile.releases ++ new.flatMap (Tile.creations iconSize),
        ⟨new.length, gone.length⟩) := by
  have harrivals : (Icon.shown favoritesOnly icons).filter (fun icon =>
      !((row.tiles.filter (isWanted (Icon.shown favoritesOnly icons))).any (·.key == icon.key))) =
        row.arrivals (Icon.shown favoritesOnly icons) := by
    refine List.filter_congr fun icon hicon => congrArg not ?_
    -- a tile for an icon that is shown is a tile that is kept
    rw [Bool.eq_iff_iff, any_key_iff, any_key_iff]
    constructor
    · exact fun hkept => (List.filter_sublist.map _).subset hkept
    · intro hold
      obtain ⟨tile, htile, hkey⟩ := List.mem_map.mp hold
      refine List.mem_map.mpr ⟨tile, List.mem_filter.mpr ⟨htile, isWanted_iff.mpr ?_⟩, hkey⟩
      exact hkey ▸ List.mem_map_of_mem hicon
  unfold reconcile
  dsimp only
  rw [List.partition_eq_filter_filter]
  dsimp only
  rw [harrivals]

/-! ## The tiles -/

/-- Two rows of the same tiles but for their names, their markers and their order. -/
structure SameStock (row row' : Row α) : Prop where
  created : row'.created = row.created
  perm : (row'.tiles.map Tile.lasting).Perm (row.tiles.map Tile.lasting)

/-- The same stock has the same keys. -/
theorem SameStock.keys (h : SameStock row row') :
    (row'.tiles.map Tile.key).Perm (row.tiles.map Tile.key) := by
  have hkeys := h.perm.map Tile.key
  rw [List.map_map, List.map_map] at hkeys
  exact hkeys

theorem SameStock.length (h : SameStock row row') : row'.tiles.length = row.tiles.length := by
  have hlength := h.perm.length_eq
  rw [List.length_map, List.length_map] at hlength
  exact hlength

/-- A row is arranged with its stock. -/
theorem SameStock.arrange (h : SameStock row row') (anchor : Point α) (negative : Bool) :
    SameStock (row.arrange anchor negative) (row'.arrange anchor negative) where
  created := h.created
  perm := (((sortTiles_perm anchor row'.tiles negative).map _).trans h.perm).trans
    ((sortTiles_perm anchor row.tiles negative).map _).symm

/-- Two rows of the same stock whose visible tiles are the same in the same order, with the same
    markers. -/
structure SameRow (row row' : Row α) : Prop extends SameStock row row' where
  seen : (Tile.seen row'.tiles).map Tile.nameless = (Tile.seen row.tiles).map Tile.nameless

theorem SameRow.refl (row : Row α) : SameRow row row := ⟨⟨rfl, .refl _⟩, rfl⟩

/-- After they are emptied, two rows are still the same. -/
theorem SameRow.clear (h : SameRow row row') : SameRow row.clear.1 row'.clear.1 :=
  ⟨⟨h.created, .refl _⟩, rfl⟩

/-- What lasts of a tile is refreshed as the tile is. -/
theorem lasting_refreshFrom (icons : List (Icon α)) (tile : Tile α) :
    (refreshFrom icons tile).lasting = (refreshFrom icons tile.lasting).lasting := by
  unfold refreshFrom
  rw [show tile.lasting.key = tile.key from rfl]
  cases Icon.ofKey? icons tile.key with
  | none => rfl
  | some icon =>
      dsimp only [Tile.refresh]
      cases icon.restingPosition <;> rfl

/-- What lasts of new tiles is that of their icons. -/
theorem map_lasting_newTiles (first : Nat) (icons : List (Icon α)) :
    (newTiles first icons).map Tile.lasting = icons.map (Tile.ofIcon ⟨0⟩) := by
  induction icons generalizing first with
  | nil => rfl
  | cons icon icons ih => exact congrArg _ (ih (first + 1))

theorem length_newTiles (first : Nat) (icons : List (Icon α)) :
    (newTiles first icons).length = icons.length := by
  have hkeys := congrArg List.length (keys_newTiles first icons)
  rw [List.length_map, List.length_map] at hkeys
  exact hkeys

/-- Rows of the same tiles are in line with the same icons by the same tiles. -/
theorem SameStock.reconcile (h : SameStock row row') (hicons : icons'.Perm icons)
    (keys : (icons.map Icon.key).Nodup) (favoritesOnly : Bool) (iconSize : α) :
    SameStock (row.reconcile icons favoritesOnly iconSize).1
      (row'.reconcile icons' favoritesOnly iconSize).1 := by
  have keys' := ((hicons.map Icon.key).nodup_iff).mpr keys
  rw [reconcile_eq, reconcile_eq, Icon.shown_of_nodup keys, Icon.shown_of_nodup keys']
  have hshown := hicons.filter (Icon.isEligible favoritesOnly)
  have hnodup := keys.sublist ((List.filter_sublist (p := Icon.isEligible favoritesOnly)).map _)
  generalize icons.filter (Icon.isEligible favoritesOnly) = shown at *
  generalize icons'.filter (Icon.isEligible favoritesOnly) = shown' at *
  -- the icons are asked for by key only, so that their order has no say in which tiles stay, how
  -- they are refreshed and which are missing
  have hwanted : (isWanted shown' : Tile α → Bool) = isWanted shown := by
    funext tile
    exact hshown.any_eq
  have hfresh : refreshFrom shown' = refreshFrom shown := by
    funext tile
    unfold refreshFrom
    rw [Icon.ofKey?_perm hshown hnodup]
  have harrivals : (row'.arrivals shown').Perm (row.arrivals shown) := by
    have hfree : (fun icon : Icon α => !row'.tiles.any (·.key == icon.key)) =
        fun icon => !row.tiles.any (·.key == icon.key) := by
      funext icon
      refine congrArg not ?_
      rw [Bool.eq_iff_iff, any_key_iff, any_key_iff, h.keys.mem_iff]
    unfold arrivals
    rw [hfree]
    exact hshown.filter _
  have hkept : ∀ tiles : List (Tile α),
      ((tiles.filter (isWanted shown)).map (refreshFrom shown)).map Tile.lasting =
        ((tiles.map Tile.lasting).filter (isWanted shown)).map
          (Tile.lasting ∘ refreshFrom shown) := by
    intro tiles
    rw [List.filter_map, List.map_map, List.map_map]
    exact List.map_congr_left fun tile _ => lasting_refreshFrom shown tile
  constructor
  · show row'.created + _ = row.created + _
    rw [h.created, length_newTiles, length_newTiles, harrivals.length_eq]
  · dsimp only
    rw [hwanted, hfresh, List.map_append, List.map_append, hkept, hkept, map_lasting_newTiles,
      map_lasting_newTiles]
    exact ((h.perm.filter _).map _).append (harrivals.map _)

/-- A tile of a row that is in line with the icons stands in for one that is shown.  If it is
    visible, it rests where the icon does. -/
theorem icon_of_mem_reconcile {favoritesOnly : Bool} {iconSize : α} {tile : Tile α}
    (h : tile ∈ (row.reconcile icons favoritesOnly iconSize).1.tiles) :
    ∃ icon ∈ Icon.shown favoritesOnly icons, icon.key = tile.key ∧
      (tile.visible = true → icon.restingPosition = some tile.fixed) := by
  rw [reconcile_eq] at h
  rcases List.mem_append.mp h with hkept | hnew
  · obtain ⟨old, hold, rfl⟩ := List.mem_map.mp hkept
    obtain ⟨-, hwanted⟩ := List.mem_filter.mp hold
    unfold refreshFrom
    cases hfind : Icon.ofKey? (Icon.shown favoritesOnly icons) old.key with
    | none =>
        obtain ⟨icon, hshown, hkey⟩ := List.any_eq_true.mp hwanted
        exact absurd hkey (List.find?_eq_none.mp hfind icon hshown)
    | some icon =>
        have hkey : icon.key = old.key := beq_iff_eq.mp (List.find?_some hfind :)
        refine ⟨icon, List.mem_of_find?_eq_some hfind, ?_⟩
        dsimp only [Tile.refresh]
        cases icon.restingPosition with
        | none => exact ⟨hkey, nofun⟩
        | some resting => exact ⟨hkey, fun _ => rfl⟩
  · obtain ⟨id, icon, harrives, rfl⟩ := mem_newTiles hnew
    refine ⟨icon, (List.mem_filter.mp harrives).1, rfl, fun hvisible => ?_⟩
    obtain ⟨resting, hresting⟩ := Option.isSome_iff_exists.mp hvisible
    show icon.restingPosition = some (icon.restingPosition.getD Point.undefined)
    rw [hresting]
    rfl

/-- A key that has one tile has one tile once the row is in line with the icons. -/
theorem nodup_keys_reconcile (keys : (row.tiles.map Tile.key).Nodup) (icons : List (Icon α))
    (favoritesOnly : Bool) (iconSize : α) :
    ((row.reconcile icons favoritesOnly iconSize).1.tiles.map Tile.key).Nodup := by
  obtain ⟨kept, gone, new, hexchanges⟩ := reconcile_exchanges row icons favoritesOnly iconSize
  have hold := (hexchanges.split.map Tile.key).nodup_iff.mp keys
  rw [List.map_append] at hold
  rw [Tile.map_key_eq, hexchanges.identities, ← Tile.map_key_eq, List.map_append]
  exact hold.of_append_right.append hexchanges.keys hexchanges.disjoint

/-! ## What the scene is told -/

omit [Scalar α] in
/-- What is told about an icon by commands that say one thing about the icon of each tile. -/
theorem told_icon_flatMap {commandsOf : Tile α → List (Command α)}
    {said : Command α} {tiles : List (Tile α)} (keys : (tiles.map Tile.key).Nodup)
    (h : ∀ tile, told (.icon key) (commandsOf tile) = if tile.key = key then [said] else []) :
    told (.icon key) (tiles.flatMap commandsOf) =
      if key ∈ tiles.map Tile.key then [said] else [] := by
  by_cases hmem : key ∈ tiles.map Tile.key
  · obtain ⟨tile, htile, rfl⟩ := List.mem_map.mp hmem
    rw [if_pos hmem, told_flatMap_of_nodup keys htile, h, if_pos rfl]
    intro other _ hne
    rw [h, if_neg hne]
  · rw [if_neg hmem]
    refine told_flatMap_eq_nil fun tile htile => ?_
    have hkey : tile.key ≠ key := fun hkey => hmem (hkey ▸ List.mem_map_of_mem htile)
    rw [h, if_neg hkey]

omit [Scalar α] in
/-- An icon is told that its tile is released, by which it is opaque again. -/
theorem told_releases (tile : Tile α) : told (.icon key) tile.releases =
    if tile.key = key then [.setIconOpacity key 255] else [] := by
  simp only [Tile.releases, told_cons, told_nil, Command.subject, Command.nameless,
    Subject.icon.injEq, reduceCtorEq, if_false]
  split
  · rw [‹tile.key = key›]
  · rfl

omit [Scalar α] in
theorem told_creations (size : α) (tile : Tile α) : told (.icon key) (tile.creations size) =
    if tile.key = key then [.setIconOpacity key 0] else [] := by
  simp only [Tile.creations, told_cons, told_nil, Command.subject, Command.nameless,
    Subject.icon.injEq, reduceCtorEq, if_false]
  split
  · rw [‹tile.key = key›]
  · rfl

/-- An icon is told to come back if its tile goes, and to go if it gets one. -/
theorem told_reconcile_icon (keys : (row.tiles.map Tile.key).Nodup) (favoritesOnly : Bool)
    (iconSize : α) : told (.icon key) (row.reconcile icons favoritesOnly iconSize).2.1 =
      (if key ∈ row.tiles.map Tile.key ∧ key ∉ (Icon.shown favoritesOnly icons).map Icon.key
        then [.setIconOpacity key 255] else []) ++
      (if key ∈ (Icon.shown favoritesOnly icons).map Icon.key ∧ key ∉ row.tiles.map Tile.key
        then [.setIconOpacity key 0] else []) := by
  have hshown : ((Icon.shown favoritesOnly icons).map Icon.key).Nodup :=
    Icon.nodup_keys_firstOfEachKey _
  rw [reconcile_eq]
  dsimp only
  generalize Icon.shown favoritesOnly icons = shown at *
  have hgone : key ∈ (row.tiles.filter (not ∘ isWanted shown)).map Tile.key ↔
      key ∈ row.tiles.map Tile.key ∧ key ∉ shown.map Icon.key := by
    constructor
    · intro hmem
      obtain ⟨tile, htile, rfl⟩ := List.mem_map.mp hmem
      obtain ⟨hrow, hunwanted⟩ := List.mem_filter.mp htile
      refine ⟨List.mem_map_of_mem hrow, fun hwanted => ?_⟩
      rw [Function.comp_apply, isWanted_iff.mpr hwanted] at hunwanted
      exact nomatch hunwanted
    · rintro ⟨hmem, hunwanted⟩
      obtain ⟨tile, htile, rfl⟩ := List.mem_map.mp hmem
      refine List.mem_map_of_mem (List.mem_filter.mpr ⟨htile, ?_⟩)
      rw [Function.comp_apply, Bool.not_eq_true', Bool.eq_false_iff]
      exact fun hwanted => hunwanted (isWanted_iff.mp hwanted)
  have hnew : ((newTiles row.created (row.arrivals shown)).map Tile.key).Nodup := by
    rw [keys_newTiles]
    exact hshown.sublist (List.filter_sublist.map _)
  rw [told_append, told_icon_flatMap (keys.sublist (List.filter_sublist.map _)) told_releases,
    told_icon_flatMap hnew (told_creations iconSize), keys_newTiles]
  simp only [hgone, mem_keys_arrivals]

omit [Scalar α] in
/-- Letting go of tiles and making new ones is about tiles and their icons. -/
theorem told_exchange_eq_nil {subject : Subject} (hplain : subject.IsPlain)
    (hicon : ∀ key, subject ≠ .icon key) (gone new : List (Tile α)) (size : α) :
    told subject (gone.flatMap Tile.releases ++ new.flatMap (Tile.creations size)) = [] := by
  have htile : ∀ id, Subject.tile id ≠ subject := by
    rintro id rfl
    exact hplain
  rw [told_append, told_flatMap_eq_nil, told_flatMap_eq_nil]
  · rfl
  · intro tile _
    simp only [Tile.creations, told_cons, told_nil, Command.subject, htile, (hicon _).symm,
      if_false]
  · intro tile _
    simp only [Tile.releases, told_cons, told_nil, Command.subject, htile, (hicon _).symm,
      if_false]

/-- The tiles of two rows of the same stock are let go of alike. -/
theorem SameStock.sameTelling_clear (h : SameStock row row')
    (keys : (row.tiles.map Tile.key).Nodup) : SameTelling row.clear.2 row'.clear.2 := by
  have hsilent : ∀ {subject : Subject} (row : Row α), subject.IsPlain →
      (∀ key, subject ≠ .icon key) → told subject row.clear.2 = [] := by
    intro subject row hplain hicon
    have hnone := told_exchange_eq_nil (α := α) hplain hicon row.tiles [] 0.0
    rw [List.flatMap_nil, List.append_nil] at hnone
    exact hnone
  refine .of_icons (fun key => ?_) fun hplain hicon =>
    ⟨hsilent row hplain hicon, hsilent row' hplain hicon⟩
  unfold clear
  dsimp only
  rw [told_icon_flatMap keys told_releases,
    told_icon_flatMap (h.keys.nodup_iff.mpr keys) told_releases]
  simp only [h.keys.mem_iff]

/-- Two rows of the same stock are brought in line alike. -/
theorem SameStock.sameTelling_reconcile (h : SameStock row row')
    (keys : (row.tiles.map Tile.key).Nodup) (hicons : icons'.Perm icons)
    (unique : (icons.map Icon.key).Nodup) (favoritesOnly : Bool) (iconSize : α) :
    SameTelling (row.reconcile icons favoritesOnly iconSize).2.1
      (row'.reconcile icons' favoritesOnly iconSize).2.1 := by
  have unique' := ((hicons.map Icon.key).nodup_iff).mpr unique
  refine .of_icons (fun key => ?_) fun hplain hicon => ?_
  · have hshown := (hicons.filter (Icon.isEligible favoritesOnly)).map Icon.key
    rw [told_reconcile_icon keys, told_reconcile_icon (h.keys.nodup_iff.mpr keys),
      Icon.shown_of_nodup unique, Icon.shown_of_nodup unique']
    simp only [h.keys.mem_iff, hshown.mem_iff]
  · rw [reconcile_eq, reconcile_eq]
    exact ⟨told_exchange_eq_nil hplain hicon _ _ _, told_exchange_eq_nil hplain hicon _ _ _⟩

end Row

end FisheyeDock
