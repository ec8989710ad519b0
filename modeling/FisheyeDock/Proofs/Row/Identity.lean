import Mathlib.Data.List.Nodup
import FisheyeDock.Frame
import FisheyeDock.Lens

/-! # Which tiles a row has

    A tile is the tile it is by its identity in the scene and the key of its icon.  All that moves a
    tile leaves both alone, so that a row is the same row to the scene whatever is drawn.

    Only `Row.reconcile` changes which tiles there are: some go, some are new, and the rest stay
    (`Row.Exchanges`). -/

namespace FisheyeDock

variable {α : Type}

/-- What a tile never changes. -/
def Tile.identity (tile : Tile α) : Tile.Id × Icon.Key := (tile.id, tile.key)

/-- The tiles of a row by what they never change. -/
def Tile.identities (tiles : List (Tile α)) : List (Tile.Id × Icon.Key) := tiles.map Tile.identity

theorem Tile.identities_append (tiles more : List (Tile α)) :
    Tile.identities (tiles ++ more) = Tile.identities tiles ++ Tile.identities more :=
  List.map_append

theorem Tile.map_key_eq (tiles : List (Tile α)) :
    tiles.map Tile.key = (Tile.identities tiles).map Prod.snd := by
  show tiles.map Tile.key = (tiles.map Tile.identity).map Prod.snd
  rw [List.map_map]
  rfl

theorem Tile.map_id_eq (tiles : List (Tile α)) :
    tiles.map Tile.id = (Tile.identities tiles).map Prod.fst := by
  show tiles.map Tile.id = (tiles.map Tile.identity).map Prod.fst
  rw [List.map_map]
  rfl

variable [Scalar α]

/-! ## Moving -/

/-- Refreshing leaves the identity of a tile. -/
theorem Tile.identity_refresh (tile : Tile α) (icon : Icon α) :
    (tile.refresh icon).identity = tile.identity := by
  unfold Tile.refresh
  cases icon.restingPosition <;> rfl

theorem Row.identity_refreshFrom (icons : List (Icon α)) (tile : Tile α) :
    (Row.refreshFrom icons tile).identity = tile.identity := by
  unfold Row.refreshFrom
  cases Icon.ofKey? icons tile.key with
  | none => rfl
  | some icon => exact tile.identity_refresh icon

theorem Row.identities_refreshFrom (icons : List (Icon α)) (tiles : List (Tile α)) :
    Tile.identities (tiles.map (Row.refreshFrom icons)) = Tile.identities tiles := by
  show (tiles.map (Row.refreshFrom icons)).map Tile.identity = tiles.map Tile.identity
  rw [List.map_map]
  exact List.map_congr_left fun tile _ => Row.identity_refreshFrom icons tile

/-- Putting a row in order leaves it the same tiles. -/
theorem Row.identities_arrangeFor (row : Row α) (g : Geometry α) :
    (Tile.identities (row.arrangeFor g).tiles).Perm (Tile.identities row.tiles) :=
  (Row.sortTiles_perm g.anchor row.tiles g.anchorNegative).map Tile.identity

/-! ## Aiming

    The lens and a reset say where tiles are heading, and nothing else.  Whatever is read off the
    tiles without looking there stays as it was. -/

section Aiming

variable {β : Type} {read : Tile α → β}

omit [Scalar α] in
/-- A reading of tiles that does not look at where they are heading. -/
def Tile.Steady (read : Tile α → β) : Prop :=
  ∀ (tile : Tile α) (target : Point α) (targetScale : α) (distance : Option α)
    (pointerOffset : Point α),
    read { tile with target, targetScale, distance, pointerOffset } = read tile

/-- A reset leaves what is read steadily. -/
theorem Row.map_reset (steady : Tile.Steady read) (row : Row α) :
    row.reset.tiles.map read = row.tiles.map read := by
  show (row.tiles.map Tile.reset).map read = row.tiles.map read
  rw [List.map_map]
  exact List.map_congr_left fun tile _ => steady tile _ _ _ _

theorem Row.identities_reset (row : Row α) :
    Tile.identities row.reset.tiles = Tile.identities row.tiles :=
  Row.map_reset (fun _ _ _ _ _ => rfl) row

namespace Lens

/-- A wave leaves what is read steadily. -/
theorem map_spreadOut (steady : Tile.Steady read) (g : Geometry α) (s : Strengths α) (direction : α)
    (reach : Nat) (wave : Wave α) (tiles : List (Tile α)) :
    (spreadOut g s direction reach wave tiles).map read = tiles.map read := by
  induction tiles generalizing reach wave with
  | nil => cases reach <;> rfl
  | cons tile rest ih =>
      cases reach with
      | zero => rfl
      | succ reach =>
          exact congrArg₂ List.cons (steady tile _ _ tile.distance tile.pointerOffset) (ih reach _)

theorem map_magnifyAt (steady : Tile.Steady read) (g : Geometry α) (s : Strengths α)
    (focus : Focus α) (before : List (Tile α)) (tile : Tile α) (after : List (Tile α)) :
    (magnifyAt g s focus before tile after).map read = (before ++ tile :: after).map read := by
  have hbefore : ∀ wave, (spreadOut g s (-1.0) waveReach wave before.reverse).reverse.map read
      = before.map read := by
    intro wave
    rw [List.map_reverse, map_spreadOut steady, List.map_reverse, List.reverse_reverse]
  unfold magnifyAt
  dsimp only
  rw [List.map_append, List.map_append, List.map_cons, List.map_cons, hbefore,
    map_spreadOut steady]
  exact congrArg (before.map read ++ · :: after.map read) (steady tile _ _ _ _)

theorem identities_magnifyAt (g : Geometry α) (s : Strengths α) (focus : Focus α)
    (before : List (Tile α)) (tile : Tile α) (after : List (Tile α)) :
    Tile.identities (magnifyAt g s focus before tile after) =
      Tile.identities (before ++ tile :: after) :=
  map_magnifyAt (fun _ _ _ _ _ => rfl) g s focus before tile after

/-- The lens aims tiles and exchanges none. -/
theorem map_magnify (steady : Tile.Steady read) {g : Geometry α} {s : Strengths α} {focus : Focus α}
    {tiles tiles' : List (Tile α)} {magnified : Bool}
    (h : magnify g s focus tiles = .ok (tiles', magnified)) : tiles'.map read = tiles.map read := by
  unfold magnify at h
  by_cases hnear : isNear g focus = true
  · rw [if_pos hnear] at h
    cases hdrop : tiles.drop focus.index with
    | nil =>
        rw [hdrop] at h
        exact nomatch h
    | cons tile after =>
        rw [hdrop] at h
        obtain ⟨rfl, _⟩ := Prod.mk.inj (Except.ok.inj h)
        rw [map_magnifyAt steady, ← hdrop, List.take_append_drop]
  · rw [if_neg hnear] at h
    obtain ⟨rfl, _⟩ := Prod.mk.inj (Except.ok.inj h)
    rfl

end Lens

end Aiming

/-! ## Coming and going -/

/-- A tile that becomes visible is at a finite position. -/
theorem Tile.isFinite_refresh {tile : Tile α} {icon : Icon α}
    (h : (tile.refresh icon).visible = true) : (tile.refresh icon).position.isFinite = true := by
  unfold refresh at h ⊢
  cases hresting : icon.restingPosition with
  | none =>
      rw [hresting] at h
      exact nomatch h
  | some resting =>
      dsimp only
      by_cases hfinite : tile.position.isFinite = true
      · rw [if_pos hfinite]
        exact hfinite
      · rw [if_neg hfinite]
        exact (Option.filter_eq_some_iff.mp hresting).2

/-- A new tile that is visible is at the place of its icon, which is finite. -/
theorem Tile.isFinite_ofIcon {id : Tile.Id} {icon : Icon α}
    (h : (Tile.ofIcon id icon).visible = true) :
    (Tile.ofIcon id icon).position.isFinite = true := by
  obtain ⟨resting, hresting⟩ := Option.isSome_iff_exists.mp h
  show (icon.restingPosition.getD Point.undefined).isFinite = true
  rw [hresting]
  exact (Option.filter_eq_some_iff.mp hresting).2

namespace Row

/-- New tiles have the keys of their icons. -/
theorem keys_newTiles (first : Nat) (icons : List (Icon α)) :
    (newTiles first icons).map Tile.key = icons.map Icon.key := by
  induction icons generalizing first with
  | nil => rfl
  | cons icon icons ih => exact congrArg (icon.key :: ·) (ih (first + 1))

/-- New tiles are numbered from the first number on. -/
theorem ids_newTiles (first : Nat) (icons : List (Icon α)) :
    (newTiles first icons).map Tile.id =
      (List.range' first (newTiles first icons).length).map idAt := by
  induction icons generalizing first with
  | nil => rfl
  | cons icon icons ih => exact congrArg (idAt first :: ·) (ih (first + 1))

/-- How the tiles of a row are exchanged: some are gone, some are new, and the others are kept. -/
structure Exchanges (row row' : Row α) (iconSize : α) (commands : List (Scene.Command α))
    (kept gone new : List (Tile α)) : Prop where
  split : row.tiles.Perm (gone ++ kept)
  identities : Tile.identities row'.tiles = Tile.identities (kept ++ new)
  created : row'.created = row.created + new.length
  /-- New tiles have the next identities in turn. -/
  ids : new.map Tile.id = (List.range' row.created new.length).map idAt
  /-- No icon gets a second tile. -/
  keys : (new.map Tile.key).Nodup
  disjoint : (kept.map Tile.key).Disjoint (new.map Tile.key)
  commands_eq : commands = gone.flatMap Tile.releases ++ new.flatMap (Tile.creations iconSize)

/-- To reconcile a row exchanges the tiles that go for those that come. -/
theorem reconcile_exchanges (row : Row α) (icons : List (Icon α)) (favoritesOnly : Bool)
    (iconSize : α) : ∃ kept gone new,
      Exchanges row (row.reconcile icons favoritesOnly iconSize).1 iconSize
        (row.reconcile icons favoritesOnly iconSize).2.1 kept gone new := by
  have hshown : ((Icon.shown favoritesOnly icons).map Icon.key).Nodup :=
    Icon.nodup_keys_firstOfEachKey _
  rcases hpart : row.tiles.partition (isWanted (Icon.shown favoritesOnly icons)) with ⟨kept, gone⟩
  obtain ⟨hkept, hgone⟩ := Prod.mk.inj (hpart.symm.trans List.partition_eq_filter_filter)
  refine ⟨kept, gone, newTiles row.created
    ((Icon.shown favoritesOnly icons).filter fun icon => !(kept.any (·.key == icon.key))), ?_⟩
  unfold reconcile
  dsimp only
  rw [hpart]
  constructor
  · rw [hkept, hgone]
    exact (List.perm_append_comm.trans (List.filter_append_perm _ _)).symm
  · rw [Tile.identities_append, Tile.identities_append, identities_refreshFrom]
  · rfl
  · exact ids_newTiles _ _
  · rw [keys_newTiles]
    exact hshown.sublist (List.filter_sublist.map _)
  · -- an icon arrives only if no kept tile has its key
    rw [keys_newTiles]
    intro key hold hnew
    obtain ⟨tile, htile, rfl⟩ := List.mem_map.mp hold
    obtain ⟨icon, hicon, hkey⟩ := List.mem_map.mp hnew
    have hfree := (List.mem_filter.mp hicon).2
    have hany : kept.any (·.key == icon.key) = true :=
      List.any_eq_true.mpr ⟨tile, htile, beq_iff_eq.mpr hkey.symm⟩
    rw [hany] at hfree
    exact nomatch hfree
  · rfl

omit [Scalar α] in
/-- What is shown of the icons is among them. -/
theorem mem_of_mem_shown {icon : Icon α} {icons : List (Icon α)} {favoritesOnly : Bool}
    (h : icon ∈ Icon.shown favoritesOnly icons) : icon ∈ icons :=
  (List.mem_filter.mp (Icon.mem_of_mem_firstOfEachKey h)).1

/-- A new tile is made of one of the icons. -/
theorem mem_newTiles {first : Nat} {icons : List (Icon α)} {tile : Tile α}
    (h : tile ∈ newTiles first icons) : ∃ id, ∃ icon ∈ icons, tile = Tile.ofIcon id icon := by
  induction icons generalizing first with
  | nil => exact nomatch h
  | cons icon icons ih =>
      rcases List.mem_cons.mp h with rfl | hlater
      · exact ⟨_, icon, List.mem_cons_self, rfl⟩
      · obtain ⟨id, later, hmem, heq⟩ := ih hlater
        exact ⟨id, later, List.mem_cons_of_mem _ hmem, heq⟩

/-- Every tile of a row that is in line with the icons is brought up to date with one of them, or is
    a new tile for one. -/
theorem mem_reconcile {row : Row α} {icons : List (Icon α)} {favoritesOnly : Bool} {iconSize : α}
    {tile : Tile α} (h : tile ∈ (row.reconcile icons favoritesOnly iconSize).1.tiles) :
    (∃ old ∈ row.tiles, ∃ icon ∈ icons, tile = old.refresh icon) ∨
      ∃ id, ∃ icon ∈ icons, tile = Tile.ofIcon id icon := by
  rcases hpart : row.tiles.partition (isWanted (Icon.shown favoritesOnly icons)) with ⟨kept, gone⟩
  obtain ⟨hkept, -⟩ := Prod.mk.inj (hpart.symm.trans List.partition_eq_filter_filter)
  unfold reconcile at h
  dsimp only at h
  rw [hpart] at h
  rcases List.mem_append.mp h with hold | hnew
  · obtain ⟨old, hmem, rfl⟩ := List.mem_map.mp hold
    rw [hkept] at hmem
    obtain ⟨hrow, hwanted⟩ := List.mem_filter.mp hmem
    refine .inl ⟨old, hrow, ?_⟩
    -- a tile is kept because there is an icon for it, which it is then refreshed from
    unfold refreshFrom
    cases hicon : Icon.ofKey? (Icon.shown favoritesOnly icons) old.key with
    | some icon => exact ⟨icon, mem_of_mem_shown (List.mem_of_find?_eq_some hicon), rfl⟩
    | none =>
        obtain ⟨icon, hshown, hkey⟩ := List.any_eq_true.mp hwanted
        exact absurd hkey (List.find?_eq_none.mp hicon icon hshown)
  · obtain ⟨id, icon, harrives, rfl⟩ := mem_newTiles hnew
    exact .inr ⟨id, icon, mem_of_mem_shown (List.mem_filter.mp harrives).1, rfl⟩

end Row

end FisheyeDock
