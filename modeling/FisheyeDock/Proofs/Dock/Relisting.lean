import FisheyeDock.Proofs.Dock.Turn
import FisheyeDock.Proofs.Dock.Unnoticed
import FisheyeDock.Proofs.Row.Relisting

/-! # Docks whose icons are listed in another order

    Two docks that differ in the names and in the order of their tiles at most are `Twins`.  They
    answer every event alike: they stay so, and they tell the scene the same about everything that is
    no tile (`Twins.handle`).  At a tick their hosts may list the icons in any order, as long as no
    two of them are equally far from the anchor, and after it the visible tiles are the same but for
    their names (`Twins.tick`). -/

namespace FisheyeDock

open Scene (Command SameTelling)

variable {α τ : Type} [Scalar α]

/-! ## Hosts -/

/-- A host shows an icon at a usable position. -/
structure Host.Lays (host : Host α) (icon : Icon α) (resting : Point α) : Prop where
  mem : icon ∈ host.icons
  eligible : icon.isEligible host.settings.favoritesOnly = true
  resting : icon.restingPosition = some resting

/-- Two hosts that list the same icons, and not in the same order.  No two of those that are visible
    are equally far from the anchor. -/
structure Host.Relists (host host' : Host α) : Prop where
  settings : host'.settings = host.settings
  geometry : host'.geometry = host.geometry
  icons : host'.icons.Perm host.icons
  keys : (host.icons.map Icon.key).Nodup
  measured : ∀ {icon resting}, host.Lays icon resting →
    Scalar.isFinite (Point.distance host.geometry.anchor resting) = true
  apart : ∀ {icon other resting resting'}, host.Lays icon resting → host.Lays other resting' →
    Point.distance host.geometry.anchor resting ≤ Point.distance host.geometry.anchor resting' →
    Point.distance host.geometry.anchor resting' ≤ Point.distance host.geometry.anchor resting →
    icon = other

section Reconcile

variable {row : Row α} {host host' : Host α} {tile : Tile α}

/-- The tiles of a row that is in line with the icons of a host. -/
def Host.reconciled (host : Host α) (row : Row α) : Row α :=
  (row.reconcile host.icons host.settings.favoritesOnly host.geometry.iconSize).1

/-- A visible tile of the row stands for an icon that is laid out. -/
theorem Host.Relists.lays (h : host.Relists host') (hmem : tile ∈ (host.reconciled row).tiles)
    (hvisible : tile.visible = true) : ∃ icon, host.Lays icon tile.fixed ∧ icon.key = tile.key := by
  obtain ⟨icon, hshown, hkey, hresting⟩ := Row.icon_of_mem_reconcile hmem
  rw [Icon.shown_of_nodup h.keys] at hshown
  obtain ⟨hicon, heligible⟩ := List.mem_filter.mp hshown
  exact ⟨icon, ⟨hicon, heligible, hresting hvisible⟩, hkey⟩

/-- The row of a host that is relisted is measured. -/
theorem Host.Relists.measured_reconciled (h : host.Relists host') (row : Row α) :
    Row.Measured host.geometry.anchor (host.reconciled row).tiles := by
  intro tile hmem hvisible
  obtain ⟨icon, hlays, -⟩ := h.lays hmem hvisible
  exact h.measured hlays

/-- A key has one tile once the row is in line with the icons, as before. -/
theorem nodup_keys_reconciled (host : Host α) (keys : (row.tiles.map Tile.key).Nodup) :
    ((host.reconciled row).tiles.map Tile.key).Nodup :=
  Row.nodup_keys_reconcile keys host.icons host.settings.favoritesOnly host.geometry.iconSize

/-- The visible tiles of the row are apart from each other. -/
theorem Host.Relists.apart_reconciled (h : host.Relists host')
    (keys : (row.tiles.map Tile.key).Nodup) :
    Row.Apart host.geometry.anchor host.geometry.anchorNegative
      ((Tile.seen (host.reconciled row).tiles).map Tile.lasting) := by
  intro lasting hmem lasting' hmem' hle hge
  obtain ⟨tile, hseen, rfl⟩ := List.mem_map.mp hmem
  obtain ⟨tile', hseen', rfl⟩ := List.mem_map.mp hmem'
  obtain ⟨hrow, hvisible⟩ := List.mem_filter.mp hseen
  obtain ⟨hrow', hvisible'⟩ := List.mem_filter.mp hseen'
  obtain ⟨icon, hlays, hkey⟩ := h.lays hrow hvisible
  obtain ⟨icon', hlays', hkey'⟩ := h.lays hrow' hvisible'
  have hreach : Row.reach host.geometry.anchor tile.lasting host.geometry.anchorNegative = .at _ :=
    Row.reach_of_visible hvisible (h.measured hlays)
  have hreach' : Row.reach host.geometry.anchor tile'.lasting host.geometry.anchorNegative = .at _ :=
    Row.reach_of_visible hvisible' (h.measured hlays')
  rw [hreach, hreach'] at hle hge
  obtain rfl := h.apart hlays hlays' (of_decide_eq_true hle) (of_decide_eq_true hge)
  rw [List.inj_on_of_nodup_map (nodup_keys_reconciled host keys) hrow hrow'
    (hkey.symm.trans hkey')]

/-- Two rows with the same stock have it still after they are reconciled with two such listings. -/
theorem Host.Relists.stock (h : host.Relists host') {row' : Row α} (stock : row.SameStock row') :
    (host.reconciled row).SameStock (host'.reconciled row') := by
  unfold Host.reconciled
  rw [h.settings, h.geometry]
  exact stock.reconcile h.icons h.keys _ _

end Reconcile

namespace Dock

/-! ## What is alike -/

/-- Two docks that differ in the names of their tiles at most, and in the order of those that are not
    visible. -/
inductive Twins (dock : Dock α τ) : Dock α τ → Prop where
  | mk (row : Row α) (same : dock.row.SameRow row) : Twins dock { dock with row }

/-- Two docks that are alike, and commands that tell the same. -/
def TwinStep (step step' : Dock α τ × List (Command α)) : Prop :=
  Twins step.1 step'.1 ∧ SameTelling step.2 step'.2

namespace Twins

variable {dock dock' : Dock α τ}

/-- A dock is its own twin. -/
theorem refl (dock : Dock α τ) : Twins dock dock := ⟨dock.row, .refl _⟩

theorem sameRow (h : Twins dock dock') : dock.row.SameRow dock'.row := by
  obtain ⟨_, hsame⟩ := h
  exact hsame

theorem enabled (h : Twins dock dock') : dock'.enabled = dock.enabled := by
  obtain ⟨⟩ := h
  rfl

theorem cadence (h : Twins dock dock') : dock'.cadence = dock.cadence := by
  obtain ⟨⟩ := h
  rfl

theorem pool (h : Twins dock dock') : dock'.pool = dock.pool := by
  obtain ⟨⟩ := h
  rfl

theorem withTimers (h : Twins dock dock') (timers : τ) :
    Twins (dock.withTimers timers) (dock'.withTimers timers) := by
  obtain ⟨row, hsame⟩ := h
  exact ⟨row, hsame⟩

theorem showLayers (h : Twins dock dock') (visible : Bool) :
    TwinStep (dock.showLayers visible) (dock'.showLayers visible) := by
  obtain ⟨row, hsame⟩ := h
  unfold Dock.showLayers
  dsimp only
  split
  · exact ⟨⟨row, hsame⟩, .refl _⟩
  · exact ⟨⟨row, hsame⟩, .refl _⟩

/-- Twins leave the scene alike. -/
theorem withdraw (h : Twins dock dock') (keys : (dock.row.tiles.map Tile.key).Nodup) :
    TwinStep dock.withdraw dock'.withdraw := by
  obtain ⟨row, hsame⟩ := h
  have hcleared : Twins { dock with
        row := dock.row.clear.1, pool := (dock.pool.clear (α := α)).1, tileCount := 0 }
      { dock with row := row.clear.1, pool := (dock.pool.clear (α := α)).1, tileCount := 0 } :=
    ⟨row.clear.1, hsame.clear⟩
  obtain ⟨hdock, hlayers⟩ := hcleared.showLayers false
  exact ⟨hdock, ((hsame.sameTelling_clear keys).append (.refl _)).append hlayers⟩

/-- Twins are enabled alike. -/
theorem enable (h : Twins dock dock') (settings : Settings α) :
    Twins (dock.enable settings) (dock'.enable settings) := by
  obtain ⟨row, hsame⟩ := h
  unfold Dock.enable
  dsimp only
  split
  · exact ⟨row, hsame⟩
  · exact ⟨row, hsame⟩

theorem fullscreenChanged (h : Twins dock dock') (g : Geometry α) :
    TwinStep (dock.fullscreenChanged g) (dock'.fullscreenChanged g) := by
  unfold Dock.fullscreenChanged
  rw [h.enabled]
  split
  · exact h.showLayers _
  · exact ⟨h, .refl _⟩

variable [TimerService τ]

theorem disable (h : Twins dock dock') (keys : (dock.row.tiles.map Tile.key).Nodup) :
    TwinStep dock.disable dock'.disable := by
  obtain ⟨row, hsame⟩ := h
  have hreset : Twins { dock with
        enabled := false, cadence := dock.cadence.reset, previewLeft := none }
      { dock with
        row, enabled := false, cadence := dock.cadence.reset, previewLeft := none } := ⟨row, hsame⟩
  unfold Dock.disable
  dsimp only
  split
  · exact hreset.withdraw keys
  · exact ⟨⟨row, hsame⟩, .refl _⟩

/-- A drag begins alike for both. -/
theorem dragBegin (h : Twins dock dock') (keys : (dock.row.tiles.map Tile.key).Nodup) :
    TwinStep dock.dragBegin dock'.dragBegin := by
  obtain ⟨row, hsame⟩ := h
  have hbegun : Twins { dock with cadence := dock.cadence.beginDrag }
      { dock with row, cadence := dock.cadence.beginDrag } := ⟨row, hsame⟩
  unfold Dock.dragBegin
  dsimp only
  split
  · split
    · exact hbegun.withdraw keys
    · exact ⟨hbegun, .refl _⟩
  · exact ⟨⟨row, hsame⟩, .refl _⟩

theorem dragEnd (h : Twins dock dock') (keys : (dock.row.tiles.map Tile.key).Nodup) :
    TwinStep dock.dragEnd dock'.dragEnd := by
  obtain ⟨row, hsame⟩ := h
  have hended : Twins { dock with cadence := dock.cadence.endDrag }
      { dock with row, cadence := dock.cadence.endDrag } := ⟨row, hsame⟩
  unfold Dock.dragEnd
  dsimp only
  split
  · split
    · exact hended.withdraw keys
    · exact ⟨hended, .refl _⟩
  · exact ⟨⟨row, hsame⟩, .refl _⟩

/-- Twins wake alike, or fail alike. -/
theorem wake (h : Twins dock dock') (settings : Settings α) :
    Agree Twins (dock.wake settings) (dock'.wake settings) := by
  obtain ⟨row, hsame⟩ := h
  unfold Dock.wake
  dsimp only
  split
  · cases dock.cadence.start settings.magnification.fps with
    | error fault => exact .error fault
    | ok cadence => exact .ok ⟨row, hsame⟩
  · exact .ok ⟨row, hsame⟩

/-- A change of focus is the same to both. -/
theorem focusChanged (h : Twins dock dock') (settings : Settings α) :
    Agree Twins (dock.focusChanged settings) (dock'.focusChanged settings) := by
  obtain ⟨row, hsame⟩ := h
  have hhalted : Twins { dock with cadence := dock.cadence.halt }
      { dock with row, cadence := dock.cadence.halt } := ⟨row, hsame⟩
  unfold Dock.focusChanged
  dsimp only
  split
  · refine (hhalted.wake settings).bind fun hwoken => .ok ?_
    obtain ⟨row, hsame⟩ := hwoken
    exact ⟨row, hsame⟩
  · exact .ok ⟨row, hsame⟩

theorem preview (h : Twins dock dock') (on : Bool) (settings : Settings α) :
    Agree Twins (dock.preview on settings) (dock'.preview on settings) := by
  obtain ⟨row, hsame⟩ := h
  cases on with
  | true =>
      have hset : Twins { dock with previewLeft := some previewPeriod }
          { dock with row, previewLeft := some previewPeriod } := ⟨row, hsame⟩
      exact hset.wake settings
  | false => exact .ok ⟨row, hsame⟩

theorem relayout (h : Twins dock dock') (settings : Settings α) :
    Agree Twins (dock.relayout settings) (dock'.relayout settings) := by
  obtain ⟨row, hsame⟩ := h
  have hordered : Twins { dock with cadence := dock.cadence.orderLayouts Cadence.longLayout }
      { dock with row, cadence := dock.cadence.orderLayouts Cadence.longLayout } := ⟨row, hsame⟩
  exact hordered.wake settings

theorem resume (h : Twins dock dock') (settings : Settings α) :
    Agree Twins (dock.resume settings) (dock'.resume settings) := by
  obtain ⟨row, hsame⟩ := h
  unfold Dock.resume
  dsimp only
  rcases dock.cadence.resume with ⟨ended, resumed⟩
  cases ended with
  | true =>
      have hordered : Twins { dock with cadence := resumed.orderLayouts Cadence.longLayout }
          { dock with row, cadence := resumed.orderLayouts Cadence.longLayout } := ⟨row, hsame⟩
      exact hordered.wake settings
  | false => exact .ok ⟨row, hsame⟩

end Twins

/-! ## Ticks -/

variable {dock dock' : Dock α τ} {host host' : Host α}

theorem updated_row (dock : Dock α τ) (host : Host α) :
    (dock.updated host).row = (host.reconciled dock.row).arrangeFor host.geometry := by
  obtain ⟨cadence, hlayout, -⟩ := takeLayout_cases dock
  unfold updated
  rw [hlayout]
  rfl

/-- Once they are up to date, the rows line up at rest. -/
theorem Twins.lineup [OrderedScalar α] (h : Twins dock dock') (relists : host.Relists host')
    (keys : (dock.row.tiles.map Tile.key).Nodup) :
    Lineup (dock.updated host).row.reset.tiles (dock'.updated host').row.reset.tiles := by
  rw [updated_row, updated_row, relists.geometry]
  exact lineup_sortTiles (relists.stock h.sameRow.toSameStock).perm
    (relists.measured_reconciled dock.row) (relists.apart_reconciled keys)

/-- Apart from their rows, the docks are the same once they are up to date. -/
theorem Twins.updated (h : Twins dock dock') (relists : host.Relists host') :
    dock'.updated host' = { dock.updated host with row := (dock'.updated host').row } := by
  have hsize : (host'.reconciled dock'.row).size = (host.reconciled dock.row).size :=
    (relists.stock h.sameRow.toSameStock).length
  have hupdated : ∀ (dock : Dock α τ) (host : Host α), dock.updated host =
      { dock.takeLayout.1 with
        row := (host.reconciled dock.row).arrangeFor host.geometry
        tileCount := (host.reconciled dock.row).size
        cadence :=
          if (host.reconciled dock.row).size = dock.tileCount then dock.takeLayout.1.cadence
          else dock.takeLayout.1.cadence.orderLayouts Cadence.shortLayout } := fun _ _ => rfl
  rw [hupdated dock, hupdated dock', hsize]
  obtain ⟨row, hsame⟩ := h
  rfl

/-- Twins are told the same by their updates, up to order. -/
theorem Twins.updates (h : Twins dock dock') (relists : host.Relists host')
    (keys : (dock.row.tiles.map Tile.key).Nodup) :
    SameTelling (dock.updates host) (dock'.updates host') := by
  have hrow : SameTelling
      (dock.row.reconcile host.icons host.settings.favoritesOnly host.geometry.iconSize).2.1
      (dock'.row.reconcile host'.icons host'.settings.favoritesOnly host'.geometry.iconSize).2.1 := by
    rw [relists.settings, relists.geometry]
    exact h.sameRow.sameTelling_reconcile keys relists.icons relists.keys _ _
  obtain ⟨row, hsame⟩ := h
  exact SameTelling.append (.refl _) hrow

/-! ### The focus -/

section Focus

variable {tiles tiles' ghosts : List (Tile α)}

/-- The lens of a preview depends on what is visible only. -/
theorem previewFocus_eq (tiles : List (Tile α)) : previewFocus tiles =
    ((tiles.map Tile.visible)[tiles.length / 2]?.filter id).map fun _ =>
      { index := tiles.length / 2, distance := 0.0, offset := Point.zero } := by
  unfold previewFocus
  dsimp only
  rw [List.getElem?_map]
  cases tiles[tiles.length / 2]? with
  | none => rfl
  | some tile =>
      dsimp only [Option.map_some]
      rw [Option.filter_some, Option.filter_some]
      cases tile.visible <;> rfl

/-- The focus is on the same tile of two rows that line up. -/
theorem focus_of_lineup (dock : Dock α τ) (lineup : Lineup tiles tiles')
    (settings : host'.settings = host.settings) (geometry : host'.geometry = host.geometry) :
    dock.focus host' tiles' = dock.focus host tiles := by
  have hpointer : pointerFocus host' tiles' = pointerFocus host tiles := by
    unfold pointerFocus
    dsimp only
    rw [settings, geometry, lineup.nearest?]
  unfold focus
  rw [hpointer, previewFocus_eq, previewFocus_eq, lineup.map_visible, lineup.length]

/-- The focus is on a visible tile. -/
theorem index_lt_of_focus (dock : Dock α τ) (host : Host α) (tiles : List (Tile α))
    (hghosts : Lens.Ghosts ghosts) :
    ∀ focus ∈ (dock.focus host (tiles ++ ghosts)).1, focus.index < tiles.length := by
  have hpointer : ∀ focus ∈ pointerFocus host (tiles ++ ghosts), focus.index < tiles.length := by
    intro focus hfocus
    rw [pointerFocus_eq, Lens.nearest?_append_ghosts hghosts] at hfocus
    split at hfocus
    · exact Lens.index_lt_of_nearest? hfocus
    · exact nomatch hfocus
  have hpreview : ∀ focus ∈ previewFocus (tiles ++ ghosts), focus.index < tiles.length := by
    intro focus hfocus
    obtain ⟨tile, hmiddle, rfl⟩ := Option.map_eq_some_iff.mp hfocus
    obtain ⟨htile, hvisible⟩ := Option.filter_eq_some_iff.mp hmiddle
    -- from there on, no tile is visible
    by_contra hbehind
    rw [List.getElem?_append_right (Nat.le_of_not_lt hbehind)] at htile
    rw [hghosts tile (List.mem_of_getElem? htile)] at hvisible
    exact nomatch hvisible
  intro focus hfocus
  unfold Dock.focus at hfocus
  split at hfocus
  · exact hpreview focus hfocus
  · exact hpointer focus hfocus

/-- The lens magnifies tiles whatever they are named. -/
theorem magnify_plain (focus : Option (Focus α)) (tiles : List (Tile α)) :
    magnify host focus (tiles.map Tile.plain) =
      Prod.map (List.map Tile.plain) id <$> magnify host focus tiles := by
  cases focus with
  | none => rfl
  | some focus => exact Lens.magnify_rename _ _ (fun _ => ⟨0⟩) (fun _ => none) focus tiles

/-- The lens keeps two rows lined up. -/
theorem magnify_of_lineup (dock : Dock α τ) (lineup : Lineup tiles tiles')
    (settings : host'.settings = host.settings) (geometry : host'.geometry = host.geometry) :
    ∃ moved moved' magnified,
      magnify host (dock.focus host tiles).1 tiles = .ok (moved, magnified) ∧
      magnify host' (dock.focus host tiles).1 tiles' = .ok (moved', magnified) ∧
      Lineup moved moved' := by
  have hsame : ∀ focus tiles, magnify host' focus tiles = magnify host focus tiles := by
    intro focus tiles
    unfold magnify
    rw [settings, geometry]
  rw [hsame]
  obtain ⟨visible, visible', hidden, hidden', same, perm⟩ := lineup
  rename_i tiles tiles' ghosts ghosts'
  have hfocus := index_lt_of_focus dock host tiles hidden
  generalize (dock.focus host (tiles ++ ghosts)).1 = focus at *
  have hlength := congrArg List.length same
  rw [List.length_map, List.length_map] at hlength
  obtain ⟨moved, aimed, magnified, hmoved, happend, hrest⟩ := magnify_append hfocus ghosts
  obtain ⟨moved', aimed', magnified', hmoved', happend', hrest'⟩ :=
    magnify_append (hlength ▸ hfocus) ghosts'
  -- without their names, the lens finds the same tiles
  have hplain := congrArg (magnify host focus) same
  rw [magnify_plain, magnify_plain, hmoved, hmoved'] at hplain
  obtain ⟨hsame', rfl⟩ := Prod.mk.inj (Except.ok.inj hplain)
  have hlasting : ∀ {aimed ghosts : List (Tile α)}, aimed.map Tile.reset = ghosts.map Tile.reset →
      aimed.map Tile.lasting = ghosts.map Tile.lasting := by
    intro aimed ghosts hreset
    have hplain := congrArg (List.map Tile.plain) hreset
    rw [List.map_map, List.map_map] at hplain
    exact hplain
  refine ⟨_, _, _, happend, happend', .mk ?_ ?_ (hidden.of_reset hrest) (hidden'.of_reset hrest')
    hsame' ?_⟩
  · exact Tile.forall_visible_of_map (map_magnify (fun _ _ _ _ _ => rfl) hmoved) visible
  · exact Tile.forall_visible_of_map (map_magnify (fun _ _ _ _ _ => rfl) hmoved') visible'
  · rw [hlasting hrest, hlasting hrest']
    exact perm

end Focus

/-! ### The whole tick -/

/-- What a tick comes to, and what it tells: docks that are alike, the same about everything that is
    no tile, and the same result. -/
structure SameTick (step step' : Dock α τ × List (Command α) × Bool) : Prop where
  alike : Twins step.1 step'.1
  telling : SameTelling step.2.1 step'.2.1
  animated : step'.2.2 = step.2.2

variable [TimerService τ]

omit [TimerService τ] in
/-- Twins have their layers told alike. -/
theorem Twins.layered (h : Twins dock dock') (geometry : host'.geometry = host.geometry) :
    TwinStep (dock.layered host) (dock'.layered host') := by
  unfold Dock.layered
  rw [geometry]
  split
  · exact ⟨h, .refl _⟩
  · exact h.showLayers true

omit [Scalar α] in
/-- However many tiles there are, they are activated alike. -/
theorem sameTelling_activations {tiles tiles' : List (Tile α)}
    (hlength : tiles'.length = tiles.length) (active : Bool) : SameTelling
      (tiles.map fun tile => .activateTile tile.id active)
      (tiles'.map fun tile => Command.activateTile (α := α) tile.id active) := by
  refine .of_nameless ?_
  have hactivations : ∀ tiles : List (Tile α),
      (tiles.map fun tile => Command.activateTile (α := α) tile.id active).map Command.nameless =
        List.replicate tiles.length (.activateTile ⟨0⟩ active) := by
    intro tiles
    rw [List.map_map]
    exact List.map_const'
  rw [hactivations, hactivations, hlength]

/-- Rows that line up are animated alike. -/
theorem animate_of_lineup {row : Row α} (stock : dock.row.SameStock row)
    (lineup : Lineup dock.row.reset.tiles row.reset.tiles)
    (settings : host'.settings = host.settings) (geometry : host'.geometry = host.geometry) :
    Agree SameTick (dock.animate host) (animate { dock with row } host') := by
  obtain ⟨moved, moved', magnified, hmagnify, hmagnify', hlineup⟩ :=
    magnify_of_lineup dock lineup settings geometry
  have hfocus : focus { dock with row } host' row.reset.tiles =
      dock.focus host dock.row.reset.tiles :=
    focus_of_lineup dock lineup settings geometry
  have hframe : SameFrame (dock.frameOf host moved) (frameOf { dock with row } host' moved') := by
    unfold frameOf
    dsimp only
    rw [hfocus, settings, geometry]
    exact hlineup.build _ _ _ _
  have hframed : Twins (dock.framed host moved) (framed { dock with row } host' moved') := by
    unfold framed
    dsimp only
    rw [hfocus, hframe.pool]
    exact ⟨_, ⟨stock.created, hframe.perm⟩, hframe.seen⟩
  obtain ⟨halike, hlayers⟩ := hframed.layered geometry
  -- the two docks, what they say of it, and whether they glide
  rw [animate_eq, animate_eq]
  dsimp only
  rw [hfocus, hmagnify, hmagnify']
  refine .ok ⟨?_, ?_, ?_⟩
  · dsimp only
    rw [hframe.glided]
    generalize (dock.framed host moved).layered host = shown at *
    generalize (framed { dock with row } host' moved').layered host' = shown' at *
    obtain ⟨dock₁, layers⟩ := shown
    obtain ⟨dock₁', layers'⟩ := shown'
    obtain ⟨row₁, hsame⟩ := halike
    exact ⟨row₁, hsame⟩
  · refine (SameTelling.append ?_ (.of_nameless hframe.commands)).append hlayers
    rw [geometry]
    exact sameTelling_activations stock.length _
  · dsimp only
    rw [hframe.glided]

/-- Docks that are alike answer a tick alike, whatever the order is in which their hosts list the
    icons. -/
theorem Twins.tick [OrderedScalar α] (h : Twins dock dock') (relists : host.Relists host')
    (keys : (dock.row.tiles.map Tile.key).Nodup) :
    Agree SameTick (dock.tick host) (dock'.tick host') := by
  have hanimate : Agree SameTick ((dock.updated host).animate host)
      ((dock'.updated host').animate host') := by
    have hstock : (dock.updated host).row.SameStock (dock'.updated host').row := by
      rw [updated_row, updated_row, relists.geometry]
      exact (relists.stock h.sameRow.toSameStock).arrange _ _
    have hlineup := h.lineup relists keys
    rw [h.updated relists]
    exact animate_of_lineup hstock hlineup relists.settings relists.geometry
  have hupdates := h.updates relists keys
  have hsuspend : TwinStep (Dock.withdraw { dock with cadence := dock.cadence.suspend })
      (Dock.withdraw { dock' with cadence := dock'.cadence.suspend }) := by
    obtain ⟨row, hsame⟩ := h
    have hsuspended : Twins { dock with cadence := dock.cadence.suspend }
        { dock with row, cadence := dock.cadence.suspend } := ⟨row, hsame⟩
    exact hsuspended.withdraw keys
  have hdisable := h.disable keys
  rw [tick_eq, tick_eq, h.enabled, h.cadence, relists.settings]
  rw [h.enabled, h.cadence] at hsuspend
  split
  · split
    · exact .ok ⟨hsuspend.1, hsuspend.2, rfl⟩
    · split
      · exact .ok ⟨hdisable.1, hdisable.2, rfl⟩
      · exact hanimate.bind fun hshown =>
          .ok ⟨hshown.alike, hupdates.append hshown.telling, hshown.animated⟩
  · exact .ok ⟨h, .refl _, rfl⟩

/-! ## Events -/

/-- What the hosts of two docks have in common when something happens to both.  The order of the
    icons does not matter, and it is only at a tick that the icons do. -/
structure SameOccasion (event : Event) (host host' : Host α) : Prop where
  settings : host'.settings = host.settings
  geometry : host'.geometry = host.geometry
  relists : event = .alarm .tick → host.Relists host'

/-- Docks that are alike answer every event alike. -/
theorem Twins.handle [OrderedScalar α] (h : Twins dock dock') {event : Event}
    (occasion : SameOccasion event host host') (keys : (dock.row.tiles.map Tile.key).Nodup) :
    Agree TwinStep (dock.handle host event) (dock'.handle host' event) := by
  have hsilent : ∀ {attempt attempt' : Except Fault (Dock α τ)}, Agree Twins attempt attempt' →
      Agree TwinStep ((·, []) <$> attempt) ((·, []) <$> attempt') :=
    fun hagree => hagree.map fun halike => ⟨halike, .refl _⟩
  obtain ⟨hsettings, hgeometry, hrelists⟩ := occasion
  unfold Dock.handle
  rw [hsettings, hgeometry]
  cases event with
  | enable => exact .ok ⟨h.enable _, .refl _⟩
  | disable => exact .ok (h.disable keys)
  | pointerEnter | pointerMotion => exact hsilent (h.wake _)
  | pointerLeave =>
      obtain ⟨row, hsame⟩ := h
      exact .ok ⟨⟨row, hsame⟩, .refl _⟩
  | focusChanged => exact hsilent (h.focusChanged _)
  | fullscreenChanged => exact .ok (h.fullscreenChanged _)
  | dragBegin => exact .ok (h.dragBegin keys)
  | dragEnd => exact .ok (h.dragEnd keys)
  | preview on => exact hsilent (h.preview on _)
  | relayout => exact hsilent (h.relayout _)
  | alarm alarm =>
      cases alarm with
      | tick =>
          exact (h.tick (hrelists rfl) keys).bind fun hticked =>
            .ok ⟨hticked.alike, hticked.telling⟩
      | quiet =>
          obtain ⟨row, hsame⟩ := h
          exact .ok ⟨⟨row, hsame⟩, .refl _⟩
      | resume =>
          unfold handleAlarm
          dsimp only
          rw [hsettings]
          exact (h.resume _).bind fun hresumed => .ok ⟨hresumed, .refl _⟩

end Dock

end FisheyeDock
