import FisheyeDock.Proofs.Scalar.Real
import FisheyeDock.Proofs.Dock.Solo
import FisheyeDock.Proofs.Dock.Sound
import FisheyeDock.Proofs.Lens.Scale

/-! # How large tiles become in a run

    A tick is the only event that changes a scale, and with strengths from zero to one it takes no
    tile out of `Tile.InScale`.  That is a step of an induction over the runs in which every tick
    finds such strengths (`RanUnder`), be they the same in all ticks or not.  What is written is the
    scale of a tile of the row that the tick leaves, so that the writings are in bounds as well
    (`RanUnder.scales_bounded`). -/

namespace FisheyeDock

namespace Tile

/-- A new tile is in bounds. -/
theorem inScale_ofIcon (id : Tile.Id) (icon : Icon ℝ) : (ofIcon id icon).InScale := by
  have hscale : (ofIcon id icon).scale = 1 := one_real
  have htarget : (ofIcon id icon).targetScale = 1 := one_real
  have hone : (1 : ℝ) ≤ largestScale := by
    rw [largestScale_eq]
    norm_num
  constructor
  · exact hscale.ge
  · rw [hscale]
    exact hone
  · exact htarget.ge
  · rw [htarget]
    exact hone

/-- A tile that is brought up to date with its icon keeps its scales, also where it gets lost or turns
    up again. -/
theorem InScale.refresh {tile : Tile ℝ} (h : tile.InScale) (icon : Icon ℝ) :
    (tile.refresh icon).InScale := by
  unfold Tile.refresh
  split
  · exact ⟨h.one_le, h.le_largest, h.one_le_target, h.target_le_largest⟩
  · exact ⟨h.one_le, h.le_largest, h.one_le_target, h.target_le_largest⟩

end Tile

namespace Dock

open Scene (Command)

/-! ## One tick -/

section Tick

variable {τ : Type} {dock dock' : Dock ℝ τ} {host : Host ℝ} {tiles : List (Tile ℝ)}
variable {magnified : Bool} {event : Event} {commands : List (Command ℝ)}

/-- The strengths that the settings of a host give to the effects are mild. -/
def MildlySet (host : Host ℝ) : Prop :=
  (Strengths.ofMagnification host.settings.magnification).Mild

/-- An update leaves scales in range, where new tiles have none but the scale of rest. -/
theorem inScale_updated (h : ∀ tile ∈ dock.row.tiles, tile.InScale) :
    ∀ tile ∈ (dock.updated host).row.tiles, tile.InScale := by
  intro tile hmem
  rcases mem_updated hmem with ⟨old, hold, icon, -, rfl⟩ | ⟨id, icon, -, rfl⟩
  · exact (h old hold).refresh icon
  · exact Tile.inScale_ofIcon id icon

/-- A frame that a tick builds is in bounds if the scales were, wherever the tiles were heading. -/
theorem inScale_framed (mild : MildlySet host)
    (h : ∀ tile ∈ dock.row.tiles, 1 ≤ tile.scale ∧ tile.scale ≤ largestScale)
    (hmagnify : magnify host (dock.focus host dock.row.reset.tiles).1 dock.row.reset.tiles
      = .ok (tiles, magnified)) :
    ∀ tile ∈ (dock.frameOf host tiles).tiles, tile.InScale := by
  have hresting : ∀ tile ∈ dock.row.reset.tiles, tile.InScale := by
    intro tile hmem
    obtain ⟨old, hold, rfl⟩ := List.mem_map.mp hmem
    obtain ⟨hone, hlargest⟩ := h old hold
    exact Tile.inScale_reset hone hlargest
  have htiles : ∀ tile ∈ tiles, tile.InScale := by
    generalize (dock.focus host dock.row.reset.tiles).1 = focus at hmagnify
    cases focus with
    | none =>
        obtain ⟨rfl, -⟩ := Prod.mk.inj (Except.ok.inj hmagnify)
        exact hresting
    | some focus => exact Lens.magnify_inScale mild hmagnify hresting
  intro tile' hmem
  obtain ⟨tile, htile, hbare⟩ := Frame.moved_of_mem hmem
  have hmoved : (tile.advance host.geometry.iconSize
      (dock.focus host dock.row.reset.tiles).1.isNone).1.InScale := (htiles tile htile).advance _ _
  rw [← Tile.inScale_bare, ← hbare, Tile.inScale_bare]
  exact hmoved

variable [TimerService τ]

/-- Every event leaves tiles in bounds that were in bounds, if it is not a tick under strengths that
    are out of bounds themselves. -/
theorem Outcome.inScale (outcome : Outcome dock host event dock' commands)
    (mild : event = .alarm .tick → MildlySet host) (h : ∀ tile ∈ dock.row.tiles, tile.InScale) :
    ∀ tile ∈ dock'.row.tiles, tile.InScale := by
  cases outcome with
  | rests stays bare row pool backdrop =>
      rw [row]
      exact h
  | withdraws leaves row pool layers backdrop commands_eq =>
      rw [row]
      exact fun _ hmem => nomatch hmem
  | draws stays drawn tiles magnified layers magnify_eq backdrop commands_eq row_eq pool_eq =>
      have hupdated : ∀ tile ∈ (dock.updated host).row.tiles, tile.InScale := inScale_updated h
      have hscales : ∀ tile ∈ (dock.updated host).row.tiles,
          1 ≤ tile.scale ∧ tile.scale ≤ largestScale := by
        intro tile hmem
        have hin := hupdated tile hmem
        exact ⟨hin.one_le, hin.le_largest⟩
      rw [row_eq]
      exact inScale_framed (mild (drawsOn_cases drawn).1) hscales magnify_eq

end Tick

/-! ## Runs -/

section Runs

variable {α τ : Type} [Scalar α] [TimerService τ] {allowed : Host α → Prop}

/-- The docks that a run leads to in which every tick finds a host of some kind, with the commands on
    the way.  All other events, and everything else about the host, are arbitrary. -/
inductive RanUnder (allowed : Host α → Prop) : Dock α τ → List (Command α) → Prop where
  | new (timers : τ) : RanUnder allowed (new timers) []
  | event {dock dock' : Dock α τ} {trace commands : List (Command α)} (host : Host α)
      (event : Event) (before : RanUnder allowed dock trace)
      (allows : event = .alarm .tick → allowed host)
      (step : dock.handle host event = .ok (dock', commands)) :
      RanUnder allowed dock' (trace ++ commands)
  | drift {dock : Dock α τ} {trace : List (Command α)} (timers : τ)
      (before : RanUnder allowed dock trace) : RanUnder allowed (dock.withTimers timers) trace

/-- A run under some hosts is a run. -/
theorem RanUnder.ran {dock : Dock α τ} {trace : List (Command α)}
    (h : RanUnder allowed dock trace) : Ran dock trace := by
  induction h with
  | new timers => exact .new timers
  | event host event before allows step ih => exact ih.event host event step
  | drift timers before ih => exact ih.drift timers

end Runs

variable {τ : Type} [TimerService τ] {dock : Dock ℝ τ} {trace : List (Command ℝ)}

/-- All scales of the row are in range at all times. -/
theorem RanUnder.inScale_row (h : RanUnder MildlySet dock trace) :
    ∀ tile ∈ dock.row.tiles, tile.InScale := by
  induction h with
  | new timers => exact fun _ hmem => nomatch hmem
  | event host event before allows step ih => exact (handle_outcome step).inScale allows ih
  | drift timers before ih => exact ih

theorem RanUnder.inScale_trace (h : RanUnder MildlySet dock trace) {id : Tile.Id}
    {position : Point ℝ} {scale : ℝ} (hmem : .transformTile id position scale ∈ trace) :
    1 ≤ scale ∧ scale ≤ largestScale := by
  induction h with
  | new timers => exact nomatch hmem
  | event host event before allows step ih =>
      rcases List.mem_append.mp hmem with hold | hnew
      · exact ih hold
      · obtain ⟨tile, htile, -, hof⟩ := (handle_outcome step).mem_of_writing hnew rfl
        obtain ⟨-, rfl⟩ := Tile.eq_of_transform_mem hof
        have hin := (before.event host event allows step).inScale_row tile htile
        exact ⟨hin.one_le, hin.le_largest⟩
  | drift timers before ih => exact ih hmem

/-- **SCALES STAY BOUNDED** in exact arithmetic, whatever happens to a dock: as long as every tick
    finds strengths from zero to one, the scale of every tile and the one it is heading for are from
    one to 1.9, and so is every scale that a tile has ever been drawn in.  The strengths may be others
    in every tick. -/
theorem RanUnder.scales_bounded (h : RanUnder MildlySet dock trace) :
    (∀ tile ∈ dock.row.tiles, 1 ≤ tile.targetScale ∧ tile.targetScale ≤ 19 / 10 ∧
      1 ≤ tile.scale ∧ tile.scale ≤ 19 / 10) ∧
    ∀ id position scale, .transformTile id position scale ∈ trace →
      1 ≤ scale ∧ scale ≤ 19 / 10 := by
  rw [← largestScale_eq]
  constructor
  · intro tile hmem
    have hin := h.inScale_row tile hmem
    exact ⟨hin.one_le_target, hin.target_le_largest, hin.one_le, hin.le_largest⟩
  · intro id position scale hmem
    exact h.inScale_trace hmem

/-! ## A tile that grows -/

section Hovered

/-- One favorite, which grows as much as can be and stays where it is while the pointer is on it. -/
noncomputable def hoveredHost : Host ℝ where
  settings := { (Settings.standard : Settings ℝ) with
    magnification := { off := false, rise := 0, magnify := 1, spread := 0, fps := 0 } }
  geometry := Lens.onFirst
  icons := [Icon.favorite 1 ⟨0, 0⟩]

/-- The strengths of the host are mild. -/
theorem mildlySet_hoveredHost : MildlySet hoveredHost where
  magnify_nonneg := zero_le_one
  magnify_le_one := le_refl (1 : ℝ)
  spread_nonneg := le_refl (0 : ℝ)
  spread_le_one := zero_le_one

theorem solo_hoveredHost : Solo hoveredHost (Icon.favorite 1 ⟨0, 0⟩) := ⟨rfl, rfl, rfl, rfl⟩

variable {tile : Tile ℝ}

/-- The lens on the tile. -/
noncomputable def hovered (tile : Tile ℝ) : Tile ℝ :=
  Lens.magnifyCenter Lens.onFirst (.ofMagnification hoveredHost.settings.magnification)
    (Lens.focusOn Lens.onFirst 0 tile.reset) tile.reset

theorem magnify_hoveredHost (hvisible : tile.visible = true) (hfixed : tile.fixed = ⟨0, 0⟩) :
    (pointerFocus hoveredHost [tile.reset]).isNone = false ∧
      magnify hoveredHost (pointerFocus hoveredHost [tile.reset]) [tile.reset] =
        .ok ([hovered tile], true) := by
  have hdistance : Lens.pointerDistance Lens.onFirst tile.reset = 0 := by
    have hplace : tile.reset.fixed = ⟨0, 0⟩ := hfixed
    rw [Lens.pointerDistance_onFirst _ (by rw [hplace]), hplace]
    exact abs_zero
  have hhit : Lens.pointerDistance Lens.onFirst tile.reset < Lens.hitRadius Lens.onFirst := by
    show _ < Lens.onFirst.iconSize * 1.25 * 1
    rw [hdistance, Lens.iconSize_onFirst, ofScientific_real]
    norm_num
  have hnear : Lens.isNear Lens.onFirst (Lens.focusOn Lens.onFirst 0 tile.reset) = true := by
    rw [Lens.isNear_iff, hdistance, Lens.iconSize_onFirst]
    norm_num
  have hactive : ¬ (hoveredHost.settings.magnification.isInert ||
      (Lens.onFirst.autohideHidden && !hoveredHost.settings.peekHiddenIcons)) = true := by
    have hzero : ¬ hoveredHost.settings.magnification.isInert = true := by
      unfold Magnification.isInert
      rw [Scalar.isZero_real]
      show ¬ (0 : ℝ) + 1 + 0 = 0
      norm_num
    rw [(Bool.not_eq_true _).mp hzero]
    exact Bool.false_ne_true
  have hnearest : Lens.nearest? Lens.onFirst ([] ++ [tile.reset]) =
      some (Lens.focusOn Lens.onFirst (0 + 0) tile.reset) :=
    Lens.nearestFrom_append hvisible hhit nofun nofun nofun
  have hfocus : pointerFocus hoveredHost [tile.reset] =
      some (Lens.focusOn Lens.onFirst 0 tile.reset) := (if_neg hactive).trans hnearest
  have hmagnify : Lens.magnify Lens.onFirst _ (Lens.focusOn Lens.onFirst 0 tile.reset)
      ([] ++ tile.reset :: []) = _ :=
    Lens.magnify_append (s := .ofMagnification hoveredHost.settings.magnification) _ rfl
  rw [if_pos hnear] at hmagnify
  rw [hfocus]
  exact ⟨rfl, hmagnify⟩

/-- The tile heads for the largest scale, and for no other place. -/
theorem target_hovered (hfixed : tile.fixed = ⟨0, 0⟩) :
    (hovered tile).targetScale = 19 / 10 ∧ (hovered tile).target = ⟨0, 0⟩ := by
  constructor
  · refine (Lens.targetScale_magnifyCenter _ _ _ _).trans ?_
    show (1 : ℝ) + 9 / 10 * 1 = 19 / 10
    norm_num
  · have hstays : ¬ (Strengths.ofMagnification hoveredHost.settings.magnification).spreads = true :=
      fun hspreads => Lens.spreads_iff.mp hspreads rfl
    have hrise : Lens.riseOffset Lens.onFirst
        (.ofMagnification hoveredHost.settings.magnification) = 0 := by
      show _ * (0 : ℝ) * _ = 0
      rw [mul_zero, zero_mul]
    show Lens.centerTarget _ _ _ _ = _
    unfold Lens.centerTarget
    dsimp only
    rw [if_neg hstays, hrise]
    show (⟨tile.fixed.x, tile.fixed.y + 0⟩ : Point ℝ) = ⟨0, 0⟩
    rw [hfixed, add_zero]

/-- A tick of the tile at rest under the lens. -/
theorem soloStep_hovered (hvisible : tile.visible = true) (hfixed : tile.fixed = ⟨0, 0⟩)
    (hposition : tile.position = ⟨0, 0⟩) (hscale : tile.scale = 1) :
    1 < (soloStep hoveredHost tile (hovered tile)).1.scale ∧
      (soloStep hoveredHost tile (hovered tile)).1.position = ⟨0, 0⟩ := by
  obtain ⟨hfocused, -⟩ := magnify_hoveredHost hvisible hfixed
  obtain ⟨htargetScale, htarget⟩ := target_hovered hfixed
  have hshown : (hovered tile).visible = true := hvisible
  unfold soloStep Tile.advance
  rw [if_pos hshown, hfocused]
  constructor
  · show 1 < (hovered tile).bare.smoothScale false
    have hone : 1 ≤ (hovered tile).bare.scale := hscale.ge
    have hgrows : 1 ≤ (hovered tile).bare.targetScale := by
      show 1 ≤ (hovered tile).targetScale
      rw [htargetScale]
      norm_num
    have hleft := @Tile.smoothScale_sub (hovered tile).bare false hone hgrows
    rw [show (hovered tile).bare.targetScale = 19 / 10 from htargetScale,
      show (hovered tile).bare.scale = 1 from hscale, Tile.inertia_eq] at hleft
    norm_num at hleft
    linarith
  · have hway : (hovered tile).bare.way = 0 := Tile.way_of_eq (hposition.trans htarget.symm)
    have hstill : ¬ Tile.Glides hoveredHost.geometry.iconSize (hovered tile).bare.way := by
      rw [hway]
      exact Tile.not_glides_zero _
    exact (Tile.smoothPosition_of_not_glides hstill).trans htarget

/-- A new tile, which the first tick finds under the pointer. -/
noncomputable def hoveredTile : Tile ℝ := .ofIcon (Row.idAt 0) (.favorite 1 ⟨0, 0⟩)

/-- The first tick over the icon draws its tile larger than it is at rest. -/
theorem scales_bounded_hovered : ∃ (dock : Dock ℝ Clock) (trace : List (Command ℝ)) (id : Tile.Id)
    (position : Point ℝ) (scale : ℝ), RanUnder MildlySet dock trace ∧
      .transformTile id position scale ∈ trace ∧ 1 < scale ∧ scale ≤ 19 / 10 := by
  let enabled : Dock ℝ Clock := (new Clock.start).enable hoveredHost.settings
  have hnew : RanUnder MildlySet (new Clock.start : Dock ℝ Clock) [] := .new Clock.start
  have henabled : RanUnder MildlySet enabled ([] ++ []) := hnew.event hoveredHost .enable nofun rfl
  have hready : enabled.Ready := ⟨rfl, rfl, rfl⟩
  have hrow : (enabled.updated hoveredHost).row.tiles = [hoveredTile] :=
    tiles_updated_of_empty solo_hoveredHost rfl
  have hvisible : hoveredTile.visible = true := rfl
  obtain ⟨-, hmagnify⟩ := magnify_hoveredHost hvisible rfl
  obtain ⟨hgrown, -⟩ := soloStep_hovered hvisible rfl rfl one_real
  obtain ⟨dock, commands, htick, hstepped⟩ := solo_tick hready rfl hrow hmagnify
  obtain ⟨tile, htile, hbare⟩ := hstepped.single
  have hran := henabled.event hoveredHost (.alarm .tick) (fun _ => mildlySet_hoveredHost)
    (bind_eq_ok_iff.mpr ⟨_, htick, rfl⟩)
  have hshown : tile.visible = true := congrArg Tile.visible hbare
  have hdraws : enabled.drawsOn hoveredHost (.alarm .tick) = true := rfl
  have hdrawn : .transformTile tile.id tile.position tile.scale ∈
      commands.filter Command.isWriting := by
    rw [(tick_outcome htick).writings_eq, if_pos hdraws, htile, List.filter_cons_of_pos hshown]
    exact List.mem_append_left _ List.mem_cons_self
  have hmem := List.mem_append_right ([] ++ []) (List.mem_filter.mp hdrawn).1
  refine ⟨dock, _, tile.id, tile.position, tile.scale, hran, hmem, ?_, ?_⟩
  · have hsame : tile.scale = (soloStep hoveredHost hoveredTile (hovered hoveredTile)).1.scale :=
      show tile.bare.scale = Tile.scale (Tile.bare _) from congrArg Tile.scale hbare
    rw [hsame]
    exact hgrown
  · exact (hran.scales_bounded.2 tile.id tile.position tile.scale hmem).2

end Hovered

end Dock

end FisheyeDock
