import FisheyeDock.Proofs.Dock.Telling

/-! # The order in which icons are listed

    Two runs are `Paired` if the same happens in both, and the hosts differ in nothing but the order
    in which they list their icons.  After every tick, the visible tiles of both are the same in the
    same order, and both scenes have been told the same (`Paired.sameShow`).  What differs is the
    names of the tiles, and the order of those that are not visible. -/

namespace FisheyeDock

open Scene (Command SameTelling)

variable {α τ : Type} [Scalar α]

namespace Row.SameRow

variable {row row' : Row α} {tile tile' : Tile α}

/-- Tiles with the same key are told alike about. -/
theorem telling_eq (h : row.SameRow row') (keys : (row.tiles.map Tile.key).Nodup)
    (hmem : tile ∈ row.tiles) (hmem' : tile' ∈ row'.tiles) (hkey : tile'.key = tile.key) :
    tile'.telling = tile.telling := by
  have hvisible : tile'.visible = tile.visible := by
    obtain ⟨other, hother, heq⟩ :=
      List.mem_map.mp (h.perm.mem_iff.mp (List.mem_map_of_mem hmem'))
    have hsame : other.key = tile'.key := (congrArg Tile.key heq :)
    obtain rfl := List.inj_on_of_nodup_map keys hother hmem (hsame.trans hkey)
    exact (congrArg Tile.visible heq :).symm
  cases hshown : tile.visible with
  | false =>
      unfold Tile.telling
      rw [hvisible, hshown]
      rfl
  | true =>
      have hseen : tile'.nameless ∈ (Tile.seen row'.tiles).map Tile.nameless :=
        List.mem_map_of_mem (List.mem_filter.mpr ⟨hmem', hvisible.trans hshown⟩)
      rw [h.seen] at hseen
      obtain ⟨other, hother, heq⟩ := List.mem_map.mp hseen
      have hsame : other.key = tile'.key := (congrArg Tile.key heq :)
      obtain rfl := List.inj_on_of_nodup_map keys (List.mem_filter.mp hother).1 hmem
        (hsame.trans hkey)
      exact (congrArg Tile.telling heq :).symm

end Row.SameRow

namespace Dock

variable [TimerService τ] {dock dock' dock₁ dock₁' : Dock α τ} {host host' : Host α}
variable {trace trace' commands commands' : List (Command α)}

/-- Two runs in which the same happens, but for the order in which the hosts list the icons. -/
inductive Paired : Dock α τ → List (Command α) → Dock α τ → List (Command α) → Prop where
  | new (timers : τ) : Paired (new timers) [] (new timers) []
  | event {dock dock' dock₁ dock₁' : Dock α τ} {trace trace' commands commands' : List (Command α)}
      {host host' : Host α} (event : Event) (before : Paired dock trace dock' trace')
      (occasion : SameOccasion event host host')
      (step : dock.handle host event = .ok (dock₁, commands))
      (step' : dock'.handle host' event = .ok (dock₁', commands')) :
      Paired dock₁ (trace ++ commands) dock₁' (trace' ++ commands')
  | drift {dock dock' : Dock α τ} {trace trace' : List (Command α)} (timers : τ)
      (before : Paired dock trace dock' trace') :
      Paired (dock.withTimers timers) trace (dock'.withTimers timers) trace'

/-- Two docks show the same: the loop is in the same state, the visible tiles are the same in the
    same order but for their names, and the scene has been told the same, in the same order, about
    the tile of each key and about everything else. -/
structure SameShow (dock : Dock α τ) (trace : List (Command α)) (dock' : Dock α τ)
    (trace' : List (Command α)) : Prop where
  cadence : dock'.cadence = dock.cadence
  seen : (Tile.seen dock'.row.tiles).map Tile.nameless = (Tile.seen dock.row.tiles).map Tile.nameless
  tiles : ∀ key, dock'.toldOf trace' key = dock.toldOf trace key
  telling : SameTelling trace trace'

omit [TimerService τ] in
/-- What an event tells about a tile is the same for docks that are alike before and after. -/
theorem Twins.said_eq (h : Twins dock dock') (after : Twins dock₁ dock₁') {event : Event}
    (occasion : SameOccasion event host host') {tile tile' : Tile α}
    (keys : (dock₁.row.tiles.map Tile.key).Nodup) (hmem : tile ∈ dock₁.row.tiles)
    (hmem' : tile' ∈ dock₁'.row.tiles) (hkey : tile'.key = tile.key) :
    dock'.said host' event tile' = dock.said host event tile := by
  have hdraws : dock'.drawsOn host' event = dock.drawsOn host event := by
    cases event with
    | alarm alarm =>
        cases alarm with
        | tick =>
            unfold drawsOn
            rw [h.enabled, h.cadence, occasion.settings]
        | quiet | resume => rfl
    | _ => rfl
  unfold said
  rw [hdraws, hkey, after.sameRow.telling_eq keys hmem hmem' hkey, occasion.geometry]
  simp only [h.sameRow.keys.mem_iff]

namespace Paired

/-- One of the paired docks has been run. -/
theorem ran (h : Paired dock trace dock' trace') : Ran dock trace := by
  induction h with
  | new timers => exact .new timers
  | event event before occasion step step' ih => exact ih.event _ event step
  | drift timers before ih => exact ih.drift timers

theorem ran' (h : Paired dock trace dock' trace') : Ran dock' trace' := by
  induction h with
  | new timers => exact .new timers
  | event event before occasion step step' ih => exact ih.event _ event step'
  | drift timers before ih => exact ih.drift timers

variable [OrderedScalar α]

/-- Paired runs lead to docks that are alike, with the same told about everything that is no tile. -/
theorem alike (h : Paired dock trace dock' trace') :
    Twins dock dock' ∧ SameTelling trace trace' := by
  induction h with
  | new timers => exact ⟨.refl _, .refl _⟩
  | event event before occasion step step' ih =>
      obtain ⟨result, hresult, hstep⟩ :=
        (ih.1.handle occasion before.ran.handedOver.nodup).exists_of_ok step
      obtain rfl := Except.ok.inj (step'.symm.trans hresult)
      exact ⟨hstep.1, ih.2.append hstep.2⟩
  | drift timers before ih => exact ⟨ih.1.withTimers timers, ih.2⟩

/-- The same is told about the tile of each key. -/
theorem toldOf_eq (h : Paired dock trace dock' trace') (htiles : dock.row.created ≤ UInt64.size)
    (hmarkers : dock.pool.created ≤ UInt64.size) (key : Icon.Key) :
    dock'.toldOf trace' key = dock.toldOf trace key := by
  induction h generalizing key with
  | new timers => rfl
  | drift timers before ih => exact ih htiles hmarkers key
  | @event dock dock' dock₁ dock₁' trace trace' commands commands' host host' event before occasion
      step step' ih =>
      have hafter := (before.event event occasion step step').alike.1
      have hkeys := (before.ran.event host event step).handedOver.nodup
      obtain ⟨hrow, hpool⟩ := (handle_staging step).created_le
      by_cases hkey : key ∈ dock₁.row.tiles.map Tile.key
      · obtain ⟨tile', hmem', rfl⟩ := List.mem_map.mp (hafter.sameRow.keys.mem_iff.mpr hkey)
        obtain ⟨tile, hmem, heq⟩ := List.mem_map.mp hkey
        have htiles' : dock₁'.row.created ≤ UInt64.size := hafter.sameRow.created ▸ htiles
        have hmarkers' : dock₁'.pool.created ≤ UInt64.size := by
          rw [hafter.pool]
          exact hmarkers
        rw [before.ran'.told_event step' htiles' hmarkers' hmem',
          before.alike.1.said_eq hafter occasion hkeys hmem hmem' heq.symm,
          ih (hrow.trans htiles) (hpool.trans hmarkers), ← heq,
          before.ran.told_event step htiles hmarkers hmem]
      · rw [toldOf_eq_nil hkey, toldOf_eq_nil]
        rwa [hafter.sameRow.keys.mem_iff]

/-- **THE ORDER OF THE ICONS DOES NOT MATTER**: of two paired runs, each comes through the next tick
    with the result of the other, and they show the same after it, however the icons are listed. -/
theorem sameShow (h : Paired dock trace dock' trace') (relists : host.Relists host')
    {animated : Bool} (step : dock.tick host = .ok (dock₁, commands, animated))
    (htiles : dock₁.row.created ≤ UInt64.size) (hmarkers : dock₁.pool.created ≤ UInt64.size) :
    ∃ dock₁' commands', dock'.tick host' = .ok (dock₁', commands', animated) ∧
      SameShow dock₁ (trace ++ commands) dock₁' (trace' ++ commands') := by
  obtain ⟨⟨dock₁', commands', animated'⟩, hstep', halike, -, rfl⟩ :=
    (h.alike.1.tick relists h.ran.handedOver.nodup).exists_of_ok step
  have hhandled : dock.handle host (.alarm .tick) = .ok (dock₁, commands) :=
    bind_eq_ok_iff.mpr ⟨_, step, rfl⟩
  have hhandled' : dock'.handle host' (.alarm .tick) = .ok (dock₁', commands') :=
    bind_eq_ok_iff.mpr ⟨_, hstep', rfl⟩
  have hafter := h.event (.alarm .tick) ⟨relists.settings, relists.geometry, fun _ => relists⟩
    hhandled hhandled'
  exact ⟨dock₁', commands', hstep', halike.cadence, halike.sameRow.seen,
    hafter.toldOf_eq htiles hmarkers, hafter.alike.2⟩

end Paired

/-- A favorite at a place along the dock. -/
private def iconAt (key : Icon.Key) (place : Float) : Icon Float := Icon.favorite key ⟨place, 0.0⟩

/-- A standard dock with two favorites, listed from the left. -/
private def leftFirst : Host Float where
  settings := .standard
  geometry := .standard
  icons := [iconAt 1 48.0, iconAt 2 96.0]

/-- The same dock, listed from the right. -/
private def rightFirst : Host Float where
  settings := .standard
  geometry := .standard
  icons := [iconAt 2 96.0, iconAt 1 48.0]

/-- Two icons are laid out, each at its own place. -/
private theorem lays_leftFirst {icon : Icon Float} {resting : Point Float}
    (h : leftFirst.Lays icon resting) :
    (icon = iconAt 1 48.0 ∧ resting = ⟨48.0, 0.0⟩) ∨
      (icon = iconAt 2 96.0 ∧ resting = ⟨96.0, 0.0⟩) := by
  obtain ⟨hmem, -, hresting⟩ := h
  obtain rfl | hmem := List.mem_cons.mp (show icon ∈ [iconAt 1 48.0, iconAt 2 96.0] from hmem)
  · exact .inl ⟨rfl, (Option.some.inj hresting).symm⟩
  · obtain rfl := List.mem_singleton.mp hmem
    exact .inr ⟨rfl, (Option.some.inj hresting).symm⟩

/-- The other listing lays out the same icons. -/
private theorem relists_leftFirst : leftFirst.Relists rightFirst where
  settings := rfl
  geometry := rfl
  icons := .swap _ _ _
  keys := by
    show [1, 2].Nodup
    decide
  measured := by
    intro icon resting h
    obtain ⟨-, rfl⟩ | ⟨-, rfl⟩ := lays_leftFirst h
    · decide +kernel
    · decide +kernel
  apart := by
    intro icon other resting resting' h h' hle hge
    obtain ⟨rfl, rfl⟩ | ⟨rfl, rfl⟩ := lays_leftFirst h
    · obtain ⟨rfl, -⟩ | ⟨-, rfl⟩ := lays_leftFirst h'
      · rfl
      · exact absurd hge (by decide +kernel)
    · obtain ⟨-, rfl⟩ | ⟨rfl, -⟩ := lays_leftFirst h'
      · exact absurd hle (by decide +kernel)
      · rfl

/-- How many tiles and markers a tick leaves created, and the names of the tiles. -/
private def namesAfter (dock : Dock Float Clock) (host : Host Float) :
    Option (Nat × Nat × List (Icon.Key × Tile.Id)) :=
  (dock.tick host).toOption.map fun step =>
    (step.1.row.created, step.1.pool.created, step.1.row.tiles.map fun tile => (tile.key, tile.id))

/-- Two icons are listed from the left in one run and from the right in the other.  The tiles have
    other names, and the docks show the same. -/
theorem sameShow_reversed :
    ∃ (dock₁ dock₁' : Dock Float Clock) (trace trace' : List (Command Float)),
      leftFirst.Relists rightFirst ∧
      dock₁.row.tiles.map (fun tile => (tile.key, tile.id)) = [(1, ⟨0⟩), (2, ⟨1⟩)] ∧
      dock₁'.row.tiles.map (fun tile => (tile.key, tile.id)) = [(1, ⟨1⟩), (2, ⟨0⟩)] ∧
      SameShow dock₁ trace dock₁' trace' := by
  have henabled := (Paired.new (α := Float) Clock.start).event .enable
    (show SameOccasion .enable leftFirst rightFirst from ⟨rfl, rfl, nofun⟩) rfl rfl
  obtain ⟨⟨dock₁, commands, animated⟩, hstep⟩ :=
    tick_ok (enable (new Clock.start) leftFirst.settings) leftFirst
  have hnames : namesAfter (enable (new Clock.start) leftFirst.settings) leftFirst =
      some (2, 2, [(1, ⟨0⟩), (2, ⟨1⟩)]) := by decide +kernel
  have hnames' : namesAfter (enable (new Clock.start) rightFirst.settings) rightFirst =
      some (2, 2, [(1, ⟨1⟩), (2, ⟨0⟩)]) := by decide +kernel
  rw [namesAfter, hstep] at hnames
  obtain ⟨htiles, hrest⟩ := Prod.mk.inj (Option.some.inj hnames)
  obtain ⟨hmarkers, hids⟩ := Prod.mk.inj hrest
  have htwo : 2 ≤ UInt64.size := by decide
  obtain ⟨dock₁', commands', hstep', hsame⟩ :=
    henabled.sameShow relists_leftFirst hstep (htiles ▸ htwo) (hmarkers ▸ htwo)
  rw [namesAfter, show tick (enable (new Clock.start) rightFirst.settings) rightFirst = _ from
    hstep'] at hnames'
  obtain ⟨-, hrest'⟩ := Prod.mk.inj (Option.some.inj hnames')
  exact ⟨_, _, _, _, relists_leftFirst, hids, (Prod.mk.inj hrest').2, hsame⟩

end Dock

end FisheyeDock
