import FisheyeDock.Proofs.Dock.Drag
import FisheyeDock.Proofs.Dock.Timed
import FisheyeDock.Proofs.Frame.Motion
import FisheyeDock.Proofs.Timer.Chronicle

/-! # One icon

    Over a host with one icon a dock has one tile, and a tick comes to one step of that tile
    (`solo_tick`).  With a clock that has nothing to do but to tick and to wait for the end of a quiet
    period (`vigil`), such a dock can be followed through a run tick by tick (`Timed.solo_tick`). -/

namespace FisheyeDock

open Scene (Command)
open TimerService
open Cadence (Alike)

namespace Dock

variable {α τ : Type} [Scalar α] {dock dock' : Dock α τ} {host : Host α} {icon : Icon α}
variable {tile aimed : Tile α} {magnified : Bool}

/-! ## The row -/

/-- A host with one icon, which is shown, and with the engine turned on. -/
structure Solo (host : Host α) (icon : Icon α) : Prop where
  icons_eq : host.icons = [icon]
  favorite : icon.isFavorite = true
  stays : icon.isLeaving = false
  on : host.settings.magnification.off = false

omit [Scalar α] in
/-- What is shown of a single icon is the icon. -/
theorem Solo.shown (solo : Solo host icon) (favoritesOnly : Bool) :
    Icon.shown favoritesOnly host.icons = [icon] := by
  have heligible : icon.isEligible favoritesOnly = true := by
    unfold Icon.isEligible
    rw [solo.stays, solo.favorite, Bool.or_true]
    rfl
  unfold Icon.shown
  rw [solo.icons_eq, List.filter_singleton, heligible]
  rfl

/-- The first tick puts a tile in the place of the icon. -/
theorem tiles_updated_of_empty (solo : Solo host icon) (hrow : dock.row = Row.empty) :
    (dock.updated host).row.tiles = [Tile.ofIcon (Row.idAt 0) icon] := by
  obtain ⟨cadence, hlayout, -⟩ := takeLayout_cases dock
  unfold updated
  rw [hlayout, (updateRow_cases _ host).1]
  show (Row.arrangeFor (dock.row.reconcile _ _ _).1 _).tiles = _
  unfold Row.reconcile
  rw [solo.shown, hrow]
  rfl

/-- The ticks after it bring the tile up to date with the icon. -/
theorem tiles_updated_of_single (solo : Solo host icon) (hrow : dock.row.tiles = [tile])
    (hkey : tile.key = icon.key) : (dock.updated host).row.tiles = [tile.refresh icon] := by
  have hsame : (icon.key == tile.key) = true := beq_iff_eq.mpr hkey.symm
  have hwanted : Row.isWanted [icon] tile = true := by
    unfold Row.isWanted
    rw [List.any_cons, hsame]
    rfl
  have hrefresh : Row.refreshFrom [icon] tile = tile.refresh icon := by
    have hof : Icon.ofKey? [icon] tile.key = some icon := List.find?_cons_of_pos hsame
    unfold Row.refreshFrom
    rw [hof]
  obtain ⟨cadence, hlayout, -⟩ := takeLayout_cases dock
  unfold updated
  rw [hlayout, (updateRow_cases _ host).1]
  show (Row.arrangeFor (dock.row.reconcile _ _ _).1 _).tiles = _
  unfold Row.reconcile
  rw [solo.shown, hrow]
  simp [Row.arrangeFor, Row.arrange, Row.newTiles, Row.sortTiles, Row.insertByReach, hwanted,
    hrefresh, hkey]

/-! ## One tick -/

variable [TimerService τ]

/-- An enabled dock that neither a drag nor a preview keeps from its tile. -/
structure Ready (dock : Dock α τ) : Prop where
  enabled : dock.enabled = true
  undragged : dock.cadence.dragQueued = false
  unpreviewed : dock.previewLeft = none

/-- The tile that a step leads to, and whether it glides there. -/
def soloStep (host : Host α) (tile aimed : Tile α) : Tile α × Bool :=
  aimed.advance host.geometry.iconSize (pointerFocus host [tile.reset]).isNone

/-- A tick has taken the only tile one step on.  The quiet period begins anew if it `animated`
    anything. -/
structure Stepped (cadence : Cadence τ) (dock' : Dock α τ) (moved : Tile α) (animated : Bool) :
    Prop where
  ready : dock'.Ready
  alike : Alike (if animated then cadence.rearm else cadence) dock'.cadence
  single : ∃ tile, dock'.row.tiles = [tile] ∧ tile.bare = moved.bare

omit [Scalar α] in
/-- What a tick has stepped, it has stepped under a cadence that is alike. -/
theorem Stepped.congr {cadence cadence' : Cadence τ} {animated : Bool}
    (alike : Alike cadence cadence') (h : Stepped cadence' dock' tile animated) :
    Stepped cadence dock' tile animated :=
  ⟨h.ready, (alike.rearm_if animated).trans h.alike, h.single⟩

omit [TimerService τ] in
/-- Taking notice of the host leaves a dock ready. -/
theorem Ready.updated (ready : dock.Ready) (host : Host α) : (dock.updated host).Ready := by
  obtain ⟨cadence, hlayout, -⟩ := takeLayout_cases dock
  obtain ⟨ticks, hcadence⟩ := cadence_updated dock host
  refine ⟨?_, ?_, ?_⟩
  · unfold Dock.updated
    rw [hlayout]
    exact ready.enabled
  · rw [hcadence]
    exact ready.undragged
  · unfold Dock.updated
    rw [hlayout]
    exact ready.unpreviewed

omit [TimerService τ] in
/-- Where nothing is previewed, the pointer decides what the lens is on. -/
theorem Ready.focus_eq (ready : dock.Ready) (host : Host α) (tiles : List (Tile α)) :
    dock.focus host tiles = (pointerFocus host tiles, none) := by
  unfold focus
  rw [ready.unpreviewed]

/-- Showing a frame leaves a dock ready. -/
theorem Ready.animate {commands : List (Command α)} {animated : Bool} (ready : dock.Ready)
    (h : dock.animate host = .ok (dock', commands, animated)) : dock'.Ready := by
  obtain ⟨_, _, _, _, _, _, _, rfl⟩ := animate_cases h
  refine ⟨ready.enabled, ?_, ?_⟩
  · show Cadence.dragQueued (if _ then _ else _) = false
    split
    · exact (Cadence.sameDrag_rearm _).dragQueued.trans ready.undragged
    · exact ready.undragged
  · show (dock.focus host dock.row.reset.tiles).2 = none
    rw [ready.focus_eq]

omit [TimerService τ] in
/-- The frame of a single tile takes the tile one step on. -/
theorem Ready.frameOf_moves (ready : dock.Ready) (host : Host α) (hrow : dock.row.tiles = [tile])
    (aimed : Tile α) :
    (∃ tile', (dock.frameOf host [aimed]).tiles = [tile'] ∧
      tile'.bare = (soloStep host tile aimed).1.bare) ∧
    (dock.frameOf host [aimed]).glided = (soloStep host tile aimed).2 := by
  have hreset : dock.row.reset.tiles = [tile.reset] := congrArg (List.map Tile.reset) hrow
  have hframe : dock.frameOf host [aimed] =
      Frame.build host.geometry host.settings (pointerFocus host [tile.reset]).isNone dock.pool
        [aimed] := by
    unfold frameOf
    rw [hreset, ready.focus_eq]
  obtain ⟨hbare, hglided⟩ := Frame.build_moves host.geometry host.settings
    (pointerFocus host [tile.reset]).isNone dock.pool [aimed]
  rw [hframe]
  rw [List.any_cons, List.any_nil, Bool.or_false] at hglided
  exact ⟨List.map_eq_singleton_iff.mp hbare, hglided⟩

/-- A tick over one tile: the lens may be put on the tile, which then takes a step. -/
theorem solo_tick (ready : dock.Ready) (on : host.settings.magnification.off = false)
    (hrow : (dock.updated host).row.tiles = [tile])
    (hmagnify : magnify host (pointerFocus host [tile.reset]) [tile.reset]
      = .ok ([aimed], magnified)) :
    ∃ dock' commands,
      dock.tick host = .ok (dock', commands, magnified || (soloStep host tile aimed).2) ∧
      Stepped dock.cadence dock' (soloStep host tile aimed).1
        (magnified || (soloStep host tile aimed).2) := by
  obtain ⟨⟨dock', commands, animated⟩, htick⟩ := tick_ok dock host
  refine ⟨dock', commands, ?_⟩
  -- neither the state of the dock nor a drag nor the settings end the tick early
  obtain ⟨hdisabled, -⟩ | ⟨-, hqueued, -⟩ | ⟨-, -, hoff, -⟩ | ⟨-, -, -, shown, hanimate, -⟩ :=
    tick_cases htick
  · exact nomatch ready.enabled.symm.trans hdisabled
  · exact nomatch hqueued.symm.trans ready.undragged
  · exact nomatch hoff.symm.trans on
  · have hready : (dock.updated host).Ready := ready.updated host
    have hready' : dock'.Ready := hready.animate hanimate
    obtain ⟨tiles, lensed, _, hlens, hanimated, -, -, rfl⟩ := animate_cases hanimate
    have hreset : (dock.updated host).row.reset.tiles = [tile.reset] :=
      congrArg (List.map Tile.reset) hrow
    rw [hreset, hready.focus_eq, hmagnify] at hlens
    obtain ⟨rfl, rfl⟩ := Prod.mk.inj (Except.ok.inj hlens)
    obtain ⟨hmoved, hglided⟩ := hready.frameOf_moves host hrow aimed
    rw [hglided] at hanimated
    subst hanimated
    exact ⟨htick, hready', (alike_updated dock host).rearm_if _, hmoved⟩

end Dock

/-! ## A clock that only ticks -/

namespace Cadence

/-- A cadence that ticks, with the next tick and the end of the quiet period on its clock. -/
def vigil (now next quiet : Nat) (handle : TimerHandle) (journal : List Note) :
    Cadence Chronicle where
  timers :=
    { clock :=
        { now
          nextHandle := handle + 2
          pending := [⟨0, .tick, next, some baseInterval⟩, ⟨handle + 1, .quiet, quiet, none⟩]
          refusing := false }
      journal }
  phase := .running
  interval := baseInterval
  tickTimer := some 0
  quietTimer := some (handle + 1)
  resumeTimer := none
  layoutsLeft := 0
  dragQueued := false

variable {now next quiet time next' : Nat} {handle : TimerHandle} {journal : List Note}

/-- A vigil refuses no timer. -/
theorem vigil_isObliging : (vigil now next quiet handle journal).timers.IsObliging := by
  refine ⟨⟨?_, ?_⟩, rfl⟩
  · intro timer htimer
    simp only [vigil, List.mem_cons, List.not_mem_nil, or_false] at htimer
    rcases htimer with rfl | rfl
    · exact Nat.succ_pos _
    · exact Nat.lt_succ_self _
  · simp [vigil]

/-- The quiet period begins anew. -/
theorem rearm_vigil : (vigil now next quiet handle journal).rearm =
    vigil now next (now + (quietPeriod + baseInterval)) (handle + 1) (.asked .quiet :: journal) := by
  have hstruck : List.filter (fun timer : PendingTimer => decide (timer.handle ≠ handle + 1))
      [⟨0, .tick, next, some baseInterval⟩, ⟨handle + 1, .quiet, quiet, none⟩] =
        [⟨0, .tick, next, some baseInterval⟩] := by
    simp
  have hcancelled : cancelAny (vigil now next quiet handle journal).timers (some (handle + 1)) =
      ⟨⟨now, handle + 2, [⟨0, .tick, next, some baseInterval⟩], false⟩, journal⟩ :=
    congrArg (fun pending => Chronicle.mk ⟨now, handle + 2, pending, false⟩ journal) hstruck
  have hrunning : (vigil now next quiet handle journal).phase = .running := rfl
  have hquiet : (vigil now next quiet handle journal).quietTimer = some (handle + 1) := rfl
  unfold rearm
  rw [if_pos hrunning, hquiet, hcancelled]
  rfl

/-- The next tick can ring from its deadline on, and then again within an interval. -/
theorem vigil_rings_tick (hnow : now ≤ time) (hdue : next ≤ time) (hfirst : next ≤ quiet)
    (hagain : next' ≤ time + baseInterval) :
    (timetable (vigil now next quiet handle journal).timers).Rings 0
      ⟨.tick, next, some baseInterval⟩
      (timetable (vigil time next' quiet handle (.rang .tick (time - next) :: journal)).timers) := by
  have hcan : (vigil now next quiet handle journal).timers.canRing
      ⟨0, .tick, next, some baseInterval⟩ time next' = true := by
    simp [Chronicle.canRing, vigil, hnow, hdue, hfirst, hagain]
  exact Chronicle.rings _ time next' vigil_isObliging hcan

/-- The quiet period can end if the next tick comes no earlier. -/
theorem vigil_rings_quiet (hnow : now ≤ quiet) (hfirst : quiet ≤ next) :
    ∃ timers : Chronicle, Obliges timers ∧
      (timetable (vigil now next quiet handle journal).timers).Rings (handle + 1)
        ⟨.quiet, quiet, none⟩ (timetable timers) := by
  have hcan : (vigil now next quiet handle journal).timers.canRing
      ⟨handle + 1, .quiet, quiet, none⟩ quiet 0 = true := by
    simp [Chronicle.canRing, vigil, hnow, hfirst]
  exact ⟨_, vigil_isObliging.ring, Chronicle.rings _ quiet 0 vigil_isObliging hcan⟩

end Cadence

/-! ## Runs -/

namespace Dock

open Cadence (vigil baseInterval quietPeriod)

variable {α : Type} [Scalar α] {allowed : Host α → Prop} {dock : Dock α Chronicle} {host : Host α}
variable {tile aimed : Tile α} {magnified : Bool} {now next quiet time next' : Nat}
variable {handle : TimerHandle} {journal : List Note}

/-- The engine is enabled and the pointer comes. -/
theorem Timed.woken (host : Host α) (allows : allowed host) (on : host.settings.magnification.off = false)
    (interval : Cadence.intervalFor host.settings.magnification.fps = .ok baseInterval) :
    ∃ dock : Dock α Chronicle, Timed allowed dock ∧ dock.Ready ∧ dock.row = Row.empty ∧
      Alike (vigil 0 (0 + baseInterval) (0 + (quietPeriod + baseInterval)) 0
        [.asked .quiet, .asked .tick]) dock.cadence := by
  have hnew : Timed allowed (Dock.new Chronicle.start : Dock α Chronicle) :=
    .new _ Chronicle.start_isObliging fun _ => rfl
  have henabled := hnew.call host .enable allows nofun rfl
  have henable : (Dock.new Chronicle.start : Dock α Chronicle).enable host.settings =
      { (Dock.new Chronicle.start : Dock α Chronicle) with
        enabled := true
        cadence := (Cadence.idle Chronicle.start).orderLayouts Cadence.longLayout } := by
    unfold enable
    rw [on]
    rfl
  rw [henable] at henabled
  have hwoken := henabled.call host .pointerEnter allows nofun (by
    unfold Dock.handle wake Cadence.start
    rw [interval]
    rfl)
  exact ⟨_, hwoken, ⟨rfl, rfl, rfl⟩, rfl, ⟨rfl, rfl, rfl, rfl, rfl⟩⟩

/-- The next tick of a run over one tile. -/
theorem Timed.solo_tick (h : Timed allowed dock) (allows : allowed host) (ready : dock.Ready)
    (on : host.settings.magnification.off = false)
    (alike : Alike (vigil now next quiet handle journal) dock.cadence) (hnow : now ≤ time)
    (hdue : next ≤ time) (hfirst : next ≤ quiet) (hagain : next' ≤ time + baseInterval)
    (hrow : ∀ timers, ((dock.withTimers timers).updated host).row.tiles = [tile])
    (hmagnify : magnify host (pointerFocus host [tile.reset]) [tile.reset]
      = .ok ([aimed], magnified)) :
    ∃ dock', Timed allowed dock' ∧
      Stepped (vigil time next' quiet handle (.rang .tick (time - next) :: journal)) dock'
        (soloStep host tile aimed).1 (magnified || (soloStep host tile aimed).2) := by
  let rung := vigil time next' quiet handle (.rang .tick (time - next) :: journal)
  let timers := rung.timers
  have hrings : (timetable dock.cadence.timers).Rings 0 ⟨.tick, next, some baseInterval⟩
      (timetable timers) := by
    rw [alike.timers]
    exact Cadence.vigil_rings_tick hnow hdue hfirst hagain
  have hready : (dock.withTimers timers).Ready :=
    ⟨ready.enabled, ready.undragged, ready.unpreviewed⟩
  obtain ⟨dock', commands, htick, hstepped⟩ := Dock.solo_tick hready on (hrow timers) hmagnify
  have hstep : (dock.withTimers timers).handle host (.alarm .tick) = .ok (dock', commands) :=
    bind_eq_ok_iff.mpr ⟨_, htick, rfl⟩
  have halike : Alike rung (dock.withTimers timers).cadence :=
    ⟨rfl, alike.phase, alike.interval, alike.tickTimer, alike.quietTimer⟩
  exact ⟨dock', (h.ring host allows Cadence.vigil_isObliging hrings hstep).2,
    hstepped.congr halike⟩

/-- The quiet period passes, if the next tick comes no earlier. -/
theorem Timed.exists_quiet (h : Timed allowed dock) (host : Host α) (allows : allowed host)
    (alike : Alike (vigil now next quiet handle journal) dock.cadence) (hnow : now ≤ quiet)
    (hfirst : quiet ≤ next) : ∃ dock', TimedStep allowed dock (some (.alarm .quiet)) dock' := by
  obtain ⟨timers, obliges, hrings⟩ : ∃ timers : Chronicle, Obliges timers ∧
      (timetable (vigil now next quiet handle journal).timers).Rings (handle + 1)
        ⟨.quiet, quiet, none⟩ (timetable timers) := Cadence.vigil_rings_quiet hnow hfirst
  rw [← alike.timers] at hrings
  exact ⟨_, (h.ring host allows obliges hrings rfl).1⟩

end Dock

end FisheyeDock
