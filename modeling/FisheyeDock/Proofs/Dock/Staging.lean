import FisheyeDock.Proofs.Dock.Steps
import FisheyeDock.Proofs.Frame.Drawing
import FisheyeDock.Proofs.Scene.Last

/-! # What a run does to the scene

    However many events there are, the scene sees only three things happen: nothing but layouts and
    layers, a withdrawal of all there is, or a frame.  Which of them an event comes to can be told
    beforehand (`withdrawsOn`, `drawsOn`), and `handle_outcome` sorts every event into them.

    For what is true of tiles and markers whatever they look like, it is enough to know that
    (`Staging`).  An induction over a run (`Ran`) has no more than these three cases. -/

namespace FisheyeDock.Dock

open Scene (Command lastOf lastOf_eq_none)

variable {α τ : Type} {dock dock' : Dock α τ} {host : Host α} {commands : List (Command α)}
variable {animated : Bool}

/-- Commands that touch neither a tile nor a marker nor an icon. -/
def IsBackdrop : Command α → Prop
  | .relayout | .showLayers _ => True
  | _ => False

/-- What tells the layers belongs to the backdrop. -/
theorem isBackdrop_layers {layers : List (Command α)} {visible : Bool}
    (h : layers = [] ∨ layers = [.showLayers visible]) : ∀ command ∈ layers, IsBackdrop command := by
  intro command hmem
  rcases h with rfl | rfl
  · exact nomatch hmem
  · rw [List.mem_singleton.mp hmem]
    trivial

/-- Layouts and layers say nothing of anything else. -/
theorem lastOf_backdrop {β : Type} {view : Command α → Option β}
    (hrelayout : view .relayout = none) (hlayers : ∀ visible, view (.showLayers visible) = none)
    (h : ∀ command ∈ commands, IsBackdrop command) : lastOf view commands = none := by
  refine lastOf_eq_none ?_
  intro command hmem
  have hbackdrop := h command hmem
  cases command with
  | relayout => exact hrelayout
  | showLayers visible => exact hlayers visible
  | _ => exact hbackdrop.elim

/-- A layout changes the cadence, and has at most the backdrop drawn. -/
theorem takeLayout_cases (dock : Dock α τ) : ∃ cadence,
    dock.takeLayout.1 = { dock with cadence } ∧
      ∀ command ∈ dock.takeLayout.2, IsBackdrop command := by
  unfold takeLayout
  rcases dock.cadence.takeLayout with ⟨due, cadence⟩
  refine ⟨cadence, rfl, ?_⟩
  cases due with
  | true =>
      intro command hmem
      rw [List.mem_singleton.mp hmem]
      trivial
  | false => exact fun _ hmem => nomatch hmem

variable [Scalar α]

/-- What an event comes to in the scene. -/
inductive Staging (dock : Dock α τ) (host : Host α) (dock' : Dock α τ)
    (commands : List (Command α)) : Prop where
  /-- Tiles and markers stay what they are. -/
  | rests (row : dock'.row = dock.row) (pool : dock'.pool = dock.pool)
      (backdrop : ∀ command ∈ commands, IsBackdrop command)
  /-- All of them are released. -/
  | withdraws (row : dock'.row = dock.row.clear.1) (pool : dock'.pool = (dock.pool.clear (α := α)).1)
      (layers : List (Command α)) (backdrop : ∀ command ∈ layers, IsBackdrop command)
      (commands_eq : commands = dock.row.clear.2 ++ dock.pool.clear.2 ++ layers)
  /-- Tiles are exchanged, put in order and moved, and a frame is built from them. -/
  | frames (layouts changes layers : List (Command α)) (row : Row α)
      (kept gone new arranged tiles : List (Tile α)) (retracting active : Bool)
      (backdrop : ∀ command ∈ layouts ++ layers, IsBackdrop command)
      (exchanges : Row.Exchanges dock.row row host.geometry.iconSize changes kept gone new)
      (arrangedPerm : (Tile.identities arranged).Perm (Tile.identities row.tiles))
      (moved : Tile.identities tiles = Tile.identities arranged)
      (commands_eq : commands = layouts ++ changes
        ++ arranged.map (fun tile => .activateTile tile.id active)
        ++ (Frame.build host.geometry host.settings retracting dock.pool tiles).commands ++ layers)
      (row_eq : dock'.row = ⟨(Frame.build host.geometry host.settings retracting dock.pool
        tiles).tiles, row.created⟩)
      (pool_eq : dock'.pool = (Frame.build host.geometry host.settings retracting dock.pool
        tiles).pool)

/-- An update of the row reconciles and arranges it. -/
theorem updateRow_cases (dock : Dock α τ) (host : Host α) :
    (dock.updateRow host).1.row = (dock.row.reconcile host.icons host.settings.favoritesOnly
      host.geometry.iconSize).1.arrangeFor host.geometry ∧
    (dock.updateRow host).1.pool = dock.pool ∧
    (dock.updateRow host).2 = (dock.row.reconcile host.icons host.settings.favoritesOnly
      host.geometry.iconSize).2.1 :=
  ⟨rfl, rfl, rfl⟩

/-- The row of a tick has a tile for each icon, brought up to date with it or new. -/
theorem mem_updated {tile : Tile α} (h : tile ∈ (dock.updated host).row.tiles) :
    (∃ old ∈ dock.row.tiles, ∃ icon ∈ host.icons, tile = old.refresh icon) ∨
      ∃ id, ∃ icon ∈ host.icons, tile = Tile.ofIcon id icon := by
  obtain ⟨cadence, hlayout, -⟩ := takeLayout_cases dock
  unfold updated at h
  rw [hlayout, (updateRow_cases _ host).1] at h
  exact Row.mem_reconcile ((Row.sortTiles_perm _ _ _).mem_iff.mp h)

variable [TimerService τ]

/-- Waking leaves row and pool as they are. -/
theorem wake_keeps {settings : Settings α} (h : dock.wake settings = .ok dock') :
    dock'.row = dock.row ∧ dock'.pool = dock.pool := by
  obtain ⟨_, rfl⟩ | ⟨_, cadence, _, rfl⟩ := wake_cases h
  · exact ⟨rfl, rfl⟩
  · exact ⟨rfl, rfl⟩

theorem focusChanged_keeps {settings : Settings α} (h : dock.focusChanged settings = .ok dock') :
    dock'.row = dock.row ∧ dock'.pool = dock.pool := by
  unfold focusChanged at h
  by_cases henabled : dock.enabled = true
  · rw [if_pos henabled] at h
    obtain ⟨woken, hwake, hdone⟩ := bind_eq_ok_iff.mp h
    obtain rfl := Except.ok.inj hdone
    obtain ⟨hrow, hpool⟩ := wake_keeps hwake
    exact ⟨hrow, hpool⟩
  · rw [if_neg henabled] at h
    obtain rfl := Except.ok.inj h
    exact ⟨rfl, rfl⟩

theorem resume_keeps {settings : Settings α} (h : dock.resume settings = .ok dock') :
    dock'.row = dock.row ∧ dock'.pool = dock.pool := by
  unfold resume at h
  rcases hresume : dock.cadence.resume with ⟨ended, cadence⟩
  rw [hresume] at h
  cases ended with
  | true =>
      have hwake : wake { dock with cadence := cadence.orderLayouts Cadence.longLayout } settings
          = .ok dock' := h
      obtain ⟨hrow, hpool⟩ := wake_keeps hwake
      exact ⟨hrow, hpool⟩
  | false =>
      obtain rfl := Except.ok.inj h
      exact ⟨rfl, rfl⟩

theorem relayout_keeps {settings : Settings α} (h : dock.relayout settings = .ok dock') :
    dock'.row = dock.row ∧ dock'.pool = dock.pool := by
  have hwake : wake { dock with cadence := dock.cadence.orderLayouts Cadence.longLayout } settings
      = .ok dock' := h
  obtain ⟨hrow, hpool⟩ := wake_keeps hwake
  exact ⟨hrow, hpool⟩

theorem preview_keeps {settings : Settings α} {on : Bool}
    (h : dock.preview on settings = .ok dock') : dock'.row = dock.row ∧ dock'.pool = dock.pool := by
  cases on with
  | true =>
      have hwake : wake { dock with previewLeft := some previewPeriod } settings = .ok dock' := h
      obtain ⟨hrow, hpool⟩ := wake_keeps hwake
      exact ⟨hrow, hpool⟩
  | false =>
      obtain rfl := Except.ok.inj h
      exact ⟨rfl, rfl⟩

/-! ## Every event is one of the three -/

/-- Whether an event takes everything out of the scene. -/
def withdrawsOn (dock : Dock α τ) (host : Host α) : Event → Bool
  | .disable => dock.enabled
  | .dragBegin => dock.enabled && decide (dock.cadence.beginDrag.phase = .suspended)
  | .dragEnd =>
    dock.enabled &&
      decide (dock.cadence.phase ≠ .suspended ∧ dock.cadence.endDrag.phase = .suspended)
  | .alarm .tick =>
    dock.enabled && (dock.cadence.dragQueued || host.settings.magnification.off)
  | _ => false

omit [TimerService τ] in
/-- Whether an event is a tick that runs to its end. -/
def drawsOn (dock : Dock α τ) (host : Host α) : Event → Bool
  | .alarm .tick =>
    dock.enabled && !(dock.cadence.dragQueued || host.settings.magnification.off)
  | _ => false

section Marks

variable (dock : Dock α τ) (host : Host α)

omit [Scalar α] in
/-- A drag that begins takes an enabled dock off the scene if it suspends at once. -/
theorem withdrawsOn_dragBegin : dock.withdrawsOn host .dragBegin =
    (dock.enabled && decide (dock.cadence.beginDrag.phase = .suspended)) := rfl

omit [Scalar α] in
/-- A drag that ends does so if it suspends before. -/
theorem withdrawsOn_dragEnd : dock.withdrawsOn host .dragEnd = (dock.enabled && decide
    (dock.cadence.phase ≠ .suspended ∧ dock.cadence.endDrag.phase = .suspended)) := rfl

omit [Scalar α] in
/-- A tick does so for a drag that is queued, or where the magnification is off. -/
theorem withdrawsOn_tick : dock.withdrawsOn host (.alarm .tick) =
    (dock.enabled && (dock.cadence.dragQueued || host.settings.magnification.off)) := rfl

omit [Scalar α] [TimerService τ] in
/-- Otherwise a tick of an enabled dock draws. -/
theorem drawsOn_tick : dock.drawsOn host (.alarm .tick) =
    (dock.enabled && !(dock.cadence.dragQueued || host.settings.magnification.off)) := rfl

end Marks

omit [Scalar α] [TimerService τ] in
/-- Only a tick draws, and only while the dock is enabled. -/
theorem drawsOn_cases (h : dock.drawsOn host event = true) :
    event = .alarm .tick ∧ dock.enabled = true := by
  cases event with
  | alarm alarm =>
      cases alarm with
      | tick => exact ⟨rfl, ((Bool.and_eq_true _ _).mp h).1⟩
      | quiet | resume => exact nomatch h
  | _ => exact nomatch h

omit [Scalar α] in
/-- A tick that runs to its end takes nothing out of the scene. -/
theorem withdrawsOn_of_drawsOn {event : Event} (h : dock.drawsOn host event = true) :
    dock.withdrawsOn host event = false := by
  cases event with
  | alarm alarm =>
      cases alarm with
      | tick =>
          obtain ⟨-, hon⟩ := (Bool.and_eq_true _ _).mp h
          rw [dock.withdrawsOn_tick, (Bool.not_eq_true' _).mp hon, Bool.and_false]
      | quiet | resume => rfl
  | _ => exact nomatch h

omit [Scalar α] in
/-- A tick of an enabled dock runs to its end, unless it takes everything out of the scene. -/
theorem drawsOn_tick_of_stays (enabled : dock.enabled = true)
    (stays : dock.withdrawsOn host (.alarm .tick) = false) :
    dock.drawsOn host (.alarm .tick) = true := by
  rw [dock.withdrawsOn_tick, enabled, Bool.true_and] at stays
  rw [dock.drawsOn_tick, enabled, stays]
  rfl

/-- What an event comes to, and what about it made it so. -/
inductive Outcome (dock : Dock α τ) (host : Host α) (event : Event) (dock' : Dock α τ)
    (commands : List (Command α)) : Prop where
  /-- Tiles and markers stay what they are. -/
  | rests (stays : dock.withdrawsOn host event = false) (bare : dock.drawsOn host event = false)
      (row : dock'.row = dock.row) (pool : dock'.pool = dock.pool)
      (backdrop : ∀ command ∈ commands, IsBackdrop command)
  /-- All of them are released. -/
  | withdraws (leaves : dock.withdrawsOn host event = true) (row : dock'.row = dock.row.clear.1)
      (pool : dock'.pool = (dock.pool.clear (α := α)).1) (layers : List (Command α))
      (backdrop : ∀ command ∈ layers, IsBackdrop command)
      (commands_eq : commands = dock.row.clear.2 ++ dock.pool.clear.2 ++ layers)
  /-- The row is brought up to date, and a frame is built from it. -/
  | draws (stays : dock.withdrawsOn host event = false) (drawn : dock.drawsOn host event = true)
      (tiles : List (Tile α)) (magnified : Bool) (layers : List (Command α))
      (magnify_eq : magnify host
        ((dock.updated host).focus host (dock.updated host).row.reset.tiles).1
        (dock.updated host).row.reset.tiles = .ok (tiles, magnified))
      (backdrop : ∀ command ∈ layers, IsBackdrop command)
      (commands_eq : commands = dock.updates host
        ++ ((dock.updated host).row.tiles.map
            (fun tile => .activateTile tile.id (!host.geometry.autohideHidden))
          ++ ((dock.updated host).frameOf host tiles).commands ++ layers))
      (row_eq : dock'.row = { (dock.updated host).row with
        tiles := ((dock.updated host).frameOf host tiles).tiles })
      (pool_eq : dock'.pool = ((dock.updated host).frameOf host tiles).pool)

section Outcome

variable {event : Event}

/-- What leaves tiles and markers alone and sends no command. -/
theorem Outcome.of_silent (stays : dock.withdrawsOn host event = false)
    (bare : dock.drawsOn host event = false)
    (keeps : dock'.row = dock.row ∧ dock'.pool = dock.pool) :
    Outcome dock host event dock' [] :=
  .rests stays bare keeps.1 keeps.2 fun _ hmem => nomatch hmem

/-- A withdrawal, whatever the rest of the dock has come to. -/
theorem Outcome.of_withdraw (leaves : dock.withdrawsOn host event = true) (dock₁ : Dock α τ)
    (row : dock₁.row = dock.row) (pool : dock₁.pool = dock.pool) :
    Outcome dock host event dock₁.withdraw.1 dock₁.withdraw.2 := by
  obtain ⟨layers, hlayers, hcommands⟩ := withdraw_snd dock₁
  rw [row, pool] at hcommands
  refine .withdraws leaves ?_ ?_ layers (isBackdrop_layers hlayers) hcommands
  · rw [withdraw_fst, row]
  · rw [withdraw_fst, pool]

/-- For operations that hand their dock and their commands on as a pair. -/
theorem Outcome.of_eq {result : Dock α τ × List (Command α)} (h : (dock', commands) = result)
    (hresult : Outcome dock host event result.1 result.2) :
    Outcome dock host event dock' commands := by
  subst h
  exact hresult

end Outcome

omit [Scalar α] [TimerService τ] in
/-- To enable the dock leaves row and pool as they are. -/
theorem enable_keeps (settings : Settings α) :
    (dock.enable settings).row = dock.row ∧ (dock.enable settings).pool = dock.pool := by
  unfold enable
  by_cases hstays : (dock.enabled || settings.magnification.off) = true
  · rw [if_pos hstays]
    exact ⟨rfl, rfl⟩
  · rw [if_neg hstays]
    exact ⟨rfl, rfl⟩

/-- What a change of fullscreen comes to. -/
theorem fullscreenChanged_outcome (g : Geometry α) : Outcome dock host .fullscreenChanged
    (dock.fullscreenChanged g).1 (dock.fullscreenChanged g).2 := by
  unfold fullscreenChanged
  by_cases henabled : dock.enabled = true
  · rw [if_pos henabled, showLayers_fst]
    exact .rests rfl rfl rfl rfl (isBackdrop_layers (showLayers_snd dock _))
  · rw [if_neg henabled]
    exact .of_silent rfl rfl ⟨rfl, rfl⟩

/-- Disabling, by whatever event, takes everything out of the scene if there is anything in it. -/
theorem disable_outcome {event : Event} (leaves : dock.withdrawsOn host event = dock.enabled)
    (bare : dock.drawsOn host event = false) :
    Outcome dock host event dock.disable.1 dock.disable.2 := by
  unfold disable
  by_cases henabled : dock.enabled = true
  · rw [if_pos henabled]
    exact .of_withdraw (leaves.trans henabled) _ rfl rfl
  · rw [if_neg henabled]
    exact .of_silent (leaves.trans ((Bool.not_eq_true _).mp henabled)) bare ⟨rfl, rfl⟩

/-- What the beginning of a drag comes to. -/
theorem dragBegin_outcome : Outcome dock host .dragBegin dock.dragBegin.1 dock.dragBegin.2 := by
  unfold dragBegin
  by_cases henabled : dock.enabled = true
  · rw [if_pos henabled]
    dsimp only
    by_cases hsuspended : dock.cadence.beginDrag.phase = .suspended
    · rw [if_pos hsuspended]
      refine .of_withdraw ?_ _ rfl rfl
      exact (Bool.and_eq_true _ _).mpr ⟨henabled, decide_eq_true hsuspended⟩
    · rw [if_neg hsuspended]
      refine .of_silent ?_ rfl ⟨rfl, rfl⟩
      exact (congrArg (dock.enabled && ·) (decide_eq_false hsuspended)).trans (Bool.and_false _)
  · rw [if_neg henabled]
    refine .of_silent ?_ rfl ⟨rfl, rfl⟩
    exact (congrArg (· && _) ((Bool.not_eq_true _).mp henabled)).trans (Bool.false_and _)

/-- What the end of a drag comes to. -/
theorem dragEnd_outcome : Outcome dock host .dragEnd dock.dragEnd.1 dock.dragEnd.2 := by
  unfold dragEnd
  by_cases henabled : dock.enabled = true
  · rw [if_pos henabled]
    dsimp only
    by_cases hsuspends : dock.cadence.phase ≠ .suspended ∧ dock.cadence.endDrag.phase = .suspended
    · rw [if_pos hsuspends]
      refine .of_withdraw ?_ _ rfl rfl
      exact (Bool.and_eq_true _ _).mpr ⟨henabled, decide_eq_true hsuspends⟩
    · rw [if_neg hsuspends]
      refine .of_silent ?_ rfl ⟨rfl, rfl⟩
      exact (congrArg (dock.enabled && ·) (decide_eq_false hsuspends)).trans (Bool.and_false _)
  · rw [if_neg henabled]
    refine .of_silent ?_ rfl ⟨rfl, rfl⟩
    exact (congrArg (· && _) ((Bool.not_eq_true _).mp henabled)).trans (Bool.false_and _)

/-- What a tick comes to. -/
theorem tick_outcome (h : dock.tick host = .ok (dock', commands, animated)) :
    Outcome dock host (.alarm .tick) dock' commands := by
  have hleaves := dock.withdrawsOn_tick host
  have hdraws := dock.drawsOn_tick host
  obtain ⟨hdisabled, rfl, rfl⟩ | ⟨henabled, hdrag, hsuspend⟩ | ⟨henabled, hdrag, hoff, hdisable⟩
    | ⟨henabled, hdrag, hon, shown, hanimate, rfl⟩ := tick_cases h
  · rw [hdisabled] at hleaves hdraws
    exact .of_silent hleaves hdraws ⟨rfl, rfl⟩
  · rw [henabled, hdrag] at hleaves
    exact .of_eq hsuspend (.of_withdraw hleaves _ rfl rfl)
  · rw [henabled, hdrag, hoff] at hleaves hdraws
    exact .of_eq hdisable (disable_outcome (hleaves.trans henabled.symm) hdraws)
  · rw [henabled, hdrag, hon] at hleaves hdraws
    obtain ⟨tiles, magnified, layers, hmagnify, -, hlayers, rfl, rfl⟩ := animate_cases hanimate
    exact .draws hleaves hdraws tiles magnified layers hmagnify (isBackdrop_layers hlayers) rfl rfl
      rfl

/-- What any event comes to. -/
theorem handle_outcome {event : Event} (h : dock.handle host event = .ok (dock', commands)) :
    Outcome dock host event dock' commands := by
  cases event with
  | enable =>
      obtain ⟨rfl, rfl⟩ := Prod.mk.inj (Except.ok.inj h)
      exact .of_silent rfl rfl (enable_keeps _)
  | disable => exact .of_eq (Except.ok.inj h).symm (disable_outcome rfl rfl)
  | pointerEnter | pointerMotion =>
      obtain ⟨hwake, rfl⟩ := ok_of_silent h
      exact .of_silent rfl rfl (wake_keeps hwake)
  | pointerLeave =>
      obtain ⟨rfl, rfl⟩ := Prod.mk.inj (Except.ok.inj h)
      exact .of_silent rfl rfl ⟨rfl, rfl⟩
  | focusChanged =>
      obtain ⟨hfocus, rfl⟩ := ok_of_silent h
      exact .of_silent rfl rfl (focusChanged_keeps hfocus)
  | fullscreenChanged => exact .of_eq (Except.ok.inj h).symm (fullscreenChanged_outcome _)
  | dragBegin => exact .of_eq (Except.ok.inj h).symm dragBegin_outcome
  | dragEnd => exact .of_eq (Except.ok.inj h).symm dragEnd_outcome
  | preview on =>
      obtain ⟨hpreview, rfl⟩ := ok_of_silent h
      exact .of_silent rfl rfl (preview_keeps hpreview)
  | relayout =>
      obtain ⟨hrelayout, rfl⟩ := ok_of_silent h
      exact .of_silent rfl rfl (relayout_keeps hrelayout)
  | alarm alarm =>
      cases alarm with
      | tick =>
          obtain ⟨animated, htick⟩ := tick_of_handle h
          exact tick_outcome htick
      | quiet =>
          obtain ⟨rfl, rfl⟩ := Prod.mk.inj (Except.ok.inj h)
          exact .of_silent rfl rfl ⟨rfl, rfl⟩
      | resume =>
          obtain ⟨hresume, rfl⟩ := resume_of_handle h
          exact .of_silent rfl rfl (resume_keeps hresume)

/-! ## What tiles and markers see of it -/

/-- Whether or not there is a lens, the tiles are those that were given. -/
theorem map_magnify {β : Type} {read : Tile α → β} (steady : Tile.Steady read)
    {focus : Option (Focus α)} {tiles tiles' : List (Tile α)} {magnified : Bool}
    (h : magnify host focus tiles = .ok (tiles', magnified)) : tiles'.map read = tiles.map read := by
  cases focus with
  | none =>
      obtain ⟨rfl, _⟩ := Prod.mk.inj (Except.ok.inj h)
      rfl
  | some focus => exact Lens.map_magnify steady h

/-- The lens keeps tiles and their identities in order. -/
theorem identities_magnify {focus : Option (Focus α)} {tiles tiles' : List (Tile α)}
    {magnified : Bool} (h : magnify host focus tiles = .ok (tiles', magnified)) :
    Tile.identities tiles' = Tile.identities tiles :=
  map_magnify (fun _ _ _ _ _ => rfl) h

/-- A frame exchanges tiles, puts them in order and moves them, whatever it draws. -/
theorem Outcome.staging {event : Event} (h : Outcome dock host event dock' commands) :
    Staging dock host dock' commands := by
  cases h with
  | rests stays bare row pool backdrop => exact .rests row pool backdrop
  | withdraws leaves row pool layers backdrop commands_eq =>
      exact .withdraws row pool layers backdrop commands_eq
  | draws stays drawn tiles magnified layers magnify_eq backdrop commands_eq row_eq pool_eq =>
      obtain ⟨cadence, hlayout, hbackdrop⟩ := takeLayout_cases dock
      obtain ⟨kept, gone, new, hexchanges⟩ := Row.reconcile_exchanges dock.row host.icons
        host.settings.favoritesOnly host.geometry.iconSize
      obtain ⟨hrow, hpool, hchanges⟩ := updateRow_cases dock.takeLayout.1 host
      rw [hlayout] at hrow hpool hchanges
      have hmoved := (identities_magnify magnify_eq).trans (Row.identities_reset _)
      refine .frames dock.takeLayout.2 _ layers _ kept gone new (dock.updated host).row.tiles tiles
        ((dock.updated host).focus host (dock.updated host).row.reset.tiles).1.isNone
        (!host.geometry.autohideHidden) ?_ hexchanges ?_ hmoved ?_ ?_ ?_
      · intro command hmem
        rcases List.mem_append.mp hmem with hl | hr
        · exact hbackdrop command hl
        · exact backdrop command hr
      · unfold updated
        rw [hlayout, hrow]
        exact Row.identities_arrangeFor _ _
      · rw [commands_eq]
        unfold updates frameOf updated
        rw [hlayout, hchanges, hpool]
        simp only [List.append_assoc]
      · rw [row_eq]
        unfold frameOf updated
        rw [hlayout, hrow, hpool]
        rfl
      · rw [pool_eq]
        unfold frameOf updated
        rw [hlayout, hpool]

/-- What any event comes to in the scene. -/
theorem handle_staging {event : Event} (h : dock.handle host event = .ok (dock', commands)) :
    Staging dock host dock' commands :=
  (handle_outcome h).staging

/-! ## Runs -/

/-- The docks that any sequence of events leads to, with the commands on the way.  Any alarm may go
    off at any moment, and the timer service may do as it pleases. -/
inductive Ran : Dock α τ → List (Command α) → Prop where
  | new (timers : τ) : Ran (new timers) []
  | event {dock dock' : Dock α τ} {trace commands : List (Command α)} (host : Host α)
      (event : Event) (before : Ran dock trace)
      (step : dock.handle host event = .ok (dock', commands)) : Ran dock' (trace ++ commands)
  | drift {dock : Dock α τ} {trace : List (Command α)} (timers : τ) (before : Ran dock trace) :
      Ran (dock.withTimers timers) trace

end FisheyeDock.Dock
