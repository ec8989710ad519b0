import FisheyeDock.Proofs.Dock.Drag

/-! # What an event does to a dock

    `Outcome` tells what tiles and markers see of an event.  For the dock as a whole there are five
    cases (`Effect`): nothing changes but the cadence and the preview, the dock is enabled, it tells
    the layers whether a window fills the screen, it withdraws, or it draws.

    Which of them an event comes to can be told beforehand, by `withdrawsOn`, `drawsOn` and
    `announcesOn`.  A dock is `Away` while it is disabled or suspended, and the only way to there
    leads through a withdrawal (`Effect.away`). -/

namespace FisheyeDock.Dock

open Scene (Command)
open Cadence (sameDrag_start sameDrag_rearm sameDrag_halt sameDrag_orderLayouts)

variable {α τ : Type} [Scalar α] [TimerService τ]
variable {dock dock' : Dock α τ} {host : Host α} {event : Event} {commands : List (Command α)}
variable {cadence : Cadence τ} {previewLeft : Option Nat}

omit [Scalar α] [TimerService τ] in
/-- Whether an event has the dock tell the layers whether a window fills the screen. -/
def announcesOn (dock : Dock α τ) : Event → Bool
  | .fullscreenChanged => dock.enabled
  | _ => false

/-- An event that takes nothing out of the scene, draws nothing and tells the layers nothing. -/
structure Passes (dock : Dock α τ) (host : Host α) (event : Event) : Prop where
  stays : dock.withdrawsOn host event = false
  bare : dock.drawsOn host event = false
  untold : dock.announcesOn event = false

/-- What an event does to a dock. -/
inductive Effect (dock : Dock α τ) (host : Host α) (event : Event) :
    Dock α τ → List (Command α) → Prop where
  /-- Nothing changes but the cadence, which is not suspended anew, and the preview. -/
  | rests (passes : dock.Passes host event) (cadence : Cadence τ) (previewLeft : Option Nat)
      (awake : cadence.phase = .suspended → dock.cadence.phase = .suspended) :
      Effect dock host event { dock with cadence, previewLeft } []
  | enables (passes : dock.Passes host event) (ticks : Nat) :
      Effect dock host event
        { dock with enabled := true, cadence := dock.cadence.orderLayouts ticks } []
  | announces (stays : dock.withdrawsOn host event = false)
      (bare : dock.drawsOn host event = false) (told : dock.announcesOn event = true) :
      Effect dock host event (dock.showLayers (!host.geometry.inFullscreen)).1
        (dock.showLayers (!host.geometry.inFullscreen)).2
  /-- Everything is taken out of the scene, and the cadence is whatever it has come to.  If the dock
      is disabled by it, then nothing is asked for any more. -/
  | withdraws (leaves : dock.withdrawsOn host event = true) (enabled : Bool)
      (cadence : Cadence τ) (previewLeft : Option Nat)
      (disables : enabled = false → cadence = dock.cadence.reset ∧ previewLeft = none) :
      Effect dock host event (withdraw { dock with enabled, cadence, previewLeft }).1
        (withdraw { dock with enabled, cadence, previewLeft }).2
  | draws (drawn : dock.drawsOn host event = true) (tiles : List (Tile α)) (cadence : Cadence τ)
      (phase : cadence.phase = dock.cadence.phase) :
      Effect dock host event
        { (((dock.updated host).framed host tiles).layered host).1 with cadence }
        (dock.updates host
          ++ ((dock.updated host).row.tiles.map
              (fun tile => .activateTile tile.id (!host.geometry.autohideHidden))
            ++ ((dock.updated host).frameOf host tiles).commands
            ++ (((dock.updated host).framed host tiles).layered host).2))

namespace Effect

/-- Nothing happens at all. -/
theorem refl (passes : dock.Passes host event) : Effect dock host event dock [] :=
  .rests passes dock.cadence dock.previewLeft id

/-- For operations that hand their dock and their commands on as a pair. -/
theorem of_eq {result : Dock α τ × List (Command α)} (h : (dock', commands) = result)
    (effect : Effect dock host event result.1 result.2) :
    Effect dock host event dock' commands := by
  subst h
  exact effect

/-- A wake-up neither suspends nor touches the scene. -/
theorem of_wake (passes : dock.Passes host event) {settings : Settings α}
    (awake : cadence.phase = .suspended → dock.cadence.phase = .suspended)
    (h : wake { dock with cadence, previewLeft } settings = .ok dock') :
    Effect dock host event dock' [] := by
  obtain ⟨-, rfl⟩ | ⟨-, started, hstart, rfl⟩ := wake_cases h
  · exact .rests passes cadence previewLeft awake
  · refine .rests passes started.rearm previewLeft fun hsuspended => awake ?_
    exact ((sameDrag_start hstart).trans (sameDrag_rearm started)).suspended_iff.mp hsuspended

/-! ## One event after the other -/

/-- To enable the dock asks for layouts. -/
theorem enable (settings : Settings α) : Effect dock host .enable (dock.enable settings) [] := by
  unfold Dock.enable
  split
  · exact refl ⟨rfl, rfl, rfl⟩
  · exact .enables ⟨rfl, rfl, rfl⟩ _

/-- Disabling, by whatever event, withdraws what there is. -/
theorem disable (leaves : dock.withdrawsOn host event = dock.enabled)
    (bare : dock.drawsOn host event = false) (untold : dock.announcesOn event = false) :
    Effect dock host event dock.disable.1 dock.disable.2 := by
  unfold Dock.disable
  by_cases henabled : dock.enabled = true
  · rw [if_pos henabled]
    exact .withdraws (leaves.trans henabled) _ _ _ fun _ => ⟨rfl, rfl⟩
  · rw [if_neg henabled]
    exact refl ⟨leaves.trans ((Bool.not_eq_true _).mp henabled), bare, untold⟩

/-- A change of focus leaves the scene as it is. -/
theorem focusChanged {settings : Settings α} (h : dock.focusChanged settings = .ok dock') :
    Effect dock host .focusChanged dock' [] := by
  unfold Dock.focusChanged at h
  by_cases henabled : dock.enabled = true
  · rw [if_pos henabled] at h
    obtain ⟨woken, hwake, hdone⟩ := bind_eq_ok_iff.mp h
    obtain rfl := Except.ok.inj hdone
    -- a halt, a start and a new quiet period, none of which suspends
    have hwoken : Cadence.SameDrag dock.cadence woken.cadence := by
      obtain ⟨-, rfl⟩ | ⟨-, started, hstart, rfl⟩ := wake_cases hwake
      · exact sameDrag_halt _
      · exact ((sameDrag_halt _).trans (sameDrag_start hstart)).trans (sameDrag_rearm _)
    obtain ⟨-, rfl⟩ | ⟨-, started, -, rfl⟩ := wake_cases hwake
    · exact .rests ⟨rfl, rfl, rfl⟩ _ _ hwoken.suspended_iff.mp
    · exact .rests ⟨rfl, rfl, rfl⟩ _ _ hwoken.suspended_iff.mp
  · rw [if_neg henabled] at h
    obtain rfl := Except.ok.inj h
    exact refl ⟨rfl, rfl, rfl⟩

/-- A change between fullscreen and not shows the layers or hides them, or nothing where they
    stand. -/
theorem fullscreenChanged : Effect dock host .fullscreenChanged
    (dock.fullscreenChanged host.geometry).1 (dock.fullscreenChanged host.geometry).2 := by
  unfold Dock.fullscreenChanged
  by_cases henabled : dock.enabled = true
  · rw [if_pos henabled]
    exact .announces rfl rfl henabled
  · rw [if_neg henabled]
    exact refl ⟨rfl, rfl, (Bool.not_eq_true _).mp henabled⟩

/-- A drag that begins at rest takes everything out of the scene. -/
theorem dragBegin : Effect dock host .dragBegin dock.dragBegin.1 dock.dragBegin.2 := by
  have hleaves := dock.withdrawsOn_dragBegin host
  unfold Dock.dragBegin
  by_cases henabled : dock.enabled = true
  · rw [if_pos henabled]
    rw [henabled, Bool.true_and] at hleaves
    dsimp only
    by_cases hsuspended : dock.cadence.beginDrag.phase = .suspended
    · rw [if_pos hsuspended]
      exact .withdraws (hleaves.trans (decide_eq_true hsuspended)) _ _ _
        fun hdisabled => nomatch henabled.symm.trans hdisabled
    · rw [if_neg hsuspended]
      exact .rests ⟨hleaves.trans (decide_eq_false hsuspended), rfl, rfl⟩ _ _
        fun hphase => absurd hphase hsuspended
  · rw [if_neg henabled]
    rw [(Bool.not_eq_true _).mp henabled] at hleaves
    exact refl ⟨hleaves, rfl, rfl⟩

/-- The end of a drag does so where the drag had been queued. -/
theorem dragEnd : Effect dock host .dragEnd dock.dragEnd.1 dock.dragEnd.2 := by
  have hleaves := dock.withdrawsOn_dragEnd host
  unfold Dock.dragEnd
  by_cases henabled : dock.enabled = true
  · rw [if_pos henabled]
    rw [henabled, Bool.true_and] at hleaves
    dsimp only
    by_cases hsuspends : dock.cadence.phase ≠ .suspended ∧ dock.cadence.endDrag.phase = .suspended
    · rw [if_pos hsuspends]
      exact .withdraws (hleaves.trans (decide_eq_true hsuspends)) _ _ _
        fun hdisabled => nomatch henabled.symm.trans hdisabled
    · rw [if_neg hsuspends]
      refine .rests ⟨hleaves.trans (decide_eq_false hsuspends), rfl, rfl⟩ _ _ fun hphase => ?_
      by_contra hbefore
      exact hsuspends ⟨hbefore, hphase⟩
  · rw [if_neg henabled]
    rw [(Bool.not_eq_true _).mp henabled] at hleaves
    exact refl ⟨hleaves, rfl, rfl⟩

/-- A resume leaves the scene as it is. -/
theorem resume {settings : Settings α} (h : dock.resume settings = .ok dock') :
    Effect dock host (.alarm .resume) dock' [] := by
  have hpasses : dock.Passes host (.alarm .resume) := ⟨rfl, rfl, rfl⟩
  unfold Dock.resume Cadence.resume at h
  by_cases hsuspended : dock.cadence.phase = .suspended
  · simp only [if_pos hsuspended] at h
    exact of_wake hpasses (fun _ => hsuspended) h
  · simp only [if_neg hsuspended] at h
    obtain rfl := Except.ok.inj h
    exact .rests hpasses _ _ id

/-- A tick draws, or takes everything out of the scene, or does nothing where the dock is
    disabled. -/
theorem tick {animated : Bool} (h : dock.tick host = .ok (dock', commands, animated)) :
    Effect dock host (.alarm .tick) dock' commands := by
  have hleaves := dock.withdrawsOn_tick host
  have hdraws := dock.drawsOn_tick host
  obtain ⟨hdisabled, rfl, rfl⟩ | ⟨henabled, hdrag, hsuspend⟩ | ⟨henabled, hdrag, hoff, hdisable⟩
    | ⟨henabled, hdrag, hon, shown, hanimate, rfl⟩ := tick_cases h
  · rw [hdisabled] at hleaves hdraws
    exact refl ⟨hleaves, hdraws, rfl⟩
  · rw [henabled, hdrag] at hleaves
    refine .of_eq hsuspend (.withdraws hleaves _ _ _ ?_)
    exact fun hdisabled => nomatch henabled.symm.trans hdisabled
  · rw [henabled, hdrag, hoff] at hleaves hdraws
    exact .of_eq hdisable (disable (hleaves.trans henabled.symm) hdraws rfl)
  · rw [henabled, hdrag, hon] at hdraws
    obtain ⟨tiles, magnified, -, -, rfl, rfl⟩ := animate_shows hanimate
    have hupdated : (dock.updated host).cadence.phase = dock.cadence.phase := by
      have htaken : dock.cadence.takeLayout.2.phase = dock.cadence.phase := by
        unfold Cadence.takeLayout
        split <;> rfl
      show Cadence.phase (if _ then _ else _) = _
      split <;> exact htaken
    refine .draws hdraws tiles _ ?_
    split
    · rw [Cadence.phase_rearm]
      exact hupdated
    · exact hupdated

end Effect

/-- What any event does. -/
theorem handle_effect (h : dock.handle host event = .ok (dock', commands)) :
    Effect dock host event dock' commands := by
  cases event with
  | enable =>
      obtain ⟨rfl, rfl⟩ := Prod.mk.inj (Except.ok.inj h)
      exact .enable _
  | disable => exact .of_eq (Except.ok.inj h).symm (.disable rfl rfl rfl)
  | pointerEnter | pointerMotion =>
      obtain ⟨hwake, rfl⟩ := ok_of_silent h
      exact .of_wake ⟨rfl, rfl, rfl⟩ id hwake
  | pointerLeave =>
      obtain ⟨rfl, rfl⟩ := Prod.mk.inj (Except.ok.inj h)
      exact .rests ⟨rfl, rfl, rfl⟩ _ _ (sameDrag_rearm _).suspended_iff.mp
  | focusChanged =>
      obtain ⟨hfocus, rfl⟩ := ok_of_silent h
      exact .focusChanged hfocus
  | fullscreenChanged => exact .of_eq (Except.ok.inj h).symm .fullscreenChanged
  | dragBegin => exact .of_eq (Except.ok.inj h).symm .dragBegin
  | dragEnd => exact .of_eq (Except.ok.inj h).symm .dragEnd
  | preview on =>
      obtain ⟨hpreview, rfl⟩ := ok_of_silent h
      cases on with
      | true =>
          have hwake : wake { dock with previewLeft := some previewPeriod } host.settings
              = .ok dock' := hpreview
          exact .of_wake ⟨rfl, rfl, rfl⟩ id hwake
      | false =>
          obtain rfl := Except.ok.inj hpreview
          exact .rests ⟨rfl, rfl, rfl⟩ _ _ id
  | relayout =>
      obtain ⟨hrelayout, rfl⟩ := ok_of_silent h
      have hwake : wake { dock with cadence := dock.cadence.orderLayouts Cadence.longLayout }
          host.settings = .ok dock' := hrelayout
      have hawake : (dock.cadence.orderLayouts Cadence.longLayout).phase = .suspended →
          dock.cadence.phase = .suspended := id
      exact .of_wake ⟨rfl, rfl, rfl⟩ hawake hwake
  | alarm alarm =>
      cases alarm with
      | tick =>
          obtain ⟨animated, htick⟩ := tick_of_handle h
          exact .tick htick
      | quiet =>
          obtain ⟨rfl, rfl⟩ := Prod.mk.inj (Except.ok.inj h)
          refine .rests ⟨rfl, rfl, rfl⟩ _ _ fun hsuspended => ?_
          exact (sameDrag_halt { dock.cadence with quietTimer := none }).suspended_iff.mp hsuspended
      | resume =>
          obtain ⟨hresume, rfl⟩ := resume_of_handle h
          exact .resume hresume

/-! ## Away -/

/-- A dock that is disabled or suspended. -/
def Away (dock : Dock α τ) : Prop := dock.enabled = false ∨ dock.cadence.phase = .suspended

/-- A dock that is away has just withdrawn, or was away before and has done nothing since, as long
    as it draws in no suspension. -/
theorem Effect.away (h : Effect dock host event dock' commands)
    (awake : dock.drawsOn host event = true → dock.cadence.phase ≠ .suspended) (away : dock'.Away) :
    dock.withdrawsOn host event = true ∨ (dock.drawsOn host event = false ∧ dock.Away) := by
  cases h with
  | rests passes cadence previewLeft awake => exact .inr ⟨passes.bare, away.imp id awake⟩
  | enables passes ticks => exact .inr ⟨passes.bare, away.imp nofun id⟩
  | announces stays bare told =>
      rw [showLayers_fst] at away
      exact .inr ⟨bare, away⟩
  | withdraws leaves enabled cadence previewLeft disables => exact .inl leaves
  | draws drawn tiles cadence phase =>
      obtain ⟨-, henabled⟩ := drawsOn_cases drawn
      rw [layered_fst] at away
      rcases away with hdisabled | hsuspended
      · exact nomatch henabled.symm.trans hdisabled
      · exact absurd (phase.symm.trans hsuspended) (awake drawn)

/-- A dock is disabled in one way, whatever disables it. -/
theorem Effect.disabled (h : Effect dock host event dock' commands) (enabled : dock.enabled = true)
    (disabled : dock'.enabled = false) : dock' = dock.disable.1 := by
  cases h with
  | rests passes cadence previewLeft awake => exact nomatch enabled.symm.trans disabled
  | enables passes ticks => exact nomatch disabled
  | announces stays bare told =>
      rw [showLayers_fst] at disabled
      exact nomatch enabled.symm.trans disabled
  | withdraws leaves enabled' cadence previewLeft disables =>
      obtain rfl : enabled' = false := by
        rw [withdraw_fst] at disabled
        exact disabled
      obtain ⟨rfl, rfl⟩ := disables rfl
      rw [Dock.disable, if_pos enabled]
  | draws drawn tiles cadence phase =>
      rw [layered_fst] at disabled
      exact nomatch enabled.symm.trans disabled

end FisheyeDock.Dock
