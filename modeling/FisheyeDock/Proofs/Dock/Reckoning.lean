import FisheyeDock.Proofs.Dock.Sound
import FisheyeDock.Proofs.Scalar.Double

/-! # Coordinates reckoned from the size of the icons

    Where a tile is drawn, it is drawn at a finite position.  The label beside it and its markers are
    set off from there by a share of the size of the icon, and nobody looks at what comes out: they
    are written all the same (`Ran.written`).  All else about them is finite, but if the size of the
    icons or the scale factor is not, none of them is drawn at a finite place. -/

namespace FisheyeDock

open Scene Marker

/-! ## What is finite -/

section Finite

variable {α : Type} [Scalar α]

/-- Whether the icons have a finite size on the display. -/
def Geometry.isMeasured (g : Geometry α) : Bool :=
  Scalar.isFinite g.nominalSize && Scalar.isFinite g.scaleFactor

def Label.isFinite (label : Label α) : Bool :=
  Scalar.isFinite label.value && label.along.all Scalar.isFinite
    && Scalar.isFinite label.widthShift

def Dot.isFinite (dot : Dot α) : Bool := dot.position.isFinite && Scalar.isFinite dot.scale

def Badge.isFinite (badge : Badge α) : Bool :=
  badge.position.isFinite && Scalar.isFinite badge.scale && Scalar.isFinite badge.rotation
    && badge.shift.isFinite

namespace Scene.Command

/-- Whether a command that draws something has only finite numbers in it. -/
def isFinite : Command α → Bool
  | .transformTile _ position scale => position.isFinite && Scalar.isFinite scale
  | .placeLabel _ label => label.isFinite
  | .showDot _ dot => dot.isFinite
  | .showBadge _ badge => badge.isFinite
  | _ => true

omit [Scalar α] in
/-- The numbers of such a command that are reckoned from the size of the icons. -/
def reckoned : Command α → List α
  | .placeLabel _ label => [label.value]
  | .showDot _ dot => [dot.position.x, dot.position.y]
  | .showBadge _ badge => [badge.position.x, badge.position.y]
  | _ => []

/-- A command that draws nothing has nothing in it that is not finite, and nothing reckoned. -/
theorem eq_of_not_isWriting {command : Command α} (h : command.isWriting = false) :
    command.isFinite = true ∧ command.reckoned = [] := by
  cases command with
  | transformTile | placeLabel | showDot | showBadge => exact nomatch h
  | _ => exact ⟨rfl, rfl⟩

end Scene.Command

end Finite

/-! ## One tile -/

section Tile

variable {g : Geometry Float} {settings : Settings Float} {tile : Tile Float}
variable {command : Command Float}

/-- A share of the size of an icon is finite only where the icons have a finite size. -/
theorem Geometry.isMeasured_of_share {share : Float}
    (h : (g.iconSize * share * g.scaleFactor).isFinite = true) : g.isMeasured = true := by
  obtain ⟨hshare, hfactor⟩ := Double.isFinite_of_mul h
  have heven : (Double.floor (g.nominalSize / 2.0) * 2.0).isFinite = true :=
    (Double.isFinite_of_mul hshare).1
  have hnominal := Double.isFinite_of_div (Double.isFinite_of_floor (Double.isFinite_of_mul heven).1)
  exact (Bool.and_eq_true _ _).mpr ⟨hnominal, hfactor⟩

/-- A label with a finite value is of a dock that has been measured. -/
theorem Label.isMeasured_of_value {position : Point Float} {scale : Float}
    (h : (Label.ofIcon position scale g).value.isFinite = true) : g.isMeasured = true := by
  unfold Label.ofIcon at h
  dsimp only at h
  have hsize : (g.iconSize * scale * g.scaleFactor).isFinite = true := by
    cases hedge : g.edge <;> rw [hedge] at h
    · exact (Double.isFinite_of_mul (Double.isFinite_of_add h).2).1
    · exact (Double.isFinite_of_mul (Double.isFinite_of_sub h).2).1
    · exact (Double.isFinite_of_mul (Double.isFinite_of_sub h).2).1
    · exact (Double.isFinite_of_mul (Double.isFinite_of_add h).2).1
  exact Geometry.isMeasured_of_share hsize

/-- What is set off by a share of the size of an icon is finite only where the icons have a finite
    size. -/
theorem isMeasured_of_isFinite (hmem : command ∈ tile.writings g settings)
    (hreckoned : command.reckoned ≠ []) (h : command.isFinite = true) : g.isMeasured = true := by
  obtain rfl | rfl | ⟨id, -, rfl⟩ | ⟨id, -, rfl⟩ := Tile.mem_writings.mp hmem
  · exact absurd rfl hreckoned
  · simp only [Command.isFinite, Label.isFinite, Bool.and_eq_true] at h
    exact Label.isMeasured_of_value h.1.1
  · simp only [Command.isFinite, Badge.isFinite, Point.isFinite, Bool.and_eq_true] at h
    obtain ⟨⟨⟨⟨hx, -⟩, -⟩, -⟩, -⟩ := h
    exact Geometry.isMeasured_of_share (Double.isFinite_of_add hx).2
  · simp only [Command.isFinite, Dot.isFinite, Point.isFinite, Bool.and_eq_true] at h
    obtain ⟨⟨-, hy⟩, -⟩ := h
    exact Geometry.isMeasured_of_share (Double.isFinite_of_add hy).2

section Sound

variable {position : Point Float} {scale : Float}

/-- Nothing but the coordinate beyond the icon can keep a label from being finite. -/
theorem Label.isFinite_ofIcon (hposition : position.isFinite = true) :
    (Label.ofIcon position scale g).isFinite =
      Scalar.isFinite (Label.ofIcon position scale g).value := by
  obtain ⟨-, hy⟩ := (Bool.and_eq_true _ _).mp hposition
  have halong : (Label.ofIcon position scale g).along.all Scalar.isFinite = true := by
    show (if g.edge.isVertical then some position.y else none).all Scalar.isFinite = true
    cases g.edge.isVertical with
    | true => exact hy
    | false => rfl
  have hshift : Scalar.isFinite (Label.ofIcon position scale g).widthShift = true := by
    show Scalar.isFinite (if g.edge = .right then 1.0 / 1.8 else 0.0 : Float) = true
    cases g.edge <;> decide
  rw [Label.isFinite, halong, hshift, Bool.and_true, Bool.and_true]

/-- A dot of finite scale is finite as far as its position is. -/
theorem Dot.isFinite_ofIcon (hscale : Scalar.isFinite scale = true) (count : UInt32)
    (style : MarkerSettings) : (Dot.ofIcon position scale count g style).isFinite =
      (Dot.ofIcon position scale count g style).position.isFinite := by
  show (_ && Scalar.isFinite scale) = _
  rw [hscale, Bool.and_true]

theorem Badge.isFinite_ofIcon (hscale : Scalar.isFinite scale = true) (count : UInt32)
    (style : MarkerSettings) : (Badge.ofIcon position scale count g style).isFinite =
      (Badge.ofIcon position scale count g style).position.isFinite := by
  have hrotation : Scalar.isFinite (180.0 : Float) = true := by decide
  have hshift : Point.isFinite (⟨0.4, 0.0⟩ : Point Float) = true := by decide
  show (_ && Scalar.isFinite scale && Scalar.isFinite (180.0 : Float)
    && Point.isFinite (⟨0.4, 0.0⟩ : Point Float)) = _
  rw [hscale, hrotation, hshift, Bool.and_true, Bool.and_true, Bool.and_true]

end Sound

/-- Of a sound tile, all else that is written is finite. -/
theorem isFinite_eq_all_reckoned (hsound : tile.Sound) (hvisible : tile.visible = true)
    (hmem : command ∈ tile.writings g settings) :
    command.isFinite = command.reckoned.all Scalar.isFinite := by
  have hposition := hsound.position hvisible
  have hscale := hsound.scale.isFinite
  have hboth : ∀ p : Point Float, p.isFinite = [p.x, p.y].all Scalar.isFinite := by
    intro p
    rw [List.all_cons, List.all_cons, List.all_nil, Bool.and_true]
    rfl
  obtain rfl | rfl | ⟨id, -, rfl⟩ | ⟨id, -, rfl⟩ := Tile.mem_writings.mp hmem
  · show (tile.position.isFinite && Scalar.isFinite tile.scale) = true
    rw [hposition, hscale]
    rfl
  · exact (Label.isFinite_ofIcon hposition).trans (Bool.and_true _).symm
  · exact (Badge.isFinite_ofIcon hscale _ _).trans (hboth _)
  · exact (Dot.isFinite_ofIcon hscale _ _).trans (hboth _)

end Tile

/-! ## Runs -/

namespace Dock

variable {τ : Type} [TimerService τ] {dock dock' : Dock Float τ} {host : Host Float}
variable {event : Event} {trace commands : List (Command Float)}

/-- **NO GUARD STANDS BEFORE A LABEL OR A MARKER** in any run.  A tick that runs to its end writes
    every visible tile with its label and the markers it has, and no other event writes anything;
    what is written is finite but for what is reckoned from the size of the icons; and while the
    icons have no finite size, no label and no marker is. -/
theorem Ran.written (h : Ran dock trace) (step : dock.handle host event = .ok (dock', commands)) :
    (commands.filter Command.isWriting =
      if dock.drawsOn host event then
        (dock'.row.tiles.filter Tile.visible).flatMap
          (Tile.writings host.geometry host.settings)
      else []) ∧
    (∀ command ∈ commands, command.isFinite = command.reckoned.all Scalar.isFinite) ∧
    (host.geometry.isMeasured = false →
      ∀ command ∈ commands, command.reckoned ≠ [] → command.isFinite = false) := by
  have houtcome := handle_outcome step
  have hsound := (h.event host event step).sound_row soundScale_rest
  refine ⟨houtcome.writings_eq, ?_, ?_⟩
  · intro command hmem
    cases hwriting : command.isWriting with
    | true =>
        obtain ⟨tile, htile, hvisible, hof⟩ := houtcome.mem_of_writing hmem hwriting
        exact isFinite_eq_all_reckoned (hsound tile htile) hvisible hof
    | false =>
        obtain ⟨hfinite, hnone⟩ := Command.eq_of_not_isWriting hwriting
        rw [hfinite, hnone]
        rfl
  · intro hunmeasured command hmem hreckoned
    cases hwriting : command.isWriting with
    | true =>
        obtain ⟨tile, -, -, hof⟩ := houtcome.mem_of_writing hmem hwriting
        rw [← Bool.not_eq_true]
        intro hfinite
        rw [isMeasured_of_isFinite hof hreckoned hfinite] at hunmeasured
        exact nomatch hunmeasured
    | false => exact absurd (Command.eq_of_not_isWriting hwriting).2 hreckoned

/-- A favorite in a standard dock on a display with an infinite scale factor. -/
private def boundless : Host Float where
  settings := .standard
  geometry := { Geometry.standard with scaleFactor := 1.0 / 0.0 }
  icons := [Icon.favorite 7 ⟨0.0, 0.0⟩]

set_option maxRecDepth 2048 in
/-- Its label is written, and has no place. -/
theorem written_boundless : ∃ (dock : Dock Float Clock) (trace commands : List (Command Float))
    (label : Label Float), Ran dock (trace ++ commands) ∧ .placeLabel 7 label ∈ commands ∧
      label.isFinite = false := by
  have henabled := (Ran.new (α := Float) Clock.start).event boundless .enable rfl
  have hunmeasured : boundless.geometry.isMeasured = false := by decide
  obtain ⟨-, -, hnone⟩ :=
    henabled.written (show handle _ boundless (.alarm .tick) = .ok (_, _) from rfl)
  refine ⟨_, _, _, _, henabled.event boundless (.alarm .tick) rfl,
    List.mem_of_getElem? (i := 7) rfl, ?_⟩
  exact hnone hunmeasured _ (List.mem_of_getElem? (i := 7) rfl) (List.cons_ne_nil _ _)

end Dock

end FisheyeDock
