import FisheyeDock.Color.Text
import FisheyeDock.Proofs.Decimal.Spelling
import FisheyeDock.Proofs.Scalar.Undefined

/-! # What a reader of colors is relied on for

    Whatever reader of style sheets makes colors of texts, this is what it has to do (`Css.Lawful`): six
    hexadecimal digits are three bytes, and each channel is brought into its range, unless it is no
    number and stays so.  So what is read is clamped (`Css.Lawful.clamped`), and in range exactly if the
    reader has found a number for each channel (`Css.Lawful.inRange_iff`). -/

namespace FisheyeDock.Color

open Single

/-- A reader of colors does what its documentation says. -/
structure Css.Lawful (css : Css) : Prop where
  parse_hex : ∀ {r r' g g' b b' : Char} {red green blue : UInt8},
    StandsFor 16 [r, r'] red.toNat → StandsFor 16 [g, g'] green.toNat →
    StandsFor 16 [b, b'] blue.toNat →
    css.parse (String.ofList ['#', r, r', g, g', b, b']) = .ok (ofBytes red green blue 255)
  clamp_eq : ∀ color : Color, css.clamp color = color.clamp

/-! ## Channels -/

/-- Every channel is a number. -/
structure Known (c : Color) : Prop where
  red : c.red.isNaN = false
  green : c.green.isNaN = false
  blue : c.blue.isNaN = false
  alpha : c.alpha.isNaN = false

/-- Every channel is a number from zero to one. -/
structure InRange (c : Color) : Prop where
  red : InUnit c.red
  green : InUnit c.green
  blue : InUnit c.blue
  alpha : InUnit c.alpha

/-- Every channel is a number from zero to one, or not a number. -/
structure Clamped (c : Color) : Prop where
  red : InUnit c.red ∨ c.red.isNaN = true
  green : InUnit c.green ∨ c.green.isNaN = true
  blue : InUnit c.blue ∨ c.blue.isNaN = true
  alpha : InUnit c.alpha ∨ c.alpha.isNaN = true

/-- A color in range is one whose channels are in range, so none is left out. -/
theorem InRange.clamped {c : Color} (h : InRange c) : Clamped c :=
  ⟨.inl h.red, .inl h.green, .inl h.blue, .inl h.alpha⟩

/-- Clamping leaves each channel in range or without a number. -/
theorem clamped_clamp (c : Color) : Clamped c.clamp := by
  have hchannel (x : Float32) : InUnit (clampUnit x) ∨ (clampUnit x).isNaN = true := by
    cases h : x.isNaN with
    | false => exact .inl (inUnit_clampUnit h)
    | true => exact .inr ((isNaN_clampUnit x).trans h)
  exact ⟨hchannel _, hchannel _, hchannel _, hchannel _⟩

/-- A clamped color is in range exactly if all channels have been numbers. -/
theorem inRange_clamp_iff (c : Color) : InRange c.clamp ↔ Known c := by
  have hchannel (x : Float32) : InUnit (clampUnit x) ↔ x.isNaN = false :=
    ⟨fun h => (isNaN_clampUnit x).symm.trans h.isNaN, inUnit_clampUnit⟩
  constructor
  · rintro ⟨hred, hgreen, hblue, halpha⟩
    exact ⟨(hchannel _).mp hred, (hchannel _).mp hgreen, (hchannel _).mp hblue, (hchannel _).mp halpha⟩
  · rintro ⟨hred, hgreen, hblue, halpha⟩
    exact ⟨(hchannel _).mpr hred, (hchannel _).mpr hgreen, (hchannel _).mpr hblue,
      (hchannel _).mpr halpha⟩

/-! ## What is read -/

namespace Css.Lawful

variable {css : Css} {text : String} {color form : Color}

/-- A text is a color exactly if the reader finds a form for it, and the color is what is left of
    the form when it is clamped. -/
theorem ofText_eq_ok_iff (lawful : css.Lawful) : ofText css text = .ok color ↔
    ∃ form, css.parse text = .ok form ∧ form.clamp = color := by
  refine (map_eq_ok_iff (f := css.clamp)).trans (exists_congr fun form => ?_)
  rw [lawful.clamp_eq]

/-- What is read as a color is clamped. -/
theorem clamped (lawful : css.Lawful) (h : ofText css text = .ok color) : Clamped color := by
  obtain ⟨form, -, rfl⟩ := lawful.ofText_eq_ok_iff.mp h
  exact clamped_clamp form

/-- **A COLOR IS IN RANGE EXACTLY IF A NUMBER HAS BEEN FOUND FOR EACH CHANNEL.** -/
theorem inRange_iff (lawful : css.Lawful) (h : css.parse text = .ok form) :
    ofText css text = .ok form.clamp ∧ (InRange form.clamp ↔ Known form) :=
  ⟨lawful.ofText_eq_ok_iff.mpr ⟨form, h, rfl⟩, inRange_clamp_iff form⟩

end Css.Lawful

end FisheyeDock.Color
