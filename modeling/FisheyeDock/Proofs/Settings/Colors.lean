import FisheyeDock.Proofs.Color.Reading
import FisheyeDock.Proofs.Settings.Derive
import FisheyeDock.Proofs.Settings.Fields

/-! # Colors of settings

    The colors of settings are read from texts or are those of the standard, which are in range.  So a
    color that is not in range is what a text gives for which the reader of colors has found no number
    in some channel (`Color.rangeKept`). -/

namespace FisheyeDock.Settings

open Kdl (Node)

variable {library : Library} {css : Color.Css} {nodes : List Node} {settings : Settings Float}

/-- The standard colors are in range. -/
theorem inRange_standard (kind : Marker.Kind) : (marker .standard kind).color.InRange := by
  cases kind with
  | dot => exact ⟨Single.inUnit_one, Single.inUnit_one, Single.inUnit_one, Single.inUnit_one⟩
  | badge => exact ⟨Single.inUnit_one, Single.inUnit_zero, Single.inUnit_zero, Single.inUnit_one⟩

/-- The color of a kind of marker is in range, or read from the text of the only node that names it. -/
theorem Library.Lawful.color_of_ofNodes (lawful : library.Lawful)
    (h : library.ofNodes css nodes = .ok settings) (kind : Marker.Kind) :
    (Settings.marker settings kind).color.InRange ∨
    ∃ node word, (Field.color kind).naming nodes = [node] ∧ Gives node ⟨none, .string word⟩ ∧
      Color.ofText css word = .ok (Settings.marker settings kind).color := by
  obtain ⟨-, hstandard⟩ | ⟨node, hone, word, hgives, hcolor⟩ :=
    (lawful.ofNodes_iff.mp h).2 (.color kind)
  · refine .inl ?_
    change (Settings.marker settings kind).color = (Settings.marker .standard kind).color at hstandard
    rw [hstandard]
    exact inRange_standard kind
  · exact .inr ⟨node, word, hone, hgives, hcolor⟩

end FisheyeDock.Settings

namespace FisheyeDock.Color

open Settings (Library Field Gives)

/-- How far the colors of a text are in range, be it the text of a color or of a document. -/
structure RangeKept (library : Library) (css : Css) (text : String) : Prop where
  /-- A color that is read has channels that are numbers from zero to one, or no numbers. -/
  clamped : ∀ {color : Color}, ofText css text = .ok color → color.Clamped
  /-- Whatever the reader finds is accepted, and all channels are numbers from zero to one exactly if
  the reader has found numbers for all of them. -/
  inRange_iff : ∀ {form : Color}, css.parse text = .ok form →
    ofText css text = .ok form.clamp ∧ (form.clamp.InRange ↔ form.Known)
  /-- The colors of settings are in range, but for those that the document gives by a text for which
  the reader has found what is not a number. -/
  settings : ∀ {settings : Settings Float}, Settings.parse text library css = .ok settings →
    ∃ nodes, library.parse text = some nodes ∧ ∀ kind, (Settings.marker settings kind).color.Clamped ∧
      ((Settings.marker settings kind).color.InRange ∨
        ∃ node word form, (Field.color kind).naming nodes = [node] ∧ Gives node ⟨none, .string word⟩ ∧
          css.parse word = .ok form ∧ form.clamp = (Settings.marker settings kind).color ∧ ¬ form.Known)

/-- **COLORS ARE IN RANGE UNLESS THE READER OF COLORS FINDS WHAT IS NOT A NUMBER**, whatever lawful reader
    and library there are. -/
theorem rangeKept {library : Library} {css : Css} (lawful : library.Lawful) (cssLawful : css.Lawful)
    (text : String) : RangeKept library css text where
  clamped h := cssLawful.clamped h
  inRange_iff h := cssLawful.inRange_iff h
  settings {settings} h := by
    obtain ⟨nodes, hnodes, hsettings⟩ := Settings.parse_eq_ok_iff.mp h
    refine ⟨nodes, hnodes, fun kind => ?_⟩
    obtain hrange | ⟨node, word, hone, hgives, hread⟩ := lawful.color_of_ofNodes hsettings kind
    · exact ⟨hrange.clamped, .inl hrange⟩
    · refine ⟨cssLawful.clamped hread, ?_⟩
      obtain ⟨form, hform, hclamp⟩ := cssLawful.ofText_eq_ok_iff.mp hread
      by_cases hknown : form.Known
      · exact .inl (hclamp ▸ (inRange_clamp_iff form).mpr hknown)
      · exact .inr ⟨node, word, form, hone, hgives, hform, hclamp, hknown⟩

instance (color : Color) : Decidable color.Known :=
  decidable_of_iff (color.red.isNaN = false ∧ color.green.isNaN = false ∧ color.blue.isNaN = false ∧
    color.alpha.isNaN = false) ⟨fun ⟨r, g, b, a⟩ => ⟨r, g, b, a⟩, fun ⟨r, g, b, a⟩ => ⟨r, g, b, a⟩⟩

/-- With the reader that comes with the dock, a function of numbers is in range; one with a component
    that is not a number is accepted all the same, and its color is not in range, be it read on its own
    or in a document. -/
theorem rangeKept_hsv_rgb :
    (∃ color, read "hsv(nan, 50%, 250%)" = .ok color ∧ color.Clamped ∧ color.InRange) ∧
    (∃ color, read "rgb(nan, 0, 0)" = .ok color ∧ ¬ color.InRange) ∧
    ∃ settings : Settings Float,
      Settings.parse "running-indicator \x7b color \"rgb(nan, 0, 0)\"; \x7d\n" = .ok settings ∧
        settings.dot.color.Clamped ∧ ¬ settings.dot.color.InRange := by
  have hkept := rangeKept Settings.lawful_builtIn lawful_builtIn
  obtain ⟨first, hfirst⟩ : ∃ color, read "hsv(nan, 50%, 250%)" = .ok color :=
    Settings.exists_of_isOk (by decide +kernel)
  have hform : Css.builtIn.parse "rgb(nan, 0, 0)" = .ok ⟨0.0 / 0.0, 0.0, 0.0, 1.0⟩ := by
    decide +kernel
  obtain ⟨hread, hrange⟩ := (hkept _).inRange_iff hform
  have hnan : ((Settings.parse "running-indicator \x7b color \"rgb(nan, 0, 0)\"; \x7d\n").toOption.map
      fun settings => settings.dot.color.red.isNaN) = some true := by
    decide +kernel
  obtain ⟨settings, hsettings⟩ : ∃ settings, Settings.parse
      "running-indicator \x7b color \"rgb(nan, 0, 0)\"; \x7d\n" = .ok settings :=
    Settings.exists_of_isOk (by decide +kernel)
  obtain ⟨nodes, -, hcolors⟩ := (hkept _).settings hsettings
  rw [hsettings] at hnan
  refine ⟨⟨first, hfirst, (hkept _).clamped hfirst, ?_⟩, ⟨_, hread, ?_⟩,
    settings, hsettings, (hcolors .dot).1, fun h => ?_⟩
  · exact inRange_of_read hfirst (by decide +kernel) (by decide +kernel)
  · rw [hrange]
    decide +kernel
  · exact Bool.false_ne_true (h.red.isNaN.symm.trans (Option.some.inj hnan))

end FisheyeDock.Color
