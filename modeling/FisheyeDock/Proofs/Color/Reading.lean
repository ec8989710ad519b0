import FisheyeDock.Color.Css
import FisheyeDock.Proofs.Color.Hues
import FisheyeDock.Proofs.Color.Lawful

/-! # Which texts are colors in range

    The reader of colors that comes with the dock is lawful (`lawful_builtIn`), so that its colors are in
    range but for channels that are not numbers.  What is not a number comes from a component that is
    written `nan`, where the component counts: a hue may be anything (`Vague`).  All other texts give
    colors in range (`inRange_of_read`).

    Only for the two functions with opponent axes this is not the whole story: there the largest numbers
    make channels that are no numbers as well (`Opposed`). -/

namespace FisheyeDock.Color

open Float.Model UnpackedFloat Single

/-! ## Numerals -/

section Numerals

/-- The float of a byte is a number. -/
theorem isNaN_toFloat32_byte (byte : UInt8) : byte.toFloat32.isNaN = false :=
  (isNaN_packed _).trans Double.isNaN_normalize

/-- The float of a machine word is a number. -/
theorem isNaN_toFloat32_word (word : UInt64) : word.toFloat32.isNaN = false :=
  (isNaN_packed _).trans Double.isNaN_normalize

/-- The powers of ten in the table are positive or negative numbers other than zero. -/
theorem unpack_powerOfTen (e : Fin 11) : ∃ sign m e' hpos,
    (Float32.exactlyRepresentablePowersOfTen[e]).toModel.unpack = .finite sign m e' hpos := by
  fin_cases e <;> exact ⟨_, _, _, _, rfl⟩

/-- A decimal number is rounded to a number, be it infinite. -/
theorem isNaN_unpacked_ofScientific (m : Nat) (e : Int) :
    (UnpackedFloat.ofScientific Format.binary32 m e).isNaN = false := by
  unfold UnpackedFloat.ofScientific
  split
  · rfl
  · split
    · rfl
    · split
      · rfl
      · split
        · exact isNaN_mul_finite _
        · exact isNaN_div_finite _

/-- A decimal number becomes a number, or too large for a finite one. -/
theorem isNaN_ofScientific (m : Nat) (negative : Bool) (e : Nat) :
    (Float32.ofScientific m negative e).isNaN = false := by
  unfold Float32.ofScientific
  split
  · next h =>
      obtain ⟨sign, m', e', hpos, hunpack⟩ := unpack_powerOfTen ⟨e, by omega⟩
      dsimp only
      split
      · exact (isNaN_div_of_unpack hunpack _).trans (isNaN_toFloat32_word _)
      · exact (isNaN_mul_of_unpack hunpack _).trans (isNaN_toFloat32_word _)
  · exact (isNaN_packed _).trans (isNaN_unpacked_ofScientific m _)

/-- A decimal number is read as a number. -/
theorem isNaN_decimal (d : Decimal) : d.toFloat32.isNaN = false := by
  unfold Decimal.toFloat32
  have hinfinite : (1.0 / 0.0 : Float32).isNaN = false := by decide
  dsimp only
  generalize hmagnitude : (if d.digits = 0 then 0.0
    else if 40 < d.leadingPlace then 1.0 / 0.0
    else if d.leadingPlace < -60 then 0.0
    else Float32.ofScientific d.digits (decide (d.exponent < 0)) d.exponent.natAbs) = magnitude
  have hnumber : magnitude.isNaN = false := by
    rw [← hmagnitude]
    split
    · rfl
    · split
      · exact hinfinite
      · split
        · rfl
        · exact isNaN_ofScientific _ _ _
  split
  · exact (isNaN_neg magnitude).trans hnumber
  · exact hnumber

/-- A numeral is not a number exactly if it is the undefined one. -/
theorem isNaN_numeral (numeral : Numeral) : numeral.toFloat32.isNaN = true ↔ numeral = .undefined := by
  cases numeral with
  | undefined => exact iff_of_true (by decide) rfl
  | infinite negative => cases negative <;> exact iff_of_false (by decide) nofun
  | finite value =>
      refine iff_of_false ?_ nofun
      rw [Numeral.toFloat32, isNaN_decimal]
      exact nofun

end Numerals

/-! ## Components -/

/-- A component without the percent sign behind it. -/
def bare (part : List Char) : List Char := if part.getLast? = some '%' then part.dropLast else part

/-- A component that is written `nan`, in any case, with a sign before it or without, and with a percent
    sign behind it or without. -/
def IsUndefined (part : List Char) : Prop :=
  (Numeral.splitSign (bare part)).2.map Char.toLower = ['n', 'a', 'n']

variable {text part x y z name : List Char} {parts rest : List (List Char)} {whole alpha : Float32}
variable {component : Component} {color : Color} {skipped : Nat} {reader : Reader}
variable {toChannels : Float32 → Float32 → Float32 → Channels}

/-- What is spelled as undefined is a sign and the three letters, of whatever case. -/
theorem read?_eq_undefined_iff : Numeral.read? text = some .undefined ↔
    (Numeral.splitSign text).2.map Char.toLower = ['n', 'a', 'n'] := by
  unfold Numeral.read?
  dsimp only
  split
  · next h => exact iff_of_true rfl h
  · next h =>
      refine iff_of_false (fun hread => ?_) h
      split at hread
      · exact nomatch hread
      · obtain ⟨value, -, hvalue⟩ := Option.map_eq_some_iff.mp hread
        exact nomatch hvalue

/-- A number that is read from a text is none exactly if the text spells the undefined one. -/
theorem isNaN_of_number? {value : Float32} (h : number? text = some value) :
    value.isNaN = true ↔ (Numeral.splitSign text).2.map Char.toLower = ['n', 'a', 'n'] := by
  obtain ⟨numeral, hread, rfl⟩ := Option.map_eq_some_iff.mp h
  rw [isNaN_numeral, ← read?_eq_undefined_iff, hread]
  exact ⟨congrArg some, Option.some.inj⟩

/-- What is not a number is written so, as a percentage or plain. -/
theorem isNaN_of_component? {sign : Sign} {m : Nat} {e : Int} {hpos : 0 < m}
    (hwhole : whole.toModel.unpack = .finite sign m e hpos)
    (h : component? whole part = some component) :
    component.value.isNaN = true ↔ IsUndefined part := by
  have hundred : (100.0 : Float32).toModel.unpack =
      .finite .positive (25 * 2 ^ 19) (-17) (by decide) := rfl
  unfold component? at h
  unfold IsUndefined bare
  split at h
  · next hpercent =>
      obtain ⟨value, hvalue, rfl⟩ := Option.map_eq_some_iff.mp h
      rw [if_pos hpercent, ← isNaN_of_number? hvalue, isNaN_div_of_unpack hundred]
  · next hplain =>
      obtain ⟨value, hvalue, rfl⟩ := Option.map_eq_some_iff.mp h
      rw [if_neg hplain, ← isNaN_of_number? hvalue, isNaN_div_of_unpack hwhole]

/-! ## Functions -/

/-- A function makes a color of numbers only out of components that are numbers, but for the first few,
    which may be anything. -/
def Reveals (skipped : Nat) (reader : Reader) : Prop :=
  ∀ {x y z : List Char} {alpha : Float32} {color : Color},
    reader x y z alpha = .ok (some color) → Known color →
    alpha.isNaN = false ∧ ∀ part ∈ [x, y, z].drop skipped, ¬ IsUndefined part

/-- A function makes a color of numbers out of all such components. -/
def Reckons (skipped : Nat) (reader : Reader) : Prop :=
  ∀ {x y z : List Char} {alpha : Float32} {color : Color},
    reader x y z alpha = .ok (some color) → alpha.isNaN = false →
    (∀ part ∈ [x, y, z].drop skipped, ¬ IsUndefined part) → Known color

/-- A component is undefined exactly if its text is, with or without a percent sign: a whole other
    than zero scales a number to a number. -/
theorem isNaN_clampUnit_of_component? {sign : Sign} {m : Nat} {e : Int} {hpos : 0 < m}
    (hwhole : whole.toModel.unpack = .finite sign m e hpos)
    (h : component? whole part = some component) :
    (clampUnit component.value).isNaN = false ↔ ¬ IsUndefined part := by
  rw [isNaN_clampUnit, ← isNaN_of_component? hwhole h, Bool.not_eq_true]

theorem unpack_byteRange : (255.0 : Float32).toModel.unpack =
    .finite .positive (255 * 2 ^ 16) (-16) (by decide) := rfl

/-- A color that `rgb` makes has the channels of its components, clamped, and the opacity it is
    given. -/
theorem exists_of_readRgb (h : readRgb x y z alpha = .ok (some color)) :
    ∃ r g b, component? 255.0 x = some r ∧ component? 255.0 y = some g ∧
      component? 255.0 z = some b ∧
      color = ⟨clampUnit r.value, clampUnit g.value, clampUnit b.value, alpha⟩ := by
  obtain ⟨r, hr, h⟩ := Option.bind_eq_some_iff.mp (Except.ok.inj h)
  obtain ⟨g, hg, h⟩ := Option.bind_eq_some_iff.mp h
  obtain ⟨b, hb, h⟩ := Option.bind_eq_some_iff.mp h
  split at h
  · exact ⟨r, g, b, hr, hg, hb, (Option.some.inj h).symm⟩
  · exact nomatch h

/-- `rgb` tells by every component. -/
theorem reveals_readRgb : Reveals 0 readRgb := by
  rintro x y z alpha color h ⟨hr', hg', hb', halpha⟩
  obtain ⟨r, g, b, hr, hg, hb, rfl⟩ := exists_of_readRgb h
  refine ⟨halpha, ?_⟩
  simp only [List.drop_zero, List.forall_mem_cons]
  exact ⟨(isNaN_clampUnit_of_component? unpack_byteRange hr).mp hr',
    (isNaN_clampUnit_of_component? unpack_byteRange hg).mp hg',
    (isNaN_clampUnit_of_component? unpack_byteRange hb).mp hb', nofun⟩

/-- `rgb` asks for nothing but components that are numbers. -/
theorem reckons_readRgb : Reckons 0 readRgb := by
  intro x y z alpha color h halpha hparts
  obtain ⟨r, g, b, hr, hg, hb, rfl⟩ := exists_of_readRgb h
  simp only [List.drop_zero, List.forall_mem_cons] at hparts
  obtain ⟨hx, hy, hz, -⟩ := hparts
  exact ⟨(isNaN_clampUnit_of_component? unpack_byteRange hr).mpr hx,
    (isNaN_clampUnit_of_component? unpack_byteRange hg).mpr hy,
    (isNaN_clampUnit_of_component? unpack_byteRange hb).mpr hz, halpha⟩

/-- A color that a function with a hue makes is what its model makes of the other two components,
    clamped. -/
theorem exists_of_readHue (h : readHue toChannels x y z alpha = .ok (some color)) :
    ∃ hue s t, component? 1.0 y = some s ∧ component? 1.0 z = some t ∧
      color = (toChannels hue (clampUnit s.value) (clampUnit t.value)).withAlpha alpha := by
  obtain ⟨_, -, h⟩ := bind_eq_ok_iff.mp h
  obtain ⟨hue, -, h⟩ := Option.bind_eq_some_iff.mp (Except.ok.inj h)
  obtain ⟨s, hs, h⟩ := Option.bind_eq_some_iff.mp h
  obtain ⟨t, ht, h⟩ := Option.bind_eq_some_iff.mp h
  split at h
  · exact ⟨_, s, t, hs, ht, (Option.some.inj h).symm⟩
  · exact nomatch h

/-- Where no channel is a number, neither is a color. -/
theorem Channels.Unknown.not_known {c : Channels} (h : c.Unknown) : ¬ Known (c.withAlpha alpha) :=
  fun hknown => Bool.false_ne_true (hknown.red.symm.trans h.red)

/-- A sound model tells by its last two components. -/
theorem Sound.reveals (h : Sound toChannels) : Reveals 1 (readHue toChannels) := by
  intro x y z alpha color hread hknown
  obtain ⟨hue, s, t, hs, ht, rfl⟩ := exists_of_readHue hread
  have hnumbers : (clampUnit s.value).isNaN = false ∧ (clampUnit t.value).isNaN = false := by
    rw [← Bool.not_eq_true, ← Bool.not_eq_true, ← not_or]
    exact fun hnan => (h.unknown hnan hue).not_known hknown
  refine ⟨hknown.alpha, ?_⟩
  simp only [List.drop_one, List.tail_cons, List.forall_mem_cons]
  exact ⟨(isNaN_clampUnit_of_component? unpack_one hs).mp hnumbers.1,
    (isNaN_clampUnit_of_component? unpack_one ht).mp hnumbers.2, nofun⟩

theorem Sound.reckons (h : Sound toChannels) : Reckons 1 (readHue toChannels) := by
  intro x y z alpha color hread halpha hparts
  obtain ⟨hue, s, t, hs, ht, rfl⟩ := exists_of_readHue hread
  simp only [List.drop_one, List.tail_cons, List.forall_mem_cons] at hparts
  obtain ⟨hy, hz, -⟩ := hparts
  have hs' := mt (isNaN_of_component? unpack_one hs).mp hy
  have ht' := mt (isNaN_of_component? unpack_one ht).mp hz
  obtain ⟨place, hred, hgreen, hblue⟩ := h.bounded (inUnit_clampUnit (Bool.not_eq_true _ ▸ hs'))
    (inUnit_clampUnit (Bool.not_eq_true _ ▸ ht')) hue
  exact ⟨hred.isNaN, hgreen.isNaN, hblue.isNaN, halpha⟩

/-- An opponent that is written undefined is so when it is read. -/
theorem isNaN_of_opponent? {value : Float32} (h : opponent? part = some value)
    (hundefined : IsUndefined part) : value.isNaN = true := by
  obtain ⟨component, hcomponent, rfl⟩ := Option.map_eq_some_iff.mp h
  have hnan := (isNaN_of_component? unpack_one hcomponent).mpr hundefined
  split
  · exact isNaN_sub (.inl (isNaN_mul (.inl (isNaN_add (.inl hnan)))))
  · exact hnan

/-- `oklab` tells by its opponents. -/
theorem reveals_readOklab : Reveals 1 readOklab := by
  intro x y z alpha color h hknown
  obtain ⟨l, -, h⟩ := Option.bind_eq_some_iff.mp (Except.ok.inj h)
  obtain ⟨a, ha, h⟩ := Option.bind_eq_some_iff.mp h
  obtain ⟨b, hb, h⟩ := Option.bind_eq_some_iff.mp h
  obtain rfl := Option.some.inj h
  have hnumbers : ¬ (IsUndefined y ∨ IsUndefined z) := by
    intro hundefined
    have hnan := hundefined.imp (isNaN_of_opponent? ha) (isNaN_of_opponent? hb)
    exact (ofOpponents_unknown hnan l).not_known hknown
  refine ⟨hknown.alpha, ?_⟩
  simp only [List.drop_one, List.tail_cons, List.forall_mem_cons]
  exact ⟨fun hy => hnumbers (.inl hy), fun hz => hnumbers (.inr hz), nofun⟩

/-- `oklch` tells by the opacity alone. -/
theorem reveals_readOklch : Reveals 3 readOklch := by
  intro x y z alpha color h hknown
  obtain ⟨_, -, h⟩ := bind_eq_ok_iff.mp h
  obtain ⟨l, -, h⟩ := Option.bind_eq_some_iff.mp (Except.ok.inj h)
  obtain ⟨c, -, h⟩ := Option.bind_eq_some_iff.mp h
  obtain ⟨hue, -, h⟩ := Option.bind_eq_some_iff.mp h
  obtain rfl := Option.some.inj h
  exact ⟨hknown.alpha, nofun⟩

/-! ## Functions by name -/

/-- How many of its first components a function can take for anything: a hue, and what is brought up to
    zero anyhow.  The last component of `oklch` counts among them, since the cosine of what is not a
    number is no part of the theory. -/
def indifferent (name : String) : Nat :=
  if name = "rgb" ∨ name = "rgba" then 0 else if name = "oklch" then 3 else 1

/-- The functions with opponent axes. -/
def HasOpponents (name : String) : Prop := name = "oklab" ∨ name = "oklch"

theorem indifferent_le (name : String) : indifferent name ≤ 3 := by
  unfold indifferent
  split
  · decide
  · split <;> decide

/-- What the table of functions says about each of them. -/
theorem spec_of_find? {word : String} {names : List String} {failure : ReadError}
    (h : functions.find? (fun entry => entry.1.contains word) = some (names, reader, failure)) :
    Reveals (indifferent word) reader ∧
      (¬ HasOpponents word → Reckons (indifferent word) reader) := by
  have hname : word ∈ names := List.contains_iff_mem.mp (List.find?_some h :)
  have hmem := List.mem_of_find?_eq_some h
  simp only [functions, List.mem_cons, List.not_mem_nil, or_false, Prod.mk.injEq] at hmem
  rcases hmem with ⟨rfl, rfl, -⟩ | ⟨rfl, rfl, -⟩ | ⟨rfl, rfl, -⟩ | ⟨rfl, rfl, -⟩ | ⟨rfl, rfl, -⟩ |
    ⟨rfl, rfl, -⟩
  · have hskipped : ∀ word ∈ ["rgb", "rgba"], indifferent word = 0 := by decide
    rw [hskipped word hname]
    exact ⟨reveals_readRgb, fun _ => reckons_readRgb⟩
  · have hskipped : ∀ word ∈ ["hwb", "hwba"], indifferent word = 1 := by decide
    rw [hskipped word hname]
    exact ⟨sound_ofWhiteness.reveals, fun _ => sound_ofWhiteness.reckons⟩
  · have hskipped : ∀ word ∈ ["hsl", "hsla"], indifferent word = 1 := by decide
    rw [hskipped word hname]
    exact ⟨sound_ofLightness.reveals, fun _ => sound_ofLightness.reckons⟩
  · have hskipped : ∀ word ∈ ["hsv", "hsva"], indifferent word = 1 := by decide
    rw [hskipped word hname]
    exact ⟨sound_ofValue.reveals, fun _ => sound_ofValue.reckons⟩
  · have hskipped : ∀ word ∈ ["oklab"], indifferent word = 1 := by decide
    rw [hskipped word hname]
    exact ⟨reveals_readOklab, fun hnot => absurd (.inl (List.mem_singleton.mp hname)) hnot⟩
  · have hskipped : ∀ word ∈ ["oklch"], indifferent word = 3 := by decide
    rw [hskipped word hname]
    exact ⟨reveals_readOklch, fun hnot => absurd (.inr (List.mem_singleton.mp hname)) hnot⟩

/-- The opacity is a number exactly if what is given for it is one. -/
theorem isNaN_of_alpha? (h : alpha? rest = some alpha) :
    alpha.isNaN = false ↔ ∀ part ∈ rest, ¬ IsUndefined part := by
  match rest, h with
  | [], h =>
      obtain rfl := Option.some.inj h
      exact iff_of_true rfl nofun
  | [text], h =>
      obtain ⟨component, hcomponent, rfl⟩ := Option.map_eq_some_iff.mp h
      rw [List.forall_mem_singleton]
      exact isNaN_clampUnit_of_component? unpack_one hcomponent
  | _ :: _ :: _, h => exact nomatch h

/-- A color that a call makes is made by the function of that name, of three components and what the
    rest says of the opacity. -/
theorem exists_of_apply (h : apply name parts = .ok color) :
    ∃ x y z rest alpha names reader failure, parts = x :: y :: z :: rest ∧ alpha? rest = some alpha ∧
      functions.find? (fun entry => entry.1.contains (String.ofList (Text.lower name))) =
        some (names, reader, failure) ∧
      reader x y z alpha = .ok (some color) := by
  match parts, h with
  | x :: y :: z :: rest, h =>
      rw [apply] at h
      split at h
      · exact nomatch h
      · next alpha halpha =>
          split at h
          · exact nomatch h
          · next names reader failure hfound =>
              split at h
              · next found hread =>
                  obtain rfl := Except.ok.inj h
                  exact ⟨x, y, z, rest, alpha, names, reader, failure, rfl, halpha, hfound, hread⟩
              · exact nomatch h
              · exact nomatch h
  | [], h | [_], h | [_, _], h => exact nomatch h

/-- **WHICH FUNCTIONS GIVE COLORS OF NUMBERS.** -/
theorem known_of_apply (h : apply name parts = .ok color) :
    (Known color → ∀ part ∈ parts.drop (indifferent (String.ofList (Text.lower name))),
      ¬ IsUndefined part) ∧
    (¬ HasOpponents (String.ofList (Text.lower name)) →
      (∀ part ∈ parts.drop (indifferent (String.ofList (Text.lower name))), ¬ IsUndefined part) →
      Known color) := by
  obtain ⟨x, y, z, rest, alpha, names, reader, failure, rfl, halpha, hfound, hread⟩ :=
    exists_of_apply h
  obtain ⟨hreveals, hreckons⟩ := spec_of_find? hfound
  generalize String.ofList (Text.lower name) = word at *
  have hparts : (x :: y :: z :: rest).drop (indifferent word) =
      [x, y, z].drop (indifferent word) ++ rest := by
    show ([x, y, z] ++ rest).drop (indifferent word) = _
    exact List.drop_append_of_le_length (indifferent_le word)
  simp only [hparts, List.forall_mem_append, ← isNaN_of_alpha? halpha]
  refine ⟨fun hknown => (hreveals hread hknown).symm, fun hnot hnumbers => ?_⟩
  exact hreckons hnot hread hnumbers.2 hnumbers.1

/-! ## Bytes -/

/-- Bytes are numbers. -/
theorem known_ofBytes (red green blue alpha : UInt8) : Known (ofBytes red green blue alpha) := by
  have hchannel (byte : UInt8) : (channel byte).isNaN = false :=
    (isNaN_div_of_unpack unpack_byteRange _).trans (isNaN_toFloat32_byte byte)
  exact ⟨hchannel red, hchannel green, hchannel blue, hchannel alpha⟩

/-- Digits make numbers only. -/
theorem known_of_hex? (h : hex? text = some color) : Known color := by
  unfold hex? at h
  split at h
  all_goals
    simp only [Option.bind_eq_bind, Option.bind_eq_some_iff, Option.pure_def, reduceCtorEq,
      Option.some.injEq] at h
  · obtain ⟨_, -, _, -, _, -, rfl⟩ := h
    exact known_ofBytes _ _ _ _
  · obtain ⟨_, -, _, -, _, -, _, -, rfl⟩ := h
    exact known_ofBytes _ _ _ _
  · obtain ⟨_, -, _, -, _, -, rfl⟩ := h
    exact known_ofBytes _ _ _ _
  · obtain ⟨_, -, _, -, _, -, _, -, rfl⟩ := h
    exact known_ofBytes _ _ _ _

/-- The colors with names are made of numbers. -/
theorem known_of_named? {word : String} (h : named? word = some color) : Known color := by
  obtain ⟨⟨red, green, blue⟩, -, rfl⟩ := Option.map_eq_some_iff.mp h
  exact known_ofBytes red green blue 255

/-- A text with a mark is read by its digits. -/
theorem known_of_readHex (h : readHex text = .ok color) : Known color := by
  unfold readHex at h
  split at h
  · next hhex =>
      obtain rfl := Except.ok.inj h
      exact known_of_hex? hhex
  · exact nomatch h

/-- A word is a name or digits. -/
theorem known_of_readWord (h : readWord text = .ok color) : Known color := by
  unfold readWord at h
  split at h
  · next hhex =>
      obtain rfl := Except.ok.inj h
      exact known_of_hex? hhex
  · split at h
    · next hnamed =>
        obtain rfl := Except.ok.inj h
        exact known_of_named? hnamed
    · exact nomatch h

/-! ## Whole texts -/

/-- The name and the components of a text that has the form of a function. -/
def call? (text : List Char) : Option (List Char × List (List Char)) :=
  if Text.lower text = "transparent".toList ∨ text.head? = some '#' then none
  else if text.contains '(' ∧ text.getLast? = some ')' then
    let name := text.takeWhile (· ≠ '(')
    some (Text.trimEnd name, components (text.drop (name.length + 1)).dropLast)
  else none

/-- A text that is a call is read as one, and not as a word. -/
theorem readForm_of_call (h : call? text = some (name, parts)) : readForm text = apply name parts := by
  unfold call? at h
  split at h
  · exact nomatch h
  · next hplain =>
      obtain ⟨hword, hhex⟩ := not_or.mp hplain
      split at h
      · next hform =>
          obtain ⟨rfl, rfl⟩ := Prod.mk.inj (Option.some.inj h)
          unfold readForm
          rw [if_neg hword]
          split
          · exact absurd rfl hhex
          · exact if_pos hform
      · exact nomatch h

/-- Only a call can make what is not a number. -/
theorem known_of_readForm (hcall : call? text = none) (h : readForm text = .ok color) :
    Known color := by
  unfold readForm at h
  split at h
  · obtain rfl := Except.ok.inj h
    exact ⟨rfl, rfl, rfl, rfl⟩
  · next hword =>
      split at h
      · exact known_of_readHex h
      · next hother =>
          have hhex : text.head? ≠ some '#' := by
            intro hhead
            obtain ⟨digits, hdigits⟩ := List.head?_eq_some_iff.mp hhead
            exact hother digits hdigits
          split at h
          · next hform =>
              unfold call? at hcall
              rw [if_neg (not_or.mpr ⟨hword, hhex⟩), if_pos hform] at hcall
              exact nomatch hcall
          · exact known_of_readWord h

/-- A function in which a component that counts is not a number. -/
def Vague (text : String) : Prop :=
  ∃ call ∈ call? (Text.trim text.toList),
    ∃ part ∈ call.2.drop (indifferent (String.ofList (Text.lower call.1))), IsUndefined part

/-- A function with opponent axes. -/
def Opposed (text : String) : Prop :=
  ∃ call ∈ call? (Text.trim text.toList), HasOpponents (String.ofList (Text.lower call.1))

instance (part : List Char) : Decidable (IsUndefined part) :=
  inferInstanceAs (Decidable (_ = _))

instance (name : String) : Decidable (HasOpponents name) :=
  inferInstanceAs (Decidable (_ ∨ _))

instance (text : String) : Decidable (Vague text) :=
  inferInstanceAs (Decidable (∃ call ∈ call? (Text.trim text.toList), _))

instance (text : String) : Decidable (Opposed text) :=
  inferInstanceAs (Decidable (∃ call ∈ call? (Text.trim text.toList), _))

/-! ## The laws -/

section Lawful

variable {c c' : Char} {byte : UInt8}

/-- A digit in base sixteen is read as the byte of its value. -/
theorem hexDigit?_eq (c : Char) : hexDigit? c = (digit? c).map Nat.toUInt8 := by
  revert c
  refine ascii_cases (by decide) fun c h => ?_
  unfold hexDigit?
  rw [digit?_eq_none_of_ge h, if_neg, if_neg, if_neg]
  · rfl
  all_goals exact fun hin => not_le_of_ge h (by decide) hin.2

/-- No digit is a blank. -/
theorem not_isBlank_of_digit (c : Char) : digit? c ≠ none → Text.isBlank c = false := by
  revert c
  exact ascii_cases (by decide) fun c h hdigit => absurd (digit?_eq_none_of_ge h) hdigit

/-- Two digits are a byte. -/
theorem longByte?_eq (h : StandsFor 16 [c, c'] byte.toNat) :
    longByte? c c' = some byte ∧ Text.isBlank c' = false := by
  obtain ⟨high, low, hhigh, hlow, hlt, hlt', hvalue⟩ := h.pair
  have hsign : c ≠ '+' := by
    rintro rfl
    exact nomatch hhigh
  have hbyte : high.toUInt8 * 16 + low.toUInt8 = byte := by
    refine UInt8.toNat.inj ?_
    simp [← hvalue]
    omega
  unfold longByte?
  rw [if_neg hsign, hexDigit?_eq, hexDigit?_eq, hhigh, hlow, ← hbyte]
  exact ⟨rfl, not_isBlank_of_digit c' (by simp [hlow])⟩

/-- Nothing is taken off a text that begins with a mark and ends with no blank. -/
theorem trim_of_mark {digits : List Char} (hlast : Text.isBlank c = false) :
    Text.trim ('#' :: (digits ++ [c])) = '#' :: (digits ++ [c]) := by
  unfold Text.trim Text.trimEnd
  rw [List.dropWhile_cons_of_neg (by decide), ← List.cons_append, List.reverse_append,
    List.reverse_singleton, List.singleton_append, List.dropWhile_cons_of_neg (by simp [hlast])]
  simp

/-- **THE READER THAT COMES WITH THE DOCK IS LAWFUL.** -/
theorem lawful_builtIn : Css.builtIn.Lawful where
  clamp_eq _ := rfl
  parse_hex {r r' g g' b b' red green blue} hred hgreen hblue := by
    obtain ⟨hred, -⟩ := longByte?_eq hred
    obtain ⟨hgreen, -⟩ := longByte?_eq hgreen
    obtain ⟨hblue, hlast⟩ := longByte?_eq hblue
    have htrim : Text.trim ['#', r, r', g, g', b, b'] = ['#', r, r', g, g', b, b'] :=
      @trim_of_mark _ [r, r', g, g', b] hlast
    have hhex : hex? [r, r', g, g', b, b'] = some (ofBytes red green blue 255) := by
      simp [hex?, hred, hgreen, hblue]
    show readForm (Text.trim (String.ofList ['#', r, r', g, g', b, b']).toList) = _
    rw [String.toList_ofList, htrim]
    unfold readForm
    rw [if_neg]
    · show readHex _ = _
      unfold readHex
      rw [hhex]
    · intro h
      have hhead : some ('#'.toLower) = "transparent".toList.head? := congrArg List.head? h
      exact absurd hhead (by decide)

end Lawful

section Read

variable {source : String}

/-- What is read is a form of the trimmed text, clamped. -/
theorem exists_of_read (h : read source = .ok color) :
    ∃ form, readForm (Text.trim source.toList) = .ok form ∧ form.clamp = color :=
  map_eq_ok_iff.mp h

/-- **NO VAGUE TEXT GIVES A COLOR IN RANGE.** -/
theorem not_vague_of_read (h : read source = .ok color) (hrange : InRange color) : ¬ Vague source := by
  obtain ⟨form, hform, rfl⟩ := exists_of_read h
  rintro ⟨⟨name, parts⟩, hcall, part, hpart, hundefined⟩
  rw [readForm_of_call hcall] at hform
  exact (known_of_apply hform).1 ((inRange_clamp_iff form).mp hrange) part hpart hundefined

/-- **EVERY OTHER TEXT THAT IS READ GIVES A COLOR IN RANGE.** -/
theorem inRange_of_read (h : read source = .ok color) (hopposed : ¬ Opposed source)
    (hvague : ¬ Vague source) : InRange color := by
  obtain ⟨form, hform, rfl⟩ := exists_of_read h
  refine (inRange_clamp_iff form).mpr ?_
  cases hcall : call? (Text.trim source.toList) with
  | none => exact known_of_readForm hcall hform
  | some call =>
      obtain ⟨name, parts⟩ := call
      rw [readForm_of_call hcall] at hform
      refine (known_of_apply hform).2 (fun hname => hopposed ⟨_, hcall, hname⟩) ?_
      exact fun part hpart hundefined => hvague ⟨_, hcall, part, hpart, hundefined⟩

-- what is too large on an axis is no number either, though no component is written so
example : Opposed "oklab(0, 3e38, 0)" ∧ ¬ Vague "oklab(0, 3e38, 0)" ∧
    (read "oklab(0, 3e38, 0)").toOption.map (·.red.isNaN) = some true := by
  decide +kernel

end Read

end FisheyeDock.Color
