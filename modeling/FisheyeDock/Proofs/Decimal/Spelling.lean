import Mathlib.Data.List.Basic
import Mathlib.Data.List.Induction
import Mathlib.Data.List.TakeWhile
import Mathlib.Tactic.Common
import FisheyeDock.Kdl.Lexical
import FisheyeDock.Decimal.Numeral

/-! # How numbers are spelled

    Digits of a base stand for a whole number (`StandsFor`), and a sign, digits with at most one point
    among or around them, and an exponent that may be left out spell a decimal number
    (`Decimal.Spells`).  Both are said without a reader.  What the readers come to is just that
    (`standsFor_iff`, `Decimal.spells_iff`). -/

namespace FisheyeDock

/-! ## Digits -/

/-- The digits of all bases, in the order of their values. -/
def alphabet : List Char :=
  ['0', '1', '2', '3', '4', '5', '6', '7', '8', '9', 'a', 'b', 'c', 'd', 'e', 'f']

/-- The value of a digit of either case. -/
def digit? (c : Char) : Option ℕ := alphabet.idxOf? c.toLower

/-- Digits stand for a number in a base. -/
inductive StandsFor (base : ℕ) : List Char → ℕ → Prop where
  | digit {c : Char} {v : ℕ} : digit? c = some v → v < base → StandsFor base [c] v
  | snoc {digits : List Char} {n : ℕ} {c : Char} {v : ℕ} :
      StandsFor base digits n → digit? c = some v → v < base →
      StandsFor base (digits ++ [c]) (base * n + v)

variable {base n : ℕ} {c : Char} {digits rest : List Char}

/-- What holds of the characters of seven bits and of all beyond them holds of all characters. -/
theorem ascii_cases {p : Char → Prop} (low : ∀ k < 128, p (Char.ofNat k))
    (high : ∀ c : Char, 128 ≤ c.toNat → p c) (c : Char) : p c := by
  rcases Nat.lt_or_ge c.toNat 128 with h | h
  · exact Char.ofNat_toNat c ▸ low c.toNat h
  · exact high c h

/-- No digit is beyond seven bits. -/
theorem digit?_eq_none_of_ge (h : 128 ≤ c.toNat) : digit? c = none := by
  have hlow : ∀ d ∈ alphabet, d.toNat < 128 := by simp [alphabet]
  have hlower : c.toLower = c := by
    refine dif_neg fun hupper => ?_
    have hle : c.toNat ≤ 90 := hupper.2
    omega
  unfold digit?
  rw [hlower, List.idxOf?_eq_none_iff]
  exact fun hmem => absurd (hlow c hmem) h.not_gt

theorem not_le_of_ge {d : Char} (h : 128 ≤ c.toNat) (hd : d.toNat < 128) : ¬ c ≤ d :=
  fun hle => absurd (hd.trans_le h) (Nat.not_lt_of_le hle)

/-- The digits of a base are those whose values are below it. -/
theorem digitValue?_eq (base : ℕ) (c : Char) :
    Kdl.digitValue? base c = (digit? c).filter fun v => decide (v < base) := by
  unfold Kdl.digitValue?
  refine congrArg (Option.filter _) ?_
  revert c
  refine ascii_cases (by decide) fun c h => ?_
  rw [digit?_eq_none_of_ge h, if_neg, if_neg, if_neg] <;>
    exact fun hin => not_le_of_ge h (by decide) hin.2

/-- A digit of a base stands in the alphabet before the base. -/
theorem isDigitOf_iff : Kdl.isDigitOf base c = true ↔ ∃ v, digit? c = some v ∧ v < base := by
  unfold Kdl.isDigitOf
  rw [digitValue?_eq, Option.isSome_iff_exists]
  simp only [Option.filter_eq_some_iff, decide_eq_true_eq]

/-- Digits of a base, of which there is one at least, stand for what is counted from left to right. -/
theorem standsFor_iff : StandsFor base digits n ↔
    digits ≠ [] ∧ digits.all (Kdl.isDigitOf base) = true ∧ Kdl.valueOf base digits = n := by
  have hvalue {c : Char} {v : ℕ} (hc : digit? c = some v) (hv : v < base) :
      Kdl.digitValue? base c = some v := by
    rw [digitValue?_eq, hc, Option.filter_some, if_pos (decide_eq_true hv)]
  constructor
  · intro h
    induction h with
    | @digit c v hc hv =>
        refine ⟨nofun, ?_, ?_⟩
        · simpa using isDigitOf_iff.mpr ⟨v, hc, hv⟩
        · simp [Kdl.valueOf, hvalue hc hv]
    | @snoc digits n c v _ hc hv ih =>
        obtain ⟨-, hall, rfl⟩ := ih
        refine ⟨by simp, ?_, ?_⟩
        · simp [hall, isDigitOf_iff.mpr ⟨v, hc, hv⟩]
        · simp [Kdl.valueOf, hvalue hc hv]
  · rintro ⟨hne, hall, rfl⟩
    induction digits using List.reverseRecOn with
    | nil => exact absurd rfl hne
    | append_singleton digits c ih =>
        rw [List.all_append, Bool.and_eq_true] at hall
        obtain ⟨v, hc, hv⟩ := isDigitOf_iff.mp (by simpa using hall.2)
        have hlast : Kdl.valueOf base (digits ++ [c]) = base * Kdl.valueOf base digits + v := by
          simp [Kdl.valueOf, hvalue hc hv]
        rw [hlast]
        rcases eq_or_ne digits [] with rfl | hdigits
        · simpa [Kdl.valueOf] using StandsFor.digit hc hv
        · exact .snoc (ih hdigits hall.1) hc hv

/-- Digits do not stand for two numbers. -/
theorem StandsFor.unique {n' : ℕ} (h : StandsFor base digits n) (h' : StandsFor base digits n') :
    n = n' :=
  (standsFor_iff.mp h).2.2.symm.trans (standsFor_iff.mp h').2.2

/-- Two digits stand for a number in two halves. -/
theorem StandsFor.pair {c' : Char} (h : StandsFor base [c, c'] n) : ∃ v v', digit? c = some v ∧
    digit? c' = some v' ∧ v < base ∧ v' < base ∧ base * v + v' = n := by
  obtain ⟨-, hall, rfl⟩ := standsFor_iff.mp h
  simp only [List.all_cons, List.all_nil, Bool.and_true, Bool.and_eq_true, isDigitOf_iff] at hall
  obtain ⟨⟨v, hv, hlt⟩, v', hv', hlt'⟩ := hall
  refine ⟨v, v', hv, hv', hlt, hlt', ?_⟩
  have hvalue : StandsFor base ([c] ++ [c']) (base * v + v') := .snoc (.digit hv hlt) hv' hlt'
  exact hvalue.unique h

/-- The value of a whole number with a sign. -/
def wholeOf (negative : Bool) (magnitude : ℕ) : ℤ := if negative then -(magnitude : ℤ) else magnitude

/-- A sign that may be written before a number, and whether it is a minus. -/
inductive IsSign : List Char → Bool → Prop where
  | none : IsSign [] false
  | plus : IsSign ['+'] false
  | minus : IsSign ['-'] true

/-! ## Decimal numbers -/

namespace Decimal

/-- A point with places behind it, or nothing at all. -/
inductive IsFraction : List Char → (places : List Char) → Prop where
  | none : IsFraction [] []
  | point (places : List Char) : IsFraction ('.' :: places) places

/-- A power of ten by which a number is multiplied, or nothing at all. -/
inductive IsExponent : List Char → ℤ → Prop where
  | none : IsExponent [] 0
  | marked {mark : Char} {sign digits : List Char} {negative : Bool} {n : ℕ} :
      mark = 'e' ∨ mark = 'E' → IsSign sign negative → StandsFor 10 digits n →
      IsExponent (mark :: (sign ++ digits)) (wholeOf negative n)

/-- A text spells a decimal number. -/
inductive Spells : List Char → Decimal → Prop where
  | intro {sign whole fraction places exponent : List Char} {negative : Bool} {n : ℕ} {e : ℤ} :
      IsSign sign negative → IsFraction fraction places → StandsFor 10 (whole ++ places) n →
      IsExponent exponent e →
      Spells (sign ++ (whole ++ (fraction ++ exponent))) ⟨negative, n, e - places.length⟩

open Numeral

variable {text sign whole fraction places exponent : List Char} {negative : Bool} {e : ℤ}
variable {d : Decimal}

/-! ### Parts of numerals -/

theorem isDigit_eq_false_of_ge {c : Char} (h : 128 ≤ c.toNat) : c.isDigit = false :=
  Bool.and_eq_false_iff.mpr (.inr (decide_eq_false (not_le_of_ge h (by decide : '9'.toNat < 128))))

/-- In base ten a digit is one of ten characters. -/
theorem digitValue?_ten (c : Char) :
    Kdl.digitValue? 10 c = if c.isDigit then some (c.toNat - '0'.toNat) else none := by
  revert c
  refine ascii_cases (by decide) fun c h => ?_
  rw [digitValue?_eq, digit?_eq_none_of_ge h, isDigit_eq_false_of_ge h]
  rfl

theorem isDigitOf_ten (c : Char) : Kdl.isDigitOf 10 c = c.isDigit := by
  unfold Kdl.isDigitOf
  rw [digitValue?_ten]
  cases c.isDigit <;> rfl

/-- A number in base ten is spelled by its digits. -/
theorem standsFor_ten_iff : StandsFor 10 digits n ↔
    (digits ≠ [] ∧ digits.all Char.isDigit = true) ∧ digitsValue digits = n := by
  have hall : digits.all (Kdl.isDigitOf 10) = digits.all Char.isDigit :=
    congrArg digits.all (funext isDigitOf_ten)
  rw [standsFor_iff, hall, ← and_assoc]
  refine and_congr_right fun h => ?_
  have hvalue : Kdl.valueOf 10 digits = digitsValue digits := by
    refine List.foldl_ext _ _ _ fun value c hc => ?_
    rw [digitValue?_ten, List.all_eq_true.mp h.2 c hc]
    rfl
  rw [hvalue]

/-- What is split off a text is a sign, and the text begins with it. -/
theorem exists_sign (text : List Char) :
    ∃ sign, IsSign sign (splitSign text).1 ∧ sign ++ (splitSign text).2 = text := by
  unfold splitSign
  split
  · exact ⟨_, .minus, rfl⟩
  · exact ⟨_, .plus, rfl⟩
  · exact ⟨_, .none, rfl⟩

/-- A sign is split off where none follows. -/
theorem splitSign_append (h : IsSign sign negative) (hrest : ∀ c ∈ rest.head?, c ≠ '-' ∧ c ≠ '+') :
    splitSign (sign ++ rest) = (negative, rest) := by
  cases h with
  | plus | minus => rfl
  | none =>
      cases rest with
      | nil => rfl
      | cons c rest =>
          obtain ⟨hminus, hplus⟩ := hrest c rfl
          unfold splitSign
          split
          · next heq => exact absurd (List.cons.inj heq).1 hminus
          · next heq => exact absurd (List.cons.inj heq).1 hplus
          · rfl

/-- Digits are split off up to what is no digit. -/
theorem splitDigits_append (h : whole.all Char.isDigit = true)
    (hrest : ∀ c ∈ rest.head?, c.isDigit = false) : splitDigits (whole ++ rest) = (whole, rest) := by
  have hall := List.all_eq_true.mp h
  unfold splitDigits
  rw [List.takeWhile_append_of_pos hall, List.dropWhile_append_of_pos hall]
  cases rest with
  | nil => simp
  | cons c rest => simp [hrest c rfl]

theorem ne_sign_of_isDigit (h : c.isDigit = true) : c ≠ '-' ∧ c ≠ '+' := by
  constructor <;>
  · rintro rfl
    exact absurd h (by decide)

/-- An exponent is read exactly as it is spelled. -/
theorem exponent?_eq_some_iff : exponent? text = some e ↔ IsExponent text e := by
  constructor
  · intro h
    unfold exponent? at h
    split at h
    · obtain rfl := Option.some.inj h
      exact .none
    · next mark rest =>
        split at h
        · next hmark =>
            obtain ⟨sign, hsign, hrest⟩ := exists_sign rest
            split at h
            next negative digits hsplit =>
              rw [hsplit] at hsign hrest
              split at h
              · next hdigits =>
                  obtain rfl := Option.some.inj h
                  exact hrest ▸ .marked hmark hsign (standsFor_ten_iff.mpr ⟨hdigits, rfl⟩)
              · exact nomatch h
        · exact nomatch h
  · intro h
    cases h with
    | none => rfl
    | @marked mark sign digits negative n hmark hsign hdigits =>
        obtain ⟨hten, rfl⟩ := standsFor_ten_iff.mp hdigits
        have hhead : ∀ c ∈ digits.head?, c ≠ '-' ∧ c ≠ '+' := fun c hc =>
          ne_sign_of_isDigit (List.all_eq_true.mp hten.2 c (List.mem_of_head? hc))
        unfold exponent?
        dsimp only
        rw [if_pos hmark, splitSign_append hsign hhead]
        exact if_pos hten

/-- No exponent begins with a digit or a point. -/
theorem IsExponent.head (h : IsExponent exponent e) :
    ∀ c ∈ exponent.head?, c.isDigit = false ∧ c ≠ '.' := by
  cases h with
  | none => exact nofun
  | marked hmark =>
      rintro c ⟨⟩
      obtain rfl | rfl := hmark <;> decide

theorem all_splitDigits (text : List Char) : (splitDigits text).1.all Char.isDigit = true :=
  List.all_takeWhile

/-- What is split off behind the whole digits is a fraction, and the text goes on behind it. -/
theorem exists_fraction (text : List Char) :
    ∃ fraction, IsFraction fraction (splitFraction text).1 ∧
      (splitFraction text).1.all Char.isDigit = true ∧ fraction ++ (splitFraction text).2 = text := by
  unfold splitFraction
  split
  · exact ⟨_, .point _, all_splitDigits _, congrArg _ List.takeWhile_append_dropWhile⟩
  · exact ⟨_, .none, rfl, rfl⟩

/-! ### Whole numerals -/

/-- What is read as a decimal number spells it. -/
theorem spells_of_unsigned? (hsign : IsSign sign negative) (h : unsigned? negative text = some d) :
    Spells (sign ++ text) d := by
  have htext : (splitDigits text).1 ++ (splitDigits text).2 = text := List.takeWhile_append_dropWhile
  obtain ⟨fraction, hfraction, hplaces, hrest⟩ := exists_fraction (splitDigits text).2
  have hall : ((splitDigits text).1 ++ (splitFraction (splitDigits text).2).1).all Char.isDigit =
      true := by
    rw [List.all_append, all_splitDigits, hplaces, Bool.and_self]
  unfold unsigned? at h
  dsimp only at h
  split at h
  · exact nomatch h
  · next hdigits =>
      obtain ⟨e, he, rfl⟩ := Option.map_eq_some_iff.mp h
      have hne := mt List.append_eq_nil_iff.mp hdigits
      have hspells := Spells.intro hsign hfraction (standsFor_ten_iff.mpr ⟨⟨hne, hall⟩, rfl⟩)
        (exponent?_eq_some_iff.mp he)
      rw [hrest, htext] at hspells
      exact hspells

/-- What spells a decimal number is read as such. -/
theorem unsigned?_eq_some (hfraction : IsFraction fraction places)
    (hdigits : StandsFor 10 (whole ++ places) n) (hexponent : IsExponent exponent e) :
    unsigned? negative (whole ++ (fraction ++ exponent)) =
      some ⟨negative, n, e - places.length⟩ := by
  obtain ⟨⟨hne, hall⟩, rfl⟩ := standsFor_ten_iff.mp hdigits
  rw [List.all_append, Bool.and_eq_true] at hall
  have hend := hexponent.head
  have hsplit : splitDigits (whole ++ (fraction ++ exponent)) = (whole, fraction ++ exponent) := by
    refine splitDigits_append hall.1 fun c hc => ?_
    cases hfraction with
    | none => exact (hend c hc).1
    | point =>
        obtain rfl := Option.some.inj hc
        rfl
  have hpoint : splitFraction (fraction ++ exponent) = (places, exponent) := by
    cases hfraction with
    | none =>
        unfold splitFraction
        split
        · next rest heq =>
            have hhead : exponent.head? = some '.' := congrArg List.head? heq
            exact absurd rfl (hend '.' hhead).2
        · rfl
    | point => exact splitDigits_append hall.2 fun c hc => (hend c hc).1
  unfold unsigned?
  rw [hsplit]
  dsimp only
  rw [hpoint]
  dsimp only
  rw [if_neg (mt List.append_eq_nil_iff.mpr hne), exponent?_eq_some_iff.mpr hexponent]
  rfl

/-- What follows the sign of a numeral begins with a digit or with a point. -/
theorem exists_head (hfraction : IsFraction fraction places)
    (hdigits : StandsFor 10 (whole ++ places) n) (exponent : List Char) :
    ∃ c rest, whole ++ (fraction ++ exponent) = c :: rest ∧ (c.isDigit = true ∨ c = '.') := by
  obtain ⟨⟨hne, hall⟩, -⟩ := standsFor_ten_iff.mp hdigits
  cases whole with
  | cons c whole => exact ⟨c, _, rfl, .inl (List.all_eq_true.mp hall c List.mem_cons_self)⟩
  | nil =>
      cases hfraction with
      | none => exact absurd rfl hne
      | point => exact ⟨'.', _, rfl, .inr rfl⟩

/-- A decimal number does not begin like the numerals that are no numbers. -/
theorem toLower_of_head (c : Char) : c.isDigit = true ∨ c = '.' →
    (c ≠ '-' ∧ c ≠ '+') ∧ c.toLower ≠ 'n' ∧ c.toLower ≠ 'i' := by
  revert c
  refine ascii_cases (by decide) fun c hc => ?_
  rintro (h | rfl)
  · exact nomatch h.symm.trans (isDigit_eq_false_of_ge hc)
  · exact absurd hc (by decide)

/-- **WHAT IS READ AS A DECIMAL NUMBER IS WHAT SPELLS IT.** -/
theorem spells_iff : Spells text d ↔ read? text = some (.finite d) := by
  constructor
  · intro h
    cases h with
    | @intro sign whole fraction places exponent negative n e hsign hfraction hdigits hexponent =>
        obtain ⟨c, rest, hbody, hc⟩ := exists_head hfraction hdigits exponent
        have hunsigned : unsigned? negative (whole ++ (fraction ++ exponent)) =
            some ⟨negative, n, e - places.length⟩ := unsigned?_eq_some hfraction hdigits hexponent
        rw [hbody] at hunsigned ⊢
        obtain ⟨hnosign, hn, hi⟩ := toLower_of_head c hc
        have hhead : ∀ c' ∈ (c :: rest).head?, c' ≠ '-' ∧ c' ≠ '+' := by
          rintro c' ⟨⟩
          exact hnosign
        unfold read?
        rw [splitSign_append hsign hhead]
        dsimp only
        rw [List.map_cons, if_neg fun h => hn (List.cons.inj h).1, if_neg, hunsigned]
        · rfl
        · rintro (h | h) <;> exact hi (List.cons.inj h).1
  · intro h
    obtain ⟨sign, hsign, htext⟩ := exists_sign text
    unfold read? at h
    dsimp only at h
    split at h
    · exact nomatch h
    · split at h
      · exact nomatch h
      · obtain ⟨d', hd, heq⟩ := Option.map_eq_some_iff.mp h
        obtain rfl := finite.inj heq
        exact htext ▸ spells_of_unsigned? hsign hd

/-- A text does not spell two numbers. -/
theorem Spells.unique {d' : Decimal} (h : Spells text d) (h' : Spells text d') : d = d' :=
  finite.inj (Option.some.inj ((spells_iff.mp h).symm.trans (spells_iff.mp h')))

end Decimal

end FisheyeDock
