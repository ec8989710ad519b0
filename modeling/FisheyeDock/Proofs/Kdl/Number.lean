import FisheyeDock.Proofs.Decimal.Spelling

/-! # Numbers as they are written

    A whole number is written in base ten, or in base two, eight or sixteen behind a zero and a letter,
    with separators behind its first digit.  A decimal number has a point or an exponent besides.  Both
    are read as what is written, without separators (`run_literal_of_spells`). -/

namespace FisheyeDock.Kdl

open Reader

/-! ## Readers in order -/

namespace Reader

variable {β γ : Type} {reader other : Reader β} {f : β → Reader γ} {text rest : List Char} {value : β}

theorem bind_eq (h : reader text = some (value, rest)) : (reader >>= f) text = f value rest := by
  show (reader text).bind _ = _
  rw [h]
  rfl

theorem bind_eq_none (h : reader text = none) : (reader >>= f) text = none := by
  show (reader text).bind _ = _
  rw [h]
  rfl

theorem map_eq_none {f : β → γ} (h : reader text = none) : (f <$> reader) text = none := by
  show (reader text).bind _ = _
  rw [h]
  rfl

theorem optional_eq_none (h : reader text = none) : (optional reader) text = some (none, text) := by
  show ((reader text).bind _).orElse _ = _
  rw [h]
  rfl

theorem optional_eq_some (h : reader text = some (value, rest)) :
    (optional reader) text = some (some value, rest) := by
  show ((reader text).bind _).orElse _ = _
  rw [h]
  rfl

theorem orElse_eq (h : reader text = some (value, rest)) :
    (reader <|> other) text = some (value, rest) := by
  show (reader text).orElse _ = _
  rw [h]
  rfl

theorem orElse_of_none (h : reader text = none) : (reader <|> other) text = other text := by
  show (reader text).orElse _ = _
  rw [h]
  rfl

theorem run_eq_some (h : reader text = some (value, [])) : reader.run text = some value := by
  unfold Reader.run
  show ((reader >>= fun value => atEnd >>= fun _ => pure value) text).map Prod.fst = some value
  rw [bind_eq h]
  rfl

theorem satisfy_eq {accepts : Char → Bool} {c : Char} (h : accepts c = true) :
    satisfy accepts (c :: text) = some (c, text) := if_pos h

theorem satisfy_eq_none {accepts : Char → Bool} {c : Char} (h : accepts c = false) :
    satisfy accepts (c :: text) = none := if_neg (Bool.eq_false_iff.mp h)

/-- A word is not read where another character stands first. -/
theorem exactly_eq_none {c c' : Char} {word : List Char} (h : c' ≠ c) :
    exactly (c' :: word) (c :: text) = none := by
  unfold exactly
  rw [List.isPrefixOf_cons_cons, beq_false_of_ne h, Bool.false_and]
  rfl

end Reader

/-! ## Numbers -/

/-- Digits of a base, with separators behind the first one. -/
structure AreDigits (base : Nat) (first : Char) (others : List Char) : Prop where
  first : isDigitOf base first = true
  others : ∀ c ∈ others, (c == '_' || isDigitOf base c) = true

/-- A point with digits behind it, or nothing at all. -/
inductive IsFraction : List Char → Prop where
  | none : IsFraction []
  | point {first : Char} {others : List Char} :
      AreDigits 10 first others → IsFraction ('.' :: first :: others)

/-- A mark with a sign and digits behind it, which may be missing, or nothing at all. -/
inductive IsExponent : List Char → Prop where
  | none : IsExponent []
  | marked {mark : Char} {sign digits : List Char} {negative : Bool} :
      mark = 'e' ∨ mark = 'E' → IsSign sign negative →
      (∀ c ∈ digits, (c == '_' || isDigitOf 10 c) = true) → IsExponent (mark :: (sign ++ digits))

/-- The sign that is kept of a decimal number. -/
def minus (negative : Bool) : List Char := if negative then ['-'] else []

/-- The spellings of a number, and what is read of them. -/
inductive Spells : List Char → Literal → Prop where
  | plain {sign : List Char} {negative : Bool} {first : Char} {others : List Char} :
      IsSign sign negative → AreDigits 10 first others →
      Spells (sign ++ first :: others)
        (.integer negative .decimal (withoutSeparators (first :: others)))
  | based {sign : List Char} {negative : Bool} {letter : Char} {radix : Radix} {first : Char}
      {others : List Char} : IsSign sign negative → bases.lookup letter = some radix →
      AreDigits radix.base first others →
      Spells (sign ++ '0' :: letter :: first :: others)
        (.integer negative radix (withoutSeparators (first :: others)))
  | decimal {sign fraction exponent : List Char} {negative : Bool} {first : Char}
      {others : List Char} : IsSign sign negative → AreDigits 10 first others →
      IsFraction fraction → IsExponent exponent → fraction ++ exponent ≠ [] →
      Spells (sign ++ first :: (others ++ (fraction ++ exponent)))
        (.decimal (minus negative ++ withoutSeparators (first :: others ++ fraction ++ exponent)))

/-- The characters with which numbers begin. -/
def BeginsNumber (c : Char) : Prop := c = '+' ∨ c = '-' ∨ isDigitOf 10 c = true

instance : DecidablePred BeginsNumber := fun c =>
  inferInstanceAs (Decidable (c = '+' ∨ c = '-' ∨ isDigitOf 10 c = true))

variable {c first : Char} {sign text rest others fraction exponent : List Char} {base : Nat}
variable {negative : Bool}

/-- What begins a number begins nothing else. -/
theorem BeginsNumber.ne (h : BeginsNumber c) (c' : Char) (hc' : ¬ BeginsNumber c') : c' ≠ c := by
  rintro rfl
  exact hc' h

/-- No number is read as a string. -/
theorem string_eq_none (h : BeginsNumber c) : string (c :: text) = none := by
  refine (orElse_of_none ?_).trans ?_
  · exact bind_eq_none (satisfy_eq_none (beq_false_of_ne (h.ne 'r' (by decide)).symm))
  · exact bind_eq_none (satisfy_eq_none (beq_false_of_ne (h.ne '"' (by decide)).symm))

theorem keyword_eq_none (h : BeginsNumber c) : keyword (c :: text) = none := by
  have hnull : "null".toList = ['n', 'u', 'l', 'l'] := by decide
  have htrue : "true".toList = ['t', 'r', 'u', 'e'] := by decide
  have hfalse : "false".toList = ['f', 'a', 'l', 's', 'e'] := by decide
  unfold keyword
  rw [hnull, htrue, hfalse]
  refine (orElse_of_none ?_).trans ((orElse_of_none ?_).trans ?_)
  · exact bind_eq_none (exactly_eq_none (h.ne 'n' (by decide)))
  · exact bind_eq_none (exactly_eq_none (h.ne 't' (by decide)))
  · exact bind_eq_none (exactly_eq_none (h.ne 'f' (by decide)))

/-- What begins like a number is no string and no word. -/
theorem literal_eq_number (h : BeginsNumber c) : literal (c :: text) = number (c :: text) :=
  (orElse_of_none (map_eq_none (string_eq_none h))).trans (orElse_of_none (keyword_eq_none h))

/-- A literal with a digit behind its sign is read as a number. -/
theorem literal_of_isSign (hsign : IsSign sign negative) (hc : isDigitOf 10 c = true) :
    literal (sign ++ c :: text) = number (sign ++ c :: text) := by
  cases hsign with
  | none => exact literal_eq_number (.inr (.inr hc))
  | plus => exact literal_eq_number (c := '+') (by decide)
  | minus => exact literal_eq_number (c := '-') (by decide)

/-- The sign of an exponent is read if there is one. -/
theorem optional_sign (h : IsSign sign negative)
    (hrest : ∀ c ∈ rest.head?, (c == '+' || c == '-') = false) :
    ∃ found : Option Char,
      (optional (satisfy fun c => c == '+' || c == '-')) (sign ++ rest) = some (found, rest) ∧
      found.toList = sign ∧ (found == some '-') = negative := by
  cases h with
  | plus => exact ⟨some '+', rfl, rfl, rfl⟩
  | minus => exact ⟨some '-', rfl, rfl, rfl⟩
  | none =>
      refine ⟨none, optional_eq_none ?_, rfl, rfl⟩
      cases rest with
      | nil => rfl
      | cons c rest => exact satisfy_eq_none (hrest c rfl)

/-- No sign is among digits and separators. -/
theorem no_sign_of_digit (h : (c == '_' || isDigitOf 10 c) = true) :
    (c == '+' || c == '-') = false := by
  rw [Bool.eq_false_iff, ne_eq, Bool.or_eq_true, beq_iff_eq, beq_iff_eq]
  rintro (rfl | rfl) <;> exact absurd h (by decide)

/-- A sign is read as far as the first digit. -/
theorem sign_of_isSign (hsign : IsSign sign negative) (hc : isDigitOf 10 c = true) :
    Kdl.sign (sign ++ c :: rest) = some (negative, c :: rest) := by
  have hhead : ∀ c' ∈ (c :: rest).head?, (c' == '+' || c' == '-') = false := by
    rintro c' ⟨⟩
    exact no_sign_of_digit (by rw [hc, Bool.or_true])
  obtain ⟨found, hfound, -, rfl⟩ := optional_sign hsign hhead
  exact bind_eq hfound

/-- What holds of some characters and of the first one behind them holds of the first one of all. -/
theorem head_append {p : Char → Prop} (h : ∀ c ∈ text, p c) (hrest : ∀ c ∈ rest.head?, p c) :
    ∀ c ∈ (text ++ rest).head?, p c := by
  cases text with
  | nil => exact hrest
  | cons first text =>
      rintro c ⟨⟩
      exact h first List.mem_cons_self

/-- What is accepted is read up to what is not. -/
theorem takeWhile_eq {accepts : Char → Bool} (h : ∀ c ∈ text, accepts c = true)
    (hrest : ∀ c ∈ rest.head?, accepts c = false) :
    takeWhile accepts (text ++ rest) = some (text, rest) := by
  unfold takeWhile
  rw [List.takeWhile_append_of_pos h, List.dropWhile_append_of_pos h]
  cases rest with
  | nil => simp
  | cons c rest => simp [hrest c rfl]

/-- At the end of a text all of it is read. -/
theorem takeWhile_all {accepts : Char → Bool} (h : ∀ c ∈ text, accepts c = true) :
    takeWhile accepts text = some (text, []) := by
  have hread : takeWhile accepts (text ++ []) = some (text, []) := takeWhile_eq h nofun
  rwa [List.append_nil] at hread

/-- Digits with separators are read up to what is neither. -/
theorem digits_eq (h : AreDigits base first others)
    (hrest : ∀ c ∈ rest.head?, (c == '_' || isDigitOf base c) = false) :
    digits base (first :: (others ++ rest)) = some (first :: others, rest) :=
  (bind_eq (satisfy_eq h.first)).trans (bind_eq (takeWhile_eq h.others hrest))

/-- Digits at the end of a text are all that is left of it. -/
theorem digits_eq_nil (h : AreDigits base first others) :
    digits base (first :: others) = some (first :: others, []) :=
  (bind_eq (satisfy_eq h.first)).trans (bind_eq (takeWhile_all h.others))

/-! ### Whole numbers -/

/-- A number in base two, eight or sixteen is read with its sign, without separators. -/
theorem basedInteger_eq {letter : Char} {radix : Radix} (hsign : IsSign sign negative)
    (hradix : bases.lookup letter = some radix) (h : AreDigits radix.base first others) :
    basedInteger (sign ++ '0' :: letter :: first :: others) =
      some (.integer negative radix (withoutSeparators (first :: others)), []) := by
  unfold basedInteger
  refine (bind_eq (sign_of_isSign hsign (by decide))).trans ?_
  refine (bind_eq (satisfy_eq (by decide))).trans ((bind_eq (satisfy_eq rfl)).trans ?_)
  rw [hradix]
  exact bind_eq (digits_eq_nil h)

/-- No digit and no separator is the letter of a base. -/
theorem lookup_bases_eq_none (hc : (c == '_' || isDigitOf 10 c) = true) : bases.lookup c = none := by
  have hletters : ∀ entry ∈ bases, (entry.1 == '_' || isDigitOf 10 entry.1) = false := by decide
  refine List.lookup_eq_none_iff.mpr fun entry hentry => bne_iff_ne.mpr ?_
  intro heq
  rw [heq, hletters entry hentry] at hc
  exact nomatch hc

/-- What is behind a zero in base ten is the letter of no base. -/
theorem basedInteger_eq_none (hsign : IsSign sign negative) (hfirst : isDigitOf 10 first = true)
    (hrest : ∀ c ∈ rest.head?, bases.lookup c = none) : basedInteger (sign ++ first :: rest) = none := by
  unfold basedInteger
  refine (bind_eq (sign_of_isSign hsign hfirst)).trans ?_
  by_cases hzero : first = '0'
  · subst hzero
    refine (bind_eq (satisfy_eq (by decide))).trans ?_
    cases rest with
    | nil => rfl
    | cons letter rest =>
        refine (bind_eq (satisfy_eq rfl)).trans ?_
        rw [hrest letter rfl]
        rfl
  · exact bind_eq_none (satisfy_eq_none (beq_false_of_ne hzero))

/-! ### Fractions and exponents -/

/-- What follows a fraction goes on neither with a digit nor with a point. -/
theorem IsExponent.head (h : IsExponent exponent) : ∀ c ∈ exponent.head?,
    c ≠ '.' ∧ (c == '_' || isDigitOf 10 c) = false ∧ bases.lookup c = .none := by
  cases h with
  | none => exact nofun
  | marked hmark =>
      rintro c ⟨⟩
      obtain rfl | rfl := hmark <;> decide

/-- What follows the whole digits does not go on with a digit. -/
theorem IsFraction.head (h : IsFraction fraction) (hexponent : IsExponent exponent) :
    ∀ c ∈ (fraction ++ exponent).head?,
      (c == '_' || isDigitOf 10 c) = false ∧ bases.lookup c = .none := by
  cases h with
  | none => exact fun c hc => (hexponent.head c hc).2
  | point =>
      rintro c ⟨⟩
      decide

/-- A fraction is read if there is one. -/
theorem optional_fraction (h : IsFraction fraction) (hexponent : IsExponent exponent) :
    ∃ found, (optional Kdl.fraction) (fraction ++ exponent) = some (found, exponent) ∧
      found.getD [] = fraction ∧ (found = none → fraction = []) := by
  cases h with
  | none =>
      refine ⟨none, optional_eq_none ?_, rfl, fun _ => rfl⟩
      cases hexponent with
      | none => rfl
      | marked hmark => obtain rfl | rfl := hmark <;> rfl
  | @point first others hdigits =>
      have hread := digits_eq hdigits fun c hc => (hexponent.head c hc).2.1
      refine ⟨some ('.' :: first :: others), optional_eq_some ?_, rfl, nofun⟩
      exact (bind_eq (satisfy_eq (by decide))).trans (bind_eq hread)

theorem optional_exponent (h : IsExponent exponent) :
    ∃ found, (optional Kdl.exponent) exponent = some (found, []) ∧
      found.getD [] = exponent ∧ (found = none → exponent = []) := by
  cases h with
  | none => exact ⟨none, rfl, rfl, fun _ => rfl⟩
  | @marked mark sign digits negative hmark hsign hdigits =>
      refine ⟨some (mark :: (sign ++ digits)), optional_eq_some ?_, rfl, nofun⟩
      have hmark : (mark == 'e' || mark == 'E') = true := by simpa using hmark
      obtain ⟨found, hfound, hsame, -⟩ := optional_sign hsign fun c hc =>
        no_sign_of_digit (hdigits c (List.mem_of_head? hc))
      refine (bind_eq (satisfy_eq hmark)).trans ((bind_eq hfound).trans
        ((bind_eq (takeWhile_all hdigits)).trans ?_))
      rw [hsame]
      rfl

/-- A number with a fraction or an exponent is read as it is written, but for the separators. -/
theorem plainNumber_decimal (hsign : IsSign sign negative) (hdigits : AreDigits 10 first others)
    (hfraction : IsFraction fraction) (hexponent : IsExponent exponent)
    (hne : fraction ++ exponent ≠ []) :
    plainNumber (sign ++ first :: (others ++ (fraction ++ exponent))) =
      some (.decimal (minus negative ++ withoutSeparators (first :: others ++ fraction ++ exponent)),
        []) := by
  obtain ⟨point, hpoint, rfl, hnone⟩ := optional_fraction hfraction hexponent
  obtain ⟨power, hpower, rfl, hnone'⟩ := optional_exponent hexponent
  have hread := digits_eq hdigits fun c hc => (hfraction.head hexponent c hc).1
  refine (bind_eq (sign_of_isSign hsign hdigits.first)).trans ((bind_eq hread).trans ?_)
  refine (bind_eq hpoint).trans ((bind_eq hpower).trans ?_)
  cases point with
  | some point => rfl
  | none =>
      cases power with
      | some power => rfl
      | none => exact absurd rfl hne

/-! ### All numbers -/

/-- **A NUMBER IS READ AS IT IS WRITTEN**, whatever its base. -/
theorem run_literal_of_spells {literal : Literal} (h : Spells text literal) :
    Kdl.literal.run text = some literal := by
  cases h with
  | @plain sign negative first others hsign hdigits =>
      have hnone : basedInteger (sign ++ first :: others) = none :=
        basedInteger_eq_none hsign hdigits.first fun c hc =>
          lookup_bases_eq_none (hdigits.others c (List.mem_of_head? hc))
      have hplain : plainNumber (sign ++ first :: others) =
          some (.integer negative .decimal (withoutSeparators (first :: others)), []) :=
        (bind_eq (sign_of_isSign hsign hdigits.first)).trans (bind_eq (digits_eq_nil hdigits))
      exact run_eq_some ((literal_of_isSign hsign hdigits.first).trans
        ((orElse_of_none hnone).trans hplain))
  | based hsign hradix hdigits =>
      exact run_eq_some ((literal_of_isSign hsign (by decide)).trans
        (orElse_eq (basedInteger_eq hsign hradix hdigits)))
  | decimal hsign hdigits hfraction hexponent hne =>
      have hhead := hfraction.head hexponent
      have hnone := head_append (fun c hc => lookup_bases_eq_none (hdigits.others c hc))
        fun c hc => (hhead c hc).2
      exact run_eq_some ((literal_of_isSign hsign hdigits.first).trans
        ((orElse_of_none (basedInteger_eq_none hsign hdigits.first hnone)).trans
          (plainNumber_decimal hsign hdigits hfraction hexponent hne)))

end FisheyeDock.Kdl
