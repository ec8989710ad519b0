import FisheyeDock.Settings.Decode

/-! # Documents without issues

    Decoding goes on behind an issue, with a value put in where there is none.  So a value alone says
    nothing about what was decoded: a decoder *accepts* only if it comes to its end and no issue has
    been found (`Decoder.Accepts`).

    What is found stays.  So a decoder that is made of others accepts exactly if all of them do
    (`Decoder.accepts_bind`), and the zero that is put in for a number is never accepted for one
    (`accepts_boundedNumber`). -/

namespace FisheyeDock.Settings

open Kdl (Value)

namespace Decoder

variable {β γ ν : Type} {decoder : Decoder β} {f : β → Decoder γ} {next : Decoder γ}
variable {value value' : β} {last : γ} {done : Unit} {issue : Issue} {issues : List Issue}

/-- A decoder comes to its end with a value, and no issue is found. -/
def Accepts (decoder : Decoder β) (value : β) : Prop := decoder = ⟨.ok value, []⟩

/-- A value is accepted where it is the outcome and there is no issue. -/
theorem accepts_iff : decoder.Accepts value ↔ decoder.outcome = .ok value ∧ decoder.issues = [] :=
  mk.injEq .. ▸ Iff.rfl

/-- No decoder accepts two values. -/
theorem Accepts.unique (h : decoder.Accepts value) (h' : decoder.Accepts value') : value = value' :=
  Except.ok.inj ((accepts_iff.mp h).1.symm.trans (accepts_iff.mp h').1)

/-! ## Steps -/

/-- What is there already is accepted as it is. -/
theorem accepts_pure : (pure value : Decoder β).Accepts value' ↔ value = value' := by
  refine ⟨fun h => Except.ok.inj (accepts_iff.mp h).1, ?_⟩
  rintro rfl
  rfl

/-- A result is accepted if it is one. -/
theorem accepts_ofExcept {outcome : Except (Halt Issue) β} :
    (ofExcept outcome).Accepts value ↔ outcome = .ok value :=
  accepts_iff.trans (and_iff_left rfl)

/-- What refuses accepts nothing. -/
theorem not_accepts_refuse : ¬ (refuse issue : Decoder β).Accepts value := nofun

/-- What is noted is not accepted. -/
theorem not_accepts_note : ¬ (note issue).Accepts done := nofun

/-- To note a list of issues is accepted only if there is none. -/
theorem accepts_noteAll : (noteAll issues).Accepts done ↔ issues = [] :=
  accepts_iff.trans (and_iff_right rfl)

/-- Two decoders one after the other accept exactly if both do: the second cannot make up for what was
    found by the first. -/
theorem accepts_bind :
    (decoder >>= f).Accepts last ↔ ∃ value, decoder.Accepts value ∧ (f value).Accepts last := by
  obtain ⟨halt | value, issues⟩ := decoder
  · refine iff_of_false (fun h => nomatch (accepts_iff.mp h).1) ?_
    rintro ⟨value, h, -⟩
    exact nomatch (accepts_iff.mp h).1
  · have hbind : ((⟨.ok value, issues⟩ : Decoder β) >>= f).Accepts last ↔
        (f value).outcome = .ok last ∧ issues ++ (f value).issues = [] := accepts_iff
    rw [hbind, List.append_eq_nil_iff]
    constructor
    · rintro ⟨hlast, rfl, hnone⟩
      exact ⟨value, rfl, accepts_iff.mpr ⟨hlast, hnone⟩⟩
    · rintro ⟨value', hvalue, hlast⟩
      obtain ⟨hsame, rfl⟩ := accepts_iff.mp hvalue
      obtain rfl := Except.ok.inj hsame
      exact ⟨(accepts_iff.mp hlast).1, rfl, (accepts_iff.mp hlast).2⟩

/-- What is mapped is accepted before. -/
theorem accepts_map {f : β → γ} :
    (f <$> decoder).Accepts last ↔ ∃ value, decoder.Accepts value ∧ f value = last := by
  refine (accepts_bind (f := fun value => pure (f value))).trans ?_
  simp only [accepts_pure]

/-- Nodes are accepted one after the other. -/
theorem accepts_foldlM_cons {step : β → ν → Decoder β} {node : ν} {nodes : List ν} {first last : β} :
    ((node :: nodes).foldlM step first).Accepts last ↔
      ∃ next, (step first node).Accepts next ∧ (nodes.foldlM step next).Accepts last := by
  rw [List.foldlM_cons, accepts_bind]

/-! ## Checks on the way -/

section Checks

variable {c : Prop} [Decidable c]

/-- What is noted under a condition is accepted unless that holds. -/
theorem accepts_unless_note :
    (if c then note issue >>= fun _ => next else next).Accepts last ↔ ¬ c ∧ next.Accepts last := by
  split
  · next hc =>
      rw [accepts_bind]
      exact iff_of_false (fun ⟨_, hnote, _⟩ => not_accepts_note hnote) fun h => h.1 hc
  · next hc => exact (and_iff_right hc).symm

theorem accepts_unless_refuse :
    (if c then (refuse issue : Decoder Unit) >>= fun _ => next else next).Accepts last ↔
      ¬ c ∧ next.Accepts last := by
  split
  · next hc => exact iff_of_false (by rw [accepts_bind]; exact nofun) fun h => h.1 hc
  · next hc => exact (and_iff_right hc).symm

/-- A value that is put in behind an issue is not accepted. -/
theorem not_accepts_note_pure : ¬ (note issue >>= fun _ => pure value : Decoder β).Accepts value' := by
  rw [accepts_bind]
  exact fun ⟨_, hnote, _⟩ => not_accepts_note hnote

end Checks

end Decoder

open Decoder

/-- **ZERO IS PUT IN WHERE THERE IS NO NUMBER, BUT IT IS NEVER ACCEPTED FOR ONE.** -/
theorem accepts_boundedNumber {library : Library} {highest : Nat} {value : Value} {number : Float} :
    (library.boundedNumber highest value).Accepts number ↔
      value.typeName = none ∧ library.numberUpTo highest value.literal = .ok number := by
  unfold Library.boundedNumber
  cases library.numberUpTo highest value.literal with
  | ok found =>
      refine accepts_unless_note.trans (and_congr Option.not_isSome_iff_eq_none ?_)
      exact accepts_pure.trans ⟨congrArg _, Except.ok.inj⟩
  | error issue =>
      refine accepts_unless_note.trans (and_congr Option.not_isSome_iff_eq_none ?_)
      exact iff_of_false not_accepts_note_pure nofun

end FisheyeDock.Settings
