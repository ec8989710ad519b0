import FisheyeDock.Proofs.Settings.Derive
import FisheyeDock.Proofs.Settings.Fields

/-! # The coefficients of a document

    A document may give each coefficient once, in a node of its own (`Coefficient.given`).  Where it is
    accepted, what it gives is a number in range, and its settings have that number; where it gives none,
    they have the standard one.  Which number it is makes no difference to anything else in a document
    (`Gap.ofNodes_fill`), so that a document which is accepted with some number is accepted exactly with
    those in range (`Coefficient.vetted`). -/

namespace FisheyeDock.Settings

open Kdl (Node Value Literal)

namespace Coefficient

def put {α : Type} (number : α) : Coefficient → Magnification α → Magnification α
  | rise, m => { m with rise := number }
  | magnify, m => { m with magnify := number }
  | spread, m => { m with spread := number }
  | fps, m => { m with fps := number }

/-- What a document gives for a coefficient. -/
def given (c : Coefficient) (nodes : List Node) : List Value :=
  ((Field.coefficient c).naming nodes).flatMap Node.arguments

/-- Coefficients are known by their names. -/
theorem name_injective : Function.Injective name := by
  intro c c' h
  cases c <;> cases c' <;> first | rfl | exact absurd h (by decide)

theorem name_ne_off (c : Coefficient) : c.name ≠ "off" := by
  cases c <;> decide

@[simp] theorem get_put {α : Type} {c : Coefficient} {number : α} {m : Magnification α} :
    c.get (c.put number m) = number := by
  cases c <;> rfl

/-- The number of one coefficient is not that of another. -/
theorem get_put_of_ne {α : Type} {c c' : Coefficient} (h : c' ≠ c) {number : α}
    {m : Magnification α} : c'.get (c.put number m) = c'.get m := by
  cases c <;> cases c' <;> first | rfl | exact absurd rfl h

@[simp] theorem off_put {α : Type} {c : Coefficient} {number : α} {m : Magnification α} :
    (c.put number m).off = m.off := by
  cases c <;> rfl

end Coefficient

/-- A field is that of a coefficient. -/
def Field.IsCoefficient {β : Type} (c : Coefficient) : Field β → Prop
  | coefficient c' => c' = c
  | favoritesOnly | peekHiddenIcons | off _ | color _ | style _ => False

/-- The number of a coefficient is the content of no other field. -/
theorem Field.get_put_of_not {β : Type} (field : Field β) {c : Coefficient} {number : Float}
    {settings : Settings Float} (h : ¬ field.IsCoefficient c) :
    field.get { settings with magnification := c.put number settings.magnification } =
      field.get settings := by
  cases field with
  | favoritesOnly | peekHiddenIcons => rfl
  | off part => obtain _ | _ | _ := part <;> first | exact Coefficient.off_put | rfl
  | color kind | style kind => cases kind <;> rfl
  | coefficient c' => exact Coefficient.get_put_of_ne h

variable {library : Library} {css : Color.Css} {c : Coefficient} {nodes : List Node}
variable {text : String} {literal literal' : Literal} {number : Float} {settings : Settings Float}

/-! ## What is given -/

/-- What a field of a coefficient is settled by is a number in range, or the standard one. -/
theorem given_of_settled {content : Float} (h : (Field.coefficient c).Settled css nodes content) :
    (c.given nodes = [] ∧ content = c.standard) ∨
    ∃ literal, c.given nodes = [⟨none, literal⟩] ∧ InRange c.highest literal content := by
  unfold Coefficient.given
  obtain ⟨hnone, rfl⟩ | ⟨node, hone, literal, hgives, hin⟩ := h
  · rw [hnone]
    exact .inl ⟨rfl, rfl⟩
  · rw [hone, List.flatMap_singleton]
    exact .inr ⟨literal, hgives.arguments, hin⟩

/-- Where a document is accepted, it gives one number at most for a coefficient, and its settings have
    that number or, without one, the standard. -/
theorem Library.Lawful.given_of_ofNodes (lawful : library.Lawful)
    (h : library.ofNodes css nodes = .ok settings) :
    (c.given nodes = [] ∧ c.get settings.magnification = c.standard) ∨
    ∃ literal, c.given nodes = [⟨none, literal⟩] ∧
      InRange c.highest literal (c.get settings.magnification) :=
  given_of_settled ((lawful.ofNodes_iff.mp h).2 (.coefficient c))

/-- Settings that come from a text have their coefficients within bounds. -/
theorem Library.Lawful.liesWithin_of_parse (lawful : library.Lawful)
    (h : Settings.parse text library css = .ok settings) :
    LiesWithin c.highest (c.get settings.magnification) := by
  have hhighest := c.highest_lt
  obtain ⟨nodes, -, hnodes⟩ := parse_eq_ok_iff.mp h
  obtain ⟨-, hstandard⟩ | ⟨literal, -, hin⟩ := lawful.given_of_ofNodes (c := c) hnodes
  · rw [hstandard]
    exact liesWithin_standard c
  · exact hin.liesWithin (by omega)

/-! ## Other numbers -/

/-- A document but for the number that it gives for a coefficient: a literal without a type name, the
    only argument of a node about the magnification. -/
structure Gap (c : Coefficient) where
  before : List Node
  /-- The node around, whose own children are of no account. -/
  group : Node
  group_name : group.name = "magnification"
  first : List Node
  /-- The node that gives the number, whose own arguments are of no account. -/
  single : Node
  single_name : single.name = c.name
  rest : List Node
  after : List Node

namespace Gap

/-- The node that gives the number, with a literal for it. -/
def giving (gap : Gap c) (literal : Literal) : Node :=
  { gap.single with arguments := [⟨none, literal⟩] }

/-- The node around, with a literal for the number. -/
def around (gap : Gap c) (literal : Literal) : Node :=
  { gap.group with children := gap.first ++ gap.giving literal :: gap.rest }

/-- The document with a literal for the number. -/
def fill (gap : Gap c) (literal : Literal) : List Node :=
  gap.before ++ gap.around literal :: gap.after

/-- The document is accepted with some literal for the number. -/
def Valid (library : Library) (css : Color.Css) (gap : Gap c) : Prop :=
  ∃ literal settings, library.ofNodes css (gap.fill literal) = .ok settings

variable {gap : Gap c}

theorem name_giving : (gap.giving literal).name = c.name := gap.single_name

theorem name_around : (gap.around literal).name = "magnification" := gap.group_name

/-! ### Nodes by name -/

/-- The node around the number is one more about the magnification. -/
theorem named_fill : named "magnification" (gap.fill literal) =
    named "magnification" gap.before ++ gap.around literal :: named "magnification" gap.after := by
  rw [fill, named_append, named_cons_of_eq name_around]

theorem named_fill_of_ne {name : String} (h : "magnification" ≠ name) :
    named name (gap.fill literal) = named name gap.before ++ named name gap.after := by
  rw [fill, named_append, named_cons_of_ne (name_around.trans_ne h)]

/-- The number is given among the others in the nodes around. -/
theorem within_fill : within .magnification (gap.fill literal) =
    (within .magnification gap.before ++ gap.first) ++
      gap.giving literal :: (gap.rest ++ within .magnification gap.after) := by
  unfold within
  rw [show Part.magnification.name = "magnification" from rfl, named_fill, List.flatMap_append,
    List.flatMap_cons]
  simp [around]

theorem within_fill_marker (kind : Marker.Kind) : within (.marker kind) (gap.fill literal) =
    within (.marker kind) (gap.before ++ gap.after) := by
  unfold within
  rw [named_fill_of_ne (by cases kind <;> decide), named_append]

/-- The nodes that name a coefficient are one more than without its number. -/
theorem naming_fill : (Field.coefficient c).naming (gap.fill literal) =
    named c.name (within .magnification gap.before ++ gap.first) ++
      gap.giving literal :: named c.name (gap.rest ++ within .magnification gap.after) := by
  show named c.name (within .magnification (gap.fill literal)) = _
  rw [within_fill, named_append, named_cons_of_eq name_giving]

/-- The node that gives it has no other name. -/
theorem named_within_fill {name : String} (h : c.name ≠ name) :
    named name (within .magnification (gap.fill literal)) =
      named name (within .magnification gap.before ++ gap.first) ++
        named name (gap.rest ++ within .magnification gap.after) := by
  rw [within_fill, named_append, named_cons_of_ne (name_giving.trans_ne h)]

/-- No other field is named by it. -/
theorem naming_fill_of_not {β : Type} {field : Field β} (h : ¬ field.IsCoefficient c) :
    field.naming (gap.fill literal') = field.naming (gap.fill literal) := by
  cases field with
  | favoritesOnly | peekHiddenIcons =>
      exact (named_fill_of_ne (by decide)).trans (named_fill_of_ne (by decide)).symm
  | off part =>
      cases part with
      | magnification =>
          exact (named_within_fill c.name_ne_off).trans (named_within_fill c.name_ne_off).symm
      | marker kind =>
          exact congrArg (named _) ((within_fill_marker kind).trans (within_fill_marker kind).symm)
  | color kind | style kind =>
      exact congrArg (named _) ((within_fill_marker kind).trans (within_fill_marker kind).symm)
  | coefficient c' =>
      have hne : c.name ≠ c'.name := Coefficient.name_injective.ne (Ne.symm h)
      exact (named_within_fill hne).trans (named_within_fill hne).symm

/-! ### Another literal -/

/-- A document is formed whatever the number is. -/
theorem formed_fill (h : Formed (gap.fill literal)) : Formed (gap.fill literal') where
  names := by
    have hnames := h.names
    simp only [fill, List.forall_mem_append, List.forall_mem_cons] at hnames ⊢
    exact hnames
  parts part := by
    have hpart := h.parts part
    cases part with
    | marker kind =>
        have hne : "magnification" ≠ (Part.marker kind).name := by cases kind <;> decide
        rw [named_fill_of_ne hne] at hpart ⊢
        exact hpart
    | magnification =>
        change named "magnification" _ = [] ∨ ∃ node, named "magnification" _ = [node] ∧ _ at hpart ⊢
        rw [named_fill] at hpart ⊢
        obtain hnone | ⟨node, hone, hgroups⟩ := hpart
        · exact absurd hnone (by simp)
        · obtain ⟨hbefore, rfl, hafter⟩ := eq_nil_of_append_cons hone
          rw [hbefore, hafter]
          exact .inr ⟨_, rfl, hgroups.untyped, hgroups.arguments, hgroups.properties⟩
  inside part := by
    have hinside := h.inside part
    cases part with
    | marker kind =>
        rw [within_fill_marker] at hinside ⊢
        exact hinside
    | magnification =>
        rw [within_fill] at hinside ⊢
        simp only [List.forall_mem_append, List.forall_mem_cons] at hinside ⊢
        exact hinside

/-- The number is what the coefficient holds then. -/
theorem settled_fill {content : Float}
    (h : (Field.coefficient c).Settled css (gap.fill literal) content)
    (hin : InRange c.highest literal' number) :
    (Field.coefficient c).Settled css (gap.fill literal') number := by
  unfold Field.Settled at h ⊢
  rw [naming_fill] at h ⊢
  obtain ⟨hnone, -⟩ | ⟨node, hone, literal, hgives, -⟩ := h
  · exact absurd hnone (by simp)
  · obtain ⟨hbefore, rfl, hafter⟩ := eq_nil_of_append_cons hone
    rw [hbefore, hafter]
    exact .inr ⟨_, rfl, literal', ⟨rfl, hgives.properties, hgives.children⟩, hin⟩

/-- **ONE NUMBER IS AS GOOD AS ANOTHER**: where a document is accepted, it is so with any number in
    range, and its settings differ by that number alone. -/
theorem ofNodes_fill (lawful : library.Lawful)
    (h : library.ofNodes css (gap.fill literal) = .ok settings)
    (hin : InRange c.highest literal' number) :
    library.ofNodes css (gap.fill literal') =
      .ok { settings with magnification := c.put number settings.magnification } := by
  obtain ⟨hformed, hsettled⟩ := lawful.ofNodes_iff.mp h
  refine lawful.ofNodes_iff.mpr ⟨formed_fill hformed, fun field => ?_⟩
  by_cases hfield : field.IsCoefficient c
  · cases field with
    | favoritesOnly | peekHiddenIcons | off | color | style => exact hfield.elim
    | coefficient c' =>
        obtain rfl : c' = c := hfield
        have hnumber := settled_fill (hsettled (.coefficient c')) hin
        simpa only [Field.get, Coefficient.get_put] using hnumber
  · have hnaming : field.naming (gap.fill literal') = field.naming (gap.fill literal) :=
      naming_fill_of_not hfield
    unfold Field.Settled
    rw [hnaming, field.get_put_of_not hfield]
    exact hsettled field

/-- What is accepted with a literal has the number that the literal stands for, in range. -/
theorem inRange_of_ofNodes (lawful : library.Lawful)
    (h : library.ofNodes css (gap.fill literal) = .ok settings) :
    InRange c.highest literal (c.get settings.magnification) := by
  have hsettled := (lawful.ofNodes_iff.mp h).2 (.coefficient c)
  unfold Field.Settled at hsettled
  rw [naming_fill] at hsettled
  obtain ⟨hnone, -⟩ | ⟨node, hone, literal', hgives, hin⟩ := hsettled
  · exact absurd hnone (by simp)
  · obtain ⟨-, rfl, -⟩ := eq_nil_of_append_cons hone
    obtain ⟨hvalue, -⟩ := List.cons_eq_cons.mp hgives.arguments
    obtain ⟨-, rfl⟩ := Value.mk.inj hvalue
    exact hin

end Gap

/-! ## Texts -/

/-- How the number of a coefficient comes from a text into settings. -/
structure Coefficient.Vetted (library : Library) (css : Color.Css) (c : Coefficient) : Prop where
  /-- Whatever text is accepted, its settings have a number within the bounds. -/
  within : ∀ {text : String} {settings : Settings Float}, parse text library css = .ok settings →
    LiesWithin c.highest (c.get settings.magnification)
  /-- It is the number that the text gives in its only node for it, or the standard one if there is no
  such node.  So zero, which is put in where there is no number, never gets into settings. -/
  given : ∀ {text : String} {settings : Settings Float} {nodes : List Node},
    parse text library css = .ok settings → library.parse text = some nodes →
    (c.given nodes = [] ∧ c.get settings.magnification = c.standard) ∨
    ∃ literal, c.given nodes = [⟨none, literal⟩] ∧
      InRange c.highest literal (c.get settings.magnification)
  /-- A text that would be accepted with some literal for it is accepted exactly if its own literal is a
  whole number in range or a decimal number whose nearest double is. -/
  accepted_iff : ∀ {gap : Gap c} {literal : Literal} {text : String}, gap.Valid library css →
    library.parse text = some (gap.fill literal) →
    ((∃ settings, parse text library css = .ok settings) ↔
      ∃ number, InRange c.highest literal number)
  /-- The settings have that number then. -/
  stored : ∀ {gap : Gap c} {literal : Literal} {text : String} {settings : Settings Float},
    library.parse text = some (gap.fill literal) → parse text library css = .ok settings →
    InRange c.highest literal (c.get settings.magnification)

/-- **SETTINGS ARE IN RANGE, AND EXACTLY NUMBERS IN RANGE ARE ACCEPTED**, whatever lawful library decodes
    them. -/
theorem Coefficient.vetted (lawful : library.Lawful) (css : Color.Css) (c : Coefficient) :
    c.Vetted library css where
  within h := lawful.liesWithin_of_parse h
  given h hnodes := lawful.given_of_ofNodes ((parse_of_nodes hnodes).mp h)
  accepted_iff valid hnodes := by
    simp only [parse_of_nodes hnodes]
    constructor
    · rintro ⟨settings, h⟩
      exact ⟨_, Gap.inRange_of_ofNodes lawful h⟩
    · rintro ⟨number, hin⟩
      obtain ⟨other, settings, hsettings⟩ := valid
      exact ⟨_, Gap.ofNodes_fill lawful hsettings hin⟩
  stored hnodes h := Gap.inRange_of_ofNodes lawful ((parse_of_nodes hnodes).mp h)

/-- A document that gives a rise besides a magnification. -/
def besideMagnify : Gap .rise where
  before := []
  group := ⟨none, "magnification", [], [], []⟩
  group_name := rfl
  first := [⟨none, "magnify", [⟨none, .decimal ['0', '.', '7', '5']⟩], [], []⟩]
  single := ⟨none, "rise", [], [], []⟩
  single_name := rfl
  rest := []
  after := []

/-- The library that comes with the dock takes a rise of one, which may be written in base sixteen, and
    three quarters, and refuses a rise of one and a half. -/
theorem parse_rise :
    (∃ settings, parse "magnification \x7b\n  magnify 0.75\n  rise 0x1\n\x7d\n" = .ok settings ∧
      LiesWithin 1 settings.magnification.rise ∧ settings.magnification.rise = Float.ofInt 1 ∧
      ∃ d : Decimal, d.magnitude = 75 * 10 ^ (-2 : ℤ) ∧
        Double.Nearest .positive d.magnitude settings.magnification.magnify) ∧
    ¬ ∃ settings, parse "magnification \x7b\n  magnify 0.75\n  rise 1.5\n\x7d\n" = .ok settings := by
  have hrise := Coefficient.vetted lawful_builtIn .builtIn .rise
  have hmagnify := Coefficient.vetted lawful_builtIn .builtIn .magnify
  have hvalid : besideMagnify.Valid .builtIn .builtIn :=
    ⟨.integer false .decimal ['0'], exists_of_isOk (by decide +kernel)⟩
  have hnodes : Library.builtIn.parse "magnification \x7b\n  magnify 0.75\n  rise 0x1\n\x7d\n" =
      some (besideMagnify.fill (.integer false .hexadecimal ['1'])) := by decide +kernel
  have hnodes' : Library.builtIn.parse "magnification \x7b\n  magnify 0.75\n  rise 1.5\n\x7d\n" =
      some (besideMagnify.fill (.decimal ['1', '.', '5'])) := by decide +kernel
  have hone : InRange 1 (.integer false .hexadecimal ['1']) (Float.ofInt 1) :=
    .whole (.digit rfl (by decide)) (by decide) (by decide)
  obtain ⟨settings, hsettings⟩ := (hrise.accepted_iff hvalid hnodes).mpr ⟨_, hone⟩
  refine ⟨⟨settings, hsettings, hrise.within hsettings,
    (hrise.stored hnodes hsettings).unique hone, ?_⟩, ?_⟩
  · obtain ⟨hnone, -⟩ | ⟨literal, hgiven, hin⟩ := hmagnify.given hsettings hnodes
    · exact nomatch hnone
    · obtain rfl : Literal.decimal ['0', '.', '7', '5'] = literal := by
        obtain ⟨hvalue, -⟩ := List.cons_eq_cons.mp hgiven
        exact (Value.mk.inj hvalue).2
      cases hin with
      | @decimal _ d x hspells hnearest =>
          have hread : Decimal.Spells ['0', '.', '7', '5'] ⟨false, 75, -2⟩ :=
            Decimal.spells_iff.mpr (by decide +kernel)
          obtain rfl := hspells.unique hread
          exact ⟨_, rfl, hnearest⟩
  · rw [hrise.accepted_iff hvalid hnodes']
    rintro ⟨number, hin⟩
    cases hin with
    | @decimal _ d x hspells hnearest _ hle =>
        have hread : Decimal.Spells ['1', '.', '5'] ⟨false, 15, -1⟩ :=
          Decimal.spells_iff.mpr (by decide +kernel)
        obtain rfl := hspells.unique hread
        obtain rfl := hnearest.unique (Decimal.nearest_toFloat _)
        exact absurd hle (by decide +kernel)

end FisheyeDock.Settings
