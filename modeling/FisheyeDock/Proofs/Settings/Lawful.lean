import FisheyeDock.Proofs.Decimal.Nearest
import FisheyeDock.Proofs.Decimal.Spelling
import FisheyeDock.Proofs.Settings.Acceptance
import FisheyeDock.Settings.Embedded

/-! # What a library is relied on for

    Whatever library decodes a document, this is what it has to do (`Library.Lawful`): an issue that is
    noted makes decoding fail, digits become the number that they stand for or an issue, decimal numbers
    become the nearest doubles, and a record is decoded exactly if its nodes *read* as its fields
    (`Declaration.Reads`): each node has the name of a field, and each field holds what the only node
    of its name says, or the standard if there is none. -/

namespace FisheyeDock.Settings

open Kdl (Node Value Literal Radix)
open Decoder

/-! ## What nodes say -/

/-- The nodes of a name. -/
def named (name : String) (nodes : List Node) : List Node := nodes.filter (·.name = name)

/-- A node has no part but its name. -/
structure Alone (node : Node) : Prop where
  arguments : node.arguments = []
  properties : node.properties = []
  children : node.children = []

/-- A node gives one value and nothing else. -/
structure Gives (node : Node) (value : Value) : Prop where
  arguments : node.arguments = [value]
  properties : node.properties = []
  children : node.children = []

/-- A node has no part but children. -/
structure Groups (node : Node) : Prop where
  untyped : node.typeName = none
  arguments : node.arguments = []
  properties : node.properties = []

/-- A value stands for a byte, whose type may be named. -/
structure IsByte (value : Value) (byte : UInt8) : Prop where
  typeName : value.typeName = none ∨ value.typeName = some "u8"
  literal : ∃ radix digits, value.literal = .integer false radix digits ∧
    StandsFor radix.base digits byte.toNat

namespace Attribute

variable {β : Type}

/-- What a node says that a field holds. -/
def Says : {β : Type} → Attribute β → Node → β → Prop
  | _, flag, given, on => Alone given ∧ on = true
  | _, argument decode _, given, content => ∃ value, Gives given value ∧ (decode value).Accepts content
  | _, text read _, given, content =>
    ∃ word, Gives given ⟨none, .string word⟩ ∧ read word = .ok content
  | _, .node decode _, given, content => (decode given).Accepts content

/-- What a field holds by the nodes of its name: what the only one says, or the standard if there is
    none. -/
inductive Holds (a : Attribute β) : List Node → β → Prop where
  | standard : Holds a [] a.standard
  | said {node : Node} {content : β} : a.Says node content → Holds a [node] content

end Attribute

/-- Nodes say what the fields of a record hold. -/
structure Declaration.Reads {ρ : Type} (declaration : Declaration ρ) (nodes : List Node)
    (contents : (field : declaration.Field) → declaration.Content field) : Prop where
  /-- Every node has the name of a field. -/
  names : ∀ node ∈ nodes, ∃ field, node.name = declaration.name field
  holds : ∀ field, (declaration.attributeOf field).Holds (named (declaration.name field) nodes)
    (contents field)

/-! ## Laws -/

/-- A library does what its documentation says. -/
structure Library.Lawful (library : Library) : Prop where
  /-- Decoding has a value only if no issue has been noted. -/
  result_eq_ok_iff : ∀ {β : Type} {decoder : Decoder β} {value : β},
    library.result decoder = .ok value ↔ decoder.Accepts value
  /-- Digits become the number that they stand for with the sign, if it has 32 bits. -/
  integer32_eq_ok_iff : ∀ {negative : Bool} {radix : Radix} {digits : List Char} {n : ℤ},
    library.integer32 negative radix digits = .ok n ↔
      (∃ m, StandsFor radix.base digits m ∧ wholeOf negative m = n) ∧ -2 ^ 31 ≤ n ∧ n < 2 ^ 31
  /-- What spells a decimal number becomes the nearest double. -/
  float_of_spells : ∀ {spelling : List Char} {d : Decimal}, Decimal.Spells spelling d →
    ∃ x, library.float spelling = .ok x ∧ Double.Nearest d.sign d.magnitude x
  /-- Nothing else becomes a double that is finite. -/
  spells_of_float : ∀ {spelling : List Char} {x : Float}, library.float spelling = .ok x →
    x.isFinite = true → ∃ d, Decimal.Spells spelling d
  /-- A byte is taken with its type named or without. -/
  accepts_byte : ∀ {value : Value} {byte : UInt8},
    (library.byte value).Accepts byte ↔ IsByte value byte
  /-- A record is decoded exactly from nodes that say what its fields hold. -/
  accepts_children : ∀ {ρ : Type} {declaration : Declaration ρ} {nodes : List Node} {record : ρ},
    (library.children declaration nodes).Accepts record ↔
      ∃ contents, declaration.Reads nodes contents ∧ declaration.make contents = record
  /-- A node around them has no other part. -/
  accepts_node : ∀ {ρ : Type} {declaration : Declaration ρ} {node : Node} {record : ρ},
    (library.node declaration node).Accepts record ↔ Groups node ∧
      ∃ contents, declaration.Reads node.children contents ∧ declaration.make contents = record

/-! ## Nodes by name -/

section Named

variable {name : String} {node node' : Node} {nodes nodes' before after : List Node}

theorem named_cons_of_eq (h : node.name = name) :
    named name (node :: nodes) = node :: named name nodes :=
  List.filter_cons_of_pos (decide_eq_true h)

theorem named_cons_of_ne (h : node.name ≠ name) : named name (node :: nodes) = named name nodes :=
  List.filter_cons_of_neg (by simpa using h)

/-- Nodes are named in their order. -/
theorem named_append : named name (before ++ after) = named name before ++ named name after :=
  List.filter_append _ _

theorem named_perm (h : nodes.Perm nodes') : (named name nodes).Perm (named name nodes') :=
  h.filter _

/-- A node among others is the only one if the others are none. -/
theorem eq_nil_of_append_cons (h : before ++ node :: after = [node']) :
    before = [] ∧ node = node' ∧ after = [] := by
  cases before with
  | nil => exact ⟨rfl, List.cons_eq_cons.mp h⟩
  | cons first before => exact absurd (congrArg List.length h) (by simp)

/-- A node gives one value only. -/
theorem eq_of_gives {value value' : Value} (h : Gives node value) (h' : Gives node value') :
    value = value' :=
  (List.cons_eq_cons.mp (h.arguments.symm.trans h'.arguments)).1

/-- No value stands for two bytes. -/
theorem IsByte.unique {value : Value} {byte byte' : UInt8} (h : IsByte value byte)
    (h' : IsByte value byte') : byte = byte' := by
  obtain ⟨radix, digits, hliteral, hdigits⟩ := h.literal
  obtain ⟨radix', digits', hliteral', hdigits'⟩ := h'.literal
  obtain ⟨-, rfl, rfl⟩ := Literal.integer.inj (hliteral.symm.trans hliteral')
  exact UInt8.toNat.inj (hdigits.unique hdigits')

end Named

/-! ## What fields hold -/

namespace Attribute

variable {β : Type} {a : Attribute β} {node : Node} {nodes nodes' : List Node}
variable {content content' : β}

theorem Says.unique (h : a.Says node content) (h' : a.Says node content') :
    content = content' := by
  cases a with
  | flag => exact h.2.trans h'.2.symm
  | argument decode standard =>
      obtain ⟨value, hgives, hvalue⟩ := h
      obtain ⟨value', hgives', hvalue'⟩ := h'
      obtain rfl := eq_of_gives hgives hgives'
      exact hvalue.unique hvalue'
  | text read standard =>
      obtain ⟨word, hgives, hword⟩ := h
      obtain ⟨word', hgives', hword'⟩ := h'
      obtain ⟨-, hsame⟩ := Value.mk.inj (eq_of_gives hgives hgives')
      obtain rfl := Literal.string.inj hsame
      exact Except.ok.inj (hword.symm.trans hword')
  | node decode standard => exact Accepts.unique h h'

/-- Two nodes are one too many, and one has no order. -/
theorem Holds.perm (h : a.Holds nodes content) (hperm : nodes.Perm nodes') :
    a.Holds nodes' content := by
  cases h with
  | standard => exact hperm.nil_eq ▸ .standard
  | said hsaid => exact (List.singleton_perm.mp hperm) ▸ .said hsaid

/-- Without a node there is the standard. -/
theorem Holds.eq_standard (h : a.Holds [] content) : content = a.standard := by
  cases h
  rfl

end Attribute

/-! ## Records -/

namespace Declaration

variable {ρ : Type} {declaration : Declaration ρ} {nodes nodes' before after : List Node}
variable {node : Node}
variable {contents contents' : (field : declaration.Field) → declaration.Content field}

/-- **NODES READ THE SAME IN ANY ORDER.** -/
theorem Reads.perm (h : declaration.Reads nodes contents) (hperm : nodes.Perm nodes') :
    declaration.Reads nodes' contents where
  names node hnode := h.names node (hperm.mem_iff.mpr hnode)
  holds field := (h.holds field).perm (named_perm hperm)

/-- Without nodes everything is standard. -/
theorem reads_nil : declaration.Reads [] contents ↔
    contents = fun field => (declaration.attributeOf field).standard := by
  constructor
  · intro h
    exact funext fun field => (h.holds field).eq_standard
  · rintro rfl
    exact ⟨nofun, fun field => .standard⟩

end Declaration

/-! ## Documents -/

theorem exists_of_isOk {ε β : Type} {result : Except ε β} (h : result.isOk = true) :
    ∃ value, result = .ok value := by
  cases result with
  | error => exact nomatch h
  | ok value => exact ⟨value, rfl⟩

section Documents

variable {library : Library} {css : Color.Css} {text : String} {nodes : List Node}
variable {settings : Settings Float}

/-- A document is decoded to the record of what its fields read. -/
theorem Library.Lawful.ofNodes_eq_ok_iff (lawful : library.Lawful) :
    library.ofNodes css nodes = .ok settings ↔
      ∃ contents, (library.document css).Reads nodes contents ∧
        (library.document css).make contents = settings :=
  lawful.result_eq_ok_iff.trans lawful.accepts_children

/-- A text has settings exactly if it is a document and that has them. -/
theorem parse_eq_ok_iff : parse text library css = .ok settings ↔
    ∃ nodes, library.parse text = some nodes ∧ library.ofNodes css nodes = .ok settings := by
  unfold parse
  cases library.parse text with
  | none => exact iff_of_false nofun nofun
  | some nodes =>
      dsimp only
      cases hnodes : library.ofNodes css nodes with
      | error halt =>
          refine iff_of_false nofun ?_
          rintro ⟨_, ⟨⟩, h⟩
          exact nomatch hnodes.symm.trans h
      | ok found =>
          constructor
          · intro h
            exact ⟨nodes, rfl, Except.ok.inj h ▸ hnodes⟩
          · rintro ⟨_, ⟨⟩, h⟩
            exact congrArg Except.ok (Except.ok.inj (hnodes.symm.trans h))

/-- A text whose nodes are known has the settings of these. -/
theorem parse_of_nodes (h : library.parse text = some nodes) :
    parse text library css = .ok settings ↔ library.ofNodes css nodes = .ok settings := by
  rw [parse_eq_ok_iff, h]
  simp

end Documents

end FisheyeDock.Settings
