import FisheyeDock.Proofs.Settings.Range

/-! # The fields of settings

    A document names fields of the settings, those of the document itself and those inside of its parts
    (`Field.naming`).  A field is settled by what the only node says that names it, or without one by
    the standard (`Field.Settled`).  Whatever lawful library decodes a document, it has settings exactly
    if it is formed of such nodes, and they are those by which every field is settled
    (`Library.Lawful.ofNodes_iff`). -/

namespace FisheyeDock.Settings

open Kdl (Node Value Literal)
open Decoder

/-- A part of the settings that has a node of its own in a document. -/
inductive Part where
  | magnification
  | marker (kind : Marker.Kind)

/-- A field of the settings, by the type of what it holds. -/
inductive Field : Type → Type where
  | favoritesOnly : Field Bool
  | peekHiddenIcons : Field Bool
  | off (part : Part) : Field Bool
  | coefficient (c : Coefficient) : Field Float
  | color (kind : Marker.Kind) : Field Color
  | style (kind : Marker.Kind) : Field UInt8

namespace Part

def field : Part → DocumentField
  | magnification => .magnification
  | marker kind => .marker kind

/-- The name of the node of a part. -/
def name (part : Part) : String := part.field.name

/-- A node inside of a part has the name of a field there. -/
def Names : Part → Node → Prop
  | magnification, node => ∃ field : MagnificationField, node.name = field.name
  | marker _, node => ∃ field : MarkerField, node.name = field.name

end Part

/-- The nodes inside those of a part. -/
def within (part : Part) (nodes : List Node) : List Node :=
  (named part.name nodes).flatMap Node.children

/-- A document has one node at most for each part, and only nodes of the names of fields. -/
structure Formed (nodes : List Node) : Prop where
  names : ∀ node ∈ nodes, ∃ field : DocumentField, node.name = field.name
  parts : ∀ part : Part, named part.name nodes = [] ∨
    ∃ node, named part.name nodes = [node] ∧ Groups node
  inside : ∀ part : Part, ∀ node ∈ within part nodes, part.Names node

namespace Field

variable {β : Type}

def get : Field β → Settings Float → β
  | favoritesOnly, settings => settings.favoritesOnly
  | peekHiddenIcons, settings => settings.peekHiddenIcons
  | off .magnification, settings => settings.magnification.off
  | off (.marker kind), settings => (marker settings kind).off
  | coefficient c, settings => c.get settings.magnification
  | color kind, settings => (marker settings kind).color
  | style kind, settings => (marker settings kind).style

/-- The nodes of a document that name a field. -/
def naming : Field β → List Node → List Node
  | favoritesOnly, nodes => named "favorites-only" nodes
  | peekHiddenIcons, nodes => named "peek-hidden-icons" nodes
  | off part, nodes => named "off" (within part nodes)
  | coefficient c, nodes => named c.name (within .magnification nodes)
  | color kind, nodes => named "color" (within (.marker kind) nodes)
  | style kind, nodes => named "style" (within (.marker kind) nodes)

/-- What a node that names a field says that it holds: a flag is on, and another field has the number in
    range, the color or the byte that the node gives. -/
def Says (css : Color.Css) : Field β → Node → β → Prop
  | favoritesOnly, node, on | peekHiddenIcons, node, on | off _, node, on => Alone node ∧ on = true
  | coefficient c, node, number =>
    ∃ literal, Gives node ⟨none, literal⟩ ∧ InRange c.highest literal number
  | color _, node, found => ∃ word, Gives node ⟨none, .string word⟩ ∧ Color.ofText css word = .ok found
  | style _, node, byte => ∃ value, Gives node value ∧ IsByte value byte

/-- What a field has to hold after a document: what the only node says that names it, or without one
    what it holds in the standard settings. -/
def Settled (css : Color.Css) (field : Field β) (nodes : List Node) (content : β) : Prop :=
  (field.naming nodes = [] ∧ content = field.get .standard) ∨
  ∃ node, field.naming nodes = [node] ∧ field.Says css node content

end Field

/-! ## Fields settle what they hold -/

section Unique

variable {β : Type} {css : Color.Css} {field : Field β} {node : Node} {nodes : List Node}
variable {content content' : β} {settings settings' : Settings Float}

/-- A node does not say two things. -/
theorem Field.Says.unique (h : field.Says css node content) (h' : field.Says css node content') :
    content = content' := by
  cases field with
  | favoritesOnly | peekHiddenIcons | off => exact h.2.trans h'.2.symm
  | coefficient =>
      obtain ⟨⟨literal, hgives, hnumber⟩, ⟨literal', hgives', hnumber'⟩⟩ := And.intro h h'
      obtain ⟨-, rfl⟩ := Value.mk.inj (eq_of_gives hgives hgives')
      exact hnumber.unique hnumber'
  | color =>
      obtain ⟨⟨word, hgives, hcolor⟩, ⟨word', hgives', hcolor'⟩⟩ := And.intro h h'
      obtain ⟨-, hword⟩ := Value.mk.inj (eq_of_gives hgives hgives')
      obtain rfl := Literal.string.inj hword
      exact Except.ok.inj (hcolor.symm.trans hcolor')
  | style =>
      obtain ⟨⟨value, hgives, hbyte⟩, ⟨value', hgives', hbyte'⟩⟩ := And.intro h h'
      obtain rfl := eq_of_gives hgives hgives'
      exact hbyte.unique hbyte'

/-- A field is settled by one content only. -/
theorem Field.Settled.unique (h : field.Settled css nodes content)
    (h' : field.Settled css nodes content') : content = content' := by
  obtain ⟨hnone, rfl⟩ | ⟨node, hone, hsaid⟩ := h
  · obtain ⟨-, rfl⟩ | ⟨node, hone, -⟩ := h'
    · rfl
    · exact nomatch hnone.symm.trans hone
  · obtain ⟨hnone, -⟩ | ⟨node', hone', hsaid'⟩ := h'
    · exact nomatch hnone.symm.trans hone
    · obtain ⟨rfl, -⟩ := List.cons_eq_cons.mp (hone.symm.trans hone')
      exact hsaid.unique hsaid'

/-- One node at most names a field that is settled. -/
theorem Field.Settled.once (h : field.Settled css nodes content) :
    field.naming nodes = [] ∨ ∃ node, field.naming nodes = [node] := by
  obtain ⟨hnone, -⟩ | ⟨node, hone, -⟩ := h
  · exact .inl hnone
  · exact .inr ⟨node, hone⟩

/-- Settings consist of their fields. -/
theorem ext_fields (h : ∀ {β : Type} (field : Field β), field.get settings = field.get settings') :
    settings = settings' := by
  obtain ⟨⟨off, rise, magnify, spread, fps⟩, ⟨offDot, colorDot, styleDot⟩,
    ⟨offBadge, colorBadge, styleBadge⟩, favoritesOnly, peekHiddenIcons⟩ := settings
  obtain rfl : off = _ := h (.off .magnification)
  obtain rfl : rise = _ := h (.coefficient .rise)
  obtain rfl : magnify = _ := h (.coefficient .magnify)
  obtain rfl : spread = _ := h (.coefficient .spread)
  obtain rfl : fps = _ := h (.coefficient .fps)
  obtain rfl : offDot = _ := h (.off (.marker .dot))
  obtain rfl : colorDot = _ := h (.color .dot)
  obtain rfl : styleDot = _ := h (.style .dot)
  obtain rfl : offBadge = _ := h (.off (.marker .badge))
  obtain rfl : colorBadge = _ := h (.color .badge)
  obtain rfl : styleBadge = _ := h (.style .badge)
  obtain rfl : favoritesOnly = _ := h .favoritesOnly
  obtain rfl : peekHiddenIcons = _ := h .peekHiddenIcons
  rfl

end Unique

/-! ## What nodes say to a library -/

section Attributes

variable {library : Library} {css : Color.Css} {node : Node} {nodes : List Node}

/-- An attribute holds the standard where no node names it, or what the only one says. -/
theorem Attribute.holds_iff {β : Type} {a : Attribute β} {content : β} :
    a.Holds nodes content ↔ (nodes = [] ∧ content = a.standard) ∨
      ∃ node, nodes = [node] ∧ a.Says node content := by
  constructor
  · intro h
    cases h with
    | standard => exact .inl ⟨rfl, rfl⟩
    | said hsaid => exact .inr ⟨_, rfl, hsaid⟩
  · rintro (⟨rfl, rfl⟩ | ⟨node, rfl, hsaid⟩)
    · exact .standard
    · exact .said hsaid

/-- A node says a number of a coefficient if its literal stands for one in range. -/
theorem Library.Lawful.says_number_iff (lawful : library.Lawful) {c : Coefficient} {number : Float} :
    (Attribute.argument (library.boundedNumber c.highest) c.standard).Says node number ↔
      (Field.coefficient c).Says css node number := by
  constructor
  · rintro ⟨⟨typeName, literal⟩, hgives, hnumber⟩
    obtain ⟨rfl, hnumber⟩ := accepts_boundedNumber.mp hnumber
    exact ⟨literal, hgives, (lawful.numberUpTo_eq_ok_iff c.highest_lt).mp hnumber⟩
  · rintro ⟨literal, hgives, hnumber⟩
    exact ⟨_, hgives, accepts_boundedNumber.mpr
      ⟨rfl, (lawful.numberUpTo_eq_ok_iff c.highest_lt).mpr hnumber⟩⟩

/-- A node says a color of a marker if its text is read as one. -/
theorem says_color_iff {kind : Marker.Kind} {standard found : Color} :
    (Attribute.text (colorOf css) standard).Says node found ↔
      (Field.color kind).Says css node found := by
  have hcolor (word : String) : colorOf css word = .ok found ↔ Color.ofText css word = .ok found := by
    unfold colorOf
    cases Color.ofText css word with
    | error halt => exact iff_of_false nofun nofun
    | ok color =>
        exact ⟨fun h => congrArg Except.ok (Except.ok.inj h), fun h => congrArg Except.ok (Except.ok.inj h)⟩
  exact exists_congr fun word => and_congr_right fun _ => hcolor word

/-- A node says a style of a marker if its literal stands for a byte. -/
theorem Library.Lawful.says_byte_iff (lawful : library.Lawful) {kind : Marker.Kind}
    {standard found : UInt8} : (Attribute.argument library.byte standard).Says node found ↔
      (Field.style kind).Says css node found :=
  exists_congr fun _ => and_congr_right fun _ => lawful.accepts_byte

/-- How nodes give a field. -/
def Library.attributeOf (library : Library) (css : Color.Css) : {β : Type} → Field β → Attribute β
  | _, .favoritesOnly | _, .peekHiddenIcons | _, .off _ => .flag
  | _, .coefficient c => .argument (library.boundedNumber c.highest) c.standard
  | _, .color kind => .text (colorOf css) (Settings.marker .standard kind).color
  | _, .style kind => .argument library.byte (Settings.marker .standard kind).style

/-- A field is settled by what a lawful library decodes for it. -/
theorem Library.Lawful.holds_iff_settled (lawful : library.Lawful) {β : Type} {field : Field β}
    {content : β} : (library.attributeOf css field).Holds (field.naming nodes) content ↔
      field.Settled css nodes content := by
  have hstandard : (library.attributeOf css field).standard = field.get .standard := by
    cases field with
    | off part => obtain _ | _ | _ := part <;> rfl
    | favoritesOnly | peekHiddenIcons | coefficient | color | style => rfl
  have hsays (node : Node) :
      (library.attributeOf css field).Says node content ↔ field.Says css node content := by
    cases field with
    | favoritesOnly | peekHiddenIcons | off => exact Iff.rfl
    | coefficient => exact lawful.says_number_iff
    | color => exact says_color_iff
    | style => exact lawful.says_byte_iff
  rw [Attribute.holds_iff, hstandard]
  exact or_congr_right (exists_congr fun node => and_congr_right fun _ => hsays node)

/-- What a part holds is read from the nodes inside, none where there is no node of the part. -/
theorem Library.Lawful.holds_node_iff (lawful : library.Lawful) {ρ : Type}
    {declaration : Declaration ρ} {standard record : ρ}
    (hstandard : declaration.make (fun field => (declaration.attributeOf field).standard) = standard) :
    (Attribute.node (library.node declaration) standard).Holds nodes record ↔
      (nodes = [] ∨ ∃ node, nodes = [node] ∧ Groups node) ∧
      ∃ contents, declaration.Reads (nodes.flatMap Node.children) contents ∧
        declaration.make contents = record := by
  rw [Attribute.holds_iff]
  constructor
  · rintro (⟨rfl, rfl⟩ | ⟨node, rfl, hsaid⟩)
    · exact ⟨.inl rfl, _, Declaration.reads_nil.mpr rfl, hstandard⟩
    · obtain ⟨hgroups, hreads⟩ := lawful.accepts_node.mp hsaid
      rw [List.flatMap_singleton]
      exact ⟨.inr ⟨node, rfl, hgroups⟩, hreads⟩
  · rintro ⟨rfl | ⟨node, rfl, hgroups⟩, hreads⟩
    · obtain ⟨contents, hcontents, rfl⟩ := hreads
      obtain rfl := Declaration.reads_nil.mp hcontents
      exact .inl ⟨rfl, hstandard⟩
    · rw [List.flatMap_singleton] at hreads
      exact .inr ⟨node, rfl, lawful.accepts_node.mpr ⟨hgroups, hreads⟩⟩

end Attributes

/-! ## Parts -/

section Parts

variable {library : Library} {css : Color.Css} {nodes : List Node}

/-- What the fields of a magnification hold. -/
def MagnificationField.contentOf (m : Magnification Float) :
    (field : MagnificationField) → field.Content
  | .off => m.off
  | .coefficient c => c.get m

/-- What the fields of a kind of marker hold. -/
def MarkerField.contentOf (m : MarkerSettings) : (field : MarkerField) → field.Content
  | .off => m.off
  | .color => m.color
  | .style => m.style

/-- The fields of the magnification are settled by the nodes inside. -/
theorem reads_magnification_iff {m : Magnification Float} :
    (∃ contents, library.magnification.Reads nodes contents ∧ library.magnification.make contents = m) ↔
      (∀ node ∈ nodes, Part.magnification.Names node) ∧
      Attribute.flag.Holds (named "off" nodes) m.off ∧
      ∀ c : Coefficient, (library.attributeOf css (.coefficient c)).Holds (named c.name nodes)
        (c.get m) := by
  constructor
  · rintro ⟨contents, hreads, rfl⟩
    refine ⟨hreads.names, hreads.holds .off, fun c => ?_⟩
    have hholds := hreads.holds (.coefficient c)
    cases c <;> exact hholds
  · rintro ⟨hnames, hoff, hcoefficients⟩
    refine ⟨MagnificationField.contentOf m, ⟨hnames, fun field => ?_⟩, rfl⟩
    cases field with
    | off => exact hoff
    | coefficient c => exact hcoefficients c

/-- The fields of a kind of marker are settled by the nodes inside. -/
theorem reads_marker_iff {kind : Marker.Kind} {m : MarkerSettings} :
    (∃ contents, (library.marker css kind).Reads nodes contents ∧
      (library.marker css kind).make contents = m) ↔
      (∀ node ∈ nodes, (Part.marker kind).Names node) ∧
      Attribute.flag.Holds (named "off" nodes) m.off ∧
      (library.attributeOf css (.color kind)).Holds (named "color" nodes) m.color ∧
      (library.attributeOf css (.style kind)).Holds (named "style" nodes) m.style := by
  constructor
  · rintro ⟨contents, hreads, rfl⟩
    exact ⟨hreads.names, hreads.holds .off, hreads.holds .color, hreads.holds .style⟩
  · rintro ⟨hnames, hoff, hcolor, hstyle⟩
    refine ⟨MarkerField.contentOf m, ⟨hnames, fun field => ?_⟩, rfl⟩
    cases field with
    | off => exact hoff
    | color => exact hcolor
    | style => exact hstyle

end Parts

/-! ## Documents -/

section Documents

variable {library : Library} {css : Color.Css} {nodes : List Node} {settings : Settings Float}

/-- What the fields of a document hold. -/
def DocumentField.contentOf (settings : Settings Float) : (field : DocumentField) → field.Content
  | .magnification => settings.magnification
  | .marker kind => Settings.marker settings kind
  | .favoritesOnly => settings.favoritesOnly
  | .peekHiddenIcons => settings.peekHiddenIcons

/-- How the document has to read, part by part. -/
theorem Library.Lawful.ofNodes_iff_parts (lawful : library.Lawful) :
    library.ofNodes css nodes = .ok settings ↔
      (∀ node ∈ nodes, ∃ field : DocumentField, node.name = field.name) ∧
      Attribute.flag.Holds (named "favorites-only" nodes) settings.favoritesOnly ∧
      Attribute.flag.Holds (named "peek-hidden-icons" nodes) settings.peekHiddenIcons ∧
      (Attribute.node (library.node library.magnification)
        (Settings.standard : Settings Float).magnification).Holds
          (named Part.magnification.name nodes) settings.magnification ∧
      ∀ kind, (Attribute.node (library.node (library.marker css kind))
        (Settings.marker .standard kind)).Holds (named (Part.marker kind).name nodes)
          (Settings.marker settings kind) := by
  rw [lawful.ofNodes_eq_ok_iff]
  constructor
  · rintro ⟨contents, hreads, rfl⟩
    refine ⟨hreads.names, hreads.holds .favoritesOnly, hreads.holds .peekHiddenIcons,
      hreads.holds .magnification, fun kind => ?_⟩
    have hmarker := hreads.holds (.marker kind)
    cases kind <;> exact hmarker
  · rintro ⟨hnames, hfavorites, hpeek, hmagnification, hmarker⟩
    refine ⟨DocumentField.contentOf settings, ⟨hnames, fun field => ?_⟩, rfl⟩
    cases field with
    | magnification => exact hmagnification
    | marker kind => exact hmarker kind
    | favoritesOnly => exact hfavorites
    | peekHiddenIcons => exact hpeek

/-- **A DOCUMENT HAS SETTINGS IF IT IS FORMED, THOSE BY WHICH EVERY FIELD IS SETTLED**, and no others,
    whatever lawful library decodes it. -/
theorem Library.Lawful.ofNodes_iff (lawful : library.Lawful) :
    library.ofNodes css nodes = .ok settings ↔ Formed nodes ∧
      ∀ {β : Type} (field : Field β), field.Settled css nodes (field.get settings) := by
  have hstandard : library.magnification.make (fun field =>
      (library.magnification.attributeOf field).standard) =
        (Settings.standard : Settings Float).magnification := rfl
  have hmarkerStandard (kind : Marker.Kind) : (library.marker css kind).make (fun field =>
      ((library.marker css kind).attributeOf field).standard) = Settings.marker .standard kind := by
    cases kind <;> rfl
  -- a document holds its parts, and each part its fields, which are regrouped here
  rw [lawful.ofNodes_iff_parts, lawful.holds_node_iff hstandard, @reads_magnification_iff library css]
  simp only [lawful.holds_node_iff (hmarkerStandard _), reads_marker_iff]
  constructor
  · rintro ⟨hnames, hfavorites, hpeek, ⟨honce, hinside, hoff, hcoefficients⟩, hmarker⟩
    refine ⟨⟨hnames, fun part => ?_, fun part => ?_⟩, fun field => ?_⟩
    · cases part with
      | magnification => exact honce
      | marker kind => exact (hmarker kind).1
    · cases part with
      | magnification => exact hinside
      | marker kind => exact (hmarker kind).2.1
    · rw [← lawful.holds_iff_settled]
      cases field with
      | favoritesOnly => exact hfavorites
      | peekHiddenIcons => exact hpeek
      | coefficient c => exact hcoefficients c
      | color kind => exact (hmarker kind).2.2.2.1
      | style kind => exact (hmarker kind).2.2.2.2
      | off part =>
          cases part with
          | magnification => exact hoff
          | marker kind => exact (hmarker kind).2.2.1
  · rintro ⟨hformed, hsettled⟩
    have hholds {β : Type} (field : Field β) := lawful.holds_iff_settled.mpr (hsettled field)
    exact ⟨hformed.names, hholds .favoritesOnly, hholds .peekHiddenIcons,
      ⟨hformed.parts .magnification, hformed.inside .magnification, hholds (.off .magnification),
        fun c => hholds (.coefficient c)⟩,
      fun kind => ⟨hformed.parts (.marker kind), hformed.inside (.marker kind),
        hholds (.off (.marker kind)), hholds (.color kind), hholds (.style kind)⟩⟩

end Documents

end FisheyeDock.Settings
