import Mathlib.Data.List.Forall2
import FisheyeDock.Proofs.Color.Reading
import FisheyeDock.Proofs.Settings.Derive
import FisheyeDock.Proofs.Settings.Fields

/-! # Settings as changes of the standard

    A document names fields of the settings.  Where it is accepted, its settings are the standard ones
    but for the fields that it names, each in one node, and the standard ones are those that come with
    the dock (`standard_of_embedded`).  The order in which a document names them is of no account
    (`Rearranged`), and a part without children says nothing.  All this holds of every lawful library
    (`overriding`). -/

namespace FisheyeDock.Settings

open Kdl (Node Value Literal Radix)

variable {β : Type} {library : Library} {css : Color.Css} {node node' : Node}
variable {nodes nodes' before after : List Node} {part : Part} {field : Field β} {content : β}
variable {settings : Settings Float}

/-! ## Other orders -/

/-- A node is another one but for the order of its children. -/
def Shuffles (node node' : Node) : Prop :=
  ∃ children, node.children.Perm children ∧ node' = { node with children }

/-- The same nodes, with the same children, in another order. -/
def Rearranged (nodes nodes' : List Node) : Prop :=
  ∃ middle, List.Forall₂ Shuffles nodes middle ∧ middle.Perm nodes'

/-- What has its children shuffled is named as before. -/
theorem Shuffles.name_eq (h : Shuffles node node') : node'.name = node.name := by
  obtain ⟨children, -, rfl⟩ := h
  rfl

/-- A node that stands alone has no other order. -/
theorem Shuffles.eq_of_alone (h : Shuffles node node') (halone : Alone node) : node' = node := by
  obtain ⟨children, hchildren, rfl⟩ := h
  rw [halone.children, List.nil_perm] at hchildren
  obtain ⟨typeName, name, arguments, properties, children⟩ := node
  rw [hchildren, show children = [] from halone.children]

theorem Shuffles.groups (h : Shuffles node node') (hgroups : Groups node) : Groups node' := by
  obtain ⟨children, -, rfl⟩ := h
  exact ⟨hgroups.untyped, hgroups.arguments, hgroups.properties⟩

/-- Shuffled nodes are shuffled under each name. -/
theorem named_shuffled {name : String} (h : List.Forall₂ Shuffles nodes nodes') :
    List.Forall₂ Shuffles (named name nodes) (named name nodes') := by
  induction h with
  | nil => exact .nil
  | @cons node node' nodes nodes' hnode _ ih =>
      by_cases hname : node.name = name
      · rw [named_cons_of_eq hname, named_cons_of_eq (hnode.name_eq.trans hname)]
        exact .cons hnode ih
      · rw [named_cons_of_ne hname, named_cons_of_ne (hnode.name_eq.trans_ne hname)]
        exact ih

/-- All their children are the same in another order. -/
theorem children_shuffled (h : List.Forall₂ Shuffles nodes nodes') :
    (nodes.flatMap Node.children).Perm (nodes'.flatMap Node.children) := by
  induction h with
  | nil => exact .nil
  | cons hnode _ ih =>
      obtain ⟨children, hchildren, rfl⟩ := hnode
      exact hchildren.append ih

/-- There is no other order of one node. -/
theorem eq_of_perm_once (h : nodes.Perm nodes') (honce : nodes = [] ∨ ∃ node, nodes = [node]) :
    nodes' = nodes := by
  obtain rfl | ⟨node, rfl⟩ := honce
  · exact h.nil_eq.symm
  · exact (List.singleton_perm.mp h).symm

/-- What is shuffled was there before. -/
theorem mem_shuffled (h : List.Forall₂ Shuffles nodes nodes') (hnode : node' ∈ nodes') :
    ∃ node ∈ nodes, Shuffles node node' := by
  induction h with
  | nil => exact nomatch hnode
  | cons hfirst _ ih =>
      cases hnode with
      | head => exact ⟨_, List.mem_cons_self, hfirst⟩
      | tail _ hnode =>
          obtain ⟨node, hmem, hshuffles⟩ := ih hnode
          exact ⟨node, List.mem_cons_of_mem _ hmem, hshuffles⟩

namespace Rearranged

/-- A rearranged document is so under each name. -/
theorem named (h : Rearranged nodes nodes') (name : String) :
    Rearranged (named name nodes) (named name nodes') := by
  obtain ⟨middle, hshuffled, hperm⟩ := h
  exact ⟨_, named_shuffled hshuffled, named_perm hperm⟩

/-- What is inside of a part is the same in another order. -/
theorem within (h : Rearranged nodes nodes') (part : Part) :
    (within part nodes).Perm (within part nodes') := by
  obtain ⟨middle, hshuffled, hperm⟩ := h.named part.name
  exact (children_shuffled hshuffled).trans (hperm.flatMap_right _)

theorem eq_nil (h : Rearranged [] nodes') : nodes' = [] := by
  obtain ⟨middle, hshuffled, hperm⟩ := h
  cases hshuffled
  exact hperm.nil_eq.symm

theorem eq_singleton (h : Rearranged [node] nodes') :
    ∃ node', nodes' = [node'] ∧ Shuffles node node' := by
  obtain ⟨middle, hshuffled, hperm⟩ := h
  cases hshuffled with
  | cons hnode hnone =>
      cases hnone
      exact ⟨_, List.singleton_perm.mp hperm |>.symm, hnode⟩

/-- What is rearranged was there before. -/
theorem mem (h : Rearranged nodes nodes') (hnode : node' ∈ nodes') :
    ∃ node ∈ nodes, Shuffles node node' := by
  obtain ⟨middle, hshuffled, hperm⟩ := h
  exact mem_shuffled hshuffled (hperm.mem_iff.mpr hnode)

/-- A document is formed in whatever order. -/
theorem formed (h : Rearranged nodes nodes') (hformed : Formed nodes) : Formed nodes' where
  names node' hnode' := by
    obtain ⟨node, hnode, hshuffles⟩ := h.mem hnode'
    rw [hshuffles.name_eq]
    exact hformed.names node hnode
  parts part := by
    have hpart := h.named part.name
    obtain hnone | ⟨node, hone, hgroups⟩ := hformed.parts part
    · rw [hnone] at hpart
      exact .inl hpart.eq_nil
    · rw [hone] at hpart
      obtain ⟨node', hone', hshuffles⟩ := hpart.eq_singleton
      exact .inr ⟨node', hone', hshuffles.groups hgroups⟩
  inside part node hnode := hformed.inside part node ((h.within part).mem_iff.mpr hnode)

/-- A node that stands alone among those of its name has no other order either. -/
theorem eq_of_alone (h : Rearranged nodes nodes')
    (honce : nodes = [] ∨ ∃ node, nodes = [node] ∧ Alone node) : nodes' = nodes := by
  obtain rfl | ⟨node, rfl, halone⟩ := honce
  · exact h.eq_nil
  · obtain ⟨node', rfl, hshuffles⟩ := h.eq_singleton
    rw [hshuffles.eq_of_alone halone]

/-- The nodes that name a field are the same, since there is one at most. -/
theorem naming_eq (h : Rearranged nodes nodes') (hsettled : field.Settled css nodes content) :
    field.naming nodes' = field.naming nodes := by
  have hinside {name : String} {part : Part} (honce : Settings.named name (Settings.within part nodes) = [] ∨
      ∃ node, Settings.named name (Settings.within part nodes) = [node]) :
      Settings.named name (Settings.within part nodes') =
        Settings.named name (Settings.within part nodes) :=
    eq_of_perm_once (named_perm (h.within part)) honce
  cases field with
  | off | coefficient | color | style => exact hinside hsettled.once
  | favoritesOnly | peekHiddenIcons =>
      refine (h.named _).eq_of_alone ?_
      obtain ⟨hnone, -⟩ | ⟨node, hone, halone, -⟩ := hsettled
      · exact .inl hnone
      · exact .inr ⟨node, hone, halone⟩

theorem settles (h : Rearranged nodes nodes') (hsettled : field.Settled css nodes content) :
    field.Settled css nodes' content := by
  unfold Field.Settled
  rw [h.naming_eq hsettled]
  exact hsettled

end Rearranged

/-- **THE ORDER OF NODES SAYS NOTHING**, neither in a document nor inside of its nodes. -/
theorem Library.Lawful.ofNodes_rearranged (lawful : library.Lawful) (h : Rearranged nodes nodes')
    (hnodes : library.ofNodes css nodes = .ok settings) :
    library.ofNodes css nodes' = .ok settings := by
  obtain ⟨hformed, hsettled⟩ := lawful.ofNodes_iff.mp hnodes
  exact lawful.ofNodes_iff.mpr ⟨h.formed hformed, fun field => h.settles (hsettled field)⟩

/-! ## Parts without children -/

section Empty

variable (hname : node.name = part.name) (hempty : node.children = [])

include hname

/-- A part without children adds no node of another name. -/
theorem named_insert {name : String} (hother : part.name ≠ name) :
    named name (before ++ node :: after) = named name (before ++ after) := by
  rw [named_append, named_append, named_cons_of_ne (hname.trans_ne hother)]

include hempty

theorem within_insert (other : Part) :
    within other (before ++ node :: after) = within other (before ++ after) := by
  unfold within
  by_cases hother : part.name = other.name
  · rw [named_append, named_append, named_cons_of_eq (hname.trans hother), List.flatMap_append,
      List.flatMap_append, List.flatMap_cons, hempty, List.nil_append]
  · rw [named_insert hname hother]

theorem naming_insert (field : Field β) :
    field.naming (before ++ node :: after) = field.naming (before ++ after) := by
  have hpart : part.name ≠ "favorites-only" ∧ part.name ≠ "peek-hidden-icons" := by
    obtain _ | _ | _ := part <;> decide
  cases field with
  | favoritesOnly => exact named_insert hname hpart.1
  | peekHiddenIcons => exact named_insert hname hpart.2
  | off | coefficient | color | style => exact congrArg (named _) (within_insert hname hempty _)

/-- A document is formed with a part more if it has none yet, and that has nothing else. -/
theorem formed_insert_iff : Formed (before ++ node :: after) ↔
    (named part.name (before ++ after) = [] ∧ Groups node) ∧ Formed (before ++ after) := by
  have hnamed : named part.name (before ++ node :: after) =
      named part.name before ++ node :: named part.name after := by
    rw [named_append, named_cons_of_eq hname]
  -- the part has its name to itself, and all other names stand as they did
  constructor
  · intro h
    have hpart : named part.name (before ++ after) = [] ∧ Groups node := by
      obtain hnone | ⟨node', hone, hgroups⟩ := h.parts part
      · rw [hnamed] at hnone
        exact absurd hnone (by simp)
      · rw [hnamed] at hone
        obtain ⟨hbefore, rfl, hafter⟩ := eq_nil_of_append_cons hone
        rw [named_append, hbefore, hafter]
        exact ⟨rfl, hgroups⟩
    refine ⟨hpart, ?_, fun other => ?_, fun other => ?_⟩
    · have hnames := h.names
      simp only [List.forall_mem_append, List.forall_mem_cons] at hnames ⊢
      exact ⟨hnames.1, hnames.2.2⟩
    · by_cases hother : part.name = other.name
      · exact .inl (hother ▸ hpart.1)
      · exact named_insert hname hother ▸ h.parts other
    · exact within_insert hname hempty other ▸ h.inside other
  · rintro ⟨⟨habsent, hgroups⟩, h⟩
    refine ⟨?_, fun other => ?_, fun other => ?_⟩
    · have hnames := h.names
      simp only [List.forall_mem_append, List.forall_mem_cons] at hnames ⊢
      exact ⟨hnames.1, ⟨part.field, hname⟩, hnames.2⟩
    · by_cases hother : part.name = other.name
      · rw [named_append, List.append_eq_nil_iff] at habsent
        rw [← hother, hnamed, habsent.1, habsent.2]
        exact .inr ⟨node, rfl, hgroups⟩
      · exact (named_insert hname hother).symm ▸ h.parts other
    · exact (within_insert hname hempty other).symm ▸ h.inside other

/-- **A PART WITHOUT CHILDREN SAYS NOTHING**: it can be left out, and put in where there is none. -/
theorem Library.Lawful.ofNodes_insert_iff (lawful : library.Lawful) :
    library.ofNodes css (before ++ node :: after) = .ok settings ↔
      (named part.name (before ++ after) = [] ∧ Groups node) ∧
        library.ofNodes css (before ++ after) = .ok settings := by
  rw [lawful.ofNodes_iff, lawful.ofNodes_iff, formed_insert_iff hname hempty, and_assoc]
  simp only [Field.Settled, naming_insert hname hempty]

end Empty

/-! ## The document that comes with the dock -/

/-- A node that gives one value. -/
def giving (name : String) (literal : Literal) : Node := ⟨none, name, [⟨none, literal⟩], [], []⟩

/-- A node around others. -/
def grouping (name : String) (children : List Node) : Node := ⟨none, name, [], [], children⟩

/-- What the document gives for the magnification. -/
def embeddedMagnification : List Node :=
  [giving "rise" (.decimal ['0', '.', '2', '5']), giving "magnify" (.decimal ['0', '.', '5']),
    giving "spread" (.decimal ['0', '.', '5']), giving "fps" (.integer false .decimal ['0'])]

/-- What the document gives for a kind of marker. -/
def embeddedMarker (color : String) : List Node :=
  [giving "color" (.string color), giving "style" (.integer false .decimal ['0'])]

/-- The nodes of the document. -/
def embeddedNodes : List Node :=
  [grouping "magnification" embeddedMagnification,
    grouping "running-indicator" (embeddedMarker "#ffffff"),
    grouping "notification-badge" (embeddedMarker "#ff0000")]

/-- The document that comes with the dock is formed. -/
theorem formed_embedded : Formed embeddedNodes where
  names := by
    simp only [embeddedNodes, List.forall_mem_cons]
    exact ⟨⟨.magnification, rfl⟩, ⟨.marker .dot, rfl⟩, ⟨.marker .badge, rfl⟩, nofun⟩
  parts part := by
    obtain _ | _ | _ := part <;> exact .inr ⟨_, rfl, rfl, rfl, rfl⟩
  inside part := by
    have hmarker (color : String) (kind : Marker.Kind) :
        ∀ node ∈ embeddedMarker color, (Part.marker kind).Names node := by
      simp only [embeddedMarker, List.forall_mem_cons]
      exact ⟨⟨.color, rfl⟩, ⟨.style, rfl⟩, nofun⟩
    obtain _ | _ | _ := part
    · show ∀ node ∈ embeddedMagnification, Part.magnification.Names node
      simp only [embeddedMagnification, List.forall_mem_cons]
      exact ⟨⟨.coefficient .rise, rfl⟩, ⟨.coefficient .magnify, rfl⟩, ⟨.coefficient .spread, rfl⟩,
        ⟨.coefficient .fps, rfl⟩, nofun⟩
    · exact hmarker "#ffffff" .dot
    · exact hmarker "#ff0000" .badge

/-- A decimal number up to one is in range if it is read so. -/
theorem inRange_decimal {spelling : List Char} {d : Decimal} {x : Float}
    (hread : Numeral.read? spelling = some (.finite d)) (hx : d.toFloat = x) (hnonneg : 0.0 ≤ x)
    (hle : x ≤ Float.ofNat 1) : InRange 1 (.decimal spelling) x :=
  .decimal (Decimal.spells_iff.mpr hread) (hx ▸ d.nearest_toFloat) hnonneg hle

/-- The coefficients of the document are those of the standard. -/
theorem inRange_embedded (c : Coefficient) : ∃ literal,
    (Field.coefficient c).naming embeddedNodes = [giving c.name literal] ∧
      InRange c.highest literal c.standard := by
  have hhalf : InRange 1 (.decimal ['0', '.', '5']) 0.5 :=
    @inRange_decimal _ ⟨false, 5, -1⟩ _ (by decide +kernel) (by decide +kernel) (by decide +kernel)
      (by decide +kernel)
  cases c with
  | rise =>
      exact ⟨_, rfl, @inRange_decimal _ ⟨false, 25, -2⟩ _ (by decide +kernel) (by decide +kernel)
        (by decide +kernel) (by decide +kernel)⟩
  | magnify | spread => exact ⟨_, rfl, hhalf⟩
  | fps =>
      have hzero : Float.ofInt (wholeOf false 0) = Coefficient.fps.standard := by decide +kernel
      have hdigits : StandsFor (Radix.base .decimal) ['0'] 0 := .digit rfl (by decide)
      have hin : InRange 4 (.integer false .decimal ['0']) (Float.ofInt (wholeOf false 0)) :=
        .whole hdigits (by decide) (by decide)
      exact ⟨_, rfl, hzero ▸ hin⟩

/-- The colors of the document are those of the standard. -/
theorem ofText_embedded (lawful : css.Lawful) (kind : Marker.Kind) : ∃ word,
    (Field.color kind).naming embeddedNodes = [giving "color" (.string word)] ∧
      Color.ofText css word = .ok (marker .standard kind).color := by
  have hfull : StandsFor 16 ['f', 'f'] (255 : UInt8).toNat := standsFor_iff.mpr ⟨nofun, rfl, rfl⟩
  have hnone : StandsFor 16 ['0', '0'] (0 : UInt8).toNat := standsFor_iff.mpr ⟨nofun, rfl, rfl⟩
  cases kind with
  | dot =>
      exact ⟨_, rfl, lawful.ofText_eq_ok_iff.mpr
        ⟨_, lawful.parse_hex hfull hfull hfull, by decide +kernel⟩⟩
  | badge =>
      exact ⟨_, rfl, lawful.ofText_eq_ok_iff.mpr
        ⟨_, lawful.parse_hex hfull hnone hnone, by decide +kernel⟩⟩

/-- What the document names is the standard. -/
theorem settled_embedded (lawful : css.Lawful) (field : Field β) :
    field.Settled css embeddedNodes (field.get .standard) := by
  cases field with
  | favoritesOnly | peekHiddenIcons => exact .inl ⟨rfl, rfl⟩
  | off part => obtain _ | _ | _ := part <;> exact .inl ⟨rfl, rfl⟩
  | coefficient c =>
      obtain ⟨literal, hone, hin⟩ := inRange_embedded c
      exact .inr ⟨_, hone, literal, ⟨rfl, rfl, rfl⟩, hin⟩
  | color kind =>
      obtain ⟨word, hone, hcolor⟩ := ofText_embedded lawful kind
      exact .inr ⟨_, hone, word, ⟨rfl, rfl, rfl⟩, hcolor⟩
  | style kind =>
      have hbyte : IsByte ⟨none, .integer false .decimal ['0']⟩ 0 :=
        ⟨.inl rfl, .decimal, ['0'], rfl, .digit rfl (by decide)⟩
      cases kind <;> exact .inr ⟨_, rfl, _, ⟨rfl, rfl, rfl⟩, hbyte⟩

/-- **WHAT COMES WITH THE DOCK IS THE STANDARD**, if it is read as it is written. -/
theorem ofEmbedded_eq (lawful : library.Lawful) (cssLawful : css.Lawful)
    (hnodes : library.parse embedded = some embeddedNodes) :
    ofEmbedded library css = .ok .standard :=
  (parse_of_nodes hnodes).mpr (lawful.ofNodes_iff.mpr ⟨formed_embedded, settled_embedded cssLawful⟩)

theorem parse_embedded : Library.builtIn.parse embedded = some embeddedNodes := by
  -- the characters are taken line by line, since those of a long text are slow to compute
  have hchars : embedded.toList = (embeddedLines.map (· ++ "\n")).flatMap String.toList :=
    String.toList_join
  show Kdl.parse embedded = _
  unfold Kdl.parse
  rw [hchars]
  decide +kernel

/-! ## Texts -/

/-- How settings come from a text. -/
structure Overriding (library : Library) (css : Color.Css) : Prop where
  /-- The standard settings are those that come with the dock. -/
  embedded : ofEmbedded library css = .ok .standard
  /-- Where a text is accepted, a field of its settings holds what the only node says that names it, or
  without one what it holds in the standard settings. -/
  settled : ∀ {text : String} {nodes : List Node} {settings : Settings Float} {β : Type}
    (field : Field β), library.parse text = some nodes → parse text library css = .ok settings →
    field.Settled css nodes (field.get settings)
  /-- Of no other settings this is true. -/
  only : ∀ {text : String} {nodes : List Node} {settings settings' : Settings Float},
    library.parse text = some nodes → parse text library css = .ok settings →
    (∀ {β : Type} (field : Field β), field.Settled css nodes (field.get settings')) →
    settings' = settings
  /-- A text with the same nodes in another order, in the document or inside of nodes, is accepted and
  has the same settings. -/
  rearranged : ∀ {text text' : String} {nodes nodes' : List Node} {settings : Settings Float},
    library.parse text = some nodes → library.parse text' = some nodes' → Rearranged nodes nodes' →
    parse text library css = .ok settings → parse text' library css = .ok settings
  /-- A text without a part that has no children is accepted, and has the same settings. -/
  omitted : ∀ {text text' : String} {before after : List Node} {node : Node} {part : Part}
    {settings : Settings Float}, node.name = part.name → node.children = [] →
    library.parse text = some (before ++ node :: after) →
    library.parse text' = some (before ++ after) →
    parse text library css = .ok settings → parse text' library css = .ok settings
  /-- And so is one with a part more that has no children, nor anything else, if there is none yet. -/
  put : ∀ {text text' : String} {before after : List Node} {node : Node} {part : Part}
    {settings : Settings Float}, node.name = part.name → node.children = [] → Groups node →
    named part.name (before ++ after) = [] →
    library.parse text = some (before ++ after) →
    library.parse text' = some (before ++ node :: after) →
    parse text library css = .ok settings → parse text' library css = .ok settings

/-- **SETTINGS ARE THE STANDARD ONES BUT FOR WHAT A TEXT NAMES, IN WHATEVER ORDER**, for every lawful
    library and reader of colors, if the library reads the document that comes with the dock as it is
    written. -/
theorem overriding (lawful : library.Lawful) (cssLawful : css.Lawful)
    (hembedded : library.parse embedded = some embeddedNodes) : Overriding library css where
  embedded := ofEmbedded_eq lawful cssLawful hembedded
  settled field hnodes h := (lawful.ofNodes_iff.mp ((parse_of_nodes hnodes).mp h)).2 field
  only hnodes h hsettled := by
    obtain ⟨-, hfields⟩ := lawful.ofNodes_iff.mp ((parse_of_nodes hnodes).mp h)
    exact ext_fields fun field => (hsettled field).unique (hfields field)
  rearranged hnodes hnodes' hsame h :=
    (parse_of_nodes hnodes').mpr (lawful.ofNodes_rearranged hsame ((parse_of_nodes hnodes).mp h))
  omitted hname hempty hnodes hnodes' h := by
    have hmore := (parse_of_nodes hnodes).mp h
    exact (parse_of_nodes hnodes').mpr ((lawful.ofNodes_insert_iff hname hempty).mp hmore).2
  put hname hempty hgroups habsent hnodes hnodes' h := by
    have hless := (parse_of_nodes hnodes).mp h
    exact (parse_of_nodes hnodes').mpr
      ((lawful.ofNodes_insert_iff hname hempty).mpr ⟨⟨habsent, hgroups⟩, hless⟩)

/-- With the library that comes with the dock, a text that names three fields says the same without a
    part that has no children, and in another order. -/
theorem parse_badge : ∃ settings : Settings Float,
    parse "favorites-only\nrunning-indicator \x7b\x7d\nnotification-badge \x7b style 0b101; off; \x7d\n" =
      .ok settings ∧
    parse "favorites-only\nnotification-badge \x7b style 0b101; off; \x7d\n" = .ok settings ∧
    parse "notification-badge \x7b off; style 0b101; \x7d // five\nfavorites-only\n" = .ok settings ∧
    settings.badge.style = 5 ∧ settings.badge.off = true ∧ settings.favoritesOnly = true ∧
    settings.badge.color = Color.pureRed ∧ settings.magnification.rise = 0.25 ∧
    ofEmbedded = .ok .standard := by
  let favorites : Node := ⟨none, "favorites-only", [], [], []⟩
  let indicator : Node := grouping "running-indicator" []
  let style : Node := giving "style" (.integer false .binary ['1', '0', '1'])
  let off : Node := ⟨none, "off", [], [], []⟩
  let badge (children : List Node) : Node := grouping "notification-badge" children
  have hnodes : Library.builtIn.parse
      "favorites-only\nrunning-indicator \x7b\x7d\nnotification-badge \x7b style 0b101; off; \x7d\n" =
      some ([favorites] ++ indicator :: [badge [style, off]]) := by decide +kernel
  have hfewer : Library.builtIn.parse
      "favorites-only\nnotification-badge \x7b style 0b101; off; \x7d\n" =
      some ([favorites] ++ [badge [style, off]]) := by decide +kernel
  have hother : Library.builtIn.parse
      "notification-badge \x7b off; style 0b101; \x7d // five\nfavorites-only\n" =
      some [badge [off, style], favorites] := by decide +kernel
  have hsame : Rearranged ([favorites] ++ [badge [style, off]]) [badge [off, style], favorites] := by
    refine ⟨[favorites, badge [off, style]], ?_, List.Perm.swap _ _ []⟩
    exact .cons ⟨[], .nil, rfl⟩ (.cons ⟨[off, style], List.Perm.swap _ _ [], rfl⟩ .nil)
  have hover := overriding lawful_builtIn Color.lawful_builtIn parse_embedded
  obtain ⟨settings, hsettings⟩ : ∃ settings,
      Library.builtIn.ofNodes .builtIn ([favorites] ++ indicator :: [badge [style, off]]) =
        .ok settings := exists_of_isOk (by decide +kernel)
  have hfirst := (parse_of_nodes hnodes).mpr hsettings
  have hindicator : indicator.name = (Part.marker .dot).name := rfl
  have hsecond := hover.omitted hindicator rfl hnodes hfewer hfirst
  have hfive : StandsFor 2 ['1', '0', '1'] (5 : UInt8).toNat := standsFor_iff.mpr ⟨nofun, rfl, rfl⟩
  have hbyte : IsByte ⟨none, .integer false .binary ['1', '0', '1']⟩ 5 :=
    ⟨.inl rfl, .binary, _, rfl, hfive⟩
  have hfield {β : Type} (field : Field β) := hover.settled field hnodes hfirst
  refine ⟨settings, hfirst, hsecond, hover.rearranged hfewer hother hsame hsecond, ?_, ?_, ?_, ?_, ?_,
    hover.embedded⟩
  · exact (hfield (.style .badge)).unique (.inr ⟨style, rfl, _, ⟨rfl, rfl, rfl⟩, hbyte⟩)
  · exact (hfield (.off (.marker .badge))).unique (.inr ⟨off, rfl, ⟨rfl, rfl, rfl⟩, rfl⟩)
  · exact (hfield .favoritesOnly).unique (.inr ⟨favorites, rfl, ⟨rfl, rfl, rfl⟩, rfl⟩)
  · exact (hfield (.color .badge)).unique (.inl ⟨rfl, rfl⟩)
  · exact (hfield (.coefficient .rise)).unique (.inl ⟨rfl, rfl⟩)

end FisheyeDock.Settings
