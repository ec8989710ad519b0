import FisheyeDock.Proofs.Settings.Lawful

/-! # The library that comes with the dock is lawful

    A draft of a record knows a field exactly if a node has given it (`Learned`).  A node is accepted if
    its name is that of a field which is not known yet, and it says what the field holds
    (`Draft.accepts_add`).  So nodes are accepted one after the other exactly if they say what the
    fields of the record hold (`Draft.accepts_foldlM`, `accepts_children`). -/

namespace FisheyeDock.Settings

open Kdl (Node Value Literal Radix)
open Decoder

variable {β : Type} {node : Node} {value : Value}

/-! ## Values -/

/-- A magnitude is read exactly of digits that stand for it. -/
theorem magnitudeOf_eq_ok_iff {radix : Radix} {digits : List Char} {n : ℕ} :
    magnitudeOf radix digits = .ok n ↔ StandsFor radix.base digits n := by
  rw [standsFor_iff, ← and_assoc]
  unfold magnitudeOf
  split
  · next h => exact ⟨fun hn => ⟨h, Except.ok.inj hn⟩, fun hn => congrArg _ hn.2⟩
  · next h => exact iff_of_false nofun fun hn => h hn.1

/-- A literal is a whole number of thirty-two bits if it stands for one, and that is in range. -/
theorem integer32_eq_ok_iff {negative : Bool} {radix : Radix} {digits : List Char} {n : ℤ} :
    integer32 negative radix digits = .ok n ↔
      (∃ m, StandsFor radix.base digits m ∧ wholeOf negative m = n) ∧ -2 ^ 31 ≤ n ∧ n < 2 ^ 31 := by
  unfold integer32
  cases hmagnitude : magnitudeOf radix digits with
  | error issue =>
      refine iff_of_false nofun ?_
      rintro ⟨⟨m, hm, -⟩, -⟩
      exact nomatch hmagnitude.symm.trans (magnitudeOf_eq_ok_iff.mpr hm)
  | ok magnitude =>
      have hdigits := magnitudeOf_eq_ok_iff.mp hmagnitude
      have honly : (∃ m, StandsFor radix.base digits m ∧ wholeOf negative m = n) ↔
          wholeOf negative magnitude = n :=
        ⟨fun ⟨m, hm, h⟩ => hdigits.unique hm ▸ h, fun h => ⟨magnitude, hdigits, h⟩⟩
      rw [honly]
      cases negative with
      | true =>
          show (if magnitude ≤ 2147483648 then Except.ok (-(magnitude : Int))
            else .error Issue.tooSmall) = .ok n ↔ -(magnitude : ℤ) = n ∧ _
          split
          · rw [Except.ok.injEq]
            omega
          · exact iff_of_false nofun (by omega)
      | false =>
          show (if magnitude < 2147483648 then Except.ok (magnitude : Int)
            else .error Issue.tooLarge) = .ok n ↔ (magnitude : ℤ) = n ∧ _
          split
          · rw [Except.ok.injEq]
            omega
          · exact iff_of_false nofun (by omega)

/-- A decimal number is read as the double of what it spells. -/
theorem float_eq_ok_iff {spelling : List Char} {x : Float} : float spelling = .ok x ↔
    ∃ numeral, Numeral.read? spelling = some numeral ∧ numeral.toFloat = x := by
  unfold float
  cases Numeral.read? spelling with
  | none => exact iff_of_false nofun nofun
  | some numeral => simp

/-- A byte is read exactly of digits that stand for it, without a sign. -/
theorem byteOf_eq_ok_iff {literal : Literal} {byte : UInt8} : byteOf literal = .ok byte ↔
    ∃ radix digits, literal = .integer false radix digits ∧
      StandsFor radix.base digits byte.toNat := by
  cases literal with
  | decimal | string | boolean | null => exact iff_of_false nofun (by simp)
  | integer negative radix digits =>
      cases negative with
      | true => exact iff_of_false nofun (by simp)
      | false =>
          show (magnitudeOf radix digits >>= fun magnitude =>
            if magnitude < UInt8.size then pure (UInt8.ofNat magnitude) else .error Issue.tooLarge) =
              .ok byte ↔ _
          constructor
          · intro h
            cases hmagnitude : magnitudeOf radix digits with
            | error issue =>
                rw [hmagnitude] at h
                exact nomatch h
            | ok magnitude =>
                rw [hmagnitude] at h
                change (if magnitude < UInt8.size then Except.ok (UInt8.ofNat magnitude) else _) = _ at h
                split at h
                · next hlt =>
                    obtain rfl := Except.ok.inj h
                    refine ⟨radix, digits, rfl, ?_⟩
                    rw [UInt8.toNat_ofNat_of_lt' hlt]
                    exact magnitudeOf_eq_ok_iff.mp hmagnitude
                · exact nomatch h
          · rintro ⟨radix', digits', ⟨⟩, hdigits⟩
            rw [magnitudeOf_eq_ok_iff.mpr hdigits]
            exact (if_pos byte.toNat_lt_size).trans (congrArg Except.ok UInt8.ofNat_toNat)

/-- An argument is accepted as a byte if it is a literal for one. -/
theorem accepts_byte {found : UInt8} : (byte value).Accepts found ↔ IsByte value found := by
  have hisByte : IsByte value found ↔
      (value.typeName = none ∨ value.typeName = some "u8") ∧ byteOf value.literal = .ok found :=
    ⟨fun h => ⟨h.typeName, byteOf_eq_ok_iff.mpr h.literal⟩, fun h => ⟨h.1, byteOf_eq_ok_iff.mp h.2⟩⟩
  rw [hisByte]
  unfold byte
  cases value.typeName with
  | some typeName =>
      have htype : ¬ typeName ≠ "u8" ↔ some typeName = none ∨ some typeName = some "u8" := by simp
      cases byteOf value.literal with
      | ok byte =>
          refine accepts_unless_note.trans (and_congr htype ?_)
          exact accepts_pure.trans ⟨congrArg _, Except.ok.inj⟩
      | error issue =>
          refine accepts_unless_note.trans (and_congr htype ?_)
          exact iff_of_false not_accepts_note_pure nofun
  | none =>
      refine Iff.trans ?_ (and_iff_right (.inl rfl)).symm
      cases byteOf value.literal with
      | ok byte => exact accepts_pure.trans ⟨congrArg _, Except.ok.inj⟩
      | error issue => exact iff_of_false not_accepts_note_pure nofun

/-- An argument is accepted as a text if it is a string that is read. -/
theorem accepts_text {read : String → Except (Halt Issue) β} {found : β} :
    (text read value).Accepts found ↔ ∃ word, value = ⟨none, .string word⟩ ∧ read word = .ok found := by
  obtain ⟨typeName, literal⟩ := value
  cases typeName with
  | some typeName =>
      refine iff_of_false (fun h => ?_) (by simp)
      obtain ⟨_, hnote, -⟩ := accepts_bind.mp h
      exact not_accepts_note hnote
  | none =>
      cases literal with
      | string word =>
          refine accepts_ofExcept.trans ⟨fun h => ⟨word, rfl, h⟩, ?_⟩
          rintro ⟨_, ⟨⟩, h⟩
          exact h
      | integer | decimal | boolean | null => exact iff_of_false not_accepts_refuse (by simp)

/-! ## Nodes -/

theorem propertyNames_eq_nil_iff : node.propertyNames = [] ↔ node.properties = [] := by
  have hinsert (name : String) (names : List String) : Node.insertName name names ≠ [] := by
    cases names with
    | nil => exact nofun
    | cons other names =>
        unfold Node.insertName
        split
        · exact nofun
        · split <;> exact nofun
  unfold Node.propertyNames
  cases node.properties with
  | nil => exact iff_of_true rfl rfl
  | cons property properties => exact iff_of_false (hinsert _ _) nofun

/-- Nothing is left over of a node that stands alone. -/
theorem extraParts_eq_nil_iff : extraParts node = [] ↔ Alone node := by
  unfold extraParts
  rw [List.append_eq_nil_iff, List.append_eq_nil_iff, List.map_eq_nil_iff, List.map_eq_nil_iff,
    List.map_eq_nil_iff, propertyNames_eq_nil_iff]
  exact ⟨fun ⟨⟨h, h'⟩, h''⟩ => ⟨h, h', h''⟩, fun ⟨h, h', h''⟩ => ⟨⟨h, h'⟩, h''⟩⟩

/-- Properties are refused. -/
theorem accepts_refuseProperties_bind {next : Unit → Decoder β} {last : β} :
    (refuseProperties node >>= next).Accepts last ↔
      node.properties = [] ∧ (next ()).Accepts last := by
  rw [← propertyNames_eq_nil_iff]
  unfold refuseProperties
  cases node.propertyNames with
  | nil => exact (and_iff_right rfl).symm
  | cons name names => exact iff_of_false nofun nofun

/-- A second node of a name is refused. -/
theorem accepts_refuseSecond_bind {seen : Bool} {next : Unit → Decoder β} {last : β} :
    (refuseSecond seen node >>= next).Accepts last ↔ seen = false ∧ (next ()).Accepts last := by
  cases seen with
  | false => exact (and_iff_right rfl).symm
  | true => exact iff_of_false nofun nofun

/-- A node that says something by standing there is accepted if it stands alone and for the first
    time. -/
theorem accepts_flag {seen on : Bool} :
    (flag seen node).Accepts on ↔ seen = false ∧ Alone node ∧ on = true := by
  unfold flag
  rw [accepts_bind]
  simp only [accepts_noteAll, extraParts_eq_nil_iff, exists_and_left, exists_const]
  refine (and_congr_right fun _ => ?_).trans and_left_comm
  exact accepts_unless_note.trans (and_congr (Bool.not_eq_true seen ▸ Iff.rfl)
    (accepts_pure.trans eq_comm))

/-- A node with one argument is accepted if it is the first one, its argument is accepted, and it holds
    nothing else. -/
theorem accepts_single {decode : Value → Decoder β} {seen : Bool} {found : β} :
    (single decode seen node).Accepts found ↔
      seen = false ∧ ∃ value, Gives node value ∧ (decode value).Accepts found := by
  unfold single
  rw [accepts_refuseSecond_bind]
  refine and_congr_right fun _ => ?_
  cases harguments : node.arguments with
  | nil =>
      refine iff_of_false not_accepts_refuse ?_
      rintro ⟨value, hgives, -⟩
      exact nomatch harguments.symm.trans hgives.arguments
  | cons first others =>
      dsimp only
      rw [accepts_bind]
      constructor
      · rintro ⟨value, hvalue, h⟩
        obtain ⟨halone, h⟩ := accepts_unless_refuse.mp h
        obtain ⟨hproperties, h⟩ := accepts_refuseProperties_bind.mp h
        obtain ⟨_, hchildren, h⟩ := accepts_bind.mp h
        obtain rfl := accepts_pure.mp h
        have hnone : others = [] := by simpa using halone
        exact ⟨first, ⟨hnone ▸ harguments, hproperties,
          List.map_eq_nil_iff.mp (accepts_noteAll.mp hchildren)⟩, hvalue⟩
      · rintro ⟨value, hgives, hvalue⟩
        obtain ⟨rfl, rfl⟩ := List.cons_eq_cons.mp (harguments.symm.trans hgives.arguments)
        refine ⟨found, hvalue, accepts_unless_refuse.mpr ⟨nofun, ?_⟩⟩
        refine accepts_refuseProperties_bind.mpr ⟨hgives.properties, ?_⟩
        refine accepts_bind.mpr ⟨(), ?_, accepts_pure.mpr rfl⟩
        rw [accepts_noteAll, hgives.children, List.map_nil]

/-- A node is accepted for a field if the field is not known yet and the node says what it holds. -/
theorem Attribute.accepts_decode {a : Attribute β} {seen : Bool} {content : β} :
    (a.decode seen node).Accepts content ↔ seen = false ∧ a.Says node content := by
  cases a with
  | flag => exact accepts_flag
  | argument decode standard => exact accepts_single
  | text read standard =>
      refine accepts_single.trans (and_congr_right fun _ => ?_)
      constructor
      · rintro ⟨value, hgives, hvalue⟩
        obtain ⟨word, rfl, hword⟩ := accepts_text.mp hvalue
        exact ⟨word, hgives, hword⟩
      · rintro ⟨word, hgives, hword⟩
        exact ⟨_, hgives, accepts_text.mpr ⟨word, rfl, hword⟩⟩
  | node decode standard => exact accepts_refuseSecond_bind

/-! ## Drafts -/

/-- What is known of a field before and after the nodes of its name. -/
inductive Learned (a : Attribute β) : Option β → List Node → Option β → Prop where
  | unnamed {known : Option β} : Learned a known [] known
  | said {node : Node} {content : β} : a.Says node content → Learned a none [node] (some content)

/-- Where no node is left, nothing more is learned. -/
theorem Learned.of_nil {a : Attribute β} {before known : Option β} (h : Learned a before [] known) :
    known = before := by
  cases h with
  | unnamed => rfl

/-- What is known is not learned again. -/
theorem Learned.of_known {a : Attribute β} {nodes : List Node} {content : β} {known : Option β}
    (h : Learned a (some content) nodes known) : nodes = [] ∧ known = some content := by
  cases h with
  | unnamed => exact ⟨rfl, rfl⟩

/-- What is learned from a node was not known before, and the node is the only one. -/
theorem Learned.of_cons {a : Attribute β} {nodes : List Node} {before known : Option β}
    (h : Learned a before (node :: nodes) known) : before = none ∧ nodes = [] ∧
      ∃ content, a.Says node content ∧ known = some content := by
  cases h with
  | said hsaid => exact ⟨rfl, rfl, _, hsaid, rfl⟩

/-- What a field holds in the end is what is known of it, or the standard. -/
theorem Attribute.holds_iff_learned {a : Attribute β} {nodes : List Node} {content : β} :
    a.Holds nodes content ↔ ∃ known, Learned a none nodes known ∧ known.getD a.standard = content := by
  constructor
  · intro h
    cases h with
    | standard => exact ⟨none, .unnamed, rfl⟩
    | said hsaid => exact ⟨_, .said hsaid, rfl⟩
  · rintro ⟨known, hlearned, rfl⟩
    cases hlearned with
    | unnamed => exact .standard
    | said hsaid => exact .said hsaid

namespace Draft

variable {ρ : Type} {declaration : Declaration ρ} {draft draft' : Draft declaration}
variable {field other : declaration.Field} {content : declaration.Content field} {nodes : List Node}

@[simp] theorem learn_self : draft.learn field content field = some content :=
  dif_pos rfl

/-- What is learned for a field is not for another. -/
theorem learn_of_ne (h : other ≠ field) : draft.learn field content other = draft other :=
  dif_neg h.symm

/-- A field is found by its name, which no other has. -/
theorem find?_eq_some_iff :
    (declaration.fields.find? fun field => declaration.name field = node.name) = some field ↔
      node.name = declaration.name field := by
  constructor
  · intro h
    have hname := List.find?_some h
    exact (of_decide_eq_true hname).symm
  · intro h
    have hsome : (declaration.fields.find? fun field => declaration.name field = node.name).isSome :=
      List.find?_isSome.mpr ⟨field, declaration.mem_fields field, decide_eq_true h.symm⟩
    obtain ⟨found, hfound⟩ := Option.isSome_iff_exists.mp hsome
    have hname := List.find?_some hfound
    rw [hfound, declaration.name_injective ((of_decide_eq_true hname).trans h)]

/-- A node is accepted if it says what a field holds that is not known yet. -/
theorem accepts_add : (draft.add node).Accepts draft' ↔ ∃ field content,
    node.name = declaration.name field ∧ draft field = none ∧
      (declaration.attributeOf field).Says node content ∧ draft' = draft.learn field content := by
  unfold add
  cases hfound : declaration.fields.find? fun field => declaration.name field = node.name with
  | none =>
      refine iff_of_false not_accepts_note_pure ?_
      rintro ⟨field, content, hname, -⟩
      exact nomatch hfound.symm.trans (find?_eq_some_iff.mpr hname)
  | some field =>
      dsimp only
      rw [accepts_bind]
      simp only [Attribute.accepts_decode, accepts_pure, Option.isSome_eq_false_iff,
        Option.isNone_iff_eq_none]
      constructor
      · rintro ⟨content, ⟨hfirst, hsaid⟩, rfl⟩
        exact ⟨field, content, find?_eq_some_iff.mp hfound, hfirst, hsaid, rfl⟩
      · rintro ⟨field', content, hname, hfirst, hsaid, rfl⟩
        obtain rfl := Option.some.inj (hfound.symm.trans (find?_eq_some_iff.mpr hname))
        exact ⟨content, ⟨hfirst, hsaid⟩, rfl⟩

/-- **NODES ARE ACCEPTED ONE AFTER THE OTHER IF EACH NAMES A FIELD**, and no field is named twice or
    known before. -/
theorem accepts_foldlM : (nodes.foldlM add draft).Accepts draft' ↔
    (∀ node ∈ nodes, ∃ field, node.name = declaration.name field) ∧
      ∀ field, Learned (declaration.attributeOf field) (draft field)
        (named (declaration.name field) nodes) (draft' field) := by
  induction nodes generalizing draft with
  | nil =>
      refine accepts_pure.trans ⟨?_, fun h => funext fun field => ?_⟩
      · rintro rfl
        exact ⟨nofun, fun field => Learned.unnamed⟩
      · obtain ⟨-, hlearned⟩ := h
        exact (hlearned field).of_nil.symm
  | cons node nodes ih =>
      rw [accepts_foldlM_cons, List.forall_mem_cons]
      constructor
      · rintro ⟨next, hnode, hnodes⟩
        obtain ⟨field, content, hname, hfirst, hsaid, rfl⟩ := accepts_add.mp hnode
        obtain ⟨hnames, hlearned⟩ := ih.mp hnodes
        refine ⟨⟨⟨field, hname⟩, hnames⟩, fun other => ?_⟩
        have hother := hlearned other
        by_cases hsame : other = field
        · subst hsame
          -- it is known now, so that no node behind has its name
          rw [learn_self] at hother
          obtain ⟨hnone, hknown⟩ := hother.of_known
          rw [named_cons_of_eq hname, hfirst, hnone, hknown]
          exact .said hsaid
        · rw [learn_of_ne hsame] at hother
          rw [named_cons_of_ne (hname.trans_ne (declaration.name_injective.ne (Ne.symm hsame)))]
          exact hother
      · rintro ⟨⟨⟨field, hname⟩, hnames⟩, hlearned⟩
        have hfield := hlearned field
        rw [named_cons_of_eq hname] at hfield
        obtain ⟨hfirst, hnone, content, hsaid, hknown⟩ := hfield.of_cons
        refine ⟨draft.learn field content, accepts_add.mpr ⟨field, content, hname, hfirst, hsaid, rfl⟩,
          ih.mpr ⟨hnames, fun other => ?_⟩⟩
        by_cases hsame : other = field
        · subst hsame
          rw [learn_self, hnone, hknown]
          exact .unnamed
        · have hother := hlearned other
          rw [named_cons_of_ne (hname.trans_ne (declaration.name_injective.ne (Ne.symm hsame)))] at hother
          rw [learn_of_ne hsame]
          exact hother

end Draft

/-! ## Records -/

section Records

variable {ρ : Type} {declaration : Declaration ρ} {nodes : List Node} {record : ρ}

/-- **A RECORD IS DECODED FROM NODES THAT SAY WHAT ITS FIELDS HOLD**, and from no others. -/
theorem accepts_children : (children declaration nodes).Accepts record ↔
    ∃ contents, declaration.Reads nodes contents ∧ declaration.make contents = record := by
  unfold children
  rw [accepts_map]
  simp only [Draft.accepts_foldlM]
  constructor
  · rintro ⟨draft, ⟨hnames, hlearned⟩, rfl⟩
    exact ⟨_, ⟨hnames, fun field => Attribute.holds_iff_learned.mpr ⟨_, hlearned field, rfl⟩⟩, rfl⟩
  · rintro ⟨contents, hreads, rfl⟩
    choose draft hlearned hcontents using fun field => Attribute.holds_iff_learned.mp (hreads.holds field)
    exact ⟨draft, ⟨hreads.names, hlearned⟩, congrArg declaration.make (funext hcontents)⟩

/-- A group is accepted if it groups its children, and these are read. -/
theorem accepts_group : (group declaration node).Accepts record ↔ Groups node ∧
    ∃ contents, declaration.Reads node.children contents ∧ declaration.make contents = record := by
  rw [← accepts_children]
  unfold group
  rw [accepts_unless_note, accepts_unless_refuse, accepts_refuseProperties_bind,
    Option.not_isSome_iff_eq_none]
  constructor
  · rintro ⟨huntyped, harguments, hproperties, h⟩
    exact ⟨⟨huntyped, by simpa using harguments, hproperties⟩, h⟩
  · rintro ⟨hgroups, h⟩
    exact ⟨hgroups.untyped, by simp [hgroups.arguments], hgroups.properties, h⟩

end Records

/-- A result is what is accepted. -/
theorem result_eq_ok_iff {decoder : Decoder β} {found : β} :
    result decoder = .ok found ↔ decoder.Accepts found := by
  obtain ⟨halt | found', issues⟩ := decoder
  · refine iff_of_false ?_ fun h => nomatch (accepts_iff.mp h).1
    cases halt <;> exact nofun
  · rw [accepts_iff]
    cases issues with
    | nil =>
        exact ⟨fun h => ⟨congrArg Except.ok (Except.ok.inj h), rfl⟩,
          fun h => congrArg Except.ok (Except.ok.inj h.1)⟩
    | cons issue issues => exact iff_of_false nofun nofun

/-- **THE LIBRARY THAT COMES WITH THE DOCK IS LAWFUL.** -/
theorem lawful_builtIn : Library.builtIn.Lawful where
  result_eq_ok_iff := result_eq_ok_iff
  integer32_eq_ok_iff := integer32_eq_ok_iff
  float_of_spells {spelling d} h :=
    ⟨d.toFloat, float_eq_ok_iff.mpr ⟨_, Decimal.spells_iff.mp h, rfl⟩, d.nearest_toFloat⟩
  spells_of_float h hfinite := by
    obtain ⟨numeral, hread, rfl⟩ := float_eq_ok_iff.mp h
    cases numeral with
    | finite d => exact ⟨d, Decimal.spells_iff.mpr hread⟩
    | undefined => exact absurd hfinite (by decide +kernel)
    | infinite negative => cases negative <;> exact absurd hfinite (by decide +kernel)
  accepts_byte := accepts_byte
  accepts_children := accepts_children
  accepts_node := accepts_group

end FisheyeDock.Settings
