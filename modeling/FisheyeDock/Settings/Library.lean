import FisheyeDock.Kdl.Document
import FisheyeDock.Settings.Issue

/-! # The library that decodes documents

    Settings are records, and each record declares how nodes give its fields (`Declaration`).  A library
    takes the rest over: it reads the nodes of a text, makes numbers of literals, and decodes nodes by
    declarations (`Library`).  Some issues are noted and decoding goes on, others end it at once. -/

namespace FisheyeDock.Settings

open Kdl (Node Value Radix)

/-! ## Decoding -/

/-- What decoding comes to: a value or what ended it, with the issues that were noted before. -/
structure Decoder (β : Type) where
  outcome : Except (Halt Issue) β
  issues : List Issue

namespace Decoder

variable {β γ : Type}

/-- Takes the outcome for what it is. -/
def ofExcept (outcome : Except (Halt Issue) β) : Decoder β := ⟨outcome, []⟩

/-- Goes on with a value, behind the issues that were noted. -/
def andThen (decoder : Decoder β) (next : β → Decoder γ) : Decoder γ :=
  match decoder.outcome with
  | .ok value => ⟨(next value).outcome, decoder.issues ++ (next value).issues⟩
  | .error halt => ⟨.error halt, decoder.issues⟩

instance : Monad Decoder where
  pure value := ⟨.ok value, []⟩
  bind := andThen

/-- Notes an issue and goes on. -/
def note (issue : Issue) : Decoder Unit := ⟨.ok (), [issue]⟩

def noteAll (issues : List Issue) : Decoder Unit := ⟨.ok (), issues⟩

/-- Ends with an issue. -/
def refuse (issue : Issue) : Decoder β := ⟨.error (.report issue), []⟩

end Decoder

/-! ## Declarations -/

/-- How nodes give a field of a record, and what it holds where none does. -/
inductive Attribute : Type → Type 1 where
  /-- A node that stands alone turns it on. -/
  | flag : Attribute Bool
  /-- A node with one argument, which is decoded. -/
  | argument {β : Type} (decode : Value → Decoder β) (standard : β) : Attribute β
  /-- A node with one argument, a text that is read. -/
  | text {β : Type} (read : String → Except (Halt Issue) β) (standard : β) : Attribute β
  /-- A node that is decoded as a whole. -/
  | node {β : Type} (decode : Node → Decoder β) (standard : β) : Attribute β

/-- What a field holds where no node gives it. -/
def Attribute.standard : {β : Type} → Attribute β → β
  | _, flag => false
  | _, argument _ standard | _, text _ standard | _, node _ standard => standard

/-- The fields of a record, each given by nodes of a name of its own. -/
structure Declaration (ρ : Type) where
  Field : Type
  Content : Field → Type
  name : Field → String
  attributeOf : (field : Field) → Attribute (Content field)
  make : ((field : Field) → Content field) → ρ
  fields : List Field
  mem_fields : ∀ field, field ∈ fields
  name_injective : Function.Injective name
  decEq : DecidableEq Field := by infer_instance

attribute [instance] Declaration.decEq

/-! ## The library -/

/-- What reads documents and decodes them. -/
structure Library where
  /-- The nodes of a text, if it is a document. -/
  parse : String → Option (List Node)
  /-- The number of 32 bits that digits stand for. -/
  integer32 : (negative : Bool) → Radix → (digits : List Char) → Except Issue Int
  /-- The double that a decimal number stands for. -/
  float : (spelling : List Char) → Except Issue Float
  /-- Decodes a byte. -/
  byte : Value → Decoder UInt8
  /-- Decodes a record from the nodes that give its fields. -/
  children : {ρ : Type} → Declaration ρ → List Node → Decoder ρ
  /-- Decodes a record from a node around those that give its fields. -/
  node : {ρ : Type} → Declaration ρ → Node → Decoder ρ
  /-- What decoding a document comes to in the end. -/
  result : {β : Type} → Decoder β → Except (Halt (List Issue)) β

end FisheyeDock.Settings
