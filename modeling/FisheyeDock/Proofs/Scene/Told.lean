import Mathlib.Data.List.Nodup
import FisheyeDock.Proofs.Frame.Lineup

/-! # What the scene is told about one thing

    Every command is about one thing: a tile, an icon, a marker, the layout or the layers.  What the
    scene shows of a thing depends on the commands about that thing, in their order, and not on what
    it is told about others in between (`told`).  The name of a tile says which tile a command is
    about, and is no part of what the scene is told about it. -/

namespace FisheyeDock.Scene

/-- What a command is about. -/
inductive Subject where
  | layout
  | tile (id : Tile.Id)
  | icon (key : Icon.Key)
  | marker (id : Marker.Id)
  | layers
  deriving Repr, DecidableEq

/-- Anything but a tile, so that there is no name to be left out. -/
def Subject.IsPlain : Subject → Prop
  | .tile _ => False
  | _ => True

def Command.subject {α : Type} : Command α → Subject
  | .relayout => .layout
  | .createTile id _ _ | .releaseTile id | .showTile id _ | .activateTile id _
  | .transformTile id _ _ => .tile id
  | .placeLabel key _ | .setIconOpacity key _ => .icon key
  | .createMarker id _ | .releaseMarker id | .hideMarker id | .showDot id _
  | .showBadge id _ => .marker id
  | .showLayers _ => .layers

variable {α γ κ : Type} {subject : Subject} {commands commands' : List (Command α)}

/-- What some commands tell about a subject, in their order and without the names of tiles. -/
def told (subject : Subject) (commands : List (Command α)) : List (Command α) :=
  (commands.filter fun command => command.subject = subject).map Command.nameless

/-- What is said of a subject is said in order. -/
theorem told_append (subject : Subject) (before after : List (Command α)) :
    told subject (before ++ after) = told subject before ++ told subject after := by
  unfold told
  rw [List.filter_append, List.map_append]

/-- What is said of others is not said of it. -/
theorem told_eq_nil (h : ∀ command ∈ commands, command.subject ≠ subject) :
    told subject commands = [] := by
  unfold told
  rw [List.filter_eq_nil_iff.mpr fun command hmem => by simpa using h command hmem]
  rfl

theorem told_nil (subject : Subject) : told subject ([] : List (Command α)) = [] := rfl

theorem told_cons (subject : Subject) (command : Command α) (commands : List (Command α)) :
    told subject (command :: commands) =
      if command.subject = subject then command.nameless :: told subject commands
      else told subject commands := by
  unfold told
  rw [List.filter_cons]
  split <;> simp_all

/-- What is not about tiles can be told without their names. -/
theorem told_of_nameless (hplain : subject.IsPlain)
    (h : commands'.map Command.nameless = commands.map Command.nameless) :
    told subject commands' = told subject commands := by
  have hsubject : ∀ command : Command α,
      (command.nameless.subject = subject) = (command.subject = subject) := by
    intro command
    cases subject with
    | tile id => exact hplain.elim
    | _ => cases command <;> simp [Command.nameless, Command.subject]
  have htold : ∀ commands : List (Command α), told subject commands =
      (commands.map Command.nameless).filter fun command => command.subject = subject := by
    intro commands
    unfold told
    rw [List.filter_map]
    refine congrArg _ (List.filter_congr fun command _ => ?_)
    simp only [Function.comp_apply, hsubject]
  rw [htold, htold, h]

/-- Commands that tell the same about everything that is no tile. -/
def SameTelling (commands commands' : List (Command α)) : Prop :=
  ∀ subject : Subject, subject.IsPlain → told subject commands' = told subject commands

namespace SameTelling

variable {more more' : List (Command α)}

theorem refl (commands : List (Command α)) : SameTelling commands commands := fun _ _ => rfl

/-- What is told the same goes on to be so. -/
theorem append (h : SameTelling commands commands') (h' : SameTelling more more') :
    SameTelling (commands ++ more) (commands' ++ more') := by
  intro subject hplain
  rw [told_append, told_append, h subject hplain, h' subject hplain]

/-- What is the same without names is told the same. -/
theorem of_nameless (h : commands'.map Command.nameless = commands.map Command.nameless) :
    SameTelling commands commands' :=
  fun _ hplain => told_of_nameless hplain h

/-- Commands that tell about tiles and icons only tell the same if they do so about icons. -/
theorem of_icons (h : ∀ key, told (.icon key) commands' = told (.icon key) commands)
    (hsilent : ∀ {subject : Subject}, subject.IsPlain → (∀ key, subject ≠ .icon key) →
      told subject commands = [] ∧ told subject commands' = []) :
    SameTelling commands commands' := by
  intro subject hplain
  by_cases hicon : ∃ key, subject = .icon key
  · obtain ⟨key, rfl⟩ := hicon
    exact h key
  · obtain ⟨hnone, hnone'⟩ := hsilent hplain (not_exists.mp hicon)
    rw [hnone, hnone']

end SameTelling

/-! ## Item by item -/

section FlatMap

variable {items : List γ} {commandsOf : γ → List (Command α)}

theorem told_flatMap_eq_nil (h : ∀ item ∈ items, told subject (commandsOf item) = []) :
    told subject (items.flatMap commandsOf) = [] := by
  induction items with
  | nil => rfl
  | cons first rest ih =>
      obtain ⟨hfirst, hrest⟩ := List.forall_mem_cons.mp h
      rw [List.flatMap_cons, told_append, hfirst, ih hrest]
      rfl

/-- Where every item has an object of its own, what is told about one of them is told by its own
    item. -/
theorem told_flatMap_of_nodup {object : γ → κ} (hnodup : (items.map object).Nodup) {item : γ}
    (hmem : item ∈ items)
    (h : ∀ other ∈ items, object other ≠ object item → told subject (commandsOf other) = []) :
    told subject (items.flatMap commandsOf) = told subject (commandsOf item) := by
  induction items with
  | nil => exact nomatch hmem
  | cons first rest ih =>
      obtain ⟨hnew, hrest⟩ := List.nodup_cons.mp hnodup
      obtain ⟨hfirst, hothers⟩ := List.forall_mem_cons.mp h
      rw [List.flatMap_cons, told_append]
      rcases List.mem_cons.mp hmem with rfl | hlater
      · have hnone : told subject (rest.flatMap commandsOf) = [] := by
          refine told_flatMap_eq_nil fun other hother => hothers other hother fun hsame => ?_
          exact hnew (hsame ▸ List.mem_map_of_mem hother)
        rw [hnone, List.append_nil]
      · have hne : object first ≠ object item := fun hsame =>
          hnew (hsame ▸ List.mem_map_of_mem hlater)
        rw [hfirst hne, ih hrest hlater hothers]
        rfl

end FlatMap

end FisheyeDock.Scene
