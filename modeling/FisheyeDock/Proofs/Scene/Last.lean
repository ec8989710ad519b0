import Mathlib.Data.List.Nodup
import FisheyeDock.Scene

/-! # What the scene was told last

    A command that says something about an object overrides what was said before.  What the scene
    shows is therefore the last of the commands that say it.  `lastOf` finds it, for any way to read a
    command; the ways that matter are whether a tile is shown and takes clicks, where it is, where the
    label of an icon goes, and what a marker looks like.

    Most commands are sent item by item.  Where no two items are about the same object, what is said
    last about an object is what its own item says (`lastOf_flatMap_of_nodup`). -/

namespace FisheyeDock.Scene

variable {α β γ κ : Type} {view : Command α → Option β} {commands : List (Command α)}

/-! ## What a command says -/

/-- Whether a tile is shown. -/
def visibilityOf (id : Tile.Id) : Command α → Option Bool
  | .showTile other visible => if other = id then some visible else none
  | _ => none

/-- Whether a tile takes clicks. -/
def activityOf (id : Tile.Id) : Command α → Option Bool
  | .activateTile other reactive => if other = id then some reactive else none
  | _ => none

/-- The position and the scale of a tile. -/
def transformOf (id : Tile.Id) : Command α → Option (Point α × α)
  | .transformTile other position scale => if other = id then some (position, scale) else none
  | _ => none

/-- Where the label of an icon goes. -/
def labelOf (key : Icon.Key) : Command α → Option (Label α)
  | .placeLabel other label => if other = key then some label else none
  | _ => none

/-- What is seen of a marker. -/
inductive Face (α : Type) where
  /-- The marker is new, hidden or released. -/
  | hidden
  | dot (dot : Dot α)
  | badge (badge : Badge α)

/-- What is to be seen of a marker. -/
def faceOf (id : Marker.Id) : Command α → Option (Face α)
  | .createMarker other _ | .hideMarker other | .releaseMarker other =>
    if other = id then some .hidden else none
  | .showDot other dot => if other = id then some (.dot dot) else none
  | .showBadge other badge => if other = id then some (.badge badge) else none
  | _ => none

/-! ## What is said last -/

/-- What some commands say last, as far as a view of them reads it. -/
def lastOf (view : Command α → Option β) (commands : List (Command α)) : Option β :=
  (commands.filterMap view).getLast?

/-- What is said later counts. -/
theorem lastOf_append (view : Command α → Option β) (before after : List (Command α)) :
    lastOf view (before ++ after) = (lastOf view after).or (lastOf view before) := by
  unfold lastOf
  rw [List.filterMap_append, List.getLast?_append]

/-- Where nothing is viewed, there is no last view. -/
theorem lastOf_eq_none (h : ∀ command ∈ commands, view command = none) :
    lastOf view commands = none := by
  unfold lastOf
  rw [List.filterMap_eq_nil_iff.mpr h]
  rfl

theorem lastOf_singleton (view : Command α → Option β) (command : Command α) :
    lastOf view [command] = view command := by
  unfold lastOf
  rw [List.filterMap_cons]
  cases view command <;> rfl

/-- The last view of a list is that of its rest, if there is one. -/
theorem lastOf_cons (view : Command α → Option β) (command : Command α)
    (commands : List (Command α)) :
    lastOf view (command :: commands) = (lastOf view commands).or (view command) := by
  rw [← lastOf_singleton view command, ← lastOf_append]
  rfl

section FlatMap

variable {items : List γ} {commandsOf : γ → List (Command α)} {said : β}

theorem lastOf_flatMap_eq_none (h : ∀ item ∈ items, lastOf view (commandsOf item) = none) :
    lastOf view (items.flatMap commandsOf) = none := by
  induction items with
  | nil => rfl
  | cons first rest ih =>
      rw [List.flatMap_cons, lastOf_append, h first List.mem_cons_self,
        ih fun item hitem => h item (List.mem_cons_of_mem _ hitem)]
      rfl

/-- Where nothing but one thing is said, that is said last, if anything. -/
theorem lastOf_flatMap_or (h : ∀ item ∈ items,
    lastOf view (commandsOf item) = none ∨ lastOf view (commandsOf item) = some said) :
    lastOf view (items.flatMap commandsOf) = none ∨
      lastOf view (items.flatMap commandsOf) = some said := by
  induction items with
  | nil => exact .inl rfl
  | cons first rest ih =>
      rw [List.flatMap_cons, lastOf_append]
      rcases ih fun item hitem => h item (List.mem_cons_of_mem _ hitem) with hnone | hsaid
      · rw [hnone]
        exact h first List.mem_cons_self
      · rw [hsaid]
        exact .inr rfl

/-- Where one item says a thing and no other one says another thing, that is said last. -/
theorem lastOf_flatMap {item : γ} (hmem : item ∈ items)
    (hsaid : lastOf view (commandsOf item) = some said)
    (h : ∀ other ∈ items,
      lastOf view (commandsOf other) = none ∨ lastOf view (commandsOf other) = some said) :
    lastOf view (items.flatMap commandsOf) = some said := by
  induction items with
  | nil => exact nomatch hmem
  | cons first rest ih =>
      have hrest : ∀ other ∈ rest,
          lastOf view (commandsOf other) = none ∨ lastOf view (commandsOf other) = some said :=
        fun other hother => h other (List.mem_cons_of_mem _ hother)
      rw [List.flatMap_cons, lastOf_append]
      rcases List.mem_cons.mp hmem with rfl | hlater
      · rw [hsaid]
        rcases lastOf_flatMap_or hrest with hnone | hsame
        · rw [hnone]
          rfl
        · rw [hsame]
          rfl
      · rw [ih hlater hrest]
        rfl

/-- Where every item has an object of its own, what is said last about it is what its item says. -/
theorem lastOf_flatMap_of_nodup {object : γ → κ} (hnodup : (items.map object).Nodup) {item : γ}
    (hmem : item ∈ items) (hsaid : lastOf view (commandsOf item) = some said)
    (h : ∀ other ∈ items, object other ≠ object item → lastOf view (commandsOf other) = none) :
    lastOf view (items.flatMap commandsOf) = some said := by
  refine lastOf_flatMap hmem hsaid ?_
  intro other hother
  by_cases hsame : object other = object item
  · obtain rfl := List.inj_on_of_nodup_map hnodup hother hmem hsame
    exact .inr hsaid
  · exact .inl (h other hother hsame)

end FlatMap

section Alone

variable {said : β}

/-- Commands that say one thing, if anything. -/
theorem lastOf_or (h : ∀ command ∈ commands, view command = none ∨ view command = some said) :
    lastOf view commands = none ∨ lastOf view commands = some said := by
  rw [← List.flatMap_singleton' commands]
  refine lastOf_flatMap_or ?_
  intro command hmem
  rw [lastOf_singleton]
  exact h command hmem

/-- Commands that say one thing, and one that does. -/
theorem lastOf_of_mem {command : Command α} (hmem : command ∈ commands)
    (hsaid : view command = some said)
    (h : ∀ other ∈ commands, view other = none ∨ view other = some said) :
    lastOf view commands = some said := by
  rw [← List.flatMap_singleton' commands]
  refine lastOf_flatMap hmem (by rw [lastOf_singleton]; exact hsaid) ?_
  intro other hother
  rw [lastOf_singleton]
  exact h other hother

end Alone

end FisheyeDock.Scene
