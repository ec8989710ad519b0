import FisheyeDock.Plane

/-! # Icons

    The launcher icons of the dock as the host reports them. -/

namespace FisheyeDock

/-- The identity of an icon, known to the host alone. -/
abbrev Icon.Key := UInt64

/-- An icon as the host reports it at one moment. -/
structure Icon (α : Type) where
  key : Icon.Key
  /-- The top left corner at rest, if the icon has been laid out. -/
  position : Option (Point α)
  windows : UInt32
  notifications : UInt32
  isFavorite : Bool
  /-- The icon is on its way out of the dock. -/
  isLeaving : Bool

namespace Icon

variable {α : Type}

/-- A favorite at a position, with neither windows nor notifications. -/
def favorite (key : Icon.Key) (position : Point α) : Icon α where
  key
  position := some position
  windows := 0
  notifications := 0
  isFavorite := true
  isLeaving := false

/-- The position at rest where the layout can use it. -/
def restingPosition [Scalar α] (icon : Icon α) : Option (Point α) := icon.position.filter Point.isFinite

/-- Whether the dock shows the icon. -/
def isEligible (favoritesOnly : Bool) (icon : Icon α) : Bool :=
  !icon.isLeaving && (!favoritesOnly || icon.isFavorite)

/-- The icons without those that repeat the key of an earlier one. -/
def firstOfEachKey : List (Icon α) → List (Icon α)
  | [] => []
  | icon :: icons => icon :: (firstOfEachKey icons).filter (·.key ≠ icon.key)

/-- What is left are some of the icons. -/
theorem mem_of_mem_firstOfEachKey {icon : Icon α} {icons : List (Icon α)}
    (h : icon ∈ firstOfEachKey icons) : icon ∈ icons := by
  induction icons with
  | nil => exact h
  | cons first rest ih =>
    simp only [firstOfEachKey, List.mem_cons, List.mem_filter] at h ⊢
    rcases h with rfl | ⟨h, _⟩
    · exact .inl rfl
    · exact .inr (ih h)

/-- No key is left twice. -/
theorem nodup_keys_firstOfEachKey (icons : List (Icon α)) :
    ((firstOfEachKey icons).map (·.key)).Nodup := by
  induction icons with
  | nil => exact .nil
  | cons first rest ih =>
    simp only [firstOfEachKey, List.map_cons, List.nodup_cons]
    constructor
    · intro h
      obtain ⟨icon, hicon, hkey⟩ := List.mem_map.mp h
      have hne := (List.mem_filter.mp hicon).2
      simp [hkey] at hne
    · exact (ih.sublist (List.filter_sublist.map _))

/-- The icons that the dock shows, one for each key. -/
def shown (favoritesOnly : Bool) (icons : List (Icon α)) : List (Icon α) :=
  firstOfEachKey (icons.filter (isEligible favoritesOnly))

/-- The icon of a key. -/
def ofKey? (icons : List (Icon α)) (key : Icon.Key) : Option (Icon α) :=
  icons.find? (·.key == key)

end Icon

end FisheyeDock
