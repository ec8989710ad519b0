import FisheyeDock.Scalar

/-! # Points and axes of the screen

    A dock runs along one screen axis and rises along the other, so points are read and written
    through an `Axis`. -/

namespace FisheyeDock

/-- A point of the screen, or a vector between two. -/
structure Point (α : Type) where
  x : α
  y : α
  deriving Repr, DecidableEq

/-- One of the two screen axes. -/
inductive Axis where
  | x
  | y
  deriving Repr, DecidableEq

namespace Axis

variable {α : Type}

/-- The coordinate of `p` on the axis. -/
def of : Axis → Point α → α
  | x, p => p.x
  | y, p => p.y

/-- `p` with another coordinate on the axis. -/
def set : Axis → Point α → α → Point α
  | x, p, value => { p with x := value }
  | y, p, value => { p with y := value }

/-- `p` with the coordinate on the axis changed by `f`. -/
def modify (axis : Axis) (p : Point α) (f : α → α) : Point α := axis.set p (f (axis.of p))

/-- The vector of length `value` along the axis. -/
def vector [Scalar α] : Axis → α → Point α
  | x, value => ⟨value, 0.0⟩
  | y, value => ⟨0.0, value⟩

/-- The other axis. -/
def across : Axis → Axis
  | x => y
  | y => x

/-- What is written along an axis is read back along it. -/
@[simp] theorem of_set (axis : Axis) (p : Point α) (value : α) :
    axis.of (axis.set p value) = value := by
  cases axis <;> rfl

/-- What is written along an axis leaves the other coordinate as it is. -/
@[simp] theorem of_across_set (axis : Axis) (p : Point α) (value : α) :
    axis.across.of (axis.set p value) = axis.across.of p := by
  cases axis <;> rfl

@[simp] theorem of_set_across (axis : Axis) (p : Point α) (value : α) :
    axis.of (axis.across.set p value) = axis.of p := by
  cases axis <;> rfl

@[simp] theorem set_of (axis : Axis) (p : Point α) : axis.set p (axis.of p) = p := by
  cases axis <;> rfl

end Axis

/-- `start` weighed against `goal`: the larger `coef`, the more of `start` is kept. -/
def blend {α : Type} [Scalar α] (start goal coef : α) : α :=
  (start * coef + goal) / (coef + 1.0)

/-- The largest even number that is not above. -/
def evenFloor {α : Type} [Scalar α] (value : α) : α := Scalar.floor (value / 2.0) * 2.0

namespace Point

variable {α : Type} [Scalar α]

/-- The vector with both coordinates equal. -/
def splat (value : α) : Point α := ⟨value, value⟩

/-- The corner of the coordinates. -/
def zero : Point α := splat 0.0

/-- A point without coordinates. -/
def undefined : Point α := splat Scalar.undefined

instance : Add (Point α) := ⟨fun p q => ⟨p.x + q.x, p.y + q.y⟩⟩

instance : Sub (Point α) := ⟨fun p q => ⟨p.x - q.x, p.y - q.y⟩⟩

/-- `p` with both coordinates multiplied. -/
def scale (p : Point α) (factor : α) : Point α := ⟨p.x * factor, p.y * factor⟩

def length (p : Point α) : α := Scalar.sqrt (p.x * p.x + p.y * p.y)

/-- The straight distance between two points. -/
def distance (p q : Point α) : α := (p - q).length

/-- Whether both coordinates are finite numbers. -/
def isFinite (p : Point α) : Bool := Scalar.isFinite p.x && Scalar.isFinite p.y

/-- The center of the square of side `size` with its top left corner at `corner`. -/
def centerOfSquare (corner : Point α) (size : α) : Point α := corner + splat (size / 2.0)

/-- The blend of both coordinates. -/
def blend (start goal : Point α) (coef : α) : Point α :=
  ⟨FisheyeDock.blend start.x goal.x coef, FisheyeDock.blend start.y goal.y coef⟩

end Point

end FisheyeDock
