import FisheyeDock.Scene

/-! # The pool of markers

    Markers come from one pool that only grows while the dock is enabled.  A frame begins with every
    marker free, takes them one after the other, and ends by hiding those that were shown before and
    have not been taken again.  A marker keeps no icon from one frame to the next. -/

namespace FisheyeDock.Marker

open Scene

/-- A marker of the pool. -/
structure Slot where
  id : Id
  /-- The scene shows the marker since the last frame. -/
  shown : Bool
  /-- The marker has been taken in this frame. -/
  taken : Bool
  deriving Repr, DecidableEq

structure Pool where
  dots : List Slot
  badges : List Slot
  /-- How many markers have been created so far. -/
  created : Nat
  deriving Repr

namespace Pool

variable {α : Type}

/-- A pool without markers. -/
def empty : Pool := ⟨[], [], 0⟩

/-- The identity of the marker created after `n` others. -/
def idAt (n : Nat) : Id := ⟨UInt64.ofNat n⟩

/-- `count` free markers, created after `first` others. -/
def fresh (first count : Nat) : List Slot :=
  (List.range count).map fun i => ⟨idAt (first + i), false, false⟩

/-- The commands that create the markers of some slots. -/
def creations (kind : Kind) (slots : List Slot) : List (Command α) :=
  slots.map fun slot => .createMarker slot.id kind

/-- Grows the pool to hold at least the given numbers of markers. -/
def grow (pool : Pool) (dots badges : Nat) : Pool × List (Command α) :=
  let newDots := fresh pool.created (dots - pool.dots.length)
  let newBadges := fresh (pool.created + newDots.length) (badges - pool.badges.length)
  ({ dots := pool.dots ++ newDots
     badges := pool.badges ++ newBadges
     created := pool.created + newDots.length + newBadges.length },
    creations .dot newDots ++ creations .badge newBadges)

def free (slot : Slot) : Slot := { slot with taken := false }

/-- Makes every marker free. -/
def freeAll (pool : Pool) : Pool :=
  { pool with dots := pool.dots.map free, badges := pool.badges.map free }

/-- Takes the first free slot. -/
def takeSlot : List Slot → Option (Id × List Slot)
  | [] => none
  | slot :: slots =>
    if slot.taken then (takeSlot slots).map fun (id, rest) => (id, slot :: rest)
    else some (slot.id, { slot with taken := true } :: slots)

/-- Takes a free marker of a kind, if there is one. -/
def take (pool : Pool) : Kind → Option Id × Pool
  | .dot =>
    match takeSlot pool.dots with
    | some (id, dots) => (some id, { pool with dots })
    | none => (none, pool)
  | .badge =>
    match takeSlot pool.badges with
    | some (id, badges) => (some id, { pool with badges })
    | none => (none, pool)

/-- The commands that hide what was shown before this frame and is not part of it. -/
def hidings (slots : List Slot) : List (Command α) :=
  slots.filterMap fun slot => if slot.shown && !slot.taken then some (.hideMarker slot.id) else none

def settle (slot : Slot) : Slot := { slot with shown := slot.taken }

/-- Hides the markers that this frame has not taken. -/
def hideIdle (pool : Pool) : Pool × List (Command α) :=
  ({ pool with dots := pool.dots.map settle, badges := pool.badges.map settle },
    hidings (pool.dots ++ pool.badges))

/-- Releases every marker. -/
def clear (pool : Pool) : Pool × List (Command α) :=
  ({ pool with dots := [], badges := [] },
    (pool.dots ++ pool.badges).map fun slot => .releaseMarker slot.id)

def size (pool : Pool) : Nat := pool.dots.length + pool.badges.length

def isEmpty (pool : Pool) : Bool := pool.size == 0

@[simp] theorem size_clear (pool : Pool) : (pool.clear (α := α)).1.size = 0 := rfl

end Pool

end FisheyeDock.Marker
