import FisheyeDock.Fault

/-! # Texts cut by bytes

    A text is measured in the bytes of its UTF-8 form and cut at a count of them.  A cut inside a
    character is a fault. -/

namespace FisheyeDock.Text

/-- The number of bytes of a text. -/
def byteLength : List Char → Nat
  | [] => 0
  | c :: rest => c.utf8Size + byteLength rest

/-- The parts before and behind a byte, of a text that begins at byte `start`. -/
def cutFrom (index : Nat) : (start : Nat) → List Char → Except Fault (List Char × List Char)
  | _, [] => .ok ([], [])
  | start, c :: rest =>
    if index ≤ start then .ok ([], c :: rest)
    else if index < start + c.utf8Size then .error (.insideCharacter index c start)
    else
      match cutFrom index (start + c.utf8Size) rest with
      | .ok (front, back) => .ok (c :: front, back)
      | .error fault => .error fault

/-- The parts of a text before and behind a byte. -/
def cutAt (index : Nat) (text : List Char) : Except Fault (List Char × List Char) :=
  cutFrom index 0 text

end FisheyeDock.Text
