import FisheyeDock.Lens
import FisheyeDock.Proofs.Row.Identity
import FisheyeDock.Proofs.Row.Visible

/-! # The lens does not see what is not visible

    In a row that is in order the tiles that are not visible come last.  The search for the nearest
    tile passes them by, and a wave that runs outward reaches them after all visible ones, so that
    nothing comes back from them (`magnify_of_append`).  What the lens does to them is of no
    consequence: it only aims them. -/

namespace FisheyeDock.Lens

variable {α : Type} [Scalar α] {g : Geometry α} {s : Strengths α} {tiles ghosts : List (Tile α)}

/-- None of some tiles is visible. -/
def Ghosts (tiles : List (Tile α)) : Prop := ∀ tile ∈ tiles, tile.visible = false

omit [Scalar α] in
/-- The visible tiles of some that are visible and some that are not. -/
theorem seen_append (htiles : ∀ tile ∈ tiles, tile.visible = true) (hghosts : Ghosts ghosts) :
    Tile.seen (tiles ++ ghosts) = tiles := by
  have hnone : Tile.seen ghosts = [] := by
    refine List.filter_eq_nil_iff.mpr fun tile hmem => ?_
    rw [hghosts tile hmem]
    decide
  have hall : Tile.seen tiles = tiles := List.filter_eq_self.mpr htiles
  show (tiles ++ ghosts).filter _ = tiles
  rw [List.filter_append]
  show Tile.seen tiles ++ Tile.seen ghosts = tiles
  rw [hall, hnone, List.append_nil]

/-- What has been sent back to rest is as visible as it was. -/
theorem Ghosts.of_reset (h : Ghosts ghosts) (hrest : tiles.map Tile.reset = ghosts.map Tile.reset) :
    Ghosts tiles := by
  have hread := congrArg (List.map Tile.visible) hrest
  rw [List.map_map, List.map_map] at hread
  exact Tile.forall_visible_of_map hread h

/-! ## The nearest tile -/

/-- What is not visible is not found. -/
theorem nearestFrom_ghosts (h : Ghosts ghosts) (best : Option (Focus α)) (index : Nat) :
    nearestFrom g best index ghosts = best := by
  induction ghosts generalizing index with
  | nil => rfl
  | cons tile rest ih =>
      have himproves : improves g tile best = false := by
        unfold improves
        rw [h tile List.mem_cons_self]
        rfl
      rw [nearestFrom, himproves]
      exact ih (fun other hother => h other (List.mem_cons_of_mem _ hother)) (index + 1)

theorem nearestFrom_append_ghosts (h : Ghosts ghosts) (best : Option (Focus α)) (index : Nat) :
    nearestFrom g best index (tiles ++ ghosts) = nearestFrom g best index tiles := by
  induction tiles generalizing best index with
  | nil => exact nearestFrom_ghosts h best index
  | cons tile rest ih => exact ih _ _

theorem nearest?_append_ghosts (h : Ghosts ghosts) :
    nearest? g (tiles ++ ghosts) = nearest? g tiles :=
  nearestFrom_append_ghosts h none 0

/-! ## The wave -/

/-- A wave runs over some tiles before it runs over those behind them. -/
theorem spreadOut_append (direction : α) (reach : Nat) (wave : Wave α)
    (tiles more : List (Tile α)) : ∃ reach' wave', spreadOut g s direction reach wave (tiles ++ more) =
      spreadOut g s direction reach wave tiles ++ spreadOut g s direction reach' wave' more := by
  induction tiles generalizing reach wave with
  | nil =>
      have hnil : spreadOut g s direction reach wave [] = [] := by
        cases reach <;> rfl
      exact ⟨reach, wave, by rw [hnil]; rfl⟩
  | cons tile rest ih =>
      cases reach with
      | zero => exact ⟨0, wave, by cases more <;> rfl⟩
      | succ reach =>
          obtain ⟨reach', wave', heq⟩ := ih reach _
          exact ⟨reach', wave', congrArg _ heq⟩

/-- Where tiles are heading is forgotten when they are sent back to rest. -/
theorem steady_reset : Tile.Steady (Tile.reset : Tile α → Tile α) := fun _ _ _ _ _ => rfl

/-- What is behind the tile under the lens and the tiles next to it does not matter to them. -/
theorem magnify_of_append {focus : Focus α} (h : focus.index < tiles.length) (more : List (Tile α)) :
    ∃ aimed, magnify g s focus (tiles ++ more) =
        Prod.map (· ++ aimed) id <$> magnify g s focus tiles ∧
      aimed.map Tile.reset = more.map Tile.reset := by
  unfold magnify
  by_cases hnear : isNear g focus = true
  · rw [if_pos hnear, if_pos hnear, List.drop_append_of_le_length (Nat.le_of_lt h),
      List.take_append_of_le_length (Nat.le_of_lt h), List.drop_eq_getElem_cons h]
    obtain ⟨reach, wave, heq⟩ := spreadOut_append (g := g) (s := s) 1.0 waveReach
      (Wave.start g (magnifyCenter g s focus tiles[focus.index])) (tiles.drop (focus.index + 1))
      more
    refine ⟨spreadOut g s 1.0 reach wave more, ?_, map_spreadOut steady_reset ..⟩
    show Except.ok (magnifyAt g s focus _ _ (_ ++ more), true) =
      Except.ok (magnifyAt g s focus _ _ _ ++ _, true)
    unfold magnifyAt
    dsimp only
    rw [heq, ← List.cons_append, ← List.append_assoc]
  · rw [if_neg hnear, if_neg hnear]
    exact ⟨more, rfl, rfl⟩

end FisheyeDock.Lens
