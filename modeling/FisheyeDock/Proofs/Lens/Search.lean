import FisheyeDock.Lens
import FisheyeDock.Proofs.Scalar.Comparison

/-! # What the search for the nearest tile finds

    The search goes once over the row and keeps the best tile so far.  At every point it knows the
    first of the nearest tiles among those it has seen (`nearestFrom_knows`); a tile at an undefined
    distance is never taken and stands in the way of no other.  So the whole search finds the first of
    the nearest tiles in the row, whatever the coordinates are (`nearest?_isFirst`). -/

namespace FisheyeDock

namespace Lens

variable {α : Type} [Scalar α] {g : Geometry α} {tile : Tile α} {tiles : List (Tile α)}
  {focus : Focus α}

/-! ## What is to be found -/

/-- A visible tile whose center the pointer is near enough to. -/
structure Reachable (g : Geometry α) (tile : Tile α) : Prop where
  visible : tile.visible = true
  near : pointerDistance g tile < g.iconSize * 1.25 * g.scaleFactor

/-- A tile that can be reached, and none nearer. -/
structure Closest (g : Geometry α) (tiles : List (Tile α)) (tile : Tile α) : Prop
    extends Reachable g tile where
  least : ∀ other ∈ tiles, Reachable g other → pointerDistance g tile ≤ pointerDistance g other

/-- The lens is on the first of the closest tiles, and tells where that is. -/
structure OnFirst (g : Geometry α) (tiles : List (Tile α)) (focus : Focus α) : Prop where
  tile : ∃ tile, tiles[focus.index]? = some tile ∧ Closest g tiles tile ∧
    focus.distance = pointerDistance g tile ∧ focus.offset = restingCenter g tile - g.pointer
  first : ∀ i tile, tiles[i]? = some tile → Closest g tiles tile → focus.index ≤ i

/-- There is one such place only. -/
theorem OnFirst.unique {focus' : Focus α} (h : OnFirst g tiles focus)
    (h' : OnFirst g tiles focus') : focus = focus' := by
  obtain ⟨tile, htile, hclosest, hdistance, hoffset⟩ := h.tile
  obtain ⟨tile', htile', hclosest', hdistance', hoffset'⟩ := h'.tile
  have hindex : focus.index = focus'.index :=
    le_antisymm (h.first _ tile' htile' hclosest') (h'.first _ tile htile hclosest)
  rw [hindex, htile'] at htile
  obtain rfl := Option.some.inj htile
  obtain ⟨index, distance, offset⟩ := focus
  obtain ⟨index', distance', offset'⟩ := focus'
  subst hdistance hoffset hdistance' hoffset' hindex
  rfl

/-- What is first is one of the tiles. -/
theorem OnFirst.index_lt (h : OnFirst g tiles focus) : focus.index < tiles.length := by
  obtain ⟨tile, htile, -⟩ := h.tile
  exact (List.getElem?_eq_some_iff.mp htile).1

/-! ## What the search knows -/

/-- A tile with the lens on it leads: those before it are farther, those after it not nearer. -/
structure Leads (g : Geometry α) (tiles : List (Tile α)) (focus : Focus α) : Prop where
  tile : ∃ tile, tiles[focus.index]? = some tile ∧ Reachable g tile ∧
    focus = focusOn g focus.index tile
  least : ∀ other ∈ tiles, Reachable g other → focus.distance ≤ pointerDistance g other
  ahead : ∀ i < focus.index, ∀ other, tiles[i]? = some other → Reachable g other →
    focus.distance < pointerDistance g other

/-- What the search knows of the tiles that it has seen. -/
def Knows (g : Geometry α) (seen : List (Tile α)) : Option (Focus α) → Prop
  | none => ∀ tile ∈ seen, ¬ Reachable g tile
  | some focus => Leads g seen focus

/-- A tile improves on the best if it is in reach and nearer. -/
theorem improves_iff {best : Option (Focus α)} : improves g tile best = true ↔
    Reachable g tile ∧ ∀ focus, best = some focus → pointerDistance g tile < focus.distance := by
  unfold improves
  rw [Bool.and_eq_true, Bool.and_eq_true, decide_eq_true_iff]
  constructor
  · rintro ⟨⟨hvisible, hnear⟩, hbest⟩
    refine ⟨⟨hvisible, hnear⟩, ?_⟩
    rintro focus rfl
    exact of_decide_eq_true hbest
  · rintro ⟨⟨hvisible, hnear⟩, hbest⟩
    refine ⟨⟨hvisible, hnear⟩, ?_⟩
    cases best with
    | none => rfl
    | some focus => exact decide_eq_true (hbest focus rfl)

section Comparable

variable [ComparableScalar α] {seen : List (Tile α)} {best : Option (Focus α)}

/-- The distance of what is in reach is a number. -/
theorem Reachable.isUndefined (h : Reachable g tile) :
    Scalar.isUndefined (pointerDistance g tile) = false :=
  (ComparableScalar.isUndefined_of_lt h.near).1

/-- A tile that is nearer than all before it takes the lead. -/
theorem leads_of_improves (h : Knows g seen best) (himproves : improves g tile best = true) :
    Leads g (seen ++ [tile]) (focusOn g seen.length tile) := by
  obtain ⟨hreach, hbest⟩ := improves_iff.mp himproves
  have hbelow : ∀ other ∈ seen, Reachable g other →
      pointerDistance g tile < pointerDistance g other := by
    intro other hother hreachable
    cases best with
    | none => exact absurd hreachable (h other hother)
    | some focus =>
        exact ComparableScalar.lt_of_lt_of_le (hbest focus rfl) (h.least other hother hreachable)
  refine ⟨⟨tile, ?_, hreach, rfl⟩, ?_, ?_⟩
  · exact List.getElem?_concat_length
  · intro other hother hreachable
    rcases List.mem_append.mp hother with hseen | hlast
    · exact ComparableScalar.le_of_lt (hbelow other hseen hreachable)
    · obtain rfl := List.mem_singleton.mp hlast
      exact ComparableScalar.le_refl hreach.isUndefined
  · intro i hi other hother hreachable
    rw [List.getElem?_append_left hi] at hother
    exact hbelow other (List.mem_of_getElem? hother) hreachable

/-- Any other tile leaves the lead where it is. -/
theorem knows_of_not_improves (h : Knows g seen best) (himproves : ¬ improves g tile best = true) :
    Knows g (seen ++ [tile]) best := by
  cases best with
  | none =>
      intro other hother hreach
      rcases List.mem_append.mp hother with hseen | hlast
      · exact h other hseen hreach
      · obtain rfl := List.mem_singleton.mp hlast
        exact himproves (improves_iff.mpr ⟨hreach, fun _ hnone => nomatch hnone⟩)
  | some focus =>
      obtain ⟨leader, hleader, hreach, hfocus⟩ := h.tile
      have hindex : focus.index < seen.length := (List.getElem?_eq_some_iff.mp hleader).1
      have hnumber : Scalar.isUndefined focus.distance = false := by
        rw [hfocus]
        exact hreach.isUndefined
      refine ⟨⟨leader, ?_, hreach, hfocus⟩, ?_, ?_⟩
      · rw [List.getElem?_append_left hindex]
        exact hleader
      · intro other hother hreachable
        rcases List.mem_append.mp hother with hseen | hlast
        · exact h.least other hseen hreachable
        · obtain rfl := List.mem_singleton.mp hlast
          refine ComparableScalar.le_of_not_lt hreachable.isUndefined hnumber fun hlt => ?_
          refine himproves (improves_iff.mpr ⟨hreachable, ?_⟩)
          rintro known hknown
          obtain rfl := Option.some.inj hknown
          exact hlt
      · intro i hi other hother
        rw [List.getElem?_append_left (hi.trans hindex)] at hother
        exact h.ahead i hi other hother

/-- **THE SEARCH KNOWS THE FIRST OF THE CLOSEST TILES IT HAS SEEN.** -/
theorem nearestFrom_knows (h : Knows g seen best) (tiles : List (Tile α)) :
    Knows g (seen ++ tiles) (nearestFrom g best seen.length tiles) := by
  induction tiles generalizing seen best with
  | nil =>
      rw [List.append_nil]
      exact h
  | cons tile rest ih =>
      have hlength : (seen ++ [tile]).length = seen.length + 1 := List.length_append
      rw [List.append_cons, nearestFrom, ← hlength]
      refine ih ?_
      split
      · next himproves => exact leads_of_improves h himproves
      · next himproves => exact knows_of_not_improves h himproves

/-- What is found in the end is known of all tiles. -/
theorem nearest?_knows (g : Geometry α) (tiles : List (Tile α)) :
    Knows g tiles (nearest? g tiles) := by
  have hnothing : Knows g [] none := fun _ hmem => nomatch hmem
  exact nearestFrom_knows hnothing tiles

/-- A visible tile at a number that cannot be reached is farther than the one that leads. -/
theorem Leads.lt_of_not_reachable (h : Leads g tiles focus) (hvisible : tile.visible = true)
    (hnumber : Scalar.isUndefined (pointerDistance g tile) = false) (hfar : ¬ Reachable g tile) :
    focus.distance < pointerDistance g tile := by
  obtain ⟨leader, -, hreach, hfocus⟩ := h.tile
  rw [congrArg Focus.distance hfocus]
  exact ComparableScalar.lt_of_lt_of_not_lt hreach.near hnumber fun hnear => hfar ⟨hvisible, hnear⟩

/-- So the tile that leads is the nearest of all that are visible, -/
theorem Leads.le_of_visible (h : Leads g tiles focus) (htile : tile ∈ tiles)
    (hvisible : tile.visible = true)
    (hnumber : Scalar.isUndefined (pointerDistance g tile) = false) :
    focus.distance ≤ pointerDistance g tile := by
  by_cases hreach : Reachable g tile
  · exact h.least tile htile hreach
  · exact ComparableScalar.le_of_lt (h.lt_of_not_reachable hvisible hnumber hreach)

/-- and those before it are farther. -/
theorem Leads.lt_of_visible (h : Leads g tiles focus) {i : Nat} (hi : i < focus.index)
    (htile : tiles[i]? = some tile) (hvisible : tile.visible = true)
    (hnumber : Scalar.isUndefined (pointerDistance g tile) = false) :
    focus.distance < pointerDistance g tile := by
  by_cases hreach : Reachable g tile
  · exact h.ahead i hi tile htile hreach
  · exact h.lt_of_not_reachable hvisible hnumber hreach

/-- What leads all tiles comes first among the closest. -/
theorem Leads.onFirst (h : Leads g tiles focus) : OnFirst g tiles focus := by
  obtain ⟨leader, hleader, hreach, hfocus⟩ := h.tile
  have hdistance : focus.distance = pointerDistance g leader := congrArg Focus.distance hfocus
  refine ⟨⟨leader, hleader, ⟨hreach, ?_⟩, hdistance, congrArg Focus.offset hfocus⟩, ?_⟩
  · intro other hother hreachable
    rw [← hdistance]
    exact h.least other hother hreachable
  · intro i tile htile hclosest
    by_contra hbefore
    have hlt := h.ahead i (Nat.lt_of_not_le hbefore) tile htile hclosest.toReachable
    have hle := hclosest.least leader (List.mem_of_getElem? hleader) hreach
    rw [hdistance] at hlt
    exact ComparableScalar.not_lt_of_le hle hlt

/-- Nothing is found exactly where nothing is in reach. -/
theorem nearest?_eq_none_iff :
    nearest? g tiles = none ↔ ∀ tile ∈ tiles, ¬ Reachable g tile := by
  have hknows := nearest?_knows g tiles
  cases h : nearest? g tiles with
  | none =>
      rw [h] at hknows
      exact iff_of_true rfl hknows
  | some focus =>
      rw [h] at hknows
      obtain ⟨leader, hleader, hreach, -⟩ := hknows.tile
      exact iff_of_false nofun fun hnone => hnone leader (List.mem_of_getElem? hleader) hreach

/-- What is found is the first of the closest. -/
theorem nearest?_eq_some_iff : nearest? g tiles = some focus ↔ OnFirst g tiles focus := by
  have hknows := nearest?_knows g tiles
  cases h : nearest? g tiles with
  | none =>
      rw [h] at hknows
      refine iff_of_false nofun fun hfirst => ?_
      obtain ⟨tile, htile, hclosest, -⟩ := hfirst.tile
      exact hknows tile (List.mem_of_getElem? htile) hclosest.toReachable
  | some found =>
      rw [h] at hknows
      constructor
      · rintro heq
        obtain rfl := Option.some.inj heq
        exact hknows.onFirst
      · intro hfirst
        rw [hknows.onFirst.unique hfirst]

end Comparable

/-- **THE SEARCH FINDS THE FIRST OF THE CLOSEST TILES**, and none just if none can be reached: for any
    tiles, any icon size and any pointer, infinite and undefined coordinates included.  Where a tile
    lies that is found is a number, and its index that of a tile. -/
theorem nearest?_isFirst (g : Geometry Float) (tiles : List (Tile Float)) :
    (nearest? g tiles = none ↔ ∀ tile ∈ tiles, ¬ Reachable g tile) ∧
      ∀ focus, (nearest? g tiles = some focus ↔ OnFirst g tiles focus) ∧
        (nearest? g tiles = some focus →
          focus.distance.isNaN = false ∧ focus.index < tiles.length) := by
  refine ⟨nearest?_eq_none_iff, fun focus => ⟨nearest?_eq_some_iff, fun hfound => ?_⟩⟩
  have hfirst := nearest?_eq_some_iff.mp hfound
  obtain ⟨tile, -, hclosest, hdistance, -⟩ := hfirst.tile
  refine ⟨?_, hfirst.index_lt⟩
  rw [hdistance]
  exact hclosest.isUndefined

end Lens

end FisheyeDock
