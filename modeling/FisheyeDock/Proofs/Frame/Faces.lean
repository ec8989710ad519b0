import FisheyeDock.Proofs.Frame.Marking

/-! # What a frame says last

    After a frame the scene has been told of every tile whether it is shown and where it is, and of
    every marker what is to be seen of it.  A marker is seen on the tile that has it, as that tile
    stands; one that no tile has is hidden, unless the scene did not show it before. -/

namespace FisheyeDock

open Scene Marker

variable {α : Type} [Scalar α]

/-! ## One tile -/

namespace Tile

variable (g : Geometry α) (settings : Settings α) (tile : Tile α)

/-- Drawing a tile says of that tile whether it is visible. -/
theorem visibility_drawing (id : Tile.Id) : lastOf (visibilityOf id) (tile.drawing g settings) =
    if tile.id = id then some tile.visible else none := by
  unfold drawing
  rw [lastOf_cons]
  split
  · cases tile.badge <;> cases tile.dot <;> rfl
  · rfl

theorem activity_drawing (id : Tile.Id) :
    lastOf (activityOf id) (tile.drawing g settings) = none := by
  unfold drawing
  rw [lastOf_cons]
  split
  · cases tile.badge <;> cases tile.dot <;> rfl
  · rfl

theorem transform_drawing (id : Tile.Id) : lastOf (transformOf id) (tile.drawing g settings) =
    if tile.id = id then
      if tile.visible && tile.position.isFinite then some (tile.position, tile.scale) else none
    else none := by
  unfold drawing
  by_cases hdrawn : (tile.visible && tile.position.isFinite) = true
  · rw [if_pos hdrawn, if_pos hdrawn, lastOf_cons, lastOf_cons]
    cases tile.badge <;> cases tile.dot <;> exact Option.or_none
  · rw [if_neg hdrawn, if_neg hdrawn, ite_self]
    rfl

theorem label_drawing (key : Icon.Key) : lastOf (labelOf key) (tile.drawing g settings) =
    if tile.key = key then
      if tile.visible && tile.position.isFinite then
        some (Label.ofIcon tile.position tile.scale g)
      else none
    else none := by
  unfold drawing
  by_cases hdrawn : (tile.visible && tile.position.isFinite) = true
  · rw [if_pos hdrawn, if_pos hdrawn, lastOf_cons, lastOf_cons, lastOf_cons]
    cases tile.badge <;> cases tile.dot <;> exact Option.or_none.trans Option.or_none
  · rw [if_neg hdrawn, if_neg hdrawn, ite_self]
    rfl

omit [Scalar α] in
/-- What is said of a marker, by commands for at most one. -/
theorem face_toList {command : Marker.Id → Command α} {face : Face α} {id : Marker.Id}
    (h : ∀ other, faceOf id (command other) = if other = id then some face else none)
    (marker : Option Marker.Id) :
    lastOf (faceOf id) (marker.toList.map command) =
      if marker = some id then some face else none := by
  cases marker with
  | none => rfl
  | some other =>
      rw [Option.toList_some, List.map_singleton, lastOf_singleton, h]
      simp only [Option.some.injEq]

/-- What is seen of a marker on a tile: the dot of the tile, or its badge. -/
theorem face_drawing (hdrawn : (tile.visible && tile.position.isFinite) = true)
    (id : Marker.Id) : lastOf (faceOf id) (tile.drawing g settings) =
      if tile.dot = some id then some (.dot (tile.dotFace g settings))
      else if tile.badge = some id then some (.badge (tile.badgeFace g settings)) else none := by
  unfold drawing
  rw [if_pos hdrawn, lastOf_cons, lastOf_cons, lastOf_cons, lastOf_append,
    face_toList fun _ => rfl, face_toList fun _ => rfl]
  by_cases hdot : tile.dot = some id
  · rw [if_pos hdot, if_pos hdot]
    rfl
  · rw [if_neg hdot, if_neg hdot]
    exact (Option.or_none.trans Option.or_none).trans (Option.or_none.trans Option.none_or)

/-- A tile without markers shows none. -/
theorem face_drawing_none {id : Marker.Id} (hdot : tile.dot ≠ some id)
    (hbadge : tile.badge ≠ some id) : lastOf (faceOf id) (tile.drawing g settings) = none := by
  by_cases hdrawn : (tile.visible && tile.position.isFinite) = true
  · rw [face_drawing g settings tile hdrawn, if_neg hdot, if_neg hbadge]
  · unfold drawing
    rw [if_neg hdrawn]
    rfl

end Tile

/-! ## A frame -/

/-- Where nothing is chosen twice, no two items choose the same. -/
theorem eq_of_nodup_filterMap {γ κ : Type} {f : γ → Option κ} {items : List γ} {a b : γ} {chosen : κ}
    (hnodup : (items.filterMap f).Nodup) (ha : a ∈ items) (hb : b ∈ items)
    (hfa : f a = some chosen) (hfb : f b = some chosen) : a = b := by
  induction items with
  | nil => exact nomatch ha
  | cons first rest ih =>
      have hfirst : ∀ c ∈ rest, f first = some chosen → f c ≠ some chosen := by
        intro c hc hchosen hagain
        rw [List.filterMap_cons_some hchosen] at hnodup
        exact (List.nodup_cons.mp hnodup).1 (List.mem_filterMap.mpr ⟨c, hc, hagain⟩)
      have hrest := hnodup.sublist ((List.sublist_cons_self first rest).filterMap f)
      rcases List.mem_cons.mp ha with rfl | haRest
      · rcases List.mem_cons.mp hb with rfl | hbRest
        · rfl
        · exact absurd hfb (hfirst b hbRest hfa)
      · rcases List.mem_cons.mp hb with rfl | hbRest
        · exact absurd hfa (hfirst a haRest hfb)
        · exact ih hrest haRest hbRest

namespace Frame

variable {g : Geometry α} {settings : Settings α} {pool : Pool} {tiles : List (Tile α)}
variable {frame : Frame α} {created hidden : List (Command α)}

/-- What is not about markers is said by the tiles alone. -/
theorem Marking.lastOf_commands {β : Type} {view : Command α → Option β}
    (h : Marking g settings pool tiles frame created hidden)
    (hcreate : ∀ id kind, view (.createMarker id kind) = none)
    (hhide : ∀ id, view (.hideMarker id) = none) :
    lastOf view frame.commands = lastOf view (frame.tiles.flatMap (Tile.drawing g settings)) := by
  have hcreated : lastOf view created = none := by
    refine lastOf_eq_none ?_
    intro command hmem
    obtain ⟨id, kind, rfl⟩ := h.creates command hmem
    exact hcreate id kind
  have hhidden : lastOf view hidden = none := by
    refine lastOf_eq_none ?_
    intro command hmem
    obtain ⟨id, rfl⟩ := h.hides command hmem
    exact hhide id
  rw [h.commands_eq, lastOf_append, lastOf_append, hcreated, hhidden]
  exact Option.none_or.trans Option.or_none

/-- A frame says nothing about clicks. -/
theorem Marking.activity (h : Marking g settings pool tiles frame created hidden) (id : Tile.Id) :
    lastOf (activityOf id) frame.commands = none := by
  rw [h.lastOf_commands (fun _ _ => rfl) fun _ => rfl]
  exact lastOf_flatMap_eq_none fun tile _ => Tile.activity_drawing g settings tile id

section Tiles

variable (h : Marking g settings pool tiles frame created hidden) {tile : Tile α}
variable (hmem : tile ∈ frame.tiles)

include h hmem

/-- In a frame each tile has its own visibility. -/
theorem Marking.visibility (hids : (frame.tiles.map Tile.id).Nodup) :
    lastOf (visibilityOf tile.id) frame.commands = some tile.visible := by
  rw [h.lastOf_commands (fun _ _ => rfl) fun _ => rfl]
  refine lastOf_flatMap_of_nodup hids hmem ?_ ?_
  · rw [Tile.visibility_drawing, if_pos rfl]
  · intro other _ hother
    rw [Tile.visibility_drawing, if_neg hother]

/-- Each visible tile at a finite position is put there. -/
theorem Marking.transform (hids : (frame.tiles.map Tile.id).Nodup)
    (hdrawn : (tile.visible && tile.position.isFinite) = true) :
    lastOf (transformOf tile.id) frame.commands = some (tile.position, tile.scale) := by
  rw [h.lastOf_commands (fun _ _ => rfl) fun _ => rfl]
  refine lastOf_flatMap_of_nodup hids hmem ?_ ?_
  · rw [Tile.transform_drawing, if_pos rfl, if_pos hdrawn]
  · intro other _ hother
    rw [Tile.transform_drawing, if_neg hother]

theorem Marking.label (hkeys : (frame.tiles.map Tile.key).Nodup)
    (hdrawn : (tile.visible && tile.position.isFinite) = true) :
    lastOf (labelOf tile.key) frame.commands =
      some (Label.ofIcon tile.position tile.scale g) := by
  rw [h.lastOf_commands (fun _ _ => rfl) fun _ => rfl]
  refine lastOf_flatMap_of_nodup hkeys hmem ?_ ?_
  · rw [Tile.label_drawing, if_pos rfl, if_pos hdrawn]
  · intro other _ hother
    rw [Tile.label_drawing, if_neg hother]

end Tiles

section Markers

variable (h : Marking g settings pool tiles frame created hidden)
variable (hnodup : ((frame.pool.dots ++ frame.pool.badges).map Slot.id).Nodup)

include h hnodup

/-- No marker is on two tiles, or on one tile twice. -/
theorem Marking.nodup_markers :
    (frame.tiles.filterMap Tile.dot ++ frame.tiles.filterMap Tile.badge).Nodup :=
  (h.dots_lit.append h.badges_lit).nodup_iff.mp (Pool.nodup_lit hnodup)

/-- A marker that a tile has is not hidden. -/
theorem Marking.face_commands {id : Marker.Id} (hlit : id ∈ frame.pool.lit) :
    lastOf (faceOf id) frame.commands =
      (lastOf (faceOf id) (frame.tiles.flatMap (Tile.drawing g settings))).or
        (lastOf (faceOf id) created) := by
  have hstays : lastOf (faceOf id) hidden = none := by
    refine lastOf_eq_none ?_
    intro command hmem
    obtain ⟨other, rfl⟩ := h.hides command hmem
    refine if_neg ?_
    rintro rfl
    exact h.stays hnodup other hlit hmem
  rw [h.commands_eq, lastOf_append, lastOf_append, hstays]
  rfl

/-- What a tile says of a marker is what a frame says of it, where no other tile has the marker. -/
theorem Marking.face_of_drawing {tile : Tile α} (hmem : tile ∈ frame.tiles) {id : Marker.Id}
    {face : Face α} (hlit : id ∈ frame.pool.lit)
    (hitself : lastOf (faceOf id) (tile.drawing g settings) = some face)
    (hothers : ∀ other ∈ frame.tiles,
      other = tile ∨ (other.dot ≠ some id ∧ other.badge ≠ some id)) :
    lastOf (faceOf id) frame.commands = some face := by
  have hsaid : lastOf (faceOf id) (frame.tiles.flatMap (Tile.drawing g settings)) =
      some face := by
    refine lastOf_flatMap hmem hitself ?_
    intro other hother
    rcases hothers other hother with rfl | ⟨hdot, hbadge⟩
    · exact .inr hitself
    · exact .inl (Tile.face_drawing_none g settings other hdot hbadge)
  rw [h.face_commands hnodup hlit, hsaid]
  rfl

/-- A dot is seen on the tile that has it. -/
theorem Marking.face_dot {tile : Tile α} (hmem : tile ∈ frame.tiles) {id : Marker.Id}
    (hdot : tile.dot = some id) :
    lastOf (faceOf id) frame.commands = some (.dot (tile.dotFace g settings)) := by
  obtain ⟨hdots, -, hapart⟩ := List.nodup_append'.mp (h.nodup_markers hnodup)
  have hchosen : id ∈ frame.tiles.filterMap Tile.dot := List.mem_filterMap.mpr ⟨tile, hmem, hdot⟩
  have hwants := h.dot_iff tile hmem
  rw [hdot] at hwants
  obtain ⟨hasks, hfinite⟩ := (Bool.and_eq_true _ _).mp hwants.symm
  have hdrawn : (tile.visible && tile.position.isFinite) = true :=
    (Bool.and_eq_true _ _).mpr ⟨((Bool.and_eq_true _ _).mp hasks).1, hfinite⟩
  refine h.face_of_drawing hnodup hmem
    (List.mem_append_left _ (h.dots_lit.mem_iff.mpr hchosen)) ?_ ?_
  · rw [Tile.face_drawing g settings tile hdrawn, if_pos hdot]
  · intro other hother
    by_cases hsame : other.dot = some id
    · exact .inl (eq_of_nodup_filterMap hdots hother hmem hsame hdot)
    · refine .inr ⟨hsame, fun hbadge => ?_⟩
      exact hapart hchosen (List.mem_filterMap.mpr ⟨other, hother, hbadge⟩)

/-- A badge is seen on the tile that has it. -/
theorem Marking.face_badge {tile : Tile α} (hmem : tile ∈ frame.tiles) {id : Marker.Id}
    (hbadge : tile.badge = some id) :
    lastOf (faceOf id) frame.commands = some (.badge (tile.badgeFace g settings)) := by
  obtain ⟨-, hbadges, hapart⟩ := List.nodup_append'.mp (h.nodup_markers hnodup)
  have hchosen : id ∈ frame.tiles.filterMap Tile.badge :=
    List.mem_filterMap.mpr ⟨tile, hmem, hbadge⟩
  have hwants := h.badge_iff tile hmem
  rw [hbadge] at hwants
  obtain ⟨hasks, hfinite⟩ := (Bool.and_eq_true _ _).mp hwants.symm
  have hdrawn : (tile.visible && tile.position.isFinite) = true :=
    (Bool.and_eq_true _ _).mpr ⟨((Bool.and_eq_true _ _).mp hasks).1, hfinite⟩
  -- no tile has as its dot what this one has as its badge
  have hnoDot : ∀ other ∈ frame.tiles, other.dot ≠ some id := by
    intro other hother hdot
    exact hapart (List.mem_filterMap.mpr ⟨other, hother, hdot⟩) hchosen
  refine h.face_of_drawing hnodup hmem
    (List.mem_append_right _ (h.badges_lit.mem_iff.mpr hchosen)) ?_ ?_
  · rw [Tile.face_drawing g settings tile hdrawn, if_neg (hnoDot tile hmem), if_pos hbadge]
  · intro other hother
    by_cases hsame : other.badge = some id
    · exact .inl (eq_of_nodup_filterMap hbadges hother hmem hsame hbadge)
    · exact .inr ⟨hnoDot other hother, hsame⟩

/-- After a frame, what is seen of markers is what its tiles have, as long as what the frame says
    last is said last, and what no tile has is not seen. -/
theorem Marking.face_iff {trace : List (Command α)}
    (hlast : ∀ id face, lastOf (faceOf id) frame.commands = some face →
      lastOf (faceOf id) trace = some face)
    (hunlit : ∀ id ∉ frame.pool.lit,
      lastOf (faceOf id) trace = none ∨ lastOf (faceOf id) trace = some .hidden)
    {id : Marker.Id} {face : Face α} (hseen : face ≠ .hidden) :
    lastOf (faceOf id) trace = some face ↔
      (∃ tile ∈ frame.tiles, tile.dot = some id ∧ face = .dot (tile.dotFace g settings)) ∨
      (∃ tile ∈ frame.tiles, tile.badge = some id ∧ face = .badge (tile.badgeFace g settings)) := by
  constructor
  · intro hsaid
    by_cases hdot : id ∈ frame.tiles.filterMap Tile.dot
    · obtain ⟨tile, hmem, hid⟩ := List.mem_filterMap.mp hdot
      rw [hlast id _ (h.face_dot hnodup hmem hid)] at hsaid
      exact .inl ⟨tile, hmem, hid, (Option.some.inj hsaid).symm⟩
    by_cases hbadge : id ∈ frame.tiles.filterMap Tile.badge
    · obtain ⟨tile, hmem, hid⟩ := List.mem_filterMap.mp hbadge
      rw [hlast id _ (h.face_badge hnodup hmem hid)] at hsaid
      exact .inr ⟨tile, hmem, hid, (Option.some.inj hsaid).symm⟩
    -- no tile has the marker, so that it would have to be hidden
    have hnone : id ∉ frame.pool.lit := by
      rw [Pool.lit, List.mem_append, h.dots_lit.mem_iff, h.badges_lit.mem_iff, not_or]
      exact ⟨hdot, hbadge⟩
    rcases hunlit id hnone with hsilent | hhidden
    · rw [hsilent] at hsaid
      cases hsaid
    · rw [hhidden] at hsaid
      exact absurd (Option.some.inj hsaid).symm hseen
  · rintro (⟨tile, hmem, hid, rfl⟩ | ⟨tile, hmem, hid, rfl⟩)
    · exact hlast id _ (h.face_dot hnodup hmem hid)
    · exact hlast id _ (h.face_badge hnodup hmem hid)

end Markers

/-- A marker that no tile has is hidden, unless the scene did not show it before. -/
theorem Marking.face_other (h : Marking g settings pool tiles frame created hidden)
    {id : Marker.Id} (hnone : id ∉ frame.pool.lit) :
    lastOf (faceOf id) frame.commands = some .hidden ∨
      lastOf (faceOf id) frame.commands = none ∧ id ∉ pool.lit := by
  have hcreated : lastOf (faceOf id) created = none ∨
      lastOf (faceOf id) created = some .hidden := by
    refine lastOf_or ?_
    intro command hmem
    obtain ⟨other, kind, rfl⟩ := h.creates command hmem
    by_cases hsame : other = id
    · exact .inr (if_pos hsame)
    · exact .inl (if_neg hsame)
  have hhides : ∀ command ∈ hidden, faceOf id command = none ∨ faceOf id command = some .hidden := by
    intro command hmem
    obtain ⟨other, rfl⟩ := h.hides command hmem
    by_cases hsame : other = id
    · exact .inr (if_pos hsame)
    · exact .inl (if_neg hsame)
  have hdrawn : lastOf (faceOf id) (frame.tiles.flatMap (Tile.drawing g settings)) = none := by
    refine lastOf_flatMap_eq_none ?_
    intro tile hmem
    refine Tile.face_drawing_none g settings tile ?_ ?_
    · intro hdot
      exact hnone (List.mem_append_left _
        (h.dots_lit.mem_iff.mpr (List.mem_filterMap.mpr ⟨tile, hmem, hdot⟩)))
    · intro hbadge
      exact hnone (List.mem_append_right _
        (h.badges_lit.mem_iff.mpr (List.mem_filterMap.mpr ⟨tile, hmem, hbadge⟩)))
  rw [h.commands_eq, lastOf_append, lastOf_append, hdrawn]
  -- what was shown before has to be hidden; of the rest it does not matter what is said, if anything
  by_cases hold : id ∈ pool.lit
  · have hlast : lastOf (faceOf id) hidden = some .hidden :=
      lastOf_of_mem (h.retired id hold hnone) (if_pos rfl) hhides
    rw [hlast]
    exact .inl rfl
  · rcases lastOf_or hhides with hlast | hlast
    · rw [hlast]
      rcases hcreated with hold' | hnew
      · exact .inr ⟨hold', hold⟩
      · exact .inl hnew
    · rw [hlast]
      exact .inl rfl

end Frame

end FisheyeDock
