import Mathlib.Data.List.Nodup
import FisheyeDock.Marker.Pool
import FisheyeDock.Proofs.Scene.Last

/-! # Taking markers

    A frame takes markers from the pool one after the other.  `Serves` is the account of some takings:
    the markers that are taken afterwards are those that were taken before, and those that have been
    handed out.  As each marker is handed out once, none is in two places, and the pool is not
    exhausted as long as there are more markers than have been taken (`exists_takeSlot`). -/

namespace FisheyeDock.Marker

open Scene (Command lastOf lastOf_of_mem lastOf_eq_none faceOf)

/-- What the last frame has left of a slot. -/
def Slot.past (slot : Slot) : Id × Bool := (slot.id, slot.shown)

namespace Pool

/-- The markers that are taken. -/
def takenIds (slots : List Slot) : List Id := (slots.filter (·.taken)).map Slot.id

/-- The markers that the scene shows since the last frame. -/
def shownIds (slots : List Slot) : List Id := (slots.filter (·.shown)).map Slot.id

/-- The markers of a pool that the scene shows since the last frame. -/
def lit (pool : Pool) : List Id := shownIds pool.dots ++ shownIds pool.badges

/-- What has become of some slots by handing out some markers. -/
structure Serves (slots slots' : List Slot) (served : List Id) : Prop where
  past_eq : slots'.map Slot.past = slots.map Slot.past
  taken_perm : (takenIds slots').Perm (served ++ takenIds slots)

variable {slots slots' slots'' rest : List Slot} {served more : List Id} {id : Id}

theorem Serves.refl (slots : List Slot) : Serves slots slots [] := ⟨rfl, .refl _⟩

theorem Serves.trans (first : Serves slots slots' served) (second : Serves slots' slots'' more) :
    Serves slots slots'' (served ++ more) where
  past_eq := second.past_eq.trans first.past_eq
  taken_perm := by
    have hmore := second.taken_perm.trans (first.taken_perm.append_left more)
    refine hmore.trans ?_
    rw [← List.append_assoc]
    exact List.perm_append_comm.append_right _

/-- Serving leaves the slots as they are named. -/
theorem Serves.ids_eq (h : Serves slots slots' served) :
    slots'.map Slot.id = slots.map Slot.id := by
  have hids := congrArg (List.map Prod.fst) h.past_eq
  rw [List.map_map, List.map_map] at hids
  exact hids

theorem Serves.length_eq (h : Serves slots slots' served) : slots'.length = slots.length := by
  have hlength := congrArg List.length h.ids_eq
  rw [List.length_map, List.length_map] at hlength
  exact hlength

/-- What has been served is taken, next to what was so before. -/
theorem Serves.length_taken (h : Serves slots slots' served) :
    (takenIds slots').length = served.length + (takenIds slots).length := by
  rw [h.taken_perm.length_eq, List.length_append]

/-- A marker that is free is handed out. -/
theorem serves_takeSlot (h : takeSlot slots = some (id, rest)) : Serves slots rest [id] := by
  induction slots generalizing rest with
  | nil => exact nomatch h
  | cons slot slots ih =>
      unfold takeSlot at h
      by_cases htaken : slot.taken = true
      · rw [if_pos htaken] at h
        obtain ⟨⟨_, tail⟩, htail, heq⟩ := Option.map_eq_some_iff.mp h
        obtain ⟨rfl, rfl⟩ := Prod.mk.inj heq
        have hserves := ih htail
        refine ⟨congrArg (slot.past :: ·) hserves.past_eq, ?_⟩
        have hcons : ∀ others, takenIds (slot :: others) = slot.id :: takenIds others := by
          intro others
          unfold takenIds
          rw [List.filter_cons_of_pos htaken, List.map_cons]
        rw [hcons, hcons]
        exact (hserves.taken_perm.cons slot.id).trans (.swap _ _ _)
      · rw [if_neg htaken] at h
        obtain ⟨rfl, rfl⟩ := Prod.mk.inj (Option.some.inj h)
        refine ⟨rfl, ?_⟩
        unfold takenIds
        rw [List.filter_cons_of_pos rfl, List.filter_cons_of_neg htaken]
        exact .refl _

/-- As long as not all markers are taken, there is a free one. -/
theorem exists_takeSlot (h : (takenIds slots).length < slots.length) :
    ∃ id rest, takeSlot slots = some (id, rest) := by
  induction slots with
  | nil => exact absurd h (Nat.lt_irrefl 0)
  | cons slot slots ih =>
      unfold takeSlot
      by_cases htaken : slot.taken = true
      · rw [if_pos htaken]
        have hfewer : (takenIds slots).length < slots.length := by
          unfold takenIds at h ⊢
          rw [List.filter_cons_of_pos htaken, List.map_cons, List.length_cons, List.length_cons] at h
          exact Nat.lt_of_succ_lt_succ h
        obtain ⟨id, rest, htake⟩ := ih hfewer
        rw [htake]
        exact ⟨id, slot :: rest, rfl⟩
      · rw [if_neg htaken]
        exact ⟨_, _, rfl⟩

/-- What is handed out on one occasion: a marker only if one is asked for, and none only if none is
    asked for, or none is free. -/
structure Hands (slots slots' : List Slot) (asked : Bool) (marker : Option Id) : Prop where
  serves : Serves slots slots' marker.toList
  wanted : marker.isSome = true → asked = true
  given : asked = true → (takenIds slots).length < slots.length → marker.isSome = true

/-- What nothing is wanted of hands nothing out. -/
theorem hands_nothing (slots : List Slot) : Hands slots slots false none :=
  ⟨.refl slots, nofun, nofun⟩

/-- Taking hands out the marker that it takes. -/
theorem hands_takeSlot (slots : List Slot) :
    (∃ id rest, takeSlot slots = some (id, rest) ∧ Hands slots rest true (some id)) ∨
      takeSlot slots = none ∧ Hands slots slots true none := by
  cases htake : takeSlot slots with
  | some taken =>
      exact .inl ⟨taken.1, taken.2, rfl, serves_takeSlot htake, fun _ => rfl, fun _ _ => rfl⟩
  | none =>
      refine .inr ⟨rfl, .refl slots, fun _ => rfl, ?_⟩
      intro _ hfree
      obtain ⟨id, rest, hsome⟩ := exists_takeSlot hfree
      rw [htake] at hsome
      exact nomatch hsome

/-! ## From frame to frame -/

theorem takenIds_append (slots more : List Slot) :
    takenIds (slots ++ more) = takenIds slots ++ takenIds more := by
  unfold takenIds
  rw [List.filter_append, List.map_append]

theorem shownIds_append (slots more : List Slot) :
    shownIds (slots ++ more) = shownIds slots ++ shownIds more := by
  unfold shownIds
  rw [List.filter_append, List.map_append]

/-- What is shown is what is lit. -/
theorem mem_shownIds : id ∈ shownIds slots ↔ (id, true) ∈ slots.map Slot.past := by
  unfold shownIds
  constructor
  · intro hmem
    obtain ⟨slot, hslot, rfl⟩ := List.mem_map.mp hmem
    obtain ⟨hslot, hshown⟩ := List.mem_filter.mp hslot
    exact List.mem_map.mpr ⟨slot, hslot, congrArg (slot.id, ·) hshown⟩
  · intro hmem
    obtain ⟨slot, hslot, heq⟩ := List.mem_map.mp hmem
    obtain ⟨rfl, hshown⟩ := Prod.mk.inj heq
    exact List.mem_map_of_mem (List.mem_filter.mpr ⟨hslot, hshown⟩)

/-- Handing markers out changes nothing about what the scene shows. -/
theorem Serves.mem_shownIds_iff (h : Serves slots slots' served) :
    id ∈ shownIds slots' ↔ id ∈ shownIds slots := by
  rw [mem_shownIds, mem_shownIds, h.past_eq]

/-- Once all slots are free, none is taken. -/
theorem takenIds_free (slots : List Slot) : takenIds (slots.map free) = [] := by
  unfold takenIds
  rw [List.filter_eq_nil_iff.mpr, List.map_nil]
  intro slot hslot
  obtain ⟨old, -, rfl⟩ := List.mem_map.mp hslot
  exact Bool.false_ne_true

/-- What was shown before is not forgotten with that. -/
theorem past_free (slots : List Slot) : (slots.map free).map Slot.past = slots.map Slot.past := by
  rw [List.map_map]
  rfl

/-- A frame ends with what it has taken being shown. -/
theorem shownIds_settle (slots : List Slot) : shownIds (slots.map settle) = takenIds slots := by
  unfold shownIds takenIds
  rw [List.filter_map, List.map_map]
  rfl

/-- New slots show nothing. -/
theorem shownIds_fresh (first count : Nat) : shownIds (fresh first count) = [] := by
  unfold shownIds fresh
  rw [List.filter_eq_nil_iff.mpr, List.map_nil]
  intro slot hslot
  obtain ⟨i, -, rfl⟩ := List.mem_map.mp hslot
  exact Bool.false_ne_true

/-- What is shown is among the slots, once each at most. -/
theorem shownIds_sublist (slots : List Slot) : (shownIds slots).Sublist (slots.map Slot.id) :=
  List.filter_sublist.map _

/-- No marker is shown twice, as long as none is in two slots. -/
theorem nodup_lit {pool : Pool} (hnodup : ((pool.dots ++ pool.badges).map Slot.id).Nodup) :
    pool.lit.Nodup := by
  rw [List.map_append] at hnodup
  exact hnodup.sublist ((shownIds_sublist pool.dots).append (shownIds_sublist pool.badges))

/-- The pool grows to what is asked for, and never shrinks. -/
theorem length_grow {α : Type} (pool : Pool) (dots badges : Nat) :
    (pool.grow (α := α) dots badges).1.dots.length = max dots pool.dots.length ∧
      (pool.grow (α := α) dots badges).1.badges.length = max badges pool.badges.length := by
  simp only [grow, fresh, List.length_append, List.length_map, List.length_range]
  omega

/-- A pool that grows shows what it showed. -/
theorem shownIds_grow {α : Type} (pool : Pool) (dots badges : Nat) :
    shownIds (pool.grow (α := α) dots badges).1.dots = shownIds pool.dots ∧
      shownIds (pool.grow (α := α) dots badges).1.badges = shownIds pool.badges := by
  have hnew : ∀ (slots : List Slot) (first count : Nat),
      shownIds (slots ++ fresh first count) = shownIds slots := by
    intro slots first count
    rw [shownIds_append, shownIds_fresh, List.append_nil]
  exact ⟨hnew _ _ _, hnew _ _ _⟩

/-- Clearing the pool hides every marker of it. -/
theorem face_clear {α : Type} (pool : Pool) (id : Id) :
    lastOf (faceOf id) (pool.clear (α := α)).2 = some .hidden ∨
      lastOf (faceOf id) (pool.clear (α := α)).2 = none ∧ id ∉ pool.lit := by
  have hsays : ∀ command ∈ (pool.clear (α := α)).2, ∃ slot ∈ pool.dots ++ pool.badges,
      command = .releaseMarker slot.id := by
    intro command hmem
    obtain ⟨slot, hslot, rfl⟩ := List.mem_map.mp hmem
    exact ⟨slot, hslot, rfl⟩
  by_cases hid : id ∈ (pool.dots ++ pool.badges).map Slot.id
  · obtain ⟨slot, hslot, rfl⟩ := List.mem_map.mp hid
    refine .inl (lastOf_of_mem (List.mem_map_of_mem hslot) (if_pos rfl) ?_)
    intro command hmem
    obtain ⟨other, -, rfl⟩ := hsays command hmem
    by_cases hsame : other.id = slot.id
    · exact .inr (if_pos hsame)
    · exact .inl (if_neg hsame)
  · refine .inr ⟨lastOf_eq_none ?_, ?_⟩
    · intro command hmem
      obtain ⟨other, hother, rfl⟩ := hsays command hmem
      refine if_neg ?_
      rintro rfl
      exact hid (List.mem_map_of_mem hother)
    · intro hlit
      rw [lit, ← shownIds_append] at hlit
      exact hid ((shownIds_sublist _).subset hlit)

/-- All that growing sends is the creation of markers. -/
theorem creates_grow {α : Type} (pool : Pool) (dots badges : Nat) :
    ∀ command ∈ (pool.grow (α := α) dots badges).2, ∃ id kind, command = .createMarker id kind := by
  intro command hmem
  rcases List.mem_append.mp hmem with hdot | hbadge
  · obtain ⟨slot, -, rfl⟩ := List.mem_map.mp hdot
    exact ⟨_, _, rfl⟩
  · obtain ⟨slot, -, rfl⟩ := List.mem_map.mp hbadge
    exact ⟨_, _, rfl⟩

/-- Hiding markers does nothing else. -/
theorem hides_hidings {α : Type} (slots : List Slot) :
    ∀ command ∈ hidings (α := α) slots, ∃ id, command = .hideMarker id := by
  intro command hmem
  obtain ⟨slot, -, hhide⟩ := List.mem_filterMap.mp hmem
  obtain ⟨-, hsome⟩ := Option.ite_none_right_eq_some.mp hhide
  exact ⟨slot.id, (Option.some.inj hsome).symm⟩

/-- What was shown and has not been taken is hidden. -/
theorem mem_hidings {α : Type} (hshown : id ∈ shownIds slots) (hfree : id ∉ takenIds slots) :
    (.hideMarker id : Command α) ∈ hidings slots := by
  obtain ⟨slot, hslot, rfl⟩ := List.mem_map.mp hshown
  obtain ⟨hslot, hshown⟩ := List.mem_filter.mp hslot
  have htaken : slot.taken = false := by
    by_contra htaken
    exact hfree (List.mem_map_of_mem (List.mem_filter.mpr ⟨hslot, Bool.not_eq_false _ ▸ htaken⟩))
  refine List.mem_filterMap.mpr ⟨slot, hslot, if_pos ?_⟩
  rw [hshown, htaken]
  rfl

/-- What has been taken is not hidden, as long as no marker is in two slots. -/
theorem not_mem_takenIds_of_hidings {α : Type} (hnodup : (slots.map Slot.id).Nodup)
    (h : (.hideMarker id : Command α) ∈ hidings slots) : id ∉ takenIds slots := by
  obtain ⟨slot, hslot, hhide⟩ := List.mem_filterMap.mp h
  obtain ⟨hidle, hsome⟩ := Option.ite_none_right_eq_some.mp hhide
  obtain rfl : slot.id = id := Command.hideMarker.inj (Option.some.inj hsome)
  intro hmem
  obtain ⟨other, hother, hid⟩ := List.mem_map.mp hmem
  obtain ⟨hother, htaken⟩ := List.mem_filter.mp hother
  obtain rfl := List.inj_on_of_nodup_map hnodup hother hslot hid
  rw [htaken, Bool.not_true, Bool.and_false] at hidle
  exact nomatch hidle

end Pool

end FisheyeDock.Marker
