import FisheyeDock.Marker.Pool
import FisheyeDock.Proofs.Scene.Protocol

/-! # What the scene knows of a pool

    To the scene a pool is its markers with their kinds, its `Pool.roster`.  Taking markers, freeing
    them and hiding them leaves the roster alone.  It grows by numbered markers, each created by one
    command, and is cleared by releasing every marker on it. -/

namespace FisheyeDock.Marker

open Scene

variable {α : Type}

/-- A slot as the scene knows it. -/
def Slot.entry (kind : Kind) (slot : Slot) : Object × Role := (.marker slot.id, .marker kind)

namespace Pool

/-- A pool as the scene knows it. -/
def roster (pool : Pool) : Roster :=
  pool.dots.map (Slot.entry .dot) ++ pool.badges.map (Slot.entry .badge)

/-! ## Taking and freeing -/

/-- To take a slot leaves the slots as they are named. -/
theorem ids_takeSlot {slots rest : List Slot} {id : Id} (h : takeSlot slots = some (id, rest)) :
    rest.map Slot.id = slots.map Slot.id ∧ id ∈ slots.map Slot.id := by
  induction slots generalizing rest with
  | nil => exact nomatch h
  | cons slot slots ih =>
      unfold takeSlot at h
      by_cases htaken : slot.taken = true
      · rw [if_pos htaken] at h
        obtain ⟨⟨_, tail⟩, htail, heq⟩ := Option.map_eq_some_iff.mp h
        obtain ⟨rfl, rfl⟩ := Prod.mk.inj heq
        obtain ⟨hids, hmem⟩ := ih htail
        exact ⟨congrArg (slot.id :: ·) hids, List.mem_cons_of_mem _ hmem⟩
      · rw [if_neg htaken] at h
        obtain ⟨rfl, rfl⟩ := Prod.mk.inj (Option.some.inj h)
        exact ⟨rfl, List.mem_cons_self⟩

/-- Slots are entered by their names. -/
theorem map_entry_congr {slots slots' : List Slot} (h : slots'.map Slot.id = slots.map Slot.id)
    (kind : Kind) : slots'.map (Slot.entry kind) = slots.map (Slot.entry kind) := by
  have hentry : ∀ slots : List Slot, slots.map (Slot.entry kind) =
      (slots.map Slot.id).map fun id => (Object.marker id, Role.marker kind) := by
    intro slots
    rw [List.map_map]
    rfl
  rw [hentry, hentry, h]

/-- A slot that is there is entered. -/
theorem mem_map_entry {slots : List Slot} {id : Id} (h : id ∈ slots.map Slot.id) (kind : Kind) :
    (Object.marker id, Role.marker kind) ∈ slots.map (Slot.entry kind) := by
  obtain ⟨slot, hslot, rfl⟩ := List.mem_map.mp h
  exact List.mem_map_of_mem hslot

/-- Taking a marker leaves the pool the same to the scene. -/
theorem roster_take (pool : Pool) (kind : Kind) : (pool.take kind).2.roster = pool.roster := by
  unfold take
  cases kind with
  | dot =>
      cases htake : takeSlot pool.dots with
      | none => rfl
      | some taken => exact congrArg (· ++ _) (map_entry_congr (ids_takeSlot htake).1 .dot)
  | badge =>
      cases htake : takeSlot pool.badges with
      | none => rfl
      | some taken => exact congrArg (_ ++ ·) (map_entry_congr (ids_takeSlot htake).1 .badge)

/-- What is taken is a marker of the pool, of the kind that was asked for. -/
theorem mem_of_take {pool : Pool} {kind : Kind} {id : Id} (h : (pool.take kind).1 = some id) :
    (Object.marker id, Role.marker kind) ∈ pool.roster := by
  unfold take at h
  cases kind with
  | dot =>
      cases htake : takeSlot pool.dots with
      | none =>
          rw [htake] at h
          exact nomatch h
      | some taken =>
          rw [htake] at h
          obtain rfl := Option.some.inj h
          exact List.mem_append_left _ (mem_map_entry (ids_takeSlot htake).2 .dot)
  | badge =>
      cases htake : takeSlot pool.badges with
      | none =>
          rw [htake] at h
          exact nomatch h
      | some taken =>
          rw [htake] at h
          obtain rfl := Option.some.inj h
          exact List.mem_append_right _ (mem_map_entry (ids_takeSlot htake).2 .badge)

/-- Whatever keeps every marker in its slot keeps the roster. -/
theorem roster_map (pool : Pool) {change : Slot → Slot} (h : ∀ slot, (change slot).id = slot.id) :
    roster { pool with dots := pool.dots.map change, badges := pool.badges.map change } =
      pool.roster := by
  have hids : ∀ slots : List Slot, (slots.map change).map Slot.id = slots.map Slot.id := by
    intro slots
    rw [List.map_map]
    exact List.map_congr_left fun slot _ => h slot
  show (pool.dots.map change).map (Slot.entry .dot) ++
    (pool.badges.map change).map (Slot.entry .badge) = pool.roster
  rw [map_entry_congr (hids _), map_entry_congr (hids _)]
  rfl

theorem roster_freeAll (pool : Pool) : pool.freeAll.roster = pool.roster :=
  roster_map pool fun _ => rfl

theorem roster_hideIdle (pool : Pool) : (pool.hideIdle (α := α)).1.roster = pool.roster :=
  roster_map pool fun _ => rfl

/-- Only markers of the pool are hidden. -/
theorem allows_hideIdle (pool : Pool) :
    ∀ deed ∈ deeds (pool.hideIdle (α := α)).2, pool.roster.Allows deed := by
  intro deed hdeed
  obtain ⟨command, hcommand, hof⟩ := List.mem_filterMap.mp hdeed
  obtain ⟨slot, hslot, hhide⟩ := List.mem_filterMap.mp hcommand
  obtain ⟨-, hsome⟩ := Option.ite_none_right_eq_some.mp hhide
  obtain rfl := Option.some.inj hsome
  obtain rfl := Option.some.inj hof
  rcases List.mem_append.mp hslot with hdot | hbadge
  · exact ⟨_, List.mem_append_left _ (List.mem_map_of_mem hdot), .inl rfl⟩
  · exact ⟨_, List.mem_append_right _ (List.mem_map_of_mem hbadge), .inl rfl⟩

/-! ## Growing and clearing -/

/-- New slots are numbered one after the other. -/
theorem ids_fresh (first count : Nat) :
    (fresh first count).map Slot.id = (List.range' first (fresh first count).length).map idAt := by
  unfold fresh
  rw [List.length_map, List.length_range, List.map_map, List.range'_eq_map_range, List.map_map]
  rfl

/-- What creates markers creates the entries of the roster. -/
theorem deeds_creations (kind : Kind) (slots : List Slot) :
    deeds (creations (α := α) kind slots) =
      (slots.map (Slot.entry kind)).map fun entry => .create entry.1 entry.2 := by
  show deeds (slots.map fun slot => Command.createMarker (α := α) slot.id kind) = _
  rw [List.map_map]
  exact deeds_map (fun _ => rfl) slots

/-- A pool grows by markers with the next identities in turn, which are created as what they are. -/
theorem grow_cases (pool : Pool) (dots badges : Nat) : ∃ new : Roster,
    (pool.grow (α := α) dots badges).1.roster.Perm (pool.roster ++ new) ∧
    new.map Prod.fst = (List.range' pool.created new.length).map (fun n => .marker (idAt n)) ∧
    (pool.grow (α := α) dots badges).1.created = pool.created + new.length ∧
    deeds (pool.grow (α := α) dots badges).2 = new.map fun entry => .create entry.1 entry.2 := by
  unfold grow
  dsimp only
  generalize hdots : fresh pool.created (dots - pool.dots.length) = newDots
  generalize hbadges : fresh (pool.created + newDots.length) (badges - pool.badges.length)
    = newBadges
  refine ⟨newDots.map (Slot.entry .dot) ++ newBadges.map (Slot.entry .badge), ?_, ?_, ?_, ?_⟩
  · show ((pool.dots ++ newDots).map (Slot.entry .dot) ++
      (pool.badges ++ newBadges).map (Slot.entry .badge)).Perm
        (pool.dots.map (Slot.entry .dot) ++ pool.badges.map (Slot.entry .badge) ++ _)
    -- new dots come before the old badges, so that the roster grows in its middle
    rw [List.map_append, List.map_append, List.append_assoc, List.append_assoc]
    refine List.Perm.append_left _ ?_
    rw [← List.append_assoc, ← List.append_assoc]
    exact List.perm_append_comm.append_right _
  · have hids : (newDots ++ newBadges).map Slot.id =
        (List.range' pool.created (newDots.length + newBadges.length)).map idAt := by
      rw [List.map_append, ← List.range'_append_1, List.map_append]
      have hd := ids_fresh pool.created (dots - pool.dots.length)
      have hb := ids_fresh (pool.created + newDots.length) (badges - pool.badges.length)
      rw [hdots] at hd
      rw [hbadges] at hb
      rw [hd, hb]
    have hobjects := congrArg (List.map Object.marker) hids
    rw [List.map_append, List.map_append] at hobjects
    simp only [List.map_append, List.map_map, List.length_append, List.length_map] at hobjects ⊢
    exact hobjects
  · rw [List.length_append, List.length_map, List.length_map]
    omega
  · rw [deeds_append, deeds_creations, deeds_creations, List.map_append]

/-- Clearing the pool releases what is on its roster. -/
theorem deeds_clear (pool : Pool) : deeds (pool.clear (α := α)).2 =
    pool.roster.map fun entry => .release entry.1 := by
  show deeds ((pool.dots ++ pool.badges).map fun slot => Command.releaseMarker (α := α) slot.id) =
    (pool.dots.map (Slot.entry .dot) ++ pool.badges.map (Slot.entry .badge)).map
      fun entry => .release entry.1
  rw [deeds_map (fun _ => rfl), List.map_append, List.map_append, List.map_map, List.map_map]
  rfl

end Pool

end FisheyeDock.Marker
