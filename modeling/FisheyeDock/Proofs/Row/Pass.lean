import Mathlib.Data.List.Induction
import Mathlib.Logic.Function.Basic
import FisheyeDock.Proofs.Row.Relisting

/-! # One pass over the icons

    A row can be brought in line with the icons in place.  A table of the icons that count says for
    each key where the first eligible icon of that key is listed (`Icon.table`).  Tiles whose key is
    not in the table are taken out.  Then every icon that counts is visited: the tile of its key,
    found through a table of places, is brought up to date, or a tile is appended and entered there
    (`Row.Pass`).

    The pass never looks for a tile where there is none, and it does what `Row.reconcile` does
    (`Row.passOver_eq`). -/

namespace FisheyeDock

variable {α : Type}

/-! ## The icons that count -/

namespace Icon

variable {favoritesOnly : Bool} {icons : List (Icon α)} {key : Icon.Key}

/-- Whether an icon is of the key and one that the dock shows. -/
def counts (favoritesOnly : Bool) (key : Icon.Key) (icon : Icon α) : Bool :=
  icon.isEligible favoritesOnly && icon.key == key

/-- The icon of a key: the first one listed that the dock shows. -/
def live? (favoritesOnly : Bool) (icons : List (Icon α)) (key : Icon.Key) : Option (Icon α) :=
  icons.find? (counts favoritesOnly key)

/-- Where the icon of a key is listed. -/
def liveAt? (favoritesOnly : Bool) (icons : List (Icon α)) (key : Icon.Key) : Option Nat :=
  icons.findIdx? (counts favoritesOnly key)

/-- The icons that are listed where the icon of their key is, in the order of the list. -/
def liveIcons (favoritesOnly : Bool) (icons : List (Icon α)) : List (Icon α) :=
  (icons.zipIdx.filter fun entry =>
    liveAt? favoritesOnly icons entry.1.key == some entry.2).map (·.1)

/-- Enters an icon into a table, unless it is not shown or there is one of its key. -/
def enter (favoritesOnly : Bool) (table : Icon.Key → Option Nat) (entry : Icon α × Nat) :
    Icon.Key → Option Nat :=
  if entry.1.isEligible favoritesOnly && (table entry.1.key).isNone then
    Function.update table entry.1.key (some entry.2)
  else table

/-- The table of the icons that count. -/
def table (favoritesOnly : Bool) (icons : List (Icon α)) : Icon.Key → Option Nat :=
  icons.zipIdx.foldl (enter favoritesOnly) fun _ => none

/-- An icon is entered where it counts for a key that has no entry. -/
theorem enter_apply (table : Icon.Key → Option Nat) (entry : Icon α × Nat) (key : Icon.Key) :
    enter favoritesOnly table entry key =
      (table key).or (if entry.1.counts favoritesOnly key then some entry.2 else none) := by
  obtain ⟨icon, place⟩ := entry
  by_cases hkey : icon.key = key
  · subst hkey
    cases htable : table icon.key with
    | none => cases heligible : icon.isEligible favoritesOnly <;> simp [enter, counts, *]
    | some other => simp [enter, htable]
  · have hcounts : icon.counts favoritesOnly key = false := by simp [counts, hkey]
    have hentered : enter favoritesOnly table (icon, place) key = table key := by
      unfold enter
      split
      · exact Function.update_of_ne (Ne.symm hkey) _ _
      · rfl
    simp [hentered, hcounts]

/-- After all icons are entered, a key has the first place that counts for it. -/
theorem foldl_enter (table : Icon.Key → Option Nat) (icons : List (Icon α)) (first : Nat) :
    (icons.zipIdx first).foldl (enter favoritesOnly) table key =
      (table key).or ((liveAt? favoritesOnly icons key).map (· + first)) := by
  induction icons generalizing table first with
  | nil => simp [liveAt?]
  | cons icon rest ih =>
      rw [List.zipIdx_cons, List.foldl_cons, ih, enter_apply, Option.or_assoc]
      congr 1
      unfold liveAt?
      rw [List.findIdx?_cons]
      by_cases hcounts : icon.counts favoritesOnly key = true
      · simp [hcounts]
      · simp [hcounts, Function.comp_def, Nat.add_assoc, Nat.add_comm 1 first]

/-- The table says where the icon of each key is listed. -/
theorem table_eq (favoritesOnly : Bool) (icons : List (Icon α)) :
    table favoritesOnly icons = liveAt? favoritesOnly icons := by
  funext key
  simp [table, foldl_enter]

/-- By a key the first icon of each key is found. -/
theorem ofKey?_firstOfEachKey (icons : List (Icon α)) (key : Icon.Key) :
    ofKey? (firstOfEachKey icons) key = ofKey? icons key := by
  induction icons with
  | nil => rfl
  | cons icon rest ih =>
      unfold ofKey? at ih ⊢
      by_cases hkey : icon.key = key
      · simp [firstOfEachKey, hkey]
      · -- what repeats the key of this icon is not of the other key
        have hother : ∀ other : Icon α,
            decide (other.key ≠ icon.key ∧ other.key = key) = (other.key == key) := by
          intro other
          by_cases hsame : other.key = key
          · simp [hsame, Ne.symm hkey]
          · simp [hsame]
        simp [firstOfEachKey, hkey, List.find?_filter, hother, ih]

/-- What is live for a key is what is shown under it. -/
theorem live?_eq (favoritesOnly : Bool) (icons : List (Icon α)) (key : Icon.Key) :
    live? favoritesOnly icons key = ofKey? (shown favoritesOnly icons) key := by
  have hcounts : ∀ icon : Icon α, icon.counts favoritesOnly key =
      decide (icon.isEligible favoritesOnly = true ∧ (icon.key == key) = true) := by
    intro icon
    rw [counts, Bool.decide_and, Bool.decide_eq_true, Bool.decide_eq_true]
  rw [shown, ofKey?_firstOfEachKey, ofKey?, List.find?_filter]
  exact congrArg (List.find? · icons) (funext hcounts)

/-- A key is live if it is among those shown. -/
theorem isSome_live?_iff : (live? favoritesOnly icons key).isSome = true ↔
    key ∈ (shown favoritesOnly icons).map Icon.key := by
  rw [live?_eq, ofKey?, List.find?_isSome, List.mem_map]
  exact exists_congr fun icon => and_congr_right fun _ => beq_iff_eq

theorem isSome_liveAt? : (liveAt? favoritesOnly icons key).isSome =
    (live? favoritesOnly icons key).isSome := by
  rw [liveAt?, live?, List.findIdx?_isSome, List.isSome_find?]

/-- An icon that is eligible is shown, and no other one of its key. -/
theorem shown_cons_of_eligible {icon : Icon α} (h : icon.isEligible favoritesOnly = true) :
    shown favoritesOnly (icon :: icons) =
      icon :: (shown favoritesOnly icons).filter (·.key ≠ icon.key) := by
  rw [shown, List.filter_cons, if_pos h]
  rfl

theorem shown_cons_of_not_eligible {icon : Icon α} (h : ¬ icon.isEligible favoritesOnly = true) :
    shown favoritesOnly (icon :: icons) = shown favoritesOnly icons := by
  rw [shown, List.filter_cons, if_neg h]
  rfl

/-- The icons that count are those that the dock shows. -/
theorem liveIcons_eq (favoritesOnly : Bool) (icons : List (Icon α)) :
    liveIcons favoritesOnly icons = shown favoritesOnly icons := by
  induction icons with
  | nil => rfl
  | cons icon rest ih =>
      have hlater : ∀ entry : Icon α × Nat,
          (liveAt? favoritesOnly (icon :: rest) entry.1.key == some (entry.2 + 1)) =
            (!icon.counts favoritesOnly entry.1.key &&
              liveAt? favoritesOnly rest entry.1.key == some entry.2) := by
        intro entry
        unfold liveAt?
        rw [List.findIdx?_cons]
        cases icon.counts favoritesOnly entry.1.key <;> simp
      have hrest : (((rest.zipIdx 1).filter fun entry =>
          liveAt? favoritesOnly (icon :: rest) entry.1.key == some entry.2).map (·.1)) =
            (shown favoritesOnly rest).filter fun other => !icon.counts favoritesOnly other.key := by
        rw [← ih, liveIcons, List.filter_map, List.filter_filter, List.zipIdx_succ, List.filter_map,
          List.map_map]
        exact congrArg (List.map _) (List.filter_congr fun entry _ => hlater entry)
      unfold liveIcons
      rw [List.zipIdx_cons, List.filter_cons]
      by_cases heligible : icon.isEligible favoritesOnly = true
      · -- the first icon of its key hides all later ones
        have hfirst : liveAt? favoritesOnly (icon :: rest) icon.key = some 0 := by
          simp [liveAt?, List.findIdx?_cons, counts, heligible]
        rw [if_pos (beq_iff_eq.mpr hfirst), List.map_cons, hrest, shown_cons_of_eligible heligible]
        refine congrArg (icon :: ·) (List.filter_congr fun other _ => ?_)
        rw [counts, heligible, Bool.true_and, Bool.eq_iff_iff, Bool.not_eq_true', decide_eq_true_iff,
          beq_eq_false_iff_ne]
        exact ne_comm
      · have hhidden : ∀ key, icon.counts favoritesOnly key = false := by
          intro key
          simp [counts, heligible]
        have hnot : ¬ (liveAt? favoritesOnly (icon :: rest) icon.key == some 0) = true := by
          simp [liveAt?, List.findIdx?_cons, hhidden]
        rw [if_neg hnot, hrest, shown_cons_of_not_eligible heligible]
        exact List.filter_eq_self.mpr fun other _ => by rw [hhidden]; rfl

end Icon

namespace Row

open Scene (Command)

/-! ## The pass -/

/-- Where the tile of each key stands. -/
def placesOf (tiles : List (Tile α)) : Icon.Key → Option Nat :=
  tiles.zipIdx.foldl (fun places entry => Function.update places entry.1.key (some entry.2))
    fun _ => none

/-- A pass between two icons. -/
structure Pass (α : Type) where
  row : Row α
  places : Icon.Key → Option Nat
  commands : List (Command α)
  changes : Changes

section Visiting

variable [Scalar α]

/-- Visits an icon that counts. -/
def Pass.visit (iconSize : α) (pass : Pass α) (icon : Icon α) : Except Fault (Pass α) :=
  match pass.places icon.key with
  | some place =>
    match pass.row.tiles[place]? with
    | some tile =>
      .ok { pass with
        row := { pass.row with tiles := pass.row.tiles.set place (tile.refresh icon) } }
    | none => .error (.indexOutOfBounds pass.row.tiles.length place)
  | none =>
    let tile := Tile.ofIcon (idAt pass.row.created) icon
    .ok
      { row := ⟨pass.row.tiles ++ [tile], pass.row.created + 1⟩
        places := Function.update pass.places tile.key (some pass.row.tiles.length)
        commands := pass.commands ++ tile.creations iconSize
        changes := { pass.changes with added := pass.changes.added + 1 } }

/-- Brings a row in line with the icons in place. -/
def passOver (row : Row α) (icons : List (Icon α)) (favoritesOnly : Bool) (iconSize : α) :
    Except Fault (Row α × List (Command α) × Changes) := do
  let table := Icon.table favoritesOnly icons
  let kept := row.tiles.filter fun tile => (table tile.key).isSome
  let gone := row.tiles.filter fun tile => !(table tile.key).isSome
  let start : Pass α :=
    { row := { row with tiles := kept }
      places := placesOf kept
      commands := gone.flatMap Tile.releases
      changes := ⟨0, gone.length⟩ }
  let pass ← icons.zipIdx.foldlM (fun pass entry =>
    if table entry.1.key == some entry.2 then pass.visit iconSize entry.1 else pure pass) start
  pure (pass.row, pass.commands, pass.changes)

end Visiting

/-! ## The table of places -/

/-- A table knows the places of tiles: what it gives for a key is where a tile of the key stands,
    and it gives nothing only where there is none. -/
structure Locates (places : Icon.Key → Option Nat) (tiles : List (Tile α)) : Prop where
  found : ∀ key place, places key = some place → tiles[place]?.map Tile.key = some key
  missing : ∀ key, places key = none → key ∉ tiles.map Tile.key

namespace Locates

variable {places : Icon.Key → Option Nat} {tiles tiles' : List (Tile α)}

/-- Nothing is located in an empty row. -/
theorem nil : Locates (fun _ => none) ([] : List (Tile α)) :=
  ⟨nofun, fun _ _ => List.not_mem_nil⟩

/-- A table of places is about keys alone. -/
theorem congr (h : Locates places tiles) (keys : tiles'.map Tile.key = tiles.map Tile.key) :
    Locates places tiles' := by
  constructor
  · intro key place hplace
    rw [← List.getElem?_map, keys, List.getElem?_map]
    exact h.found key place hplace
  · intro key hnone
    rw [keys]
    exact h.missing key hnone

/-- A tile that is appended is entered at the end. -/
theorem push (h : Locates places tiles) (tile : Tile α) :
    Locates (Function.update places tile.key (some tiles.length)) (tiles ++ [tile]) := by
  constructor
  · intro key place hplace
    by_cases hkey : key = tile.key
    · subst hkey
      rw [Function.update_self] at hplace
      obtain rfl := Option.some.inj hplace
      simp
    · rw [Function.update_of_ne hkey] at hplace
      have hfound := h.found key place hplace
      obtain ⟨other, hother, -⟩ := Option.map_eq_some_iff.mp hfound
      rw [List.getElem?_append_left (List.getElem?_eq_some_iff.mp hother).1]
      exact hfound
  · intro key hnone
    by_cases hkey : key = tile.key
    · subst hkey
      rw [Function.update_self] at hnone
      exact nomatch hnone
    · rw [Function.update_of_ne hkey] at hnone
      simp only [List.map_append, List.map_cons, List.map_nil, List.mem_append,
        List.mem_singleton, not_or]
      exact ⟨h.missing key hnone, hkey⟩

end Locates

/-- Tiles are located by their places. -/
theorem locates_placesOf (tiles : List (Tile α)) : Locates (placesOf tiles) tiles := by
  induction tiles using List.reverseRecOn with
  | nil => exact .nil
  | append_singleton tiles tile ih =>
      have hplaces : placesOf (tiles ++ [tile]) =
          Function.update (placesOf tiles) tile.key (some tiles.length) := by
        simp [placesOf, List.zipIdx_append]
      rw [hplaces]
      exact ih.push tile

/-! ## What the pass comes to -/

section Outcome

variable [Scalar α] {row row' : Row α} {icon : Icon α} {rest : List (Icon α)} {tile : Tile α}

/-- What is not listed is not refreshed. -/
theorem refreshFrom_of_not_mem {icons : List (Icon α)} (h : tile.key ∉ icons.map Icon.key) :
    refreshFrom icons tile = tile := by
  have hnone : Icon.ofKey? icons tile.key = none := by
    refine List.find?_eq_none.mpr fun icon hicon hkey => h ?_
    exact beq_iff_eq.mp hkey ▸ List.mem_map_of_mem hicon
  rw [refreshFrom, hnone]

/-- A tile is refreshed from the first icon of its key. -/
theorem refreshFrom_cons_of_eq (h : tile.key = icon.key) :
    refreshFrom (icon :: rest) tile = tile.refresh icon := by
  simp [refreshFrom, Icon.ofKey?, h]

theorem refreshFrom_cons_of_ne (h : tile.key ≠ icon.key) :
    refreshFrom (icon :: rest) tile = refreshFrom rest tile := by
  simp [refreshFrom, Icon.ofKey?, Ne.symm h]

omit [Scalar α] in
/-- An icon that has a tile does not arrive. -/
theorem arrivals_cons_of_mem (h : icon.key ∈ row.tiles.map Tile.key) :
    row.arrivals (icon :: rest) = row.arrivals rest := by
  rw [arrivals, List.filter_cons, (any_key_iff row.tiles).mpr h]
  rfl

omit [Scalar α] in
theorem arrivals_cons_of_not_mem (h : icon.key ∉ row.tiles.map Tile.key) :
    row.arrivals (icon :: rest) = icon :: row.arrivals rest := by
  rw [← any_key_iff, Bool.not_eq_true] at h
  rw [arrivals, List.filter_cons, h]
  rfl

omit [Scalar α] in
/-- What arrives is decided by the keys in the row, as far as they are asked for. -/
theorem arrivals_congr (h : ∀ icon ∈ rest, icon.key ∈ row'.tiles.map Tile.key ↔
    icon.key ∈ row.tiles.map Tile.key) : row'.arrivals rest = row.arrivals rest := by
  refine List.filter_congr fun icon hicon => congrArg not ?_
  rw [Bool.eq_iff_iff, any_key_iff, any_key_iff]
  exact h icon hicon

/-- A pass that has visited icons: the tiles are up to date, and those that were missing are
    appended. -/
structure Pass.Ends (iconSize : α) (pass : Pass α) (icons : List (Icon α)) (pass' : Pass α) :
    Prop where
  row_eq : pass'.row =
    ⟨pass.row.tiles.map (refreshFrom icons) ++
      newTiles pass.row.created (pass.row.arrivals icons),
    pass.row.created + (pass.row.arrivals icons).length⟩
  commands_eq : pass'.commands = pass.commands ++
    (newTiles pass.row.created (pass.row.arrivals icons)).flatMap (Tile.creations iconSize)
  changes_eq : pass'.changes =
    ⟨pass.changes.added + (pass.row.arrivals icons).length, pass.changes.removed⟩

/-- A pass with the tile at a place brought up to date. -/
def Pass.refreshAt (pass : Pass α) (place : Nat) (tile : Tile α) (icon : Icon α) : Pass α :=
  { pass with row := { pass.row with tiles := pass.row.tiles.set place (tile.refresh icon) } }

/-- A pass with a new tile behind the others. -/
def Pass.push (iconSize : α) (pass : Pass α) (icon : Icon α) : Pass α :=
  { row := ⟨pass.row.tiles ++ [Tile.ofIcon (idAt pass.row.created) icon], pass.row.created + 1⟩
    places := Function.update pass.places icon.key (some pass.row.tiles.length)
    commands := pass.commands ++ (Tile.ofIcon (idAt pass.row.created) icon).creations iconSize
    changes := { pass.changes with added := pass.changes.added + 1 } }

/-- A visit to an icon that has a tile. -/
theorem visit_of_found {iconSize : α} {pass : Pass α} {place : Nat}
    (hplace : pass.places icon.key = some place) (htile : pass.row.tiles[place]? = some tile) :
    pass.visit iconSize icon = .ok (pass.refreshAt place tile icon) := by
  simp only [Pass.visit, hplace, htile]
  rfl

/-- A visit to an icon that has none. -/
theorem visit_of_missing {iconSize : α} {pass : Pass α} (hplace : pass.places icon.key = none) :
    pass.visit iconSize icon = .ok (pass.push iconSize icon) := by
  simp only [Pass.visit, hplace]
  rfl

omit [Scalar α] in
/-- A tile that stands at a place, between those before it and those after it. -/
theorem exists_split {tiles : List (Tile α)} {place : Nat} (h : tiles[place]? = some tile)
    (new : Tile α) : ∃ before after, tiles = before ++ tile :: after ∧
      tiles.set place new = before ++ new :: after := by
  obtain ⟨hlt, rfl⟩ := List.getElem?_eq_some_iff.mp h
  obtain ⟨before, after, hsplit, -, hset⟩ := @List.exists_of_set _ place new tiles hlt
  exact ⟨before, after, hsplit, hset⟩

theorem key_refresh (tile : Tile α) (icon : Icon α) : (tile.refresh icon).key = tile.key :=
  congrArg Prod.snd (tile.identity_refresh icon)

/-- A tile brought up to date in its place leaves all keys where they are. -/
theorem keys_set_refresh {tiles : List (Tile α)} {place : Nat} (htile : tiles[place]? = some tile)
    (icon : Icon α) :
    (tiles.set place (tile.refresh icon)).map Tile.key = tiles.map Tile.key := by
  obtain ⟨before, after, hsplit, hset⟩ := exists_split htile (tile.refresh icon)
  rw [hset, hsplit, List.map_append, List.map_append, List.map_cons, List.map_cons, key_refresh]

/-- It makes no difference whether the tile of an icon is brought up to date first. -/
theorem map_refreshFrom_set {tiles : List (Tile α)} {place : Nat}
    (keys : (tiles.map Tile.key).Nodup) (htile : tiles[place]? = some tile)
    (hkey : tile.key = icon.key) (hfresh : icon.key ∉ rest.map Icon.key) :
    (tiles.set place (tile.refresh icon)).map (refreshFrom rest) =
      tiles.map (refreshFrom (icon :: rest)) := by
  obtain ⟨before, after, hsplit, hset⟩ := exists_split htile (tile.refresh icon)
  rw [hset, hsplit]
  rw [hsplit, List.map_append, List.map_cons, List.nodup_append] at keys
  obtain ⟨-, hafter, hbefore⟩ := keys
  have hothers : ∀ tiles' : List (Tile α), (∀ other ∈ tiles', other.key ≠ tile.key) →
      tiles'.map (refreshFrom rest) = tiles'.map (refreshFrom (icon :: rest)) := by
    intro tiles' hne
    refine List.map_congr_left fun other hother => ?_
    rw [refreshFrom_cons_of_ne (hkey ▸ hne other hother)]
  have hdone : refreshFrom rest (tile.refresh icon) = tile.refresh icon := by
    refine refreshFrom_of_not_mem ?_
    rw [key_refresh, hkey]
    exact hfresh
  rw [List.map_append, List.map_append, List.map_cons, List.map_cons, hdone,
    refreshFrom_cons_of_eq hkey, hothers before, hothers after]
  · intro other hother hsame
    exact (List.nodup_cons.mp hafter).1 (hsame ▸ List.mem_map_of_mem hother)
  · intro other hother hsame
    exact hbefore _ (List.mem_map_of_mem hother) _ List.mem_cons_self hsame

/-- A new tile is not touched by later visits, and it changes nothing for those before it. -/
theorem map_refreshFrom_push {tiles : List (Tile α)} (hnew : icon.key ∉ tiles.map Tile.key)
    (hfresh : icon.key ∉ rest.map Icon.key) (id : Tile.Id) :
    (tiles ++ [Tile.ofIcon id icon]).map (refreshFrom rest) =
      tiles.map (refreshFrom (icon :: rest)) ++ [Tile.ofIcon id icon] := by
  have hlast : refreshFrom rest (Tile.ofIcon id icon) = Tile.ofIcon id icon :=
    refreshFrom_of_not_mem hfresh
  rw [List.map_append, List.map_singleton, hlast]
  refine congrArg (· ++ _) (List.map_congr_left fun tile htile => ?_)
  rw [refreshFrom_cons_of_ne fun hsame => hnew (hsame ▸ List.mem_map_of_mem htile)]

section Visits

variable {iconSize : α} {pass pass' : Pass α} {place : Nat}

/-- What follows on the visit to an icon with a tile is what follows on the icon. -/
theorem Pass.Ends.of_refreshAt (keys : (pass.row.tiles.map Tile.key).Nodup)
    (htile : pass.row.tiles[place]? = some tile) (hkey : tile.key = icon.key)
    (hfresh : icon.key ∉ rest.map Icon.key)
    (h : (pass.refreshAt place tile icon).Ends iconSize rest pass') :
    pass.Ends iconSize (icon :: rest) pass' := by
  have hkeys : (pass.refreshAt place tile icon).row.tiles.map Tile.key =
      pass.row.tiles.map Tile.key := keys_set_refresh htile icon
  have hold : icon.key ∈ pass.row.tiles.map Tile.key :=
    hkey ▸ List.mem_map_of_mem (List.mem_of_getElem? htile)
  have harrivals : (pass.refreshAt place tile icon).row.arrivals rest =
      pass.row.arrivals (icon :: rest) := by
    rw [arrivals_cons_of_mem hold]
    exact arrivals_congr fun other _ => by rw [hkeys]
  obtain ⟨hrow, hcommands, hchanges⟩ := h
  rw [harrivals] at hrow hcommands hchanges
  rw [show (pass.refreshAt place tile icon).row.tiles.map _ = _ from
    map_refreshFrom_set keys htile hkey hfresh] at hrow
  exact ⟨hrow, hcommands, hchanges⟩

/-- What follows on the visit to an icon without a tile is what follows on the icon. -/
theorem Pass.Ends.of_push (hnew : icon.key ∉ pass.row.tiles.map Tile.key)
    (hfresh : icon.key ∉ rest.map Icon.key)
    (h : (pass.push iconSize icon).Ends iconSize rest pass') :
    pass.Ends iconSize (icon :: rest) pass' := by
  -- the new tile does not keep another icon from being missed
  have harrivals : (pass.push iconSize icon).row.arrivals rest = pass.row.arrivals rest := by
    refine arrivals_congr fun other hother => ?_
    show other.key ∈ (pass.row.tiles ++ [Tile.ofIcon _ icon]).map Tile.key ↔ _
    rw [List.map_append, List.map_singleton, List.mem_append, List.mem_singleton, or_iff_left]
    exact fun hsame : other.key = icon.key => hfresh (hsame ▸ List.mem_map_of_mem hother)
  have htiles : (pass.push iconSize icon).row.tiles.map (refreshFrom rest) = _ :=
    map_refreshFrom_push hnew hfresh (idAt pass.row.created)
  obtain ⟨hrow, hcommands, hchanges⟩ := h
  rw [harrivals] at hrow hcommands hchanges
  refine ⟨?_, ?_, ?_⟩
  · rw [hrow, htiles, arrivals_cons_of_not_mem hnew, List.append_assoc, List.length_cons]
    show Row.mk _ (pass.row.created + 1 + _) = _
    rw [Nat.add_right_comm, Nat.add_assoc]
    rfl
  · rw [hcommands, arrivals_cons_of_not_mem hnew]
    exact List.append_assoc _ _ _
  · rw [hchanges, arrivals_cons_of_not_mem hnew, List.length_cons]
    show Changes.mk (pass.changes.added + 1 + _) _ = _
    rw [Nat.add_right_comm, Nat.add_assoc]
    rfl

/-- Visits bring every tile up to date with its icon, and append a tile for each icon that has
    none. -/
theorem foldlM_visit {icons : List (Icon α)} (hicons : (icons.map Icon.key).Nodup)
    (hplaces : Locates pass.places pass.row.tiles)
    (keys : (pass.row.tiles.map Tile.key).Nodup) :
    ∃ pass', icons.foldlM (Pass.visit iconSize) pass = .ok pass' ∧
      pass.Ends iconSize icons pass' := by
  -- by induction on the icons, from whatever pass the earlier ones have led to
  induction icons generalizing pass with
  | nil =>
      have hkeep : pass.row.tiles.map (refreshFrom []) = pass.row.tiles :=
        (List.map_congr_left fun tile _ => refreshFrom_of_not_mem List.not_mem_nil).trans
          (List.map_id _)
      refine ⟨pass, rfl, ?_, (List.append_nil _).symm, rfl⟩
      show pass.row = ⟨pass.row.tiles.map (refreshFrom []) ++ [], pass.row.created⟩
      rw [List.append_nil, hkeep]
  | cons icon rest ih =>
      obtain ⟨hfresh, hrest⟩ := List.nodup_cons.mp hicons
      rw [List.foldlM_cons]
      cases hplace : pass.places icon.key with
      | some place =>
          obtain ⟨tile, htile, hkey⟩ :=
            Option.map_eq_some_iff.mp (hplaces.found icon.key place hplace)
          have hkeys : (pass.refreshAt place tile icon).row.tiles.map Tile.key =
              pass.row.tiles.map Tile.key := keys_set_refresh htile icon
          have hplaces' : Locates (pass.refreshAt place tile icon).places
              (pass.refreshAt place tile icon).row.tiles := hplaces.congr hkeys
          obtain ⟨pass', hpass', hends⟩ := ih hrest hplaces' (hkeys ▸ keys)
          rw [visit_of_found hplace htile]
          exact ⟨pass', hpass', hends.of_refreshAt keys htile hkey hfresh⟩
      | none =>
          have hnew := hplaces.missing icon.key hplace
          have keys' : ((pass.push iconSize icon).row.tiles.map Tile.key).Nodup := by
            show ((pass.row.tiles ++ [_]).map Tile.key).Nodup
            rw [List.map_append, List.map_singleton, ← List.concat_eq_append]
            exact keys.concat hnew
          have hplaces' : Locates (pass.push iconSize icon).places
              (pass.push iconSize icon).row.tiles :=
            hplaces.push (Tile.ofIcon (idAt pass.row.created) icon)
          obtain ⟨pass', hpass', hends⟩ := ih hrest hplaces' keys'
          rw [visit_of_missing hplace]
          exact ⟨pass', hpass', hends.of_push hnew hfresh⟩

end Visits

/-- The pass in place does what a reconciliation does, and looks for no tile in vain. -/
theorem passOver_eq (keys : (row.tiles.map Tile.key).Nodup) (icons : List (Icon α))
    (favoritesOnly : Bool) (iconSize : α) :
    row.passOver icons favoritesOnly iconSize =
      .ok (row.reconcile icons favoritesOnly iconSize) := by
  -- the table of live icons decides which tiles stay and which icons are visited
  have hwanted : ∀ tile : Tile α, (Icon.table favoritesOnly icons tile.key).isSome =
      isWanted (Icon.shown favoritesOnly icons) tile := by
    intro tile
    rw [Icon.table_eq, Icon.isSome_liveAt?, Bool.eq_iff_iff, Icon.isSome_live?_iff, isWanted_iff]
  have hvisits : ∀ pass : Pass α, icons.zipIdx.foldlM (fun pass entry =>
      if Icon.table favoritesOnly icons entry.1.key == some entry.2 then
        pass.visit iconSize entry.1
      else pure pass) pass =
        (Icon.shown favoritesOnly icons).foldlM (Pass.visit iconSize) pass := by
    intro pass
    rw [← Icon.liveIcons_eq, Icon.liveIcons, List.foldlM_map, List.foldlM_filter, Icon.table_eq]
  have hshown : ((Icon.shown favoritesOnly icons).map Icon.key).Nodup :=
    Icon.nodup_keys_firstOfEachKey _
  unfold passOver reconcile
  simp only [hwanted, hvisits]
  rw [List.partition_eq_filter_filter]
  generalize Icon.shown favoritesOnly icons = shown at *
  -- the visits begin with the tiles that stay, once the others have been released
  have hkept : ((row.tiles.filter (isWanted shown)).map Tile.key).Nodup :=
    keys.sublist (List.filter_sublist.map _)
  let start : Pass α :=
    { row := { row with tiles := row.tiles.filter (isWanted shown) }
      places := placesOf (row.tiles.filter (isWanted shown))
      commands := (row.tiles.filter fun tile => !isWanted shown tile).flatMap Tile.releases
      changes := ⟨0, (row.tiles.filter fun tile => !isWanted shown tile).length⟩ }
  have hstart : Locates start.places start.row.tiles := locates_placesOf _
  obtain ⟨pass', hpass', hrow, hcommands, hchanges⟩ : ∃ pass',
      shown.foldlM (Pass.visit iconSize) start = .ok pass' ∧ start.Ends iconSize shown pass' :=
    foldlM_visit hshown hstart hkept
  rw [hpass']
  show Except.ok (pass'.row, pass'.commands, pass'.changes) = _
  rw [hrow, hcommands, hchanges]
  simp only [start, length_newTiles, Nat.zero_add]
  rfl

end Outcome

end Row

end FisheyeDock
