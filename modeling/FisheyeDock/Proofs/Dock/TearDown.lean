import FisheyeDock.Proofs.Dock.Driven
import FisheyeDock.Proofs.Dock.HandOver
import FisheyeDock.Proofs.Dock.SceneProtocol

/-! # A dock that is away has nothing in the scene

    A suspension begins at a tick, at once, or with the end of a drag that overtakes the tick.  A
    dock is disabled by a call, or by a tick that finds the engine turned off.  Each of these ways
    takes everything out of the scene, and while the dock is away nothing puts anything back
    (`Driven.tornDown`).

    What is alive in the scene is told by the commands alone: an object is `Alive` that has been
    created and not released since.  Every event that lets go of an object releases it
    (`Staging.exchangesRoster`), whatever the numbers that objects have, so that nothing is alive
    but what the dock holds. -/

namespace FisheyeDock

namespace Scene

/-! ## What is alive -/

/-- What a deed tells of the existence of an object. -/
def Deed.existence (object : Object) : Deed → Option Bool
  | .create other _ => if other = object then some true else none
  | .release other => if other = object then some false else none
  | .use _ _ => none

/-- An object has been created, and not released since. -/
def Alive (object : Object) (told : List Deed) : Prop :=
  (told.filterMap (Deed.existence object)).getLast? = some true

variable {object : Object} {before after : List Deed}

/-- Where a deed gives an object existence, it creates it. -/
theorem Deed.exists_create {deed : Deed} (h : deed.existence object = some true) :
    ∃ role, deed = .create object role := by
  cases deed with
  | create other role =>
      obtain ⟨rfl, -⟩ := Option.ite_none_right_eq_some.mp h
      exact ⟨role, rfl⟩
  | release other =>
      obtain ⟨-, hfalse⟩ := Option.ite_none_right_eq_some.mp h
      exact nomatch hfalse
  | use other role => exact nomatch h

/-- What is alive has been created of late, or was alive before and has not been released. -/
theorem Alive.of_append (h : Alive object (before ++ after)) :
    (∃ role, .create object role ∈ after) ∨ (.release object ∉ after ∧ Alive object before) := by
  unfold Alive at h
  rw [List.filterMap_append, List.getLast?_append] at h
  cases hlast : (after.filterMap (Deed.existence object)).getLast? with
  | none =>
      rw [hlast] at h
      refine .inr ⟨?_, h⟩
      intro hreleased
      -- a release says that the object exists no more
      have hsaid := List.filterMap_eq_nil_iff.mp (List.getLast?_eq_none_iff.mp hlast) _ hreleased
      exact nomatch (if_pos rfl).symm.trans hsaid
  | some existing =>
      rw [hlast] at h
      obtain rfl := Option.some.inj h
      obtain ⟨deed, hdeed, hsaid⟩ := List.mem_filterMap.mp (List.mem_of_getLast? hlast)
      obtain ⟨role, rfl⟩ := Deed.exists_create hsaid
      exact .inl ⟨role, hdeed⟩

end Scene

namespace Dock

open Scene

variable {α τ : Type} {dock dock' : Dock α τ} {host : Host α} {commands : List (Command α)}

/-! ## What an event creates and releases -/

/-- How some deeds lead from one roster to the next: what is gone is released, and nothing is
    created but what is new. -/
structure ExchangesRoster (roster : Roster) (told : List Deed) (roster' gone kept new : Roster) :
    Prop where
  before : roster.Perm (gone ++ kept)
  after : roster'.Perm (kept ++ new)
  released : ∀ entry ∈ gone, .release entry.1 ∈ told
  created : ∀ {object role}, .create object role ∈ told → (object, role) ∈ new

/-- What is alive stays on the roster. -/
theorem ExchangesRoster.alive {roster roster' gone kept new : Roster} {told more : List Deed}
    (h : ExchangesRoster roster more roster' gone kept new)
    (listed : ∀ object, Alive object told → object ∈ roster.map Prod.fst) (object : Object)
    (alive : Alive object (told ++ more)) : object ∈ roster'.map Prod.fst := by
  rw [(h.after.map Prod.fst).mem_iff, List.map_append, List.mem_append]
  rcases alive.of_append with ⟨role, hcreated⟩ | ⟨hunreleased, hbefore⟩
  · exact .inr (List.mem_map_of_mem (h.created hcreated))
  · have hlisted := listed object hbefore
    rw [(h.before.map Prod.fst).mem_iff, List.map_append, List.mem_append] at hlisted
    rcases hlisted with hgone | hkept
    · obtain ⟨entry, hentry, rfl⟩ := List.mem_map.mp hgone
      exact absurd (h.released entry hentry) hunreleased
    · exact .inl hkept

/-- Nothing is used into existence. -/
theorem not_create_of_allows {roster : Roster} {told : List Deed}
    (h : ∀ deed ∈ told, roster.Allows deed) (object : Object) (role : Role) :
    .create object role ∉ told := by
  intro hmem
  obtain ⟨entry, -, heq | heq⟩ := h _ hmem
  · exact nomatch heq
  · exact nomatch heq

/-- What is created is in the roster. -/
theorem mem_creations {roster : Roster} {object : Object} {role : Role} :
    .create object role ∈ roster.map (fun entry => Deed.create entry.1 entry.2) ↔
      (object, role) ∈ roster := by
  rw [List.mem_map]
  constructor
  · rintro ⟨⟨_, _⟩, hentry, heq⟩
    obtain ⟨rfl, rfl⟩ := Deed.create.inj heq
    exact hentry
  · exact fun hentry => ⟨_, hentry, rfl⟩

/-- Every event releases what leaves the roster, and creates what comes to it. -/
theorem Staging.exchangesRoster [Scalar α] (staging : Staging dock host dock' commands) :
    ∃ gone kept new, ExchangesRoster dock.roster (deeds commands) dock'.roster gone kept new := by
  cases staging with
  | rests row pool backdrop =>
      refine ⟨[], dock.roster, [], .refl _, ?_, nofun, ?_⟩
      · rw [List.append_nil, roster, roster, row, pool]
      · rw [deeds_of_backdrop backdrop]
        exact nofun
  | withdraws row pool layers backdrop commands_eq =>
      refine ⟨dock.roster, [], [], ?_, ?_, ?_, ?_⟩
      · rw [List.append_nil]
      · rw [roster_cleared row pool]
        exact .refl _
      all_goals
        rw [commands_eq, deeds_append, deeds_withdrawal, deeds_of_backdrop backdrop,
          List.append_nil]
      · exact fun entry hentry => List.mem_map_of_mem hentry
      · intro object role hmem
        obtain ⟨entry, -, heq⟩ := List.mem_map.mp hmem
        exact nomatch heq
  | frames layouts changes layers row kept gone new arranged tiles retracting active backdrop
      exchanges arrangedPerm moved commands_eq row_eq pool_eq =>
      obtain ⟨markers, drawn, hframe⟩ := Frame.build_exhibits host.geometry host.settings retracting
        dock.pool tiles
      generalize Frame.build host.geometry host.settings retracting dock.pool tiles = frame at *
      have hlayouts : deeds layouts = [] :=
        deeds_of_backdrop fun command hmem => backdrop command (List.mem_append_left _ hmem)
      have hlayers : deeds layers = [] :=
        deeds_of_backdrop fun command hmem => backdrop command (List.mem_append_right _ hmem)
      -- the backdrop does nothing to objects: tiles go, tiles come, all are used, then the markers
      have hdeeds : deeds commands =
          ((Tile.identities gone).map Tile.entry).map (fun entry => .release entry.1) ++
          ((Tile.identities new).map Tile.entry).map (fun entry => .create entry.1 entry.2) ++
          (Tile.identities arranged).map (fun identity => .use (.tile identity.1) none) ++
          (markers.map (fun entry => .create entry.1 entry.2) ++ drawn) := by
        rw [commands_eq, exchanges.commands_eq]
        simp only [deeds_append, hlayouts, hlayers, deeds_releases, deeds_creations,
          deeds_activations, hframe.deeds_eq, List.nil_append, List.append_nil]
      have htiles : (Tile.identities frame.tiles).Perm
          (Tile.identities kept ++ Tile.identities new) := by
        rw [hframe.identities, moved, ← Tile.identities_append, ← exchanges.identities]
        exact arrangedPerm
      refine ⟨(Tile.identities gone).map Tile.entry,
        (Tile.identities kept).map Tile.entry ++ dock.pool.roster,
        (Tile.identities new).map Tile.entry ++ markers, ?_, ?_, ?_, ?_⟩
      · have hsplit := (exchanges.split.map Tile.identity).map Tile.entry
        rw [List.map_append, List.map_append] at hsplit
        rw [← List.append_assoc]
        exact hsplit.append_right _
      · rw [roster, row_eq, pool_eq]
        have hall := (htiles.map Tile.entry).append hframe.roster
        rw [List.map_append, List.append_assoc] at hall
        rw [List.append_assoc]
        refine hall.trans (List.Perm.append_left _ ?_)
        rw [← List.append_assoc, ← List.append_assoc]
        exact List.perm_append_comm.append_right _
      · intro entry hentry
        rw [hdeeds]
        simp only [List.append_assoc]
        exact List.mem_append_left _ (List.mem_map_of_mem hentry)
      · -- what is created is a new tile or a new marker
        intro object role hmem
        rw [hdeeds] at hmem
        rcases List.mem_append.mp hmem with hexchanged | hshown
        · rcases List.mem_append.mp hexchanged with hexchanged | hused
          · rcases List.mem_append.mp hexchanged with hgone | hnew
            · obtain ⟨entry, -, heq⟩ := List.mem_map.mp hgone
              exact nomatch heq
            · exact List.mem_append_left _ (mem_creations.mp hnew)
          · obtain ⟨identity, -, heq⟩ := List.mem_map.mp hused
            exact nomatch heq
        · rcases List.mem_append.mp hshown with hmarker | hdrawn
          · exact List.mem_append_right _ (mem_creations.mp hmarker)
          · exact absurd hdrawn (not_create_of_allows hframe.allows _ _)

/-! ## What a dock has in the scene when it is away -/

/-- A dock with nothing in its row and in its pool. -/
structure Empty (dock : Dock α τ) : Prop where
  row : dock.row.tiles = []
  dots : dock.pool.dots = []
  badges : dock.pool.badges = []
  tileCount : dock.tileCount = 0

/-- A dock that has left the scene is empty. -/
theorem empty_withdraw (dock : Dock α τ) : dock.withdraw.1.Empty := by
  rw [withdraw_fst]
  exact ⟨rfl, rfl, rfl, rfl⟩

/-- Nothing else about a dock matters. -/
theorem Empty.congr (h : dock.Empty) (row : dock'.row = dock.row) (pool : dock'.pool = dock.pool)
    (tileCount : dock'.tileCount = dock.tileCount) : dock'.Empty := by
  constructor
  · rw [row]
    exact h.row
  · rw [pool]
    exact h.dots
  · rw [pool]
    exact h.badges
  · rw [tileCount]
    exact h.tileCount

/-- An empty dock has nothing in its roster. -/
theorem Empty.roster_eq (h : dock.Empty) : dock.roster = [] := by
  show (dock.row.tiles.map Tile.identity).map Tile.entry ++
    (dock.pool.dots.map _ ++ dock.pool.badges.map _) = []
  rw [h.row, h.dots, h.badges]
  rfl

variable [Scalar α] [TimerService τ] {event : Event}

/-- An event that does not draw leaves an empty dock empty, and a withdrawal empties any other. -/
theorem Effect.empty (h : Effect dock host event dock' commands)
    (bare : dock.drawsOn host event = false)
    (before : dock.withdrawsOn host event = false → dock.Empty) : dock'.Empty := by
  cases h with
  | rests passes cadence previewLeft awake => exact (before passes.stays).congr rfl rfl rfl
  | enables passes ticks => exact (before passes.stays).congr rfl rfl rfl
  | announces stays bare told =>
      rw [showLayers_fst]
      exact (before stays).congr rfl rfl rfl
  | withdraws leaves enabled cadence previewLeft disables => exact empty_withdraw _
  | draws drawn tiles cadence phase => exact nomatch drawn.symm.trans bare

/-! ## Runs -/

variable {past : List (Moment α τ)} {trace : List (Command α)}

/-- Nothing is alive but what the dock holds. -/
theorem Ran.alive (h : Ran dock trace) :
    ∀ object, Alive object (deeds trace) → object ∈ dock.roster.map Prod.fst := by
  induction h with
  | new timers => exact nofun
  | event host event before step ih =>
      obtain ⟨gone, kept, new, hexchanges⟩ := (handle_staging step).exchangesRoster
      rw [deeds_append]
      exact hexchanges.alive ih
  | drift timers before ih => exact ih

variable [LawfulTimerService τ]

/-- A dock that is away is empty. -/
theorem Driven.empty (h : Driven dock past trace) : dock.Away → dock.Empty := by
  refine h.holds (P := fun dock _ _ => dock.Away → dock.Empty) ?_ ?_ ?_
  · exact fun timers _ => ⟨rfl, rfl, rfl, rfl⟩
  · exact fun timers before away => (before away).congr rfl rfl rfl
  · intro dock dock' past trace host event commands before running step away
    have heffect := handle_effect step
    have hawake : dock.drawsOn host event = true → dock.cadence.phase ≠ .suspended := by
      intro hdraws
      rw [running (drawsOn_cases hdraws).1]
      decide
    rcases heffect.away hawake away with hleaves | ⟨hbare, haway⟩
    · refine heffect.empty ?_ fun hstays => nomatch hleaves.symm.trans hstays
      by_contra hdraws
      exact nomatch hleaves.symm.trans
        (withdrawsOn_of_drawsOn ((Bool.not_eq_false _).mp hdraws))
    · exact heffect.empty hbare fun _ => before haway

/-- A dock that has nothing in the scene. -/
structure TornDown (dock : Dock α τ) (trace : List (Command α)) : Prop where
  empty : dock.Empty
  /-- Neither a tile nor a marker is alive. -/
  gone : ∀ object, ¬ Alive object (deeds trace)
  /-- Every icon that has ever been made transparent is opaque again. -/
  seen_again : ∀ key, lastOpacity key trace = none ∨ lastOpacity key trace = some 255

/-- **A DOCK THAT IS AWAY IS TORN DOWN.**  Whenever it is disabled or suspended, its row and its
    pool are empty, nothing it has created is alive, and every icon is seen. -/
theorem Driven.tornDown (h : Driven dock past trace) (away : dock.Away) : dock.TornDown trace where
  empty := h.empty away
  gone := by
    intro object alive
    have hlisted := h.ran.alive object alive
    rw [(h.empty away).roster_eq] at hlisted
    exact nomatch hlisted
  seen_again := by
    intro key
    refine h.ran.handedOver.revealed key ?_
    rw [(h.empty away).row]
    exact List.not_mem_nil

/-- A favorite with a notification in a standard dock. -/
private def oneNoted : Host Float where
  settings := .standard
  geometry := .standard
  icons := [{ Icon.favorite 1 ⟨0.0, 0.0⟩ with notifications := 1 }]

set_option maxRecDepth 2048 in
/-- A tick has created a tile and a badge.  The next one finds that a drag has begun, and suspends.
    -/
theorem tornDown_by_drag : ∃ (dock : Dock Float Clock) (past : List (Moment Float Clock))
    (trace : List (Command Float)), Driven dock past trace ∧ dock.cadence.phase = .suspended ∧
      dock.TornDown trace ∧ lastOpacity 1 trace = some 255 := by
  have hnew : Driven (new Clock.start : Dock Float Clock) [] [] :=
    .new _ Clock.start_proper fun _ => rfl
  have henabled := hnew.event oneNoted .enable nofun rfl
  have hwoken := henabled.event oneNoted .pointerEnter nofun rfl
  have hticked := hwoken.popDue oneNoted (milliseconds 15) rfl rfl
  have hdragged := hticked.event oneNoted .dragBegin nofun rfl
  have hsuspended := hdragged.popDue oneNoted (milliseconds 30) rfl rfl
  exact ⟨_, _, _, hsuspended, rfl, hsuspended.tornDown (.inr rfl), rfl⟩

end Dock

end FisheyeDock
