import FisheyeDock.Proofs.Marker.Roster
import FisheyeDock.Proofs.Row.Identity

/-! # What a frame draws

    A frame draws with what there is: it shows and moves tiles that it was given, writes labels, and
    puts markers of the pool on them (`Frame.Draws`).  It creates markers before that and hides some
    after it, and nothing else in it is about the scene (`Frame.build_cases`). -/

namespace FisheyeDock

open Scene Marker

variable {α : Type}

/-- A tile as the scene knows it. -/
def Tile.entry (identity : Tile.Id × Icon.Key) : Object × Role :=
  (.tile identity.1, .standIn identity.2)

namespace Frame

/-- The commands that draw with some tiles and markers. -/
inductive Draws (tiles : List (Tile.Id × Icon.Key)) (markers : Roster) : Command α → Prop where
  | showTile {id : Tile.Id} {key : Icon.Key} (mem : (id, key) ∈ tiles) (visible : Bool) :
      Draws tiles markers (.showTile id visible)
  | transformTile {id : Tile.Id} {key : Icon.Key} (mem : (id, key) ∈ tiles) (position : Point α)
      (scale : α) : Draws tiles markers (.transformTile id position scale)
  | placeLabel (key : Icon.Key) (label : Label α) : Draws tiles markers (.placeLabel key label)
  | showDot {id : Marker.Id} (mem : (Object.marker id, Role.marker .dot) ∈ markers) (dot : Dot α) :
      Draws tiles markers (.showDot id dot)
  | showBadge {id : Marker.Id} (mem : (Object.marker id, Role.marker .badge) ∈ markers)
      (badge : Badge α) : Draws tiles markers (.showBadge id badge)

variable {tiles more : List (Tile.Id × Icon.Key)} {markers : Roster} {command : Command α}

/-- What draws some tiles draws more. -/
theorem Draws.mono (h : Draws tiles markers command) (hsub : tiles ⊆ more) :
    Draws more markers command := by
  cases h with
  | showTile mem visible => exact .showTile (hsub mem) visible
  | transformTile mem position scale => exact .transformTile (hsub mem) position scale
  | placeLabel key label => exact .placeLabel key label
  | showDot mem dot => exact .showDot mem dot
  | showBadge mem badge => exact .showBadge mem badge

/-- Drawing uses what is there. -/
theorem Draws.allows (h : Draws tiles markers command) {deed : Deed}
    (hdeed : command.deed? = some deed) :
    Roster.Allows (tiles.map Tile.entry ++ markers) deed := by
  cases h with
  | showTile mem visible =>
      obtain rfl := Option.some.inj hdeed
      exact ⟨_, List.mem_append_left _ (List.mem_map_of_mem mem), .inl rfl⟩
  | transformTile mem position scale =>
      obtain rfl := Option.some.inj hdeed
      exact ⟨_, List.mem_append_left _ (List.mem_map_of_mem mem), .inl rfl⟩
  | placeLabel key label => exact nomatch hdeed
  | showDot mem dot =>
      obtain rfl := Option.some.inj hdeed
      exact ⟨_, List.mem_append_right _ mem, .inr rfl⟩
  | showBadge mem badge =>
      obtain rfl := Option.some.inj hdeed
      exact ⟨_, List.mem_append_right _ mem, .inr rfl⟩

/-! ## One tile -/

/-- A step that places a tile: the pool and the tile stay the same to the scene, and what is drawn
    is drawn with them. -/
structure Keeps (pool : Pool) (tile : Tile α) (pool' : Pool) (tile' : Tile α)
    (commands : List (Command α)) : Prop where
  roster : pool'.roster = pool.roster
  identity : tile'.identity = tile.identity
  created : pool'.created = pool.created
  draws : ∀ command ∈ commands, Draws [tile.identity] pool.roster command

/-- No marker is created as one is taken. -/
theorem created_take (pool : Pool) (kind : Kind) :
    (pool.take kind).2.created = pool.created := by
  unfold Pool.take
  cases kind with
  | dot => cases Pool.takeSlot pool.dots <;> rfl
  | badge => cases Pool.takeSlot pool.badges <;> rfl

theorem keeps_refl (pool : Pool) (tile : Tile α) : Keeps pool tile pool tile [] :=
  ⟨rfl, rfl, rfl, fun _ hmem => nomatch hmem⟩

/-- What two steps keep, they keep one after the other. -/
theorem Keeps.trans {pool pool' pool'' : Pool} {tile tile' tile'' : Tile α}
    {commands more : List (Command α)} (first : Keeps pool tile pool' tile' commands)
    (second : Keeps pool' tile' pool'' tile'' more) :
    Keeps pool tile pool'' tile'' (commands ++ more) where
  roster := second.roster.trans first.roster
  identity := second.identity.trans first.identity
  created := second.created.trans first.created
  draws := by
    intro command hmem
    rcases List.mem_append.mp hmem with hold | hnew
    · exact first.draws command hold
    · have hdraws := second.draws command hnew
      rw [first.identity, first.roster] at hdraws
      exact hdraws

variable [Scalar α] (g : Geometry α) (settings : Settings α) (retracting : Bool)

/-- Placing a badge keeps them for the scene as well. -/
theorem keeps_placeBadge (pool : Pool) (tile : Tile α) :
    Keeps pool tile (placeBadge g settings pool tile).1 (placeBadge g settings pool tile).2.1
      (placeBadge g settings pool tile).2.2 := by
  unfold placeBadge
  by_cases hwanted : (!settings.badge.off && decide (0 < tile.notifications)) = true
  · rw [if_pos hwanted]
    have hroster := pool.roster_take .badge
    have hcreated := created_take pool .badge
    rcases htake : pool.take .badge with ⟨_ | id, pool'⟩
    · rw [htake] at hroster hcreated
      exact ⟨hroster, rfl, hcreated, fun _ hmem => nomatch hmem⟩
    · rw [htake] at hroster hcreated
      refine ⟨hroster, rfl, hcreated, ?_⟩
      intro command hmem
      rw [List.mem_singleton.mp hmem]
      exact .showBadge (Pool.mem_of_take (congrArg Prod.fst htake)) _
  · rw [if_neg hwanted]
    exact keeps_refl pool tile

theorem keeps_placeDot (pool : Pool) (tile : Tile α) :
    Keeps pool tile (placeDot g settings pool tile).1 (placeDot g settings pool tile).2.1
      (placeDot g settings pool tile).2.2 := by
  unfold placeDot
  by_cases hwanted : (!settings.dot.off && decide (0 < tile.windows)) = true
  · rw [if_pos hwanted]
    have hroster := pool.roster_take .dot
    have hcreated := created_take pool .dot
    rcases htake : pool.take .dot with ⟨_ | id, pool'⟩
    · rw [htake] at hroster hcreated
      exact ⟨hroster, rfl, hcreated, fun _ hmem => nomatch hmem⟩
    · rw [htake] at hroster hcreated
      refine ⟨hroster, rfl, hcreated, ?_⟩
      intro command hmem
      rw [List.mem_singleton.mp hmem]
      exact .showDot (Pool.mem_of_take (congrArg Prod.fst htake)) _
  · rw [if_neg hwanted]
    exact keeps_refl pool tile

/-- Writing a tile keeps both the pool and the tile for the scene, and draws with them. -/
theorem keeps_writeTile (pool : Pool) (tile : Tile α) :
    Keeps pool tile (writeTile g settings pool tile).1 (writeTile g settings pool tile).2.1
      (writeTile g settings pool tile).2.2 := by
  have hbadge := keeps_placeBadge g settings pool tile
  rcases hb : placeBadge g settings pool tile with ⟨pool₁, tile₁, badge⟩
  rw [hb] at hbadge
  have hdot := keeps_placeDot g settings pool₁ tile₁
  rcases hd : placeDot g settings pool₁ tile₁ with ⟨pool₂, tile₂, dot⟩
  rw [hd] at hdot
  -- the dot is taken from what the badge has left
  have hmarkers := Keeps.trans hbadge hdot
  have hid : tile₂.id = tile.id := congrArg Prod.fst hmarkers.identity
  unfold writeTile
  rw [hb]
  dsimp only
  rw [hd]
  refine ⟨hmarkers.roster, hmarkers.identity, hmarkers.created, ?_⟩
  intro command hmem
  rcases List.mem_cons.mp hmem with rfl | hmem
  · rw [hid]
    exact .transformTile (List.mem_singleton_self tile.identity) _ _
  · rcases List.mem_cons.mp hmem with rfl | hmem
    · exact .placeLabel _ _
    · exact hmarkers.draws command hmem

theorem keeps_placeTile (pool : Pool) (tile : Tile α) :
    Keeps pool tile (placeTile g settings retracting pool tile).pool
      (placeTile g settings retracting pool tile).tile
      (placeTile g settings retracting pool tile).commands := by
  have hshow : ∀ command ∈ ([.showTile tile.id tile.visible] : List (Command α)),
      Draws [tile.identity] pool.roster command := by
    intro command hmem
    rw [List.mem_singleton.mp hmem]
    exact .showTile (List.mem_singleton_self tile.identity) _
  unfold placeTile
  dsimp only
  by_cases hvisible : tile.visible = true
  · rw [if_pos hvisible]
    generalize hstep : Tile.step { tile with dot := none, badge := none } g.iconSize retracting
      = stepped
    have hmoved : stepped.1.identity = tile.identity := by
      rw [← hstep]
      rfl
    have hkept : Keeps pool tile pool stepped.1 [.showTile tile.id tile.visible] :=
      ⟨rfl, hmoved, rfl, hshow⟩
    by_cases hfinite : stepped.1.position.isFinite = true
    · rw [if_pos hfinite]
      exact hkept.trans (keeps_writeTile g settings pool stepped.1)
    · rw [if_neg hfinite]
      exact hkept
  · rw [if_neg hvisible]
    exact ⟨rfl, rfl, rfl, hshow⟩

/-! ## All tiles -/

/-- Tiles are placed with the markers that there are. -/
theorem placeTiles_cases (pool : Pool) (tiles : List (Tile α)) :
    (placeTiles g settings retracting pool tiles).pool.roster = pool.roster ∧
    (placeTiles g settings retracting pool tiles).pool.created = pool.created ∧
    Tile.identities (placeTiles g settings retracting pool tiles).tiles = Tile.identities tiles ∧
    ∀ command ∈ (placeTiles g settings retracting pool tiles).commands,
      Draws (Tile.identities tiles) pool.roster command := by
  induction tiles generalizing pool with
  | nil => exact ⟨rfl, rfl, rfl, fun _ hmem => nomatch hmem⟩
  | cons tile rest ih =>
      have hfirst := keeps_placeTile g settings retracting pool tile
      obtain ⟨hroster, hcreated, hidentities, hdraws⟩ :=
        ih (placeTile g settings retracting pool tile).pool
      refine ⟨hroster.trans hfirst.roster, hcreated.trans hfirst.created,
        congrArg₂ List.cons hfirst.identity hidentities, ?_⟩
      intro command hmem
      rcases List.mem_append.mp hmem with hhere | hlater
      · refine (hfirst.draws command hhere).mono ?_
        intro identity hidentity
        rw [List.mem_singleton.mp hidentity]
        exact List.mem_cons_self
      · have hlater := hdraws command hlater
        rw [hfirst.roster] at hlater
        exact hlater.mono (List.subset_cons_self _ _)

/-- What a frame comes to in the scene: the pool has grown by new markers, which are created first,
    and what is there is drawn with. -/
structure Exhibits (pool : Pool) (tiles : List (Tile α)) (frame : Frame α) (new : Roster)
    (drawn : List Deed) : Prop where
  identities : Tile.identities frame.tiles = Tile.identities tiles
  roster : frame.pool.roster.Perm (pool.roster ++ new)
  created : frame.pool.created = pool.created + new.length
  /-- New markers have the next identities in turn. -/
  ids : new.map Prod.fst =
    (List.range' pool.created new.length).map fun n => .marker (Pool.idAt n)
  deeds_eq : deeds frame.commands = (new.map fun entry => .create entry.1 entry.2) ++ drawn
  allows : ∀ deed ∈ drawn,
    Roster.Allows ((Tile.identities tiles).map Tile.entry ++ (pool.roster ++ new)) deed

/-- A frame exhibits what it creates and what it draws. -/
theorem build_exhibits (pool : Pool) (tiles : List (Tile α)) :
    ∃ new drawn, Exhibits pool tiles (build g settings retracting pool tiles) new drawn := by
  unfold build
  rcases demand settings tiles with ⟨dots, badges⟩
  obtain ⟨new, hgrown, hids, hcreated, hdeeds⟩ := Pool.grow_cases (α := α) pool dots badges
  rcases hgrow : pool.grow (α := α) dots badges with ⟨grown, creations⟩
  rw [hgrow] at hgrown hcreated hdeeds
  dsimp only
  rw [hgrow]
  obtain ⟨hroster, hcount, hidentities, hdraws⟩ :=
    placeTiles_cases g settings retracting grown.freeAll tiles
  dsimp only
  -- from here on, all that counts is what the scene knows of the pool and the tiles
  generalize placeTiles g settings retracting grown.freeAll tiles = placed at *
  rw [Pool.roster_freeAll] at hroster hdraws
  have hhidden := placed.pool.allows_hideIdle (α := α)
  rw [hroster] at hhidden
  refine ⟨new, deeds placed.commands ++ deeds (placed.pool.hideIdle (α := α)).2, ?_⟩
  constructor
  · exact hidentities
  · show (placed.pool.hideIdle (α := α)).1.roster.Perm _
    rw [Pool.roster_hideIdle, hroster]
    exact hgrown
  · exact hcount.trans hcreated
  · exact hids
  · rw [deeds_append, deeds_append, hdeeds, List.append_assoc]
  · intro deed hdeed
    have hgrownAllows :
        Roster.Allows ((Tile.identities tiles).map Tile.entry ++ grown.roster) deed := by
      rcases List.mem_append.mp hdeed with hdrawn | hhide
      · obtain ⟨command, hcommand, hof⟩ := List.mem_filterMap.mp hdrawn
        exact (hdraws command hcommand).allows hof
      · obtain ⟨entry, hentry, hsuits⟩ := hhidden deed hhide
        exact ⟨entry, List.mem_append_right _ hentry, hsuits⟩
    obtain ⟨entry, hentry, hsuits⟩ := hgrownAllows
    exact ⟨entry, (hgrown.append_left _).mem_iff.mp hentry, hsuits⟩

/-- A frame creates markers, draws, and hides markers. -/
theorem build_cases (pool : Pool) (tiles : List (Tile α)) {command : Command α}
    (h : command ∈ (build g settings retracting pool tiles).commands) :
    (∃ id kind, command = .createMarker id kind) ∨
      (∃ markers, Draws (Tile.identities tiles) markers command) ∨
      ∃ id, command = .hideMarker id := by
  unfold build at h
  rcases List.mem_append.mp h with hbefore | hhidden
  · rcases List.mem_append.mp hbefore with hcreated | hdrawn
    · rcases List.mem_append.mp hcreated with hdot | hbadge
      · obtain ⟨_, _, rfl⟩ := List.mem_map.mp hdot
        exact .inl ⟨_, _, rfl⟩
      · obtain ⟨_, _, rfl⟩ := List.mem_map.mp hbadge
        exact .inl ⟨_, _, rfl⟩
    · exact .inr (.inl ⟨_, (placeTiles_cases g settings retracting _ tiles).2.2.2 _ hdrawn⟩)
  · obtain ⟨slot, _, hhide⟩ := List.mem_filterMap.mp hhidden
    obtain ⟨-, hsome⟩ := Option.ite_none_right_eq_some.mp hhide
    exact .inr (.inr ⟨_, (Option.some.inj hsome).symm⟩)

/-- A frame leaves the host's own icons alone. -/
theorem build_leaves_icons (pool : Pool) (tiles : List (Tile α)) (key : Icon.Key)
    (opacity : UInt8) : .setIconOpacity key opacity ∉
      (build g settings retracting pool tiles).commands := by
  intro hmem
  obtain ⟨_, _, heq⟩ | ⟨_, hdraws⟩ | ⟨_, heq⟩ := build_cases g settings retracting pool tiles hmem
  · exact nomatch heq
  · exact nomatch hdraws
  · exact nomatch heq

/-- A frame leaves the layers as they are. -/
theorem build_leaves_layers (pool : Pool) (tiles : List (Tile α)) (visible : Bool) :
    .showLayers visible ∉ (build g settings retracting pool tiles).commands := by
  intro hmem
  obtain ⟨_, _, heq⟩ | ⟨_, hdraws⟩ | ⟨_, heq⟩ := build_cases g settings retracting pool tiles hmem
  · exact nomatch heq
  · exact nomatch hdraws
  · exact nomatch heq

end Frame

end FisheyeDock
