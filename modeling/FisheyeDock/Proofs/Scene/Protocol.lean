import Mathlib.Data.List.Nodup
import Mathlib.Logic.Function.Basic
import FisheyeDock.Scene

/-! # The life of what the scene holds

    Tiles and markers live in the scene under identities that the engine chooses.  What the scene is
    owed for each of them is one life: it is created, then used as what it was created as, then
    released, and never mentioned again (`Life.Tells`).

    A `Stage` is the life of every object at one moment.  `Stage.Agrees` ties it to the commands so
    far and to a roster of what ought to be alive, and has one lemma for each thing that a command
    can do: `create`, `use`, `release`, and one each for a whole list of them.  Objects that are
    created under numbers not used before are new to the scene (`createNumbered`). -/

namespace FisheyeDock.Scene

/-- What the scene holds under an identity. -/
inductive Object where
  | tile (id : Tile.Id)
  | marker (id : Marker.Id)
  deriving Repr, DecidableEq

/-- The number that the identity of an object comes to. -/
def Object.number : Object → Nat
  | .tile id => id.val.toNat
  | .marker id => id.val.toNat

/-- What an object is created as. -/
inductive Role where
  | standIn (key : Icon.Key)
  | marker (kind : Marker.Kind)
  deriving Repr, DecidableEq

/-- What a command does to an object.  A use may ask for a role. -/
inductive Deed where
  | create (object : Object) (role : Role)
  | use (object : Object) (asked : Option Role)
  | release (object : Object)
  deriving Repr, DecidableEq

def Deed.object : Deed → Object
  | .create object _ | .use object _ | .release object => object

/-- The deed of a command, if it is about an object. -/
def Command.deed? {α : Type} : Command α → Option Deed
  | .createTile id key _ => some (.create (.tile id) (.standIn key))
  | .showTile id _ | .activateTile id _ | .transformTile id _ _ => some (.use (.tile id) none)
  | .releaseTile id => some (.release (.tile id))
  | .createMarker id kind => some (.create (.marker id) (.marker kind))
  | .hideMarker id => some (.use (.marker id) none)
  | .showDot id _ => some (.use (.marker id) (some (.marker .dot)))
  | .showBadge id _ => some (.use (.marker id) (some (.marker .badge)))
  | .releaseMarker id => some (.release (.marker id))
  | .relayout | .placeLabel _ _ | .setIconOpacity _ _ | .showLayers _ => none

/-- The deeds of some commands, in order. -/
def deeds {α : Type} (commands : List (Command α)) : List Deed := commands.filterMap Command.deed?

/-- The deeds that are about one object. -/
def deedsOn (object : Object) (deeds : List Deed) : List Deed :=
  deeds.filter fun deed => deed.object = object

/-- How far an object has come. -/
inductive Life where
  | unborn
  | live (role : Role)
  | gone
  deriving Repr, DecidableEq

/-- Whether a deed uses an object of a role, and asks for no other one. -/
def Deed.Suits (object : Object) (role : Role) (deed : Deed) : Prop :=
  deed = .use object none ∨ deed = .use object (some role)

/-- What has been done to an object by the time it has come so far: nothing at all, its creation and
    suitable uses, or these and its release in the end. -/
def Life.Tells (object : Object) : Life → List Deed → Prop
  | .unborn, deeds => deeds = []
  | .live role, deeds => ∃ uses, deeds = .create object role :: uses ∧
      ∀ deed ∈ uses, deed.Suits object role
  | .gone, deeds => ∃ role uses, deeds = .create object role :: (uses ++ [.release object]) ∧
      ∀ deed ∈ uses, deed.Suits object role

/-- How far every object has come. -/
abbrev Stage := Object → Life

/-- What ought to be alive, and as what. -/
abbrev Roster := List (Object × Role)

/-- A deed that uses something on a roster as what it is. -/
def Roster.Allows (roster : Roster) (deed : Deed) : Prop :=
  ∃ entry ∈ roster, deed.Suits entry.1 entry.2

/-- The stage after some deeds has exactly the roster alive, and what is fresh has not been mentioned
    yet. -/
structure Stage.Agrees (stage : Stage) (deeds : List Deed) (roster : Roster)
    (fresh : Object → Prop) : Prop where
  tells : ∀ object, (stage object).Tells object (deedsOn object deeds)
  live_iff : ∀ object role, stage object = .live role ↔ (object, role) ∈ roster
  nodup : (roster.map Prod.fst).Nodup
  unborn : ∀ object, fresh object → stage object = .unborn

/-! ## Deeds on one object -/

/-- Deeds are done one after the other. -/
theorem deeds_append {α : Type} (commands more : List (Command α)) :
    deeds (commands ++ more) = deeds commands ++ deeds more :=
  List.filterMap_append

/-- Commands that are made from some data by the rule by which their deeds are. -/
theorem deeds_map {α β : Type} {command : β → Command α} {deed : β → Deed}
    (h : ∀ item, (command item).deed? = some (deed item)) (items : List β) :
    deeds (items.map command) = items.map deed := by
  induction items with
  | nil => rfl
  | cons item items ih =>
      rw [List.map_cons, List.map_cons, ← ih]
      exact List.filterMap_cons_some (h item)

/-- What is no deed leaves none. -/
theorem deeds_eq_nil {α : Type} {commands : List (Command α)}
    (h : ∀ command ∈ commands, command.deed? = none) : deeds commands = [] :=
  List.filterMap_eq_nil_iff.mpr h

theorem deedsOn_append (object : Object) (before after : List Deed) :
    deedsOn object (before ++ after) = deedsOn object before ++ deedsOn object after :=
  List.filter_append before after

theorem deedsOn_self {object : Object} {deed : Deed} (h : deed.object = object) :
    deedsOn object [deed] = [deed] :=
  List.filter_cons_of_pos (decide_eq_true h)

theorem deedsOn_other {object : Object} {deed : Deed} (h : deed.object ≠ object) :
    deedsOn object [deed] = [] :=
  List.filter_cons_of_neg (fun hdec => h (of_decide_eq_true hdec))

theorem Deed.Suits.object_eq {object : Object} {role : Role} {deed : Deed}
    (h : deed.Suits object role) : deed.object = object := by
  rcases h with rfl | rfl <;> rfl

/-! ## One life -/

namespace Life.Tells

variable {object : Object} {role : Role} {told : List Deed}

/-- What is unborn may be created. -/
theorem create (h : Life.unborn.Tells object told) :
    (Life.live role).Tells object (told ++ [.create object role]) := by
  obtain rfl : told = [] := h
  exact ⟨[], rfl, fun _ hmem => nomatch hmem⟩

/-- What lives may be used. -/
theorem use (h : (Life.live role).Tells object told) {deed : Deed}
    (suits : deed.Suits object role) : (Life.live role).Tells object (told ++ [deed]) := by
  obtain ⟨uses, rfl, huses⟩ := h
  refine ⟨uses ++ [deed], rfl, ?_⟩
  intro other hmem
  rcases List.mem_append.mp hmem with hold | hnew
  · exact huses other hold
  · rw [List.mem_singleton.mp hnew]
    exact suits

theorem release (h : (Life.live role).Tells object told) :
    Life.gone.Tells object (told ++ [.release object]) := by
  obtain ⟨uses, rfl, huses⟩ := h
  exact ⟨role, uses, rfl, huses⟩

end Life.Tells

/-! ## The stage -/

namespace Stage.Agrees

variable {stage : Stage} {told : List Deed} {roster roster' : Roster} {fresh : Object → Prop}

/-- Before the first deed. -/
theorem bare (fresh : Object → Prop) : Stage.Agrees (fun _ => .unborn) [] [] fresh where
  tells _ := rfl
  live_iff _ _ := ⟨fun h => (nomatch h), fun h => (nomatch h)⟩
  nodup := List.nodup_nil
  unborn _ _ := rfl

/-- The order of the roster does not matter, and less may be called fresh. -/
theorem congr (h : stage.Agrees told roster fresh) (hperm : roster.Perm roster')
    {fresh' : Object → Prop} (hfresh : ∀ object, fresh' object → fresh object) :
    stage.Agrees told roster' fresh' where
  tells := h.tells
  live_iff object role := by
    rw [h.live_iff, hperm.mem_iff]
  nodup := (hperm.map Prod.fst).nodup_iff.mp h.nodup
  unborn object hobject := h.unborn object (hfresh object hobject)

/-- The order of a roster does not matter. -/
theorem perm (h : stage.Agrees told roster fresh) (hperm : roster.Perm roster') :
    stage.Agrees told roster' fresh :=
  h.congr hperm fun _ hobject => hobject

/-- A deed on one object leaves the lives of all others as they were. -/
theorem tells_update (h : stage.Agrees told roster fresh) (deed : Deed) {life : Life}
    (hlife : life.Tells deed.object (deedsOn deed.object told ++ [deed])) (object : Object) :
    (Function.update stage deed.object life object).Tells object
      (deedsOn object (told ++ [deed])) := by
  rw [deedsOn_append]
  by_cases hobject : deed.object = object
  · subst hobject
    rw [Function.update_self, deedsOn_self rfl]
    exact hlife
  · rw [Function.update_of_ne (Ne.symm hobject), deedsOn_other hobject, List.append_nil]
    exact h.tells object

/-- What is fresh is not on the roster. -/
theorem not_mem_of_fresh (h : stage.Agrees told roster fresh) {object : Object}
    (hobject : fresh object) : object ∉ roster.map Prod.fst := by
  intro hmem
  obtain ⟨⟨_, role⟩, hentry, rfl⟩ := List.mem_map.mp hmem
  have hlive := (h.live_iff _ _).mpr hentry
  rw [h.unborn _ hobject] at hlive
  exact nomatch hlive

/-- To create a fresh object enters it in the roster. -/
theorem create (h : stage.Agrees told roster fresh) {object : Object} (role : Role)
    (hobject : fresh object) :
    Stage.Agrees (Function.update stage object (.live role)) (told ++ [.create object role])
      (roster ++ [(object, role)]) (fun other => fresh other ∧ other ≠ object) where
  tells := by
    have htold := h.tells object
    rw [h.unborn object hobject] at htold
    exact h.tells_update (.create object role) htold.create
  live_iff other otherRole := by
    rw [List.mem_append, List.mem_singleton, Prod.mk.injEq]
    by_cases hother : other = object
    · subst hother
      rw [Function.update_self]
      constructor
      · intro hlive
        exact .inr ⟨rfl, (Life.live.inj hlive).symm⟩
      · rintro (hmem | ⟨_, rfl⟩)
        · exact absurd (List.mem_map_of_mem hmem) (h.not_mem_of_fresh hobject)
        · rfl
    · rw [Function.update_of_ne hother, h.live_iff]
      exact ⟨.inl, fun hor => hor.resolve_right fun heq => hother heq.1⟩
  nodup := by
    rw [List.map_append]
    refine h.nodup.append (List.nodup_singleton _) ?_
    intro other hmem hnew
    rw [List.map_singleton, List.mem_singleton] at hnew
    subst hnew
    exact h.not_mem_of_fresh hobject hmem
  unborn other hother := by
    rw [Function.update_of_ne hother.2]
    exact h.unborn other hother.1

/-- To use what is in the roster leaves the stage as it is. -/
theorem use (h : stage.Agrees told roster fresh) {deed : Deed} (hallowed : roster.Allows deed) :
    stage.Agrees (told ++ [deed]) roster fresh where
  tells := by
    -- the object is alive already, and stays so
    obtain ⟨⟨object, role⟩, hentry, hsuits⟩ := hallowed
    have hlive := (h.live_iff object role).mpr hentry
    obtain rfl := hsuits.object_eq
    have htold := h.tells deed.object
    rw [hlive] at htold
    have hupdate := h.tells_update deed (htold.use hsuits)
    rw [← hlive, Function.update_eq_self] at hupdate
    exact hupdate
  live_iff := h.live_iff
  nodup := h.nodup
  unborn := h.unborn

/-- To release an object takes it off the roster. -/
theorem release {object : Object} {role : Role}
    (h : stage.Agrees told ((object, role) :: roster) fresh) :
    Stage.Agrees (Function.update stage object .gone) (told ++ [.release object]) roster fresh where
  tells := by
    have htold := h.tells object
    rw [(h.live_iff object role).mpr List.mem_cons_self] at htold
    exact h.tells_update (.release object) htold.release
  live_iff other otherRole := by
    by_cases hother : other = object
    · subst hother
      rw [Function.update_self]
      constructor
      · intro hlive
        exact nomatch hlive
      · intro hmem
        exact absurd (List.mem_map_of_mem hmem) (List.nodup_cons.mp h.nodup).1
    · rw [Function.update_of_ne hother, h.live_iff, List.mem_cons, Prod.mk.injEq]
      exact ⟨fun hor => hor.resolve_left fun heq => hother heq.1, .inr⟩
  nodup := (List.nodup_cons.mp h.nodup).2
  unborn other hfresh := by
    have hother : other ≠ object := by
      rintro rfl
      exact h.not_mem_of_fresh hfresh List.mem_cons_self
    rw [Function.update_of_ne hother]
    exact h.unborn other hfresh

/-! ## Many deeds at once -/

/-- A number of fresh objects are created one after the other. -/
theorem createAll {entries : Roster} (h : stage.Agrees told roster fresh)
    (hnodup : (entries.map Prod.fst).Nodup) (hfresh : ∀ entry ∈ entries, fresh entry.1) :
    ∃ stage' : Stage, stage'.Agrees (told ++ entries.map fun entry => .create entry.1 entry.2)
      (roster ++ entries) (fun object => fresh object ∧ object ∉ entries.map Prod.fst) := by
  induction entries generalizing stage told roster fresh with
  | nil =>
      refine ⟨stage, ?_⟩
      rw [List.map_nil, List.append_nil, List.append_nil]
      exact h.congr (.refl _) fun _ hobject => hobject.1
  | cons entry entries ih =>
      rw [List.map_cons, List.nodup_cons] at hnodup
      have hcreated := h.create entry.2 (hfresh entry List.mem_cons_self)
      -- the first entry is not fresh any more, but none of the others is the same object
      have hrest : ∀ other ∈ entries, fresh other.1 ∧ other.1 ≠ entry.1 := by
        intro other hother
        refine ⟨hfresh other (List.mem_cons_of_mem _ hother), ?_⟩
        intro heq
        exact hnodup.1 (heq ▸ List.mem_map_of_mem hother)
      obtain ⟨stage', hstage'⟩ := ih hcreated hnodup.2 hrest
      refine ⟨stage', ?_⟩
      rw [List.append_assoc, List.append_assoc] at hstage'
      refine hstage'.congr (.refl _) ?_
      rintro object ⟨hobject, hnot⟩
      rw [List.map_cons, List.mem_cons, not_or] at hnot
      exact ⟨⟨hobject, hnot.1⟩, hnot.2⟩

/-- What is in the roster may be used in whatever order. -/
theorem useAll {deeds : List Deed} (h : stage.Agrees told roster fresh)
    (hallowed : ∀ deed ∈ deeds, roster.Allows deed) :
    stage.Agrees (told ++ deeds) roster fresh := by
  induction deeds generalizing told with
  | nil =>
      rw [List.append_nil]
      exact h
  | cons deed deeds ih =>
      rw [List.append_cons]
      have hused := h.use (hallowed deed List.mem_cons_self)
      exact ih hused fun other hother => hallowed other (List.mem_cons_of_mem _ hother)

/-- All that is in the roster may be released. -/
theorem releaseAll {entries : Roster} (h : stage.Agrees told (entries ++ roster) fresh) :
    ∃ stage' : Stage, stage'.Agrees (told ++ entries.map fun entry => .release entry.1)
      roster fresh := by
  induction entries generalizing stage told with
  | nil =>
      refine ⟨stage, ?_⟩
      rw [List.map_nil, List.append_nil]
      exact h
  | cons entry entries ih =>
      obtain ⟨stage', hstage'⟩ := ih (Stage.Agrees.release h)
      rw [List.append_assoc] at hstage'
      exact ⟨stage', hstage'⟩

/-! ## Numbered objects -/

/-- Objects that are created under the numbers from one on, which nothing has been created under
    yet.  Numbers below `UInt64.size` are told apart by the scene. -/
theorem createNumbered {new : Roster} {objectAt : Nat → Object} {first : Nat}
    (h : stage.Agrees told roster fresh)
    (hnumber : ∀ n < UInt64.size, (objectAt n).number = n)
    (hids : new.map Prod.fst = (List.range' first new.length).map objectAt)
    (hbound : first + new.length ≤ UInt64.size)
    (hfresh : ∀ n, first ≤ n → n < UInt64.size → fresh (objectAt n)) :
    ∃ stage' : Stage, stage'.Agrees (told ++ new.map fun entry => .create entry.1 entry.2)
      (roster ++ new)
      (fun object => fresh object ∧ ∀ n < first + new.length, object ≠ objectAt n) := by
  -- no number is used twice, and numbers below the limit make different identities
  have hnodup : (new.map Prod.fst).Nodup := by
    rw [hids]
    refine List.Nodup.map_on ?_ List.nodup_range'
    intro n hn m hm heq
    rw [List.mem_range'_1] at hn hm
    rw [← hnumber n (by omega), ← hnumber m (by omega), heq]
  have hnew : ∀ entry ∈ new, ∃ n, first ≤ n ∧ n < first + new.length ∧ objectAt n = entry.1 := by
    intro entry hentry
    have hmem := List.mem_map_of_mem (f := Prod.fst) hentry
    rw [hids] at hmem
    obtain ⟨n, hn, heq⟩ := List.mem_map.mp hmem
    rw [List.mem_range'_1] at hn
    exact ⟨n, hn.1, hn.2, heq⟩
  obtain ⟨stage', hstage'⟩ := h.createAll hnodup (by
    intro entry hentry
    obtain ⟨n, hle, hlt, heq⟩ := hnew entry hentry
    rw [← heq]
    exact hfresh n hle (by omega))
  refine ⟨stage', hstage'.congr (.refl _) ?_⟩
  rintro object ⟨hobject, hother⟩
  refine ⟨hobject, ?_⟩
  intro hmem
  obtain ⟨entry, hentry, rfl⟩ := List.mem_map.mp hmem
  obtain ⟨n, -, hlt, heq⟩ := hnew entry hentry
  exact hother n hlt heq.symm

end Stage.Agrees

end FisheyeDock.Scene
