import SoftSimplex.SlotTable.Growth

/-!
# Walks that end by themselves

The searches and walks of a layout are computed with a bound on their number of steps. Here they
are taken without one: a search, a walk to the slot before a guest, and the filing of new entries
are relations that hold when the last step has been taken. In an orderly layout each of them comes
to an end, in one way only, and with the result that is computed. Filing a new entry grows the
layout at most once, and laying the old entries out again never does.
-/

namespace SoftSimplex.Layout

open Chain

variable {β : Type}

/-- Looking for a number slot by slot, from a position on, comes to an end. -/
inductive Searches (layout : Layout β) (id : Nat) : Nat → Option Nat → Prop where
  | found {position : Nat} (inside : position < layout.slots.size)
      (bears : (slotAt layout.slots position).bears id = true) :
      Searches layout id position (some position)
  | ended {position : Nat} (inside : position < layout.slots.size)
      (differs : (slotAt layout.slots position).bears id = false)
      (last : layout.next position = none) : Searches layout id position none
  | follow {position following : Nat} {result : Option Nat}
      (inside : position < layout.slots.size)
      (differs : (slotAt layout.slots position).bears id = false)
      (link : layout.next position = some following)
      (rest : Searches layout id following result) : Searches layout id position result

theorem Searches.unique {layout : Layout β} {id start : Nat} {result other : Option Nat}
    (first : Searches layout id start result) (second : Searches layout id start other) :
    other = result := by
  induction first with
  | found inside bears =>
      cases second with
      | found => rfl
      | ended _ differs => exact absurd (bears.symm.trans differs) (by simp)
      | follow _ differs => exact absurd (bears.symm.trans differs) (by simp)
  | ended inside differs last =>
      cases second with
      | found _ bears => exact absurd (bears.symm.trans differs) (by simp)
      | ended => rfl
      | follow _ _ link => exact absurd (last.symm.trans link) (by simp)
  | follow inside differs link rest inductionHypothesis =>
      cases second with
      | found _ bears => exact absurd (bears.symm.trans differs) (by simp)
      | ended _ _ last => exact absurd (last.symm.trans link) (by simp)
      | follow _ _ link' rest' =>
          obtain rfl := Option.some.inj (link.symm.trans link')
          exact inductionHypothesis rest'

/-- A search ends with the first slot of the chain that bears the number. -/
theorem searches_of_path {layout : Layout β} {start : Nat} {path : List Nat} (id : Nat)
    (chain : Path layout.next start path) (start_inside : start < layout.slots.size)
    (next_lt : ∀ position following,
      layout.next position = some following → following < layout.slots.size) :
    Searches layout id start
      (path.find? fun position => (slotAt layout.slots position).bears id) := by
  induction chain with
  | @last position ended =>
      cases bears : (slotAt layout.slots position).bears id with
      | true =>
          simp only [List.find?_cons, bears]
          exact .found start_inside bears
      | false =>
          simp only [List.find?_cons, bears]
          exact .ended start_inside bears ended
  | @cons position following rest link inner inductionHypothesis =>
      cases bears : (slotAt layout.slots position).bears id with
      | true =>
          simp only [List.find?_cons, bears]
          exact .found start_inside bears
      | false =>
          simp only [List.find?_cons, bears]
          exact .follow start_inside bears link
            (inductionHypothesis (next_lt position following link))

/-- Every search ends, with the position that is computed. -/
theorem Orderly.searches_iff {layout : Layout β} (orderly : layout.Orderly)
    (inhabited : 0 < layout.slots.size) (id : Nat) (result : Option Nat) :
    Searches layout id (layout.home id) result ↔ result = layout.position? id := by
  have home_inside := home_lt id inhabited
  obtain ⟨path, chain⟩ := (orderly.ends (layout.home id)).exists_path
  have short := chain.length_le orderly.ends home_inside orderly.next_lt
  have searched := searches_of_path id chain home_inside orderly.next_lt
  rw [position?, seek_eq_find? chain _ short]
  constructor
  · exact searched.unique
  · rintro rfl
    exact searched

/-- Walking along a chain until its next slot is the target comes to an end. -/
inductive Retraces (layout : Layout β) (target : Nat) : Nat → Nat → Prop where
  | ended {position : Nat} (last : layout.next position = none) :
      Retraces layout target position position
  | found {position : Nat} (link : layout.next position = some target) :
      Retraces layout target position position
  | follow {position following before : Nat} (link : layout.next position = some following)
      (apart : following ≠ target) (rest : Retraces layout target following before) :
      Retraces layout target position before

theorem Retraces.unique {layout : Layout β} {target start before other : Nat}
    (first : Retraces layout target start before) (second : Retraces layout target start other) :
    other = before := by
  induction first with
  | ended last =>
      cases second with
      | ended => rfl
      | found => rfl
      | follow link => exact absurd (last.symm.trans link) (by simp)
  | found link =>
      cases second with
      | ended => rfl
      | found => rfl
      | follow link' apart => exact absurd (Option.some.inj (link'.symm.trans link)) apart
  | follow link apart rest inductionHypothesis =>
      cases second with
      | ended last => exact absurd (last.symm.trans link) (by simp)
      | found link' => exact absurd (Option.some.inj (link.symm.trans link')) apart
      | follow link' _ rest' =>
          obtain rfl := Option.some.inj (link.symm.trans link')
          exact inductionHypothesis rest'

theorem retraces_predecessor {layout : Layout β} {start : Nat} {path : List Nat} (target : Nat)
    (chain : Path layout.next start path) (steps : Nat) (enough : path.length ≤ steps) :
    Retraces layout target start (predecessor layout.slots target steps start) := by
  induction chain generalizing steps with
  | @last position ended =>
      cases steps with
      | zero => exact absurd enough (by simp)
      | succ steps =>
          have none_after : (slotAt layout.slots position).next = none := ended
          simp only [predecessor, none_after]
          exact .ended ended
  | @cons position following rest link inner inductionHypothesis =>
      cases steps with
      | zero => exact absurd enough (by simp)
      | succ steps =>
          have one_after : (slotAt layout.slots position).next = some following := link
          simp only [predecessor, one_after]
          split
          · rename_i same
            exact .found (same ▸ link)
          · rename_i apart
            exact .follow link apart (inductionHypothesis steps (by simpa using enough))

/-- The walk from the home of a guest ends at the slot that leads to it. -/
theorem Orderly.retraces {layout : Layout β} (orderly : layout.Orderly) {position : Nat}
    {guest : Symbol × β} (found : layout.entry position = some guest)
    (away : layout.home guest.1.id ≠ position) {before : Nat}
    (link_before : layout.next before = some position) :
    Retraces layout position (layout.home guest.1.id) before := by
  have inhabited : 0 < layout.slots.size := Nat.zero_lt_of_lt (entry_lt found)
  obtain ⟨path, chain⟩ := (orderly.ends (layout.home guest.1.id)).exists_path
  have short := chain.length_le orderly.ends (home_lt guest.1.id inhabited) orderly.next_lt
  have walk := retraces_predecessor position chain layout.slots.size short
  rwa [orderly.next_injective _ before position
    (orderly.next_predecessor inhabited found away) link_before] at walk

/-! ## Giving an entry a slot -/

/-- An entry gets a slot without growing the layout. A guest makes room only after the walk to the
slot before it has ended at a slot that indeed leads to it. -/
inductive Places (layout : Layout β) (filed : Symbol × β) : Layout β → Prop where
  | settled (inhabited : 0 < layout.slots.size)
      (empty_home : layout.entry (layout.home filed.1.id) = none) :
      Places layout filed (layout.settle (layout.home filed.1.id) filed)
  | chained {free : Nat} {occupant : Symbol × β}
      (highest : highestFree? layout.slots layout.cursor = some free)
      (found_home : layout.entry (layout.home filed.1.id) = some occupant)
      (owner : layout.home occupant.1.id = layout.home filed.1.id) :
      Places layout filed (layout.chainBehind (layout.home filed.1.id) free filed)
  | displaced {before free : Nat} {guest : Symbol × β}
      (highest : highestFree? layout.slots layout.cursor = some free)
      (found_home : layout.entry (layout.home filed.1.id) = some guest)
      (away : layout.home guest.1.id ≠ layout.home filed.1.id)
      (walk : Retraces layout (layout.home filed.1.id) (layout.home guest.1.id) before)
      (asserted : layout.next before = some (layout.home filed.1.id)) :
      Places layout filed (layout.displace before (layout.home filed.1.id) free filed)

/-- An entry cannot get a slot: there is no slot at all, or its home is taken and no slot below
the cursor is free. -/
inductive Stuck (layout : Layout β) (filed : Symbol × β) : Prop where
  | slotless (no_slots : layout.slots.size = 0)
  | full {occupant : Symbol × β}
      (found_home : layout.entry (layout.home filed.1.id) = some occupant)
      (none_free : highestFree? layout.slots layout.cursor = none)

section Places

variable {layout : Layout β} {filed : Symbol × β}

theorem Places.unique {changed other : Layout β} (first : Places layout filed changed)
    (second : Places layout filed other) : other = changed := by
  cases first with
  | settled _ empty_home =>
      cases second with
      | settled => rfl
      | chained _ found_home => exact absurd (empty_home.symm.trans found_home) (by simp)
      | displaced _ found_home => exact absurd (empty_home.symm.trans found_home) (by simp)
  | chained highest found_home owner =>
      cases second with
      | settled _ empty_home => exact absurd (empty_home.symm.trans found_home) (by simp)
      | chained highest' =>
          rw [Option.some.inj (highest.symm.trans highest')]
      | displaced _ found_home' away =>
          rw [← Option.some.inj (found_home.symm.trans found_home')] at away
          exact absurd owner away
  | displaced highest found_home away walk =>
      cases second with
      | settled _ empty_home => exact absurd (empty_home.symm.trans found_home) (by simp)
      | chained _ found_home' owner =>
          rw [← Option.some.inj (found_home.symm.trans found_home')] at owner
          exact absurd owner away
      | displaced highest' found_home' _ walk' =>
          obtain rfl := Option.some.inj (found_home.symm.trans found_home')
          rw [Option.some.inj (highest.symm.trans highest'), walk.unique walk']

theorem Places.not_stuck {changed : Layout β} (places : Places layout filed changed) :
    ¬ Stuck layout filed := by
  intro stuck
  cases stuck with
  | slotless no_slots =>
      cases places with
      | settled inhabited => omega
      | chained _ found_home => exact absurd (entry_lt found_home) (by omega)
      | displaced _ found_home => exact absurd (entry_lt found_home) (by omega)
  | full found_home none_free =>
      cases places with
      | settled _ empty_home => exact absurd (empty_home.symm.trans found_home) (by simp)
      | chained highest => exact absurd (none_free.symm.trans highest) (by simp)
      | displaced highest => exact absurd (none_free.symm.trans highest) (by simp)

theorem Orderly.places_of_place? (orderly : layout.Orderly) (inhabited : 0 < layout.slots.size)
    {changed : Layout β} (placed : layout.place? filed = some changed) :
    Places layout filed changed := by
  cases orderly.placing_of_place? inhabited placed with
  | settled empty_home => exact .settled inhabited empty_home
  | chained highest found_home owner => exact .chained highest found_home owner
  | displaced highest found_home away link_before =>
      exact .displaced highest found_home away (orderly.retraces found_home away link_before)
        link_before

theorem stuck_of_place? (missed : layout.place? filed = none) : Stuck layout filed := by
  simp only [place?] at missed
  split at missed
  · exact absurd missed (by simp)
  · rename_i found_home
    exact .full found_home (Option.map_eq_none_iff.mp missed)

end Places

/-- How many slots a layout is grown to. -/
def grownSize (layout : Layout β) (count : Nat) : Nat :=
  capacityFor (if layout.slots.isEmpty then 4 else 2 * count)

/-- Filing entries one after the other comes to an end, after growing the layout some number of
times. A layout that an entry finds no slot in is grown, which files everything in it again, and
then the entry is tried again. Nothing here keeps the growing from going on and on. The number of
entries that decides on the new number of slots is not updated meanwhile. -/
inductive Files (count : Nat) : List (Symbol × β) → Layout β → Nat → Layout β → Prop where
  | nil (layout : Layout β) : Files count [] layout 0 layout
  | placed {filed : Symbol × β} {rest : List (Symbol × β)} {layout between after : Layout β}
      {growths : Nat} (places : Places layout filed between)
      (later : Files count rest between growths after) :
      Files count (filed :: rest) layout growths after
  | grown {filed : Symbol × β} {rest : List (Symbol × β)} {layout between after : Layout β}
      {inner outer : Nat} (stuck : Stuck layout filed)
      (relaid : Files count layout.entries (vacant (layout.grownSize count)) inner between)
      (again : Files count (filed :: rest) between outer after) :
      Files count (filed :: rest) layout (inner + 1 + outer) after

theorem Files.unique {count growths : Nat} {entries : List (Symbol × β)}
    {layout after : Layout β} (first : Files count entries layout growths after)
    {others : Nat} {other : Layout β} (second : Files count entries layout others other) :
    others = growths ∧ other = after := by
  induction first generalizing others other with
  | nil layout =>
      cases second with
      | nil => exact ⟨rfl, rfl⟩
  | placed places later inductionHypothesis =>
      cases second with
      | placed places' later' =>
          obtain rfl := places.unique places'
          exact inductionHypothesis later'
      | grown stuck => exact absurd stuck places.not_stuck
  | grown stuck relaid again innerHypothesis outerHypothesis =>
      cases second with
      | placed places => exact absurd stuck places.not_stuck
      | grown _ relaid' again' =>
          obtain ⟨rfl, rfl⟩ := innerHypothesis relaid'
          obtain ⟨rfl, rfl⟩ := outerHypothesis again'
          exact ⟨rfl, rfl⟩

/-- Entries that fit in are filed without growing the layout. -/
theorem Fits.files {filed : List (Symbol × β)} {layout : Layout β} (fits : Fits filed layout)
    (count : Nat) : Files count filed layout 0 (placeAll filed layout) := by
  induction filed generalizing layout with
  | nil => exact .nil layout
  | cons first rest inductionHypothesis =>
      obtain ⟨changed, placed, _, others⟩ := fits.first
      have unfolded : placeAll (first :: rest) layout = placeAll rest changed := by
        simp [placeAll, placed]
      rw [unfolded]
      exact .placed (fits.orderly.places_of_place? fits.inhabited placed)
        (inductionHypothesis others)

/-- Filing an entry in a layout without slots makes the first slots and settles the entry. -/
theorem Orderly.files_first {layout : Layout β} (orderly : layout.Orderly)
    (vacuous : layout.slots.isEmpty = true) {filed : Symbol × β}
    (absent : layout.Absent filed.1.id) :
    Files layout.size [filed] layout 1 (layout.insertNew filed) := by
  have none_filed := entries_eq_nil vacuous
  have no_entry : layout.size = 0 := by
    rw [orderly.size_eq, none_filed]
    rfl
  have started : layout.started = layout.rehash 0 := if_pos vacuous
  have first_slots : layout.rehash 0 = vacant (layout.grownSize layout.size) := by
    rw [rehash, none_filed, grownSize, if_pos vacuous]
    rfl
  have relaid : Files layout.size layout.entries (vacant (layout.grownSize layout.size)) 0
      layout.started := by
    rw [none_filed, started, first_slots]
    exact .nil _
  have fits : Fits [filed] layout.started := by
    have grown := orderly.fits_grown absent
    rwa [no_entry, Nat.mul_zero, ← started] at grown
  obtain ⟨changed, placed, _, _⟩ := fits.first
  have settled : layout.insertNew filed = changed := by
    rw [insertNew_eq, placed, Option.getD_some]
  rw [settled]
  refine .grown (.slotless (by simpa using vacuous)) relaid (.placed ?_ (.nil changed))
  exact fits.orderly.places_of_place? fits.inhabited placed

/-- Filing a new entry comes to an end, with the layout that is computed, and the layout has been
grown at most once. -/
theorem Orderly.files_insertNew {layout : Layout β} (orderly : layout.Orderly)
    {filed : Symbol × β} (absent : layout.Absent filed.1.id) :
    ∃ growths ≤ 1, Files layout.size [filed] layout growths (layout.insertNew filed) := by
  by_cases vacuous : layout.slots.isEmpty = true
  · exact ⟨1, Nat.le_refl 1, orderly.files_first vacuous absent⟩
  · have started : layout.started = layout := if_neg vacuous
    have inhabited : 0 < layout.slots.size :=
      Nat.pos_of_ne_zero fun no_slots => vacuous (by simpa using no_slots)
    rw [insertNew_eq, started]
    cases placed : layout.place? filed with
    | some changed =>
        exact ⟨0, Nat.zero_le 1,
          .placed (orderly.places_of_place? inhabited placed) (.nil changed)⟩
    | none =>
        have enough := le_capacityFor (2 * layout.size)
        have relaid : Files layout.size layout.entries (vacant (layout.grownSize layout.size)) 0
            (layout.rehash (2 * layout.size)) := by
          rw [grownSize, if_neg vacuous]
          exact (orderly.fits_vacant (2 * layout.size) (by omega)).files layout.size
        have again := (orderly.fits_grown absent).files layout.size
        exact ⟨1, Nat.le_refl 1, .grown (stuck_of_place? placed) relaid again⟩

end SoftSimplex.Layout
