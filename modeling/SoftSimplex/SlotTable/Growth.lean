import SoftSimplex.SlotTable.Placement

/-!
# Filing new entries

Laying entries out over vacant slots leaves every empty slot free and every slot above the
cursor taken, so a free slot is found as long as there are more slots than entries. Filing a new
entry therefore always succeeds, after at most one growth.
-/

namespace SoftSimplex.Layout

variable {β : Type}

theorem absent_iff (layout : Layout β) (id : Nat) :
    layout.Absent id ↔ ∀ filed ∈ layout.entries, filed.1.id ≠ id := by
  constructor
  · intro absent filed member
    obtain ⟨position, found⟩ := (mem_filedIn_iff layout.slots filed).mp member
    exact absent position filed found
  · intro absent position filed found
    exact absent filed ((mem_filedIn_iff layout.slots filed).mpr ⟨position, found⟩)

/-- No two entries bear the same number. -/
def Distinct (entries : List (Symbol × β)) : Prop :=
  entries.Pairwise fun filed other => filed.1.id ≠ other.1.id

theorem Orderly.distinct {layout : Layout β} (orderly : layout.Orderly) :
    Distinct layout.entries := by
  refine List.pairwise_filterMap.mpr (List.pairwise_iff_getElem.mpr ?_)
  intro first second first_lt second_lt before filed found other found' same
  have first_inside : first < layout.slots.size := by simpa using first_lt
  have second_inside : second < layout.slots.size := by simpa using second_lt
  have equal := orderly.unique first second filed other
    (by simpa [entry, slotAt, first_inside] using found)
    (by simpa [entry, slotAt, second_inside] using found') same
  omega

/-- If every slot is taken, there are as many entries as slots. -/
theorem length_filedIn_of_full (slots : List (Slot β))
    (full : ∀ slot ∈ slots, slot.entry ≠ none) : (filedIn slots).length = slots.length := by
  induction slots with
  | nil => rfl
  | cons slot rest inductionHypothesis =>
      have inner := inductionHypothesis fun other member =>
        full other (List.mem_cons_of_mem slot member)
      cases found : slot.entry with
      | none => exact absurd found (full slot List.mem_cons_self)
      | some filed =>
          simp only [filedIn, List.filterMap_cons, found, List.length_cons] at inner ⊢
          rw [inner]

theorem exists_empty {layout : Layout β} (room : layout.entries.length < layout.slots.size) :
    ∃ position, position < layout.slots.size ∧ layout.entry position = none := by
  apply Classical.byContradiction
  intro missing
  have full : ∀ slot ∈ layout.slots.toList, slot.entry ≠ none := by
    intro slot member none_there
    obtain ⟨position, bound, at_position⟩ := List.mem_iff_getElem.mp member
    have inside : position < layout.slots.size := by simpa using bound
    refine missing ⟨position, inside, ?_⟩
    simp only [Array.getElem_toList] at at_position
    simpa [entry, slotAt, inside, at_position] using none_there
  have count := length_filedIn_of_full layout.slots.toList full
  simp only [entries, count, Array.length_toList] at room
  omega

/-- The three ways to place an entry. -/
inductive Placing (layout : Layout β) (filed : Symbol × β) : Layout β → Prop where
  | settled (empty_home : layout.entry (layout.home filed.1.id) = none) :
      Placing layout filed (layout.settle (layout.home filed.1.id) filed)
  | chained {free : Nat} {occupant : Symbol × β}
      (highest : highestFree? layout.slots layout.cursor = some free)
      (found_home : layout.entry (layout.home filed.1.id) = some occupant)
      (owner : layout.home occupant.1.id = layout.home filed.1.id) :
      Placing layout filed (layout.chainBehind (layout.home filed.1.id) free filed)
  | displaced {before free : Nat} {guest : Symbol × β}
      (highest : highestFree? layout.slots layout.cursor = some free)
      (found_home : layout.entry (layout.home filed.1.id) = some guest)
      (away : layout.home guest.1.id ≠ layout.home filed.1.id)
      (link_before : layout.next before = some (layout.home filed.1.id)) :
      Placing layout filed (layout.displace before (layout.home filed.1.id) free filed)

/-- The slot that leads to a guest is found by walking the chain of its home. -/
theorem Orderly.next_predecessor {layout : Layout β} (orderly : layout.Orderly)
    (inhabited : 0 < layout.slots.size) {position : Nat} {guest : Symbol × β}
    (found : layout.entry position = some guest) (away : layout.home guest.1.id ≠ position) :
    layout.next (predecessor layout.slots position layout.slots.size
      (layout.home guest.1.id)) = some position := by
  obtain ⟨path, chain⟩ := (orderly.ends (layout.home guest.1.id)).exists_path
  exact Layout.next_predecessor chain layout.slots.size
    (chain.length_le orderly.ends (home_lt guest.1.id inhabited) orderly.next_lt)
    ((chain.mem_iff_leads _).mpr (orderly.reachable position guest found)) away

theorem Orderly.placing_of_place? {layout changed : Layout β} {filed : Symbol × β}
    (orderly : layout.Orderly) (inhabited : 0 < layout.slots.size)
    (placed : layout.place? filed = some changed) : Placing layout filed changed := by
  simp only [place?] at placed
  split at placed
  · rename_i empty_home
    rw [← Option.some.inj placed]
    exact .settled empty_home
  · rename_i occupant value found_home
    obtain ⟨free, highest, rfl⟩ := Option.map_eq_some_iff.mp placed
    split
    · rename_i owner
      exact .chained highest found_home owner
    · rename_i away
      exact .displaced highest found_home away
        (orderly.next_predecessor inhabited found_home away)

/-- What placing an entry does. -/
structure Placed (layout : Layout β) (filed : Symbol × β) (changed : Layout β) : Prop where
  orderly : changed.Orderly
  entries_perm : changed.entries.Perm (filed :: layout.entries)
  slots_size : changed.slots.size = layout.slots.size

theorem Orderly.placed_of_place? {layout changed : Layout β} {filed : Symbol × β}
    (orderly : layout.Orderly) (inhabited : 0 < layout.slots.size)
    (absent : layout.Absent filed.1.id) (placed : layout.place? filed = some changed) :
    Placed layout filed changed := by
  have home_inside := home_lt filed.1.id inhabited
  cases orderly.placing_of_place? inhabited placed with
  | settled empty_home =>
      exact ⟨orderly.settle home_inside rfl empty_home absent,
        entries_settle_perm home_inside empty_home, by simp [Layout.settle]⟩
  | chained highest found_home owner =>
      obtain ⟨below, is_free, _⟩ := highestFree?_eq_some highest
      have free_inside := Nat.lt_of_lt_of_le below orderly.cursor_le
      exact ⟨orderly.chainBehind home_inside free_inside is_free rfl found_home owner absent,
        entries_chainBehind_perm home_inside free_inside (ne_of_isFree is_free found_home)
          (entry_of_isFree is_free),
        by simp [Layout.chainBehind]⟩
  | displaced highest found_home away link_before =>
      obtain ⟨below, is_free, _⟩ := highestFree?_eq_some highest
      have free_inside := Nat.lt_of_lt_of_le below orderly.cursor_le
      exact ⟨orderly.displace home_inside free_inside is_free rfl found_home away link_before
          absent,
        entries_displace_perm (lt_size_of_next link_before) home_inside free_inside
          (ne_of_isFree is_free found_home) (orderly.before_ne link_before)
          (entry_of_isFree is_free),
        by simp [Layout.displace]⟩

/-! ## Layouts without gaps -/

/-- Every empty slot is free, and every slot from the cursor on is taken. -/
structure Packed (layout : Layout β) : Prop where
  free_of_empty : ∀ position, layout.entry position = none →
    (slotAt layout.slots position).isFree = true
  taken_above : ∀ position, layout.cursor ≤ position → position < layout.slots.size →
    layout.entry position ≠ none

theorem packed_vacant (capacity : Nat) : (vacant capacity : Layout β).Packed where
  free_of_empty position _ := by simp [slotAt_vacant]
  taken_above position above inside := by
    simp only [vacant, Array.size_replicate] at above inside
    omega

theorem Packed.place?_isSome {layout : Layout β} (packed : layout.Packed)
    (room : layout.entries.length < layout.slots.size) (filed : Symbol × β) :
    (layout.place? filed).isSome = true := by
  simp only [place?]
  split
  · rfl
  · cases found : highestFree? layout.slots layout.cursor with
    | some free => simp
    | none =>
        obtain ⟨position, inside, is_empty⟩ := exists_empty room
        have is_free := packed.free_of_empty position is_empty
        have below : position < layout.cursor := by
          apply Nat.lt_of_not_le
          intro above
          exact packed.taken_above position above inside is_empty
        rw [highestFree?_eq_none found position below] at is_free
        exact absurd is_free (by simp)

/-- From the highest free slot below the cursor on, every other slot is taken. -/
theorem Packed.taken_beyond {layout : Layout β} (packed : layout.Packed) {free : Nat}
    (highest : highestFree? layout.slots layout.cursor = some free) {position : Nat}
    (beyond : free < position) (inside : position < layout.slots.size) :
    layout.entry position ≠ none := by
  intro is_empty
  by_cases under : position < layout.cursor
  · have not_free := (highestFree?_eq_some highest).2.2 position beyond under
    rw [packed.free_of_empty position is_empty] at not_free
    exact absurd not_free (by simp)
  · exact packed.taken_above position (Nat.le_of_not_lt under) inside is_empty

/-- A layout stays packed as long as the slots that remain empty are left alone, and all others
from the cursor on are taken. -/
theorem Packed.of_filled {layout changed : Layout β} (packed : layout.Packed)
    (same_size : changed.slots.size = layout.slots.size)
    (kept : ∀ position, changed.entry position = none →
      slotAt changed.slots position = slotAt layout.slots position)
    (taken : ∀ position, changed.cursor ≤ position → position < layout.slots.size →
      changed.entry position = none → layout.entry position ≠ none) : changed.Packed := by
  have was_empty : ∀ position, changed.entry position = none → layout.entry position = none := by
    intro position is_empty
    rw [entry, kept position is_empty] at is_empty
    exact is_empty
  constructor
  · intro position is_empty
    rw [kept position is_empty]
    exact packed.free_of_empty position (was_empty position is_empty)
  · intro position above inside is_empty
    exact taken position above (same_size ▸ inside) is_empty (was_empty position is_empty)

theorem Packed.settle {layout : Layout β} (packed : layout.Packed) {home : Nat}
    (inside : home < layout.slots.size) (filed : Symbol × β) :
    (layout.settle home filed).Packed := by
  apply packed.of_filled (by simp [Layout.settle])
  · intro position is_empty
    rw [entry_settle inside] at is_empty
    split at is_empty
    · exact absurd is_empty (by simp)
    · rename_i not_home
      rw [slotAt_settle home inside, if_neg not_home]
  · intro position above below _
    exact packed.taken_above position above below

section Free

variable {layout : Layout β} {home free : Nat} {occupant : Symbol × β}

/-- A layout stays packed when the highest free slot is taken and the cursor moves down to it. -/
theorem Packed.of_taken {changed : Layout β} (packed : layout.Packed)
    (highest : highestFree? layout.slots layout.cursor = some free)
    (same_size : changed.slots.size = layout.slots.size) (cursor : changed.cursor = free)
    (filled : changed.entry free ≠ none)
    (kept : ∀ position, changed.entry position = none →
      slotAt changed.slots position = slotAt layout.slots position) : changed.Packed := by
  apply packed.of_filled same_size kept
  intro position above inside is_empty
  have away : free ≠ position := fun at_free => filled (at_free ▸ is_empty)
  exact packed.taken_beyond highest (Nat.lt_of_le_of_ne (cursor ▸ above) away) inside

theorem Packed.chainBehind (packed : layout.Packed) (home_inside : home < layout.slots.size)
    (free_inside : free < layout.slots.size)
    (highest : highestFree? layout.slots layout.cursor = some free)
    (found_home : layout.entry home = some occupant) (filed : Symbol × β) :
    (layout.chainBehind home free filed).Packed := by
  have slots_of := slotAt_chainBehind home_inside free_inside filed
  have apart := ne_of_isFree (highestFree?_eq_some highest).2.1 found_home
  apply packed.of_taken highest (by simp [Layout.chainBehind]) rfl
  · intro is_empty
    rw [entry, slots_of] at is_empty
    simp [apart] at is_empty
  · intro position is_empty
    rw [entry, slots_of] at is_empty
    rw [slots_of]
    split at is_empty
    · exact absurd (found_home.symm.trans is_empty) (by simp)
    · rename_i not_home
      rw [if_neg not_home]
      split at is_empty
      · exact absurd is_empty (by simp)
      · rename_i not_free
        rw [if_neg not_free]

theorem Packed.displace (packed : layout.Packed) {before : Nat}
    (home_inside : home < layout.slots.size) (free_inside : free < layout.slots.size)
    (highest : highestFree? layout.slots layout.cursor = some free)
    (found_home : layout.entry home = some occupant)
    (link_before : layout.next before = some home) (filed : Symbol × β) :
    (layout.displace before home free filed).Packed := by
  have slots_of := slotAt_displace (lt_size_of_next link_before) home_inside free_inside filed
  have apart := ne_of_isFree (highestFree?_eq_some highest).2.1 found_home
  apply packed.of_taken highest (by simp [Layout.displace]) rfl
  · intro is_empty
    rw [entry, slots_of, if_neg apart, if_pos rfl] at is_empty
    exact absurd (found_home.symm.trans is_empty) (by simp)
  · intro position is_empty
    rw [entry, slots_of] at is_empty
    rw [slots_of]
    split at is_empty
    · exact absurd is_empty (by simp)
    · rename_i not_home
      rw [if_neg not_home]
      split at is_empty
      · exact absurd (found_home.symm.trans is_empty) (by simp)
      · rename_i not_free
        rw [if_neg not_free]
        split at is_empty
        · -- the slot before the guest leads on, so it is not empty
          have no_next := next_of_isFree (packed.free_of_empty before is_empty)
          rw [link_before] at no_next
          exact absurd no_next (by simp)
        · rename_i not_before
          rw [if_neg not_before]

end Free

theorem Packed.of_place? {layout changed : Layout β} {filed : Symbol × β}
    (packed : layout.Packed) (orderly : layout.Orderly) (inhabited : 0 < layout.slots.size)
    (placed : layout.place? filed = some changed) : changed.Packed := by
  have home_inside := home_lt filed.1.id inhabited
  cases orderly.placing_of_place? inhabited placed with
  | settled empty_home => exact packed.settle home_inside filed
  | chained highest found_home owner =>
      have free_inside :=
        Nat.lt_of_lt_of_le (highestFree?_eq_some highest).1 orderly.cursor_le
      exact packed.chainBehind home_inside free_inside highest found_home filed
  | displaced highest found_home away link_before =>
      have free_inside :=
        Nat.lt_of_lt_of_le (highestFree?_eq_some highest).1 orderly.cursor_le
      exact packed.displace home_inside free_inside highest found_home link_before filed

/-! ## Laying out afresh -/

theorem le_doubled {bound capacity : Nat} (steps : Nat) (positive : 0 < capacity)
    (enough : bound ≤ capacity + steps) : bound ≤ doubled bound steps capacity := by
  induction steps generalizing capacity with
  | zero => exact enough
  | succ steps inductionHypothesis =>
      simp only [doubled]
      split
      · exact inductionHypothesis (by omega) (by omega)
      · omega

theorem capacity_le_doubled (bound steps capacity : Nat) :
    capacity ≤ doubled bound steps capacity := by
  induction steps generalizing capacity with
  | zero => exact Nat.le_refl capacity
  | succ steps inductionHypothesis =>
      simp only [doubled]
      split
      · exact Nat.le_trans (by omega) (inductionHypothesis (2 * capacity))
      · exact Nat.le_refl capacity

theorem le_capacityFor (bound : Nat) : bound ≤ capacityFor bound :=
  le_doubled bound (by decide) (by omega)

theorem four_le_capacityFor (bound : Nat) : 4 ≤ capacityFor bound :=
  capacity_le_doubled bound bound 4

/-- There is room for entries to be laid out one after the other. -/
structure Fits (filed : List (Symbol × β)) (layout : Layout β) : Prop where
  orderly : layout.Orderly
  packed : layout.Packed
  inhabited : 0 < layout.slots.size
  room : filed.length + layout.entries.length ≤ layout.slots.size
  distinct : Distinct (filed ++ layout.entries)

/-- The first of the entries is placed, and there is room for the others behind it. -/
theorem Fits.first {first : Symbol × β} {rest : List (Symbol × β)} {layout : Layout β}
    (fits : Fits (first :: rest) layout) :
    ∃ changed, layout.place? first = some changed ∧ Placed layout first changed ∧
      Fits rest changed := by
  have room := fits.room
  rw [List.length_cons] at room
  have apart := (List.pairwise_cons.mp fits.distinct).1
  have absent : layout.Absent first.1.id := (absent_iff layout first.1.id).mpr
    fun other member same => apart other (List.mem_append_right rest member) same.symm
  obtain ⟨changed, placed⟩ := Option.isSome_iff_exists.mp
    (fits.packed.place?_isSome (by omega) first)
  have effect := fits.orderly.placed_of_place? fits.inhabited absent placed
  have shuffled : (rest ++ changed.entries).Perm (first :: rest ++ layout.entries) :=
    (List.Perm.append_left rest effect.entries_perm).trans List.perm_middle
  refine ⟨changed, placed, effect, effect.orderly,
    fits.packed.of_place? fits.orderly fits.inhabited placed,
    effect.slots_size ▸ fits.inhabited, ?_, ?_⟩
  · rw [effect.entries_perm.length_eq, effect.slots_size, List.length_cons]
    omega
  · exact (shuffled.pairwise_iff fun unequal same => unequal same.symm).mpr fits.distinct

/-- What laying out a list of entries does. -/
structure LaidOut (entries : List (Symbol × β)) (layout changed : Layout β) : Prop where
  orderly : changed.Orderly
  packed : changed.Packed
  entries_perm : changed.entries.Perm (entries ++ layout.entries)
  slots_size : changed.slots.size = layout.slots.size

theorem Fits.laidOut {filed : List (Symbol × β)} {layout : Layout β}
    (fits : Fits filed layout) : LaidOut filed layout (placeAll filed layout) := by
  induction filed generalizing layout with
  | nil => exact ⟨fits.orderly, fits.packed, List.Perm.refl _, rfl⟩
  | cons first rest inductionHypothesis =>
      obtain ⟨changed, placed, effect, others⟩ := fits.first
      have unfolded : placeAll (first :: rest) layout = placeAll rest changed := by
        simp [placeAll, placed]
      have inner := inductionHypothesis others
      rw [unfolded]
      exact ⟨inner.orderly, inner.packed,
        inner.entries_perm.trans
          ((List.Perm.append_left rest effect.entries_perm).trans List.perm_middle),
        inner.slots_size.trans effect.slots_size⟩

theorem Orderly.fits_vacant {layout : Layout β} (orderly : layout.Orderly) (bound : Nat)
    (room : layout.size ≤ capacityFor bound) :
    Fits layout.entries (vacant (capacityFor bound)) where
  orderly := orderly_vacant _
  packed := packed_vacant _
  inhabited := by
    simp only [vacant, Array.size_replicate]
    exact Nat.lt_of_lt_of_le (by decide) (four_le_capacityFor bound)
  room := by
    rw [entries_vacant, ← orderly.size_eq]
    simpa [vacant] using room
  distinct := by simpa [entries_vacant] using orderly.distinct

theorem Orderly.laidOut_rehash {layout : Layout β} (orderly : layout.Orderly) (bound : Nat)
    (room : layout.size ≤ capacityFor bound) :
    LaidOut layout.entries (vacant (capacityFor bound)) (layout.rehash bound) :=
  (orderly.fits_vacant bound room).laidOut

/-- The layout in which a place for a new entry is looked for first. -/
def started (layout : Layout β) : Layout β :=
  if layout.slots.isEmpty then layout.rehash 0 else layout

theorem insertNew_eq (layout : Layout β) (filed : Symbol × β) :
    layout.insertNew filed = (layout.started.place? filed).getD
      (placeAll [filed] (layout.started.rehash (2 * layout.started.size))) := rfl

theorem entries_eq_nil {layout : Layout β} (vacuous : layout.slots.isEmpty = true) :
    layout.entries = [] := by
  have no_slots : layout.slots = #[] := by simpa using vacuous
  simp [entries, no_slots, filedIn]

/-- Slots are there, and no entry is lost. -/
theorem Orderly.started {layout : Layout β} (orderly : layout.Orderly) :
    layout.started.Orderly ∧ 0 < layout.started.slots.size ∧
      layout.started.entries.Perm layout.entries := by
  unfold Layout.started
  split
  · rename_i vacuous
    have none_filed := entries_eq_nil vacuous
    have fits : Fits layout.entries (vacant (capacityFor 0)) := orderly.fits_vacant 0 (by
      rw [orderly.size_eq, none_filed]
      exact Nat.zero_le _)
    have fresh : LaidOut layout.entries _ (layout.rehash 0) := fits.laidOut
    refine ⟨fresh.orderly, fresh.slots_size ▸ fits.inhabited, ?_⟩
    simpa [entries_vacant] using fresh.entries_perm
  · rename_i occupied
    refine ⟨orderly, Nat.pos_of_ne_zero fun no_slots => occupied ?_, List.Perm.refl _⟩
    simpa [Array.size_eq_zero_iff] using no_slots

theorem Orderly.started_absent {layout : Layout β} (orderly : layout.Orderly) {id : Nat}
    (absent : layout.Absent id) : layout.started.Absent id :=
  (absent_iff layout.started id).mpr fun filed member =>
    (absent_iff layout id).mp absent filed (orderly.started.2.2.mem_iff.mp member)

/-- Twice the entries leave a free slot behind, so that a new entry fits in. -/
theorem Orderly.fits_grown {layout : Layout β} {filed : Symbol × β} (orderly : layout.Orderly)
    (absent : layout.Absent filed.1.id) : Fits [filed] (layout.rehash (2 * layout.size)) := by
  have enough := le_capacityFor (2 * layout.size)
  have at_least := four_le_capacityFor (2 * layout.size)
  have fresh := orderly.laidOut_rehash (2 * layout.size) (by omega)
  have same_entries : (layout.rehash (2 * layout.size)).entries.Perm layout.entries := by
    simpa [entries_vacant] using fresh.entries_perm
  have capacity : (layout.rehash (2 * layout.size)).slots.size =
      capacityFor (2 * layout.size) := by
    rw [fresh.slots_size]
    simp [vacant]
  refine ⟨fresh.orderly, fresh.packed, by omega, ?_, ?_⟩
  · rw [same_entries.length_eq, ← orderly.size_eq, capacity, List.length_singleton]
    omega
  · refine List.pairwise_cons.mpr ⟨fun other member same => ?_, fresh.orderly.distinct⟩
    exact (absent_iff layout filed.1.id).mp absent other
      (same_entries.mem_iff.mp member) same.symm

/-- Filing a new entry adds it to what is filed, and the layout stays orderly. -/
theorem Orderly.insertNew {layout : Layout β} {filed : Symbol × β} (orderly : layout.Orderly)
    (absent : layout.Absent filed.1.id) :
    (layout.insertNew filed).Orderly ∧
      (layout.insertNew filed).entries.Perm (filed :: layout.entries) := by
  obtain ⟨start_orderly, inhabited, same_entries⟩ := orderly.started
  have start_absent := orderly.started_absent absent
  rw [insertNew_eq]
  cases placed : layout.started.place? filed with
  | some changed =>
      have effect := start_orderly.placed_of_place? inhabited start_absent placed
      exact ⟨effect.orderly, effect.entries_perm.trans (same_entries.cons filed)⟩
  | none =>
      have fresh := start_orderly.laidOut_rehash (2 * layout.started.size) (by
        have enough := le_capacityFor (2 * layout.started.size)
        omega)
      have filed_in := (start_orderly.fits_grown start_absent).laidOut
      have entries := fresh.entries_perm
      rw [entries_vacant, List.append_nil] at entries
      exact ⟨filed_in.orderly,
        filed_in.entries_perm.trans ((entries.trans same_entries).cons filed)⟩

end SoftSimplex.Layout
