import SoftSimplex.Chain
import SoftSimplex.SlotTable.Layout

/-!
# Orderly layouts

In an orderly layout the chains are disjoint paths, every number occurs once, and every entry
lies on the chain of its home. A guest, which is an entry away from its home, keeps its slot
only as long as no entry calls that slot its home. Searching an orderly layout finds exactly
what is filed, and every operation keeps layouts orderly.
-/

namespace SoftSimplex.Layout

open Chain

variable {β : Type}

/-- Every entry can be found, and only once. -/
structure Orderly (layout : Layout β) : Prop where
  next_lt : ∀ position following,
    layout.next position = some following → following < layout.slots.size
  next_injective : ∀ first second target,
    layout.next first = some target → layout.next second = some target → first = second
  linked_of_next : ∀ position following,
    layout.next position = some following → (slotAt layout.slots following).linked = true
  ends : ∀ position, Ends layout.next position
  unique : ∀ first second filed other, layout.entry first = some filed →
    layout.entry second = some other → filed.1.id = other.1.id → first = second
  reachable : ∀ position filed, layout.entry position = some filed →
    Leads layout.next (layout.home filed.1.id) position
  guest : ∀ position filed, layout.entry position = some filed →
    layout.home filed.1.id ≠ position →
      ∀ place other, layout.entry place = some other → layout.home other.1.id ≠ position
  size_eq : layout.size = layout.entries.length
  cursor_le : layout.cursor ≤ layout.slots.size

/-- No entry bears the number. -/
def Absent (layout : Layout β) (id : Nat) : Prop :=
  ∀ position filed, layout.entry position = some filed → filed.1.id ≠ id

theorem entry_lt {layout : Layout β} {position : Nat} {filed : Symbol × β}
    (found : layout.entry position = some filed) : position < layout.slots.size :=
  lt_size_of_entry found

theorem home_lt {layout : Layout β} (id : Nat) (inhabited : 0 < layout.slots.size) :
    layout.home id < layout.slots.size :=
  Nat.mod_lt id inhabited

/-- Searching a chain looks at its slots from first to last. -/
theorem seek_eq_find? {slots : Array (Slot β)} {id start : Nat} {path : List Nat}
    (chain : Path (fun position => (slotAt slots position).next) start path) (steps : Nat)
    (enough : path.length ≤ steps) :
    seek slots id steps start = path.find? fun position => (slotAt slots position).bears id := by
  induction chain generalizing steps with
  | last ended =>
      cases steps with
      | zero => exact absurd enough (by simp)
      | succ steps =>
          simp only [seek, List.find?_cons, List.find?_nil, ended]
          split <;> simp_all
  | cons link _ inductionHypothesis =>
      cases steps with
      | zero => exact absurd enough (by simp)
      | succ steps =>
          have rest := inductionHypothesis steps (by simpa using enough)
          simp only [seek, List.find?_cons, link]
          split
          · simp_all
          · simp_all

theorem Orderly.position?_eq_some_iff {layout : Layout β} (orderly : layout.Orderly)
    (id position : Nat) :
    layout.position? id = some position ↔
      ∃ filed, layout.entry position = some filed ∧ filed.1.id = id := by
  by_cases inhabited : 0 < layout.slots.size
  · obtain ⟨path, chain⟩ := (orderly.ends (layout.home id)).exists_path
    have short := chain.length_le orderly.ends (home_lt id inhabited) orderly.next_lt
    rw [position?, seek_eq_find? chain _ short]
    constructor
    · intro found
      have bears : (slotAt layout.slots position).bears id = true := by
        simpa using List.find?_some found
      exact (Slot.bears_eq_true_iff _ _).mp bears
    · rintro ⟨filed, at_position, same⟩
      have bears : (slotAt layout.slots position).bears id = true :=
        (Slot.bears_eq_true_iff _ _).mpr ⟨filed, at_position, same⟩
      have member : position ∈ path :=
        (chain.mem_iff_leads position).mpr (same ▸ orderly.reachable position filed at_position)
      cases found : path.find? fun position => (slotAt layout.slots position).bears id with
      | none => exact absurd bears (List.find?_eq_none.mp found position member)
      | some other =>
          have other_bears : (slotAt layout.slots other).bears id = true := by
            simpa using List.find?_some found
          obtain ⟨filed', at_other, same'⟩ := (Slot.bears_eq_true_iff _ _).mp other_bears
          exact congrArg some
            (orderly.unique other position filed' filed at_other at_position
              (same'.trans same.symm))
  · have none_there : layout.slots.size = 0 := Nat.eq_zero_of_not_pos inhabited
    constructor
    · intro found
      rw [position?, none_there] at found
      exact absurd found (by simp [seek])
    · rintro ⟨filed, at_position, _⟩
      exact absurd (entry_lt at_position) (by omega)

theorem Orderly.position?_eq_none_iff {layout : Layout β} (orderly : layout.Orderly)
    (id : Nat) :
    layout.position? id = none ↔ layout.Absent id := by
  constructor
  · intro absent position filed at_position same
    have present := (orderly.position?_eq_some_iff id position).mpr ⟨filed, at_position, same⟩
    rw [absent] at present
    exact absurd present (by simp)
  · intro absent
    cases found : layout.position? id with
    | none => rfl
    | some position =>
        obtain ⟨filed, at_position, same⟩ := (orderly.position?_eq_some_iff id position).mp found
        exact absurd same (absent position filed at_position)

/-- The free slot that is taken lies below the bound. -/
theorem highestFree?_eq_some {slots : Array (Slot β)} {bound free : Nat}
    (found : highestFree? slots bound = some free) :
    free < bound ∧ (slotAt slots free).isFree = true ∧
      ∀ position, free < position → position < bound →
        (slotAt slots position).isFree = false := by
  induction bound with
  | zero => exact absurd found (by simp [highestFree?])
  | succ bound inductionHypothesis =>
      simp only [highestFree?] at found
      split at found
      · rename_i is_free
        have same : bound = free := Option.some.inj found
        subst same
        exact ⟨Nat.lt_succ_self bound, is_free, fun position above below => by omega⟩
      · rename_i not_free
        obtain ⟨below, is_free, highest⟩ := inductionHypothesis found
        refine ⟨Nat.lt_succ_of_lt below, is_free, fun position above within => ?_⟩
        by_cases last : position = bound
        · rw [last]
          exact Bool.eq_false_iff.mpr not_free
        · exact highest position above (by omega)

theorem highestFree?_eq_none {slots : Array (Slot β)} {bound : Nat}
    (absent : highestFree? slots bound = none) (position : Nat) (below : position < bound) :
    (slotAt slots position).isFree = false := by
  induction bound with
  | zero => exact absurd below (Nat.not_lt_zero position)
  | succ bound inductionHypothesis =>
      simp only [highestFree?] at absent
      split at absent
      · exact absurd absent (by simp)
      · rename_i not_free
        by_cases last : position = bound
        · rw [last]
          exact Bool.eq_false_iff.mpr not_free
        · exact inductionHypothesis absent (by omega)

/-- The walk along a chain stops right before the slot that it looks for. -/
theorem next_predecessor {slots : Array (Slot β)} {start target : Nat} {path : List Nat}
    (chain : Path (fun position => (slotAt slots position).next) start path) (steps : Nat)
    (enough : path.length ≤ steps) (member : target ∈ path) (apart : start ≠ target) :
    (slotAt slots (predecessor slots target steps start)).next = some target := by
  induction chain generalizing steps with
  | last =>
      exact absurd (List.mem_singleton.mp member).symm apart
  | @cons position following rest link inner inductionHypothesis =>
      cases steps with
      | zero => exact absurd enough (by simp)
      | succ steps =>
          have inside : target ∈ rest := by
            cases List.mem_cons.mp member with
            | inl same => exact absurd same.symm apart
            | inr inside => exact inside
          simp only [predecessor, link]
          by_cases same : following = target
          · simp [same, link]
          · rw [if_neg same]
            exact inductionHypothesis steps (by simpa using enough) inside same

theorem slotAt_vacant (capacity position : Nat) :
    slotAt (vacant capacity : Layout β).slots position = Slot.vacant := by
  simp only [slotAt, vacant, Array.getElem?_replicate]
  split <;> rfl

theorem entries_vacant (capacity : Nat) : (vacant capacity : Layout β).entries = [] := by
  simp [entries, vacant, filedIn, Slot.vacant]

theorem orderly_vacant (capacity : Nat) : (vacant capacity : Layout β).Orderly where
  next_lt position following link := by
    simp [next, slotAt_vacant, Slot.vacant] at link
  next_injective first second target link := by
    simp [next, slotAt_vacant, Slot.vacant] at link
  linked_of_next position following link := by
    simp [next, slotAt_vacant, Slot.vacant] at link
  ends position := Acc.intro position fun following link => by
    simp [next, slotAt_vacant, Slot.vacant] at link
  unique first second filed other found := by
    simp [entry, slotAt_vacant, Slot.vacant] at found
  reachable position filed found := by
    simp [entry, slotAt_vacant, Slot.vacant] at found
  guest position filed found := by
    simp [entry, slotAt_vacant, Slot.vacant] at found
  size_eq := by simp [entries_vacant]; rfl
  cursor_le := by simp [vacant]

theorem orderly_empty : (empty : Layout β).Orderly := orderly_vacant 0

/-- A layout stays orderly when links stay as they are and entries keep their places and
symbols, save for entries that go. -/
theorem Orderly.of_shape {layout changed : Layout β} (orderly : layout.Orderly)
    (slots_eq : changed.slots.size = layout.slots.size)
    (next_eq : ∀ position, changed.next position = layout.next position)
    (linked_eq : ∀ position,
      (slotAt changed.slots position).linked = (slotAt layout.slots position).linked)
    (entry_from : ∀ position filed, changed.entry position = some filed →
      ∃ value, layout.entry position = some (filed.1, value))
    (size_eq : changed.size = changed.entries.length)
    (cursor_le : changed.cursor ≤ changed.slots.size) : changed.Orderly := by
  have same_next : changed.next = layout.next := funext next_eq
  have same_home : ∀ id, changed.home id = layout.home id := fun id => by
    simp [home, slots_eq]
  exact {
    next_lt := fun position following link => by
      rw [slots_eq]
      exact orderly.next_lt position following (next_eq position ▸ link)
    next_injective := fun first second target link link' =>
      orderly.next_injective first second target (next_eq first ▸ link) (next_eq second ▸ link')
    linked_of_next := fun position following link => by
      rw [linked_eq]
      exact orderly.linked_of_next position following (next_eq position ▸ link)
    ends := same_next ▸ orderly.ends
    unique := fun first second filed other found found' same => by
      obtain ⟨_, before⟩ := entry_from first filed found
      obtain ⟨_, before'⟩ := entry_from second other found'
      exact orderly.unique first second _ _ before before' same
    reachable := fun position filed found => by
      obtain ⟨value, before⟩ := entry_from position filed found
      rw [same_next, same_home]
      exact orderly.reachable position (filed.1, value) before
    guest := fun position filed found away place other found' => by
      obtain ⟨value, before⟩ := entry_from position filed found
      obtain ⟨value', before'⟩ := entry_from place other found'
      rw [same_home] at away ⊢
      exact orderly.guest position (filed.1, value) before away place (other.1, value') before'
    size_eq
    cursor_le }

end SoftSimplex.Layout
