import SoftSimplex.Symbol

/-!
# Slots

A slot is one place of a table. It holds at most one entry, which is a value filed under a
symbol, and it may lie on a chain of slots. Reading past the end of an array of slots gives a
vacant slot.
-/

namespace SoftSimplex

/-- One place of a table. -/
structure Slot (β : Type) where
  entry : Option (Symbol × β)
  /-- The position after this one on its chain. -/
  next : Option Nat
  /-- Some slot's chain continues here. -/
  linked : Bool

namespace Slot

variable {β : Type}

/-- A slot that holds nothing and lies on no chain. -/
def vacant : Slot β := ⟨none, none, false⟩

/-- The slot can be given to any entry: it is empty and lies on no chain. -/
def isFree (slot : Slot β) : Bool :=
  slot.entry.isNone && slot.next.isNone && !slot.linked

/-- The slot's entry bears the number. -/
def bears (slot : Slot β) (id : Nat) : Bool :=
  slot.entry.any fun filed => filed.1.id == id

/-- Change the value in the slot, if there is one. -/
def change (action : β → β) (slot : Slot β) : Slot β :=
  { slot with entry := slot.entry.map fun filed => (filed.1, action filed.2) }

/-- Take the entry out and leave the slot on its chain. -/
def emptied (slot : Slot β) : Slot β :=
  { slot with entry := none }

@[simp]
theorem isFree_vacant : (vacant : Slot β).isFree = true := rfl

@[simp]
theorem bears_vacant (id : Nat) : (vacant : Slot β).bears id = false := rfl

theorem isFree_eq_true_iff (slot : Slot β) :
    slot.isFree = true ↔ slot.entry = none ∧ slot.next = none ∧ slot.linked = false := by
  simp [isFree, and_assoc]

theorem bears_eq_true_iff (slot : Slot β) (id : Nat) :
    slot.bears id = true ↔ ∃ filed, slot.entry = some filed ∧ filed.1.id = id := by
  cases found : slot.entry <;> simp [bears, found]

end Slot

/-- The slot at a position; a position past the end reads as a vacant slot. -/
def slotAt {β : Type} (slots : Array (Slot β)) (position : Nat) : Slot β :=
  slots[position]?.getD Slot.vacant

/-- Everything that is filed, in slot order. -/
def filedIn {β : Type} (slots : List (Slot β)) : List (Symbol × β) :=
  slots.filterMap Slot.entry

/-- Change the values of entries from first to last, carrying a state along. -/
def passEntries {β σ : Type} (action : σ → Symbol → β → β × σ) :
    List (Symbol × β) → σ → List (Symbol × β) × σ
  | [], state => ([], state)
  | (symbol, value) :: rest, state =>
      let (value, state) := action state symbol value
      let (changed, final) := passEntries action rest state
      ((symbol, value) :: changed, final)

section Laws

variable {β : Type}

theorem slotAt_of_size_le (slots : Array (Slot β)) {position : Nat}
    (outside : slots.size ≤ position) : slotAt slots position = Slot.vacant := by
  simp [slotAt, Array.getElem?_eq_none outside]

theorem slotAt_setIfInBounds (slots : Array (Slot β)) (changed position : Nat)
    (slot : Slot β) :
    slotAt (slots.setIfInBounds changed slot) position =
      if position = changed ∧ changed < slots.size then slot else slotAt slots position := by
  simp only [slotAt, Array.getElem?_setIfInBounds]
  by_cases same : changed = position
  · subst same
    by_cases inside : changed < slots.size
    · simp [inside]
    · simp [inside]
  · have apart : ¬ position = changed := fun equal => same equal.symm
    simp [same, apart]

theorem lt_size_of_entry {slots : Array (Slot β)} {position : Nat} {filed : Symbol × β}
    (found : (slotAt slots position).entry = some filed) : position < slots.size := by
  apply Nat.lt_of_not_le
  intro outside
  rw [slotAt_of_size_le slots outside] at found
  exact absurd found (by simp [Slot.vacant])

theorem lt_size_of_next {slots : Array (Slot β)} {position following : Nat}
    (link : (slotAt slots position).next = some following) : position < slots.size := by
  apply Nat.lt_of_not_le
  intro outside
  rw [slotAt_of_size_le slots outside] at link
  exact absurd link (by simp [Slot.vacant])

theorem mem_filedIn_iff (slots : Array (Slot β)) (filed : Symbol × β) :
    filed ∈ filedIn slots.toList ↔ ∃ position, (slotAt slots position).entry = some filed := by
  constructor
  · intro member
    obtain ⟨slot, inside, found⟩ := List.mem_filterMap.mp member
    obtain ⟨position, bound, at_position⟩ := List.mem_iff_getElem.mp inside
    refine ⟨position, ?_⟩
    have in_array : position < slots.size := by simpa using bound
    simp only [Array.getElem_toList] at at_position
    simp [slotAt, in_array, at_position, found]
  · rintro ⟨position, found⟩
    have bound := lt_size_of_entry found
    refine List.mem_filterMap.mpr ⟨slots[position], ?_, ?_⟩
    · exact Array.mem_toList_iff.mpr (Array.getElem_mem bound)
    · simpa [slotAt, bound] using found

/-- Replacing a slot exchanges its entry and nothing else. -/
theorem filedIn_set_perm (slots : List (Slot β)) (position : Nat) (slot : Slot β)
    (bound : position < slots.length) :
    (slots[position].entry.toList ++ filedIn (slots.set position slot)).Perm
      (slot.entry.toList ++ filedIn slots) := by
  induction slots generalizing position with
  | nil => exact absurd bound (Nat.not_lt_zero position)
  | cons first rest inductionHypothesis =>
      cases position with
      | zero =>
          simp only [List.getElem_cons_zero, List.set_cons_zero, filedIn, List.filterMap_cons]
          cases first.entry <;> cases slot.entry <;> simp [List.Perm.swap]
      | succ position =>
          have inner := inductionHypothesis position (Nat.lt_of_succ_lt_succ bound)
          simp only [List.getElem_cons_succ, List.set_cons_succ, filedIn, List.filterMap_cons]
            at inner ⊢
          cases first.entry with
          | none => exact inner
          | some filed =>
              exact (List.perm_middle.trans (inner.cons filed)).trans List.perm_middle.symm

theorem length_passEntries {σ : Type} (action : σ → Symbol → β → β × σ)
    (entries : List (Symbol × β)) (start : σ) :
    (passEntries action entries start).1.length = entries.length := by
  induction entries generalizing start with
  | nil => rfl
  | cons filed rest inductionHypothesis =>
      simp only [passEntries, List.length_cons]
      rw [inductionHypothesis]

end Laws

end SoftSimplex
