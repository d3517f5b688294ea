/-!
# Pages of places

The places of an arena lie in pages of one size. A place holds a value or is vacant, and a vacant
place names the vacant place that comes after it, so that the vacant places form a list threaded
through the pages themselves. The place that was released last comes first on that list. A page is
carved only when the list is empty, and its places are threaded in ascending order.
-/

namespace SoftSimplex

/-- One place of a page. -/
inductive Place (β : Type) where
  /-- Nothing is kept here. The vacant place after this one is named, if there is one. -/
  | vacant (next : Option Nat)
  | taken (value : β)
  deriving DecidableEq

namespace Place

variable {β : Type}

/-- The value kept in the place. -/
def value? : Place β → Option β
  | vacant _ => none
  | taken value => some value

/-- What a vacant place names as the place after it. -/
def next? : Place β → Option (Option Nat)
  | vacant next => some next
  | taken _ => none

end Place

/-- Places by the page, with the vacant ones threaded onto a list. -/
structure Pages (β : Type) where
  pageSize : Nat
  pages : Array (Array (Place β))
  /-- The vacant place that comes first on the list. -/
  firstVacant : Option Nat
  /-- The number of values kept. -/
  live : Nat
  deriving DecidableEq

namespace Pages

variable {β : Type}

/-- No page has been carved. -/
def new (pageSize : Nat) : Pages β := ⟨pageSize, #[], none, 0⟩

/-- The number of places on all pages. The next page begins with this key. -/
def extent (layout : Pages β) : Nat :=
  layout.pages.size * layout.pageSize

/-- The place with a key. -/
def place? (layout : Pages β) (key : Nat) : Option (Place β) :=
  layout.pages[key / layout.pageSize]?.bind fun page => page[key % layout.pageSize]?

/-- The value kept under a key. -/
def get? (layout : Pages β) (key : Nat) : Option β :=
  (layout.place? key).bind Place.value?

/-- What the vacant place with a key names as the place after it. -/
def next? (layout : Pages β) (key : Nat) : Option (Option Nat) :=
  (layout.place? key).bind Place.next?

/-- Replace the place with a key. -/
def put (layout : Pages β) (key : Nat) (place : Place β) : Pages β :=
  { layout with
    pages := layout.pages.modify (key / layout.pageSize) fun page =>
      page.setIfInBounds (key % layout.pageSize) place }

/-- All pages have the same size. -/
def Uniform (layout : Pages β) : Prop :=
  ∀ (number : Nat) (page : Array (Place β)),
    layout.pages[number]? = some page → page.size = layout.pageSize

/-- Carve a page. Its places come first on the list, in ascending order. -/
def carve (layout : Pages β) : Pages β :=
  { layout with
    pages := layout.pages.push ((Array.range layout.pageSize).map fun offset =>
      .vacant (if offset + 1 < layout.pageSize then some (layout.extent + offset + 1)
        else layout.firstVacant))
    firstVacant := some layout.extent }

/-- Put a value into the vacant place that comes first, which takes it off the list. -/
def occupy (layout : Pages β) (key : Nat) (value : β) : Pages β :=
  { layout.put key (.taken value) with
    firstVacant := (layout.next? key).getD layout.firstVacant
    live := layout.live + 1 }

/-- Put a value into a place of its own, and return the key of the place. -/
def store (layout : Pages β) (value : β) : Nat × Pages β :=
  match layout.firstVacant with
  | some key => (key, layout.occupy key value)
  | none => (layout.extent, layout.carve.occupy layout.extent value)

/-- Empty the place with a key, which comes first on the list from then on. -/
def vacate (layout : Pages β) (key : Nat) : Pages β :=
  { layout.put key (.vacant layout.firstVacant) with
    firstVacant := some key
    live := layout.live - 1 }

/-- Change the value kept under a key, if there is one. -/
def modify (layout : Pages β) (key : Nat) (action : β → β) : Pages β :=
  match layout.get? key with
  | none => layout
  | some value => layout.put key (.taken (action value))

theorem get?_eq_some_iff (layout : Pages β) (key : Nat) (value : β) :
    layout.get? key = some value ↔ layout.place? key = some (.taken value) := by
  unfold get?
  cases layout.place? key with
  | none => simp
  | some place => cases place <;> simp [Place.value?]

theorem next?_eq_some_iff (layout : Pages β) (key : Nat) (following : Option Nat) :
    layout.next? key = some following ↔ layout.place? key = some (.vacant following) := by
  unfold next?
  cases layout.place? key with
  | none => simp
  | some place => cases place <;> simp [Place.next?]

/-- A place that holds a value is not vacant. -/
theorem next?_of_get? {layout : Pages β} {key : Nat} {value : β}
    (found : layout.get? key = some value) : layout.next? key = none := by
  rw [next?, (layout.get?_eq_some_iff key value).mp found]
  rfl

/-- A vacant place holds no value. -/
theorem get?_of_next? {layout : Pages β} {key : Nat} {following : Option Nat}
    (found : layout.next? key = some following) : layout.get? key = none := by
  rw [get?, (layout.next?_eq_some_iff key following).mp found]
  rfl

/-- Page and offset determine a key. -/
theorem key_eq {size key other : Nat} (page : key / size = other / size)
    (offset : key % size = other % size) : key = other := by
  rw [← Nat.div_add_mod key size, ← Nat.div_add_mod other size, page, offset]

/-- A replaced place is the new one, and all others stay. -/
theorem place?_put (layout : Pages β) (key : Nat) (place : Place β) (other : Nat) :
    (layout.put key place).place? other =
      if other = key then (layout.place? key).map fun _ => place else layout.place? other := by
  simp only [place?, put, Array.getElem?_modify]
  by_cases page : key / layout.pageSize = other / layout.pageSize
  · rw [if_pos page, ← page]
    cases layout.pages[key / layout.pageSize]? with
    | none => simp
    | some found =>
        simp only [Option.map_some, Option.bind_some, Array.getElem?_setIfInBounds]
        by_cases offset : key % layout.pageSize = other % layout.pageSize
        · rw [if_pos offset, if_pos (key_eq page offset).symm]
          by_cases inside : key % layout.pageSize < found.size
          · simp [inside]
          · simp [inside]
        · have apart : other ≠ key := fun same => offset (congrArg (· % layout.pageSize) same.symm)
          rw [if_neg offset, if_neg apart]
  · have apart : other ≠ key := fun same => page (congrArg (· / layout.pageSize) same.symm)
    rw [if_neg page, if_neg apart]

section Put

variable (layout : Pages β) (key other : Nat) (place : Place β)

theorem next?_put : (layout.put key place).next? other =
    if other = key then (layout.place? key).bind fun _ => place.next? else layout.next? other := by
  simp only [next?, place?_put]
  split
  · exact Option.bind_map
  · rfl

theorem get?_put : (layout.put key place).get? other =
    if other = key then (layout.place? key).bind fun _ => place.value? else layout.get? other := by
  simp only [get?, place?_put]
  split
  · exact Option.bind_map
  · rfl

@[simp]
theorem extent_put : (layout.put key place).extent = layout.extent := by
  simp [extent, put]

end Put

theorem Uniform.put {layout : Pages β} (uniform : layout.Uniform) (key : Nat) (place : Place β) :
    (layout.put key place).Uniform := by
  intro number page found
  simp only [Pages.put, Array.getElem?_modify] at found
  split at found
  · rcases Option.map_eq_some_iff.mp found with ⟨before, was, rfl⟩
    rw [Array.size_setIfInBounds]
    exact uniform number before was
  · exact uniform number page found

end Pages

end SoftSimplex
