import SoftSimplex.SlotTable.Slot

/-!
# Layouts

How entries are laid out in the slots of a table. Each number has a home slot. The entries that
cannot lie at their home are reached from it through a chain of slots. An erased entry leaves
its slot on the chain; such a slot is empty but not free.

A new entry goes to its home slot when that slot is empty. Otherwise a free slot is taken, the
highest one below the cursor: an occupant away from its own home moves there and makes room,
while an occupant at home stays and the new entry is chained behind it. When no free slot is
left below the cursor, all entries are laid out afresh, in slot order, over twice as many slots
as there are entries.
-/

namespace SoftSimplex

/-- Slots with the entries laid out in them. -/
structure Layout (β : Type) where
  slots : Array (Slot β)
  /-- The number of entries. -/
  size : Nat
  /-- Free slots are looked for below this position. -/
  cursor : Nat

namespace Layout

variable {β : Type}

/-- The layout without any slot. -/
def empty : Layout β := ⟨#[], 0, 0⟩

/-- A layout of vacant slots. -/
def vacant (capacity : Nat) : Layout β :=
  ⟨Array.replicate capacity Slot.vacant, 0, capacity⟩

/-- Everything that is filed, in slot order. -/
def entries (layout : Layout β) : List (Symbol × β) :=
  filedIn layout.slots.toList

/-- The position that follows on a chain. -/
def next (layout : Layout β) (position : Nat) : Option Nat :=
  (slotAt layout.slots position).next

/-- What is filed at a position. -/
def entry (layout : Layout β) (position : Nat) : Option (Symbol × β) :=
  (slotAt layout.slots position).entry

/-- The slot at which the search for a number begins. -/
def home (layout : Layout β) (id : Nat) : Nat :=
  id % layout.slots.size

/-- Follow a chain to the slot that bears a number, for at most the given number of slots. -/
def seek (slots : Array (Slot β)) (id : Nat) : Nat → Nat → Option Nat
  | 0, _ => none
  | steps + 1, position =>
      if (slotAt slots position).bears id then some position
      else
        match (slotAt slots position).next with
        | none => none
        | some following => seek slots id steps following

/-- The position of the entry with a number. No chain is longer than the table. -/
def position? (layout : Layout β) (id : Nat) : Option Nat :=
  seek layout.slots id layout.slots.size (layout.home id)

/-- The highest free position below a bound. -/
def highestFree? (slots : Array (Slot β)) : Nat → Option Nat
  | 0 => none
  | bound + 1 =>
      if (slotAt slots bound).isFree then some bound else highestFree? slots bound

/-- The slot of a chain whose successor is the given one, walking from a position on. -/
def predecessor (slots : Array (Slot β)) (target : Nat) : Nat → Nat → Nat
  | 0, position => position
  | steps + 1, position =>
      match (slotAt slots position).next with
      | none => position
      | some following =>
          if following = target then position
          else predecessor slots target steps following

/-- Put a new entry into its home slot, which is empty. -/
def settle (layout : Layout β) (home : Nat) (filed : Symbol × β) : Layout β where
  slots := layout.slots.setIfInBounds home
    { slotAt layout.slots home with entry := some filed }
  size := layout.size + 1
  cursor := layout.cursor

/-- Chain a new entry behind the occupant of its home slot. -/
def chainBehind (layout : Layout β) (home free : Nat) (filed : Symbol × β) : Layout β where
  slots := (layout.slots.setIfInBounds free ⟨some filed, layout.next home, true⟩).setIfInBounds
    home { slotAt layout.slots home with next := some free }
  size := layout.size + 1
  cursor := free

/-- Move the occupant of a slot that is not its home to a free slot, and put the new entry in
its place. The slot before it on its chain leads to the free slot from then on. -/
def displace (layout : Layout β) (before home free : Nat) (filed : Symbol × β) : Layout β where
  slots := ((layout.slots.setIfInBounds before
      { slotAt layout.slots before with next := some free }).setIfInBounds free
      { slotAt layout.slots home with linked := true }).setIfInBounds
    home ⟨some filed, none, false⟩
  size := layout.size + 1
  cursor := free

/-- Give an absent symbol an entry, unless that takes a free slot and there is none. -/
def place? (layout : Layout β) (filed : Symbol × β) : Option (Layout β) :=
  let home := layout.home filed.1.id
  match layout.entry home with
  | none => some (layout.settle home filed)
  | some (occupant, _) =>
      (highestFree? layout.slots layout.cursor).map fun free =>
        let start := layout.home occupant.id
        if start = home then layout.chainBehind home free filed
        else
          layout.displace (predecessor layout.slots home layout.slots.size start) home free filed

/-- Double a capacity, at most the given number of times, until it reaches a bound. -/
def doubled (bound : Nat) : Nat → Nat → Nat
  | 0, capacity => capacity
  | steps + 1, capacity =>
      if capacity < bound then doubled bound steps (2 * capacity) else capacity

/-- The least power of two that is at least four and at least the bound. -/
def capacityFor (bound : Nat) : Nat :=
  doubled bound bound 4

/-- Lay entries out one after the other. -/
def placeAll (entries : List (Symbol × β)) (layout : Layout β) : Layout β :=
  entries.foldl (fun layout filed => (layout.place? filed).getD layout) layout

/-- Lay all entries out afresh, in slot order, over vacant slots. -/
def rehash (layout : Layout β) (bound : Nat) : Layout β :=
  placeAll layout.entries (vacant (capacityFor bound))

/-- File a value under a symbol that is absent, growing the layout when it is full. -/
def insertNew (layout : Layout β) (filed : Symbol × β) : Layout β :=
  let layout := if layout.slots.isEmpty then layout.rehash 0 else layout
  (layout.place? filed).getD (placeAll [filed] (layout.rehash (2 * layout.size)))

/-- Change the value filed at a position. -/
def changeAt (layout : Layout β) (position : Nat) (action : β → β) : Layout β :=
  { layout with
    slots := layout.slots.setIfInBounds position
      ((slotAt layout.slots position).change action) }

/-- Take out the entry at a position. -/
def emptyAt (layout : Layout β) (position : Nat) : Layout β :=
  { layout with
    slots := layout.slots.setIfInBounds position (slotAt layout.slots position).emptied
    size := layout.size - 1 }

/-- Change the values of a list of slots from first to last, carrying a state along. -/
def passSlots {σ : Type} (action : σ → Symbol → β → β × σ) :
    List (Slot β) → σ → List (Slot β) × σ
  | [], state => ([], state)
  | slot :: rest, state =>
      match slot.entry with
      | none =>
          let (changed, final) := passSlots action rest state
          (slot :: changed, final)
      | some (symbol, value) =>
          let (value, state) := action state symbol value
          let (changed, final) := passSlots action rest state
          ({ slot with entry := some (symbol, value) } :: changed, final)

end Layout

end SoftSimplex
