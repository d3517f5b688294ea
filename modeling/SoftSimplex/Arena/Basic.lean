import SoftSimplex.Arena.Threaded

/-!
# Arenas

An arena keeps values in numbered places that never move. Places are carved a page at a time.
The place that was released last is the first to be given out again, and a new page is carved
only when no place is vacant. The places of a new page are given out in ascending order.
-/

namespace SoftSimplex

/-- Values in numbered places that are carved by the page. -/
structure Arena (β : Type) where
  layout : Pages β
  threaded : layout.Threaded

namespace Arena

variable {β : Type}

/-- An arena without pages. A page size of zero counts as one. -/
def new (pageSize : Nat) : Arena β where
  layout := Pages.new (max pageSize 1)
  threaded := Pages.threaded_new
    (Nat.lt_of_lt_of_le Nat.zero_lt_one (Nat.le_max_right pageSize 1))

/-- The value kept under a key. -/
def get? (arena : Arena β) (key : Nat) : Option β :=
  arena.layout.get? key

/-- The number of values kept. -/
def size (arena : Arena β) : Nat :=
  arena.layout.live

/-- Put a value into a place of its own, and return the place as its key. -/
def store (arena : Arena β) (value : β) : Nat × Arena β :=
  ((arena.layout.store value).1,
    ⟨(arena.layout.store value).2, arena.threaded.store value⟩)

/-- Empty the place of a value, which becomes the first to be given out again. -/
def vacate (arena : Arena β) {key : Nat} {value : β} (found : arena.get? key = some value) :
    Arena β :=
  ⟨arena.layout.vacate key, arena.threaded.vacate found⟩

/-- Take out the value kept under a key. -/
def release? (arena : Arena β) (key : Nat) : Option (β × Arena β) :=
  match found : arena.get? key with
  | none => none
  | some value => some (value, arena.vacate found)

/-- Empty the place of a key, unless it is vacant already. -/
def release (arena : Arena β) (key : Nat) : Arena β :=
  ((arena.release? key).map Prod.snd).getD arena

/-- Change the value kept under a key, if there is one. -/
def modify (arena : Arena β) (key : Nat) (action : β → β) : Arena β :=
  ⟨arena.layout.modify key action, arena.threaded.modify key action⟩

end Arena

end SoftSimplex
