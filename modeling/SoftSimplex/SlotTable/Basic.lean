import SoftSimplex.SlotTable.InPlace

/-!
# Tables of slots

A table files values under symbols. Only a symbol's number counts for finding it; the kind it
was first filed with stays beside the value. Entries lie in an array of slots, and every walk
over a table goes in slot order, so the place of an entry matters to whoever breaks ties by
meeting one entry before another.

A table is an orderly layout of slots. What is filed, `entries`, is the view through which its
operations are described: no two entries bear the same number, finding a symbol finds its
entry, filing a new symbol adds an entry somewhere, and all other operations change or drop
entries where they lie.
-/

namespace SoftSimplex

/-- Values filed under symbols in an array of slots. -/
structure SlotTable (β : Type) where
  layout : Layout β
  orderly : layout.Orderly

namespace SlotTable

variable {β : Type}

/-- The table without any slot. -/
def empty : SlotTable β := ⟨Layout.empty, Layout.orderly_empty⟩

/-- The number of entries. -/
def size (table : SlotTable β) : Nat :=
  table.layout.size

/-- Nothing is filed. -/
def isEmpty (table : SlotTable β) : Bool :=
  table.size == 0

/-- Everything that is filed, in slot order. -/
def entries (table : SlotTable β) : List (Symbol × β) :=
  table.layout.entries

/-- The symbols that are filed, in slot order. -/
def symbols (table : SlotTable β) : List Symbol :=
  table.entries.map Prod.fst

/-- The value filed under a symbol. -/
def get? (table : SlotTable β) (symbol : Symbol) : Option β :=
  (table.layout.position? symbol.id).bind fun position =>
    (table.layout.entry position).map Prod.snd

/-- Something is filed under the symbol. -/
def contains (table : SlotTable β) (symbol : Symbol) : Bool :=
  (table.layout.position? symbol.id).isSome

theorem size_eq (table : SlotTable β) : table.size = table.entries.length :=
  table.orderly.size_eq

/-- No two entries bear the same number. -/
theorem distinct (table : SlotTable β) : Layout.Distinct table.entries :=
  table.orderly.distinct

theorem eq_of_mem_of_id_eq (table : SlotTable β) {filed other : Symbol × β}
    (member : filed ∈ table.entries) (member' : other ∈ table.entries)
    (same : filed.1.id = other.1.id) : filed = other := by
  obtain ⟨first, found⟩ := (mem_filedIn_iff _ filed).mp member
  obtain ⟨second, found'⟩ := (mem_filedIn_iff _ other).mp member'
  have positions := table.orderly.unique first second filed other found found' same
  rw [positions] at found
  exact Option.some.inj (found.symm.trans found')

/-- A value is found exactly if it is filed under the symbol's number. -/
theorem get?_eq_some_iff (table : SlotTable β) (symbol : Symbol) (value : β) :
    table.get? symbol = some value ↔
      ∃ filed ∈ table.entries, filed.1.id = symbol.id ∧ filed.2 = value := by
  constructor
  · intro found
    obtain ⟨position, at_position, holds⟩ := Option.bind_eq_some_iff.mp found
    obtain ⟨filed, is_filed, is_value⟩ := Option.map_eq_some_iff.mp holds
    obtain ⟨other, is_other, same⟩ :=
      (table.orderly.position?_eq_some_iff symbol.id position).mp at_position
    have equal := Option.some.inj (is_filed.symm.trans is_other)
    exact ⟨filed, (mem_filedIn_iff _ filed).mpr ⟨position, is_filed⟩, equal ▸ same, is_value⟩
  · rintro ⟨filed, member, same, rfl⟩
    obtain ⟨position, is_filed⟩ := (mem_filedIn_iff _ filed).mp member
    have at_position := (table.orderly.position?_eq_some_iff symbol.id position).mpr
      ⟨filed, is_filed, same⟩
    have is_entry : table.layout.entry position = some filed := is_filed
    simp [get?, at_position, is_entry]

theorem get?_eq_none_iff (table : SlotTable β) (symbol : Symbol) :
    table.get? symbol = none ↔ ∀ filed ∈ table.entries, filed.1.id ≠ symbol.id := by
  constructor
  · intro absent filed member same
    have found := (table.get?_eq_some_iff symbol filed.2).mpr ⟨filed, member, same, rfl⟩
    rw [absent] at found
    exact absurd found (by simp)
  · intro absent
    cases found : table.get? symbol with
    | none => rfl
    | some value =>
        obtain ⟨filed, member, same, _⟩ := (table.get?_eq_some_iff symbol value).mp found
        exact absurd same (absent filed member)

theorem contains_eq_isSome (table : SlotTable β) (symbol : Symbol) :
    table.contains symbol = (table.get? symbol).isSome := by
  cases found : table.layout.position? symbol.id with
  | none => simp [contains, get?, found]
  | some position =>
      obtain ⟨filed, is_filed, _⟩ :=
        (table.orderly.position?_eq_some_iff symbol.id position).mp found
      simp [contains, get?, found, is_filed]

/-- Only the number of a symbol counts. -/
theorem get?_congr (table : SlotTable β) {symbol other : Symbol} (same : symbol.id = other.id) :
    table.get? symbol = table.get? other := by
  simp only [get?, same]

/-- File a value under a symbol that is not filed yet. -/
def insertNew (table : SlotTable β) (symbol : Symbol) (value : β)
    (absent : table.layout.position? symbol.id = none) : SlotTable β :=
  ⟨table.layout.insertNew (symbol, value),
    (table.orderly.insertNew ((table.orderly.position?_eq_none_iff _).mp absent)).1⟩

/-- Change the value at a position. -/
def changeAt (table : SlotTable β) (position : Nat) (action : β → β) : SlotTable β :=
  ⟨table.layout.changeAt position action, table.orderly.changeAt position action⟩

/-- Change the value filed under a symbol, if there is one. -/
def modify (table : SlotTable β) (symbol : Symbol) (action : β → β) : SlotTable β :=
  match table.layout.position? symbol.id with
  | none => table
  | some position => table.changeAt position action

/-- File the changed value of a symbol, an absent one starting from the given value. -/
def alter (table : SlotTable β) (symbol : Symbol) (start : β) (action : β → β) : SlotTable β :=
  match found : table.layout.position? symbol.id with
  | none => table.insertNew symbol (action start) found
  | some position => table.changeAt position action

/-- File a value under a symbol, in place of the one that was there. -/
def insert (table : SlotTable β) (symbol : Symbol) (value : β) : SlotTable β :=
  table.alter symbol value fun _ => value

/-- Take out the entry of a symbol. Its slot stays on its chain. -/
def erase (table : SlotTable β) (symbol : Symbol) : SlotTable β :=
  match found : table.layout.position? symbol.id with
  | none => table
  | some position =>
      ⟨table.layout.emptyAt position, table.orderly.emptyAt
        ((table.orderly.position?_eq_some_iff symbol.id position).mp found)⟩

/-- Take out every entry and unlink every chain, keeping the slots. -/
def clear (table : SlotTable β) : SlotTable β :=
  ⟨Layout.vacant table.layout.slots.size, Layout.orderly_vacant _⟩

/-- Change every value in slot order, carrying a state along. No entry moves. -/
def pass {σ : Type} (table : SlotTable β) (start : σ) (action : σ → Symbol → β → β × σ) :
    SlotTable β × σ :=
  (⟨table.layout.pass action start, table.orderly.pass action start⟩,
    (Layout.passSlots action table.layout.slots.toList start).2)

/-- Change every value. No entry moves. -/
def map (table : SlotTable β) (action : β → β) : SlotTable β :=
  (table.pass () fun _ _ value => (action value, ())).1

end SlotTable

end SoftSimplex
