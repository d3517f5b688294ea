import SoftSimplex.Arena.Values
import SoftSimplex.SlotTable.Entries

/-!
# Catalogs

A catalog files values under symbols while the values themselves stay at fixed places of an
arena. The index leads from each symbol to a place of its own, and the places to which it leads
are those that hold values. The slot order of the index is the order of a walk over the catalog.
-/

namespace SoftSimplex

/-- Values in an arena with an index by symbol. -/
structure Catalog (β : Type) where
  index : SlotTable Nat
  arena : Arena β
  /-- No two symbols share a place. -/
  place_injective : ∀ first second key, index.get? first = some key →
    index.get? second = some key → first.id = second.id
  /-- The index leads to all places that hold values, and to no others. -/
  exists_symbol_iff : ∀ key,
    (∃ symbol, index.get? symbol = some key) ↔ (arena.get? key).isSome = true

namespace Catalog

variable {β : Type}

/-- A catalog without values, whose arena carves pages of the given size. -/
def new (pageSize : Nat) : Catalog β where
  index := SlotTable.empty
  arena := Arena.new pageSize
  place_injective _ _ _ found := absurd found (by simp)
  exists_symbol_iff key := by simp

/-- The number of values. -/
def size (catalog : Catalog β) : Nat :=
  catalog.arena.size

/-- The value filed under a symbol. -/
def get? (catalog : Catalog β) (symbol : Symbol) : Option β :=
  (catalog.index.get? symbol).bind catalog.arena.get?

theorem isSome_of_index (catalog : Catalog β) {symbol : Symbol} {key : Nat}
    (found : catalog.index.get? symbol = some key) :
    (catalog.arena.get? key).isSome = true :=
  (catalog.exists_symbol_iff key).mp ⟨symbol, found⟩

/-- The place that a new value takes is not in the index. -/
theorem index_ne_store_key (catalog : Catalog β) (symbol : Symbol) (value : β) :
    catalog.index.get? symbol ≠ some (catalog.arena.store value).1 := by
  intro found
  have kept := catalog.isSome_of_index found
  rw [catalog.arena.get?_store_key value] at kept
  exact absurd kept (by simp)

/-- Store a value, and after that empty the place of the value that it replaces. -/
def storeInPlaceOf (arena : Arena β) (replaced? : Option Nat) (value : β) : Arena β :=
  let stored := (arena.store value).2
  (replaced?.map stored.release).getD stored

theorem get?_storeInPlaceOf (arena : Arena β) (replaced? : Option Nat) (value : β) (key : Nat) :
    (storeInPlaceOf arena replaced? value).get? key =
      if replaced? = some key then none
      else if key = (arena.store value).1 then some value else arena.get? key := by
  cases replaced? with
  | none => simpa [storeInPlaceOf] using arena.get?_store value key
  | some replaced =>
      simp only [storeInPlaceOf, Option.map_some, Option.getD_some, Arena.get?_release,
        Arena.get?_store, Option.some.injEq, eq_comm]

/-- File a value under a symbol, in place of the one that was there. -/
def insert (catalog : Catalog β) (symbol : Symbol) (value : β) : Catalog β where
  index := catalog.index.insert symbol (catalog.arena.store value).1
  arena := storeInPlaceOf catalog.arena (catalog.index.get? symbol) value
  place_injective first second key found found' := by
    rw [SlotTable.get?_insert] at found found'
    have fresh := fun other => catalog.index_ne_store_key other value
    split at found <;> split at found'
    · rename_i same same'
      exact same.trans same'.symm
    · exact absurd (found'.trans found.symm) (fresh second)
    · exact absurd (found.trans found'.symm) (fresh first)
    · exact catalog.place_injective first second key found found'
  exists_symbol_iff key := by
    have fresh := fun other => catalog.index_ne_store_key other value
    simp only [SlotTable.get?_insert, get?_storeInPlaceOf]
    by_cases replaced : catalog.index.get? symbol = some key
    · rw [if_pos replaced]
      constructor
      · rintro ⟨other, found⟩
        split at found
        · exact absurd (replaced.trans found.symm) (fresh symbol)
        · rename_i unequal
          exact absurd (catalog.place_injective other symbol key found replaced) unequal
      · intro kept
        exact absurd kept (by simp)
    · rw [if_neg replaced]
      by_cases same : key = (catalog.arena.store value).1
      · rw [if_pos same]
        exact ⟨fun _ => rfl, fun _ => ⟨symbol, by rw [if_pos rfl, same]⟩⟩
      · rw [if_neg same, ← catalog.exists_symbol_iff key]
        constructor
        · rintro ⟨other, found⟩
          split at found
          · exact absurd (Option.some.inj found).symm same
          · exact ⟨other, found⟩
        · rintro ⟨other, found⟩
          refine ⟨other, ?_⟩
          rw [if_neg, found]
          exact fun bears =>
            replaced ((catalog.index.get?_congr bears).symm.trans found)

/-- Take out the value of a symbol. -/
def erase (catalog : Catalog β) (symbol : Symbol) : Catalog β where
  index := catalog.index.erase symbol
  arena := ((catalog.index.get? symbol).map catalog.arena.release).getD catalog.arena
  place_injective first second key found found' := by
    rw [SlotTable.get?_erase] at found found'
    split at found
    · exact absurd found (by simp)
    · split at found'
      · exact absurd found' (by simp)
      · exact catalog.place_injective first second key found found'
  exists_symbol_iff key := by
    have released : ((((catalog.index.get? symbol).map catalog.arena.release).getD
        catalog.arena).get? key) =
          if catalog.index.get? symbol = some key then none else catalog.arena.get? key := by
      cases catalog.index.get? symbol with
      | none => simp
      | some place =>
          simp only [Option.map_some, Option.getD_some, Arena.get?_release, Option.some.injEq,
            eq_comm]
    rw [released]
    simp only [SlotTable.get?_erase]
    by_cases taken : catalog.index.get? symbol = some key
    · rw [if_pos taken]
      constructor
      · rintro ⟨other, found⟩
        split at found
        · exact absurd found (by simp)
        · rename_i unequal
          exact absurd (catalog.place_injective other symbol key found taken) unequal
      · intro kept
        exact absurd kept (by simp)
    · rw [if_neg taken, ← catalog.exists_symbol_iff key]
      constructor
      · rintro ⟨other, found⟩
        split at found
        · exact absurd found (by simp)
        · exact ⟨other, found⟩
      · rintro ⟨other, found⟩
        refine ⟨other, ?_⟩
        rw [if_neg, found]
        exact fun bears => taken ((catalog.index.get?_congr bears).symm.trans found)

/-- Take out the value of a symbol and return it. -/
def take? (catalog : Catalog β) (symbol : Symbol) : Option (β × Catalog β) :=
  (catalog.get? symbol).map fun value => (value, catalog.erase symbol)

/-- Change what the arena keeps without vacating or taking a place. -/
def withArena (catalog : Catalog β) (arena : Arena β)
    (kept : ∀ key, (arena.get? key).isSome = (catalog.arena.get? key).isSome) : Catalog β where
  index := catalog.index
  arena
  place_injective := catalog.place_injective
  exists_symbol_iff key := by rw [kept]; exact catalog.exists_symbol_iff key

/-- Change the value of a symbol, if there is one. -/
def modify (catalog : Catalog β) (symbol : Symbol) (action : β → β) : Catalog β :=
  match catalog.index.get? symbol with
  | none => catalog
  | some key => catalog.withArena (catalog.arena.modify key action) fun other => by
      rw [Arena.get?_modify]
      split
      · exact Option.isSome_map
      · rfl

/-- Change the values at some places of an arena, carrying a state along. -/
def passPlaces {σ : Type} (action : σ → β → β × σ) :
    List Nat → Arena β → σ → Arena β × σ
  | [], arena, state => (arena, state)
  | key :: rest, arena, state =>
      match arena.get? key with
      | none => passPlaces action rest arena state
      | some value =>
          let (value, state) := action state value
          passPlaces action rest (arena.modify key fun _ => value) state

theorem isSome_get?_passPlaces {σ : Type} (action : σ → β → β × σ) (places : List Nat)
    (arena : Arena β) (state : σ) (key : Nat) :
    ((passPlaces action places arena state).1.get? key).isSome = (arena.get? key).isSome := by
  induction places generalizing arena state with
  | nil => rfl
  | cons place rest inductionHypothesis =>
      simp only [passPlaces]
      split
      · exact inductionHypothesis arena state
      · rw [inductionHypothesis, Arena.get?_modify]
        split
        · exact Option.isSome_map
        · rfl

/-- Change every value in the order of the index, carrying a state along. -/
def pass {σ : Type} (catalog : Catalog β) (start : σ) (action : σ → β → β × σ) :
    Catalog β × σ :=
  let places := catalog.index.entries.map Prod.snd
  let passed := passPlaces action places catalog.arena start
  (catalog.withArena passed.1 (isSome_get?_passPlaces action places catalog.arena start),
    passed.2)

end Catalog

end SoftSimplex
