import SoftSimplex.Catalog.Basic

/-!
# What a catalog keeps

Through its entries a catalog is a finite map from numbers to values, with one place of the
arena for each entry. A pass over a catalog meets every entry once, in the order of the index.
-/

namespace SoftSimplex.Catalog

variable {β : Type}

@[simp]
theorem get?_new (pageSize : Nat) (symbol : Symbol) :
    (new pageSize : Catalog β).get? symbol = none := rfl

@[simp]
theorem size_new (pageSize : Nat) : (new pageSize : Catalog β).size = 0 := rfl

/-- The places to which the index leads. -/
def places (catalog : Catalog β) : List Nat :=
  catalog.index.entries.map Prod.snd

theorem mem_places_iff (catalog : Catalog β) (key : Nat) :
    key ∈ catalog.places ↔ key ∈ catalog.arena.keys := by
  rw [Arena.mem_keys_iff, ← catalog.exists_symbol_iff]
  constructor
  · intro member
    obtain ⟨filed, inside, is_key⟩ := List.mem_map.mp member
    exact ⟨filed.1, (catalog.index.get?_eq_some_iff _ _).mpr ⟨filed, inside, rfl, is_key⟩⟩
  · rintro ⟨symbol, found⟩
    obtain ⟨filed, inside, _, is_key⟩ := (catalog.index.get?_eq_some_iff _ _).mp found
    exact List.mem_map.mpr ⟨filed, inside, is_key⟩

theorem places_nodup (catalog : Catalog β) : catalog.places.Nodup := by
  refine List.pairwise_map.mpr (List.Pairwise.imp_of_mem ?_ catalog.index.distinct)
  intro filed other member member' apart same
  exact apart (catalog.place_injective filed.1 other.1 filed.2
    ((catalog.index.get?_eq_some_iff _ _).mpr ⟨filed, member, rfl, rfl⟩)
    ((catalog.index.get?_eq_some_iff _ _).mpr ⟨other, member', rfl, same.symm⟩))

/-- There are as many values as symbols. -/
theorem size_eq_index_size (catalog : Catalog β) : catalog.size = catalog.index.size := by
  have lengths : catalog.places.length = catalog.arena.keys.length := Nat.le_antisymm
    (catalog.places_nodup.length_le_of_subset fun key => (catalog.mem_places_iff key).mp)
    (catalog.arena.keys_nodup.length_le_of_subset fun key => (catalog.mem_places_iff key).mpr)
  rw [size, Arena.size_eq_length_keys, ← lengths, places, List.length_map, SlotTable.size_eq]

theorem get?_eq_none_iff (catalog : Catalog β) (symbol : Symbol) :
    catalog.get? symbol = none ↔ catalog.index.get? symbol = none := by
  unfold get?
  cases found : catalog.index.get? symbol with
  | none => simp
  | some key =>
      have kept := catalog.isSome_of_index found
      constructor
      · intro absent
        rw [Option.bind_some] at absent
        rw [absent] at kept
        exact absurd kept (by simp)
      · intro absent
        exact absurd absent (by simp)

theorem get?_congr (catalog : Catalog β) {symbol other : Symbol}
    (same : symbol.id = other.id) : catalog.get? symbol = catalog.get? other := by
  simp only [get?, catalog.index.get?_congr same]

theorem get?_insert (catalog : Catalog β) (symbol other : Symbol) (value : β) :
    (catalog.insert symbol value).get? other =
      if other.id = symbol.id then some value else catalog.get? other := by
  simp only [get?, insert, SlotTable.get?_insert]
  by_cases bears : other.id = symbol.id
  · rw [if_pos bears, if_pos bears, Option.bind_some, get?_storeInPlaceOf,
      if_neg (catalog.index_ne_store_key symbol value), if_pos rfl]
  · rw [if_neg bears, if_neg bears]
    cases found : catalog.index.get? other with
    | none => rfl
    | some key =>
        have replaced : catalog.index.get? symbol ≠ some key := fun found' =>
          bears (catalog.place_injective other symbol key found found')
        have fresh : key ≠ (catalog.arena.store value).1 := fun same =>
          catalog.index_ne_store_key other value (found.trans (congrArg some same))
        rw [Option.bind_some, Option.bind_some, get?_storeInPlaceOf, if_neg replaced,
          if_neg fresh]

theorem get?_erase (catalog : Catalog β) (symbol other : Symbol) :
    (catalog.erase symbol).get? other =
      if other.id = symbol.id then none else catalog.get? other := by
  simp only [get?, erase, SlotTable.get?_erase]
  by_cases bears : other.id = symbol.id
  · rw [if_pos bears, if_pos bears]
    rfl
  · rw [if_neg bears, if_neg bears]
    cases found : catalog.index.get? other with
    | none => rfl
    | some key =>
        cases found' : catalog.index.get? symbol with
        | none => rfl
        | some place =>
            have apart : key ≠ place := fun same => bears
              (catalog.place_injective other symbol place (same ▸ found) found')
            simp only [Option.bind_some, Option.map_some, Option.getD_some,
              Arena.get?_release, if_neg apart]

theorem get?_modify (catalog : Catalog β) (symbol other : Symbol) (action : β → β) :
    (catalog.modify symbol action).get? other =
      if other.id = symbol.id then (catalog.get? other).map action else catalog.get? other := by
  unfold modify
  split
  · rename_i absent
    split
    · rename_i bears
      have none_there : catalog.get? other = none := by
        rw [catalog.get?_congr bears]
        exact (catalog.get?_eq_none_iff symbol).mpr absent
      simp [none_there]
    · rfl
  · rename_i key found
    simp only [get?, withArena]
    by_cases bears : other.id = symbol.id
    · rw [if_pos bears, catalog.index.get?_congr bears, found, Option.bind_some,
        Option.bind_some, Arena.get?_modify, if_pos rfl]
    · rw [if_neg bears]
      cases found' : catalog.index.get? other with
      | none => rfl
      | some place =>
          have apart : place ≠ key := fun same =>
            bears (catalog.place_injective other symbol key (same ▸ found') found)
          simp only [Option.bind_some, Arena.get?_modify, if_neg apart]

/-- Where a value of a changed catalog comes from. -/
theorem of_get?_insert {catalog : Catalog β} {symbol other : Symbol} {value found : β}
    (there : (catalog.insert symbol value).get? other = some found) :
    (other.id = symbol.id ∧ found = value) ∨
      (other.id ≠ symbol.id ∧ catalog.get? other = some found) := by
  rw [get?_insert] at there
  split at there
  · rename_i same
    exact Or.inl ⟨same, (Option.some.inj there).symm⟩
  · rename_i apart
    exact Or.inr ⟨apart, there⟩

theorem of_get?_erase {catalog : Catalog β} {symbol other : Symbol} {found : β}
    (there : (catalog.erase symbol).get? other = some found) :
    other.id ≠ symbol.id ∧ catalog.get? other = some found := by
  rw [get?_erase] at there
  split at there
  · exact absurd there.symm (Option.some_ne_none found)
  · rename_i apart
    exact ⟨apart, there⟩

theorem of_get?_modify {catalog : Catalog β} {symbol other : Symbol} {action : β → β} {found : β}
    (there : (catalog.modify symbol action).get? other = some found) :
    (other.id = symbol.id ∧ ∃ before, catalog.get? other = some before ∧ found = action before) ∨
      (other.id ≠ symbol.id ∧ catalog.get? other = some found) := by
  rw [get?_modify] at there
  split at there
  · rename_i same
    obtain ⟨before, was, rfl⟩ := Option.map_eq_some_iff.mp there
    exact Or.inl ⟨same, before, was, rfl⟩
  · rename_i apart
    exact Or.inr ⟨apart, there⟩

/-- A part of the values that the action spares. -/
theorem map_get?_modify {γ : Type} (catalog : Catalog β) (symbol other : Symbol) {action : β → β}
    (part : β → γ) (spares : ∀ value, part (action value) = part value) :
    ((catalog.modify symbol action).get? other).map part = (catalog.get? other).map part := by
  rw [get?_modify]
  split
  · rw [Option.map_map]
    exact congrArg (fun part => Option.map part _) (funext spares)
  · rfl

@[simp]
theorem size_modify (catalog : Catalog β) (symbol : Symbol) (action : β → β) :
    (catalog.modify symbol action).size = catalog.size := by
  rw [size_eq_index_size, size_eq_index_size]
  unfold modify
  split <;> rfl

/-- All values with their symbols, in the order of the index. -/
def entries (catalog : Catalog β) : List (Symbol × β) :=
  lookAll catalog.arena catalog.index.entries
where
  /-- The values at places, under the symbols that lead there. -/
  lookAll (arena : Arena β) (filed : List (Symbol × Nat)) : List (Symbol × β) :=
    filed.filterMap fun (symbol, key) => (arena.get? key).map fun value => (symbol, value)

theorem get?_passPlaces_of_notMem {σ : Type} (action : σ → β → β × σ) {places : List Nat}
    {key : Nat} (outside : key ∉ places) (arena : Arena β) (state : σ) :
    (passPlaces action places arena state).1.get? key = arena.get? key := by
  induction places generalizing arena state with
  | nil => rfl
  | cons place rest inductionHypothesis =>
      have elsewhere : key ≠ place := fun same => outside (same ▸ List.mem_cons_self)
      have outside_rest : key ∉ rest := fun inside => outside (List.mem_cons_of_mem _ inside)
      simp only [passPlaces]
      split
      · exact inductionHypothesis outside_rest arena state
      · rw [inductionHypothesis outside_rest, Arena.get?_modify, if_neg elsewhere]

theorem lookAll_passPlaces {σ : Type} (action : σ → β → β × σ) (filed : List (Symbol × Nat))
    (apart : (filed.map Prod.snd).Nodup) (arena : Arena β) (state : σ) :
    (entries.lookAll (passPlaces action (filed.map Prod.snd) arena state).1 filed,
        (passPlaces action (filed.map Prod.snd) arena state).2) =
      passEntries (fun state _ value => action state value)
        (entries.lookAll arena filed) state := by
  induction filed generalizing arena state with
  | nil => rfl
  | cons first rest inductionHypothesis =>
      obtain ⟨symbol, key⟩ := first
      obtain ⟨outside, apart_rest⟩ := List.nodup_cons.mp apart
      simp only [List.map_cons, passPlaces, entries.lookAll, List.filterMap_cons]
      cases found : arena.get? key with
      | none =>
          have kept := get?_passPlaces_of_notMem action outside arena state
          have inner := inductionHypothesis apart_rest arena state
          simp only [entries.lookAll] at inner
          simp only [kept, found, Option.map_none, inner]
      | some value =>
          have kept := get?_passPlaces_of_notMem action outside
            (arena.modify key fun _ => (action state value).1) (action state value).2
          have inner := inductionHypothesis apart_rest
            (arena.modify key fun _ => (action state value).1) (action state value).2
          have same : rest.map (fun filed => ((arena.modify key fun _ =>
              (action state value).1).get? filed.2).map fun value => (filed.1, value)) =
                rest.map fun filed => (arena.get? filed.2).map fun value => (filed.1, value) := by
            refine List.map_congr_left fun filed member => ?_
            have elsewhere : filed.2 ≠ key := fun same =>
              outside (List.mem_map.mpr ⟨filed, member, same⟩)
            rw [Arena.get?_modify, if_neg elsewhere]
          have unchanged : entries.lookAll (arena.modify key fun _ => (action state value).1) rest =
              entries.lookAll arena rest := by
            have chosen := congrArg (List.filterMap id) same
            rwa [List.filterMap_map, List.filterMap_map] at chosen
          rw [unchanged] at inner
          simp only [entries.lookAll] at inner
          rw [Arena.get?_modify, if_pos rfl, found] at kept
          simp only [kept, Option.map_some, passEntries]
          rw [← inner]

/-- A pass over a catalog is a pass over its entries. -/
theorem pass_eq {σ : Type} (catalog : Catalog β) (start : σ) (action : σ → β → β × σ) :
    ((catalog.pass start action).1.entries, (catalog.pass start action).2) =
      passEntries (fun state _ value => action state value) catalog.entries start :=
  lookAll_passPlaces action catalog.index.entries catalog.places_nodup catalog.arena start

/-- A value is found exactly if it is filed under the symbol's number. -/
theorem get?_eq_some_iff (catalog : Catalog β) (symbol : Symbol) (value : β) :
    catalog.get? symbol = some value ↔
      ∃ filed ∈ catalog.entries, filed.1.id = symbol.id ∧ filed.2 = value := by
  constructor
  · intro found
    obtain ⟨key, at_key, is_value⟩ := Option.bind_eq_some_iff.mp found
    obtain ⟨filed, member, same, is_key⟩ := (catalog.index.get?_eq_some_iff symbol key).mp at_key
    refine ⟨(filed.1, value), List.mem_filterMap.mpr ⟨filed, member, ?_⟩, same, rfl⟩
    simp only [is_key, is_value, Option.map_some]
  · rintro ⟨_, member, same, rfl⟩
    obtain ⟨filed, inside, looked⟩ := List.mem_filterMap.mp member
    obtain ⟨value, is_value, rfl⟩ := Option.map_eq_some_iff.mp looked
    exact Option.bind_eq_some_iff.mpr ⟨filed.2,
      (catalog.index.get?_eq_some_iff symbol filed.2).mpr ⟨filed, inside, same, rfl⟩, is_value⟩

end SoftSimplex.Catalog
