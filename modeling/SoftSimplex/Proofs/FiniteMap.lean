import Mathlib.Data.Finmap

/-!
# Finite maps

Tables, arenas and catalogs are measured against finite maps from numbers. A finite map has no
order of its own; whoever walks over it does so along some list that names each of its pairs once.
-/

namespace SoftSimplex

/-- A finite map from numbers. -/
abbrev FiniteMap (γ : Type) := Finmap fun _ : Nat => γ

namespace FiniteMap

variable {γ : Type}

/-- The list names every pair of the map, each once, and no other pair. -/
structure Lists (pairs : List (Nat × γ)) (map : FiniteMap γ) : Prop where
  distinct : (pairs.map Prod.fst).Nodup
  mem_iff : ∀ number value, (number, value) ∈ pairs ↔ map.lookup number = some value

/-- Change the value of a number, if it has one. -/
def change (map : FiniteMap γ) (number : Nat) (action : γ → γ) : FiniteMap γ :=
  match map.lookup number with
  | none => map
  | some value => map.insert number (action value)

/-- The map of the pairs in a list. -/
def ofList (pairs : List (Nat × γ)) : FiniteMap γ :=
  (pairs.map fun pair => (⟨pair.1, pair.2⟩ : Sigma fun _ : Nat => γ)).toFinmap

section Lookup

variable (map : FiniteMap γ) (number other : Nat)

theorem lookup_insert (value : γ) : (map.insert number value).lookup other =
    if other = number then some value else map.lookup other := by
  split
  · rename_i same
    rw [same, Finmap.lookup_insert]
  · rename_i apart
    exact Finmap.lookup_insert_of_ne map apart

theorem lookup_erase : (map.erase number).lookup other =
    if other = number then none else map.lookup other := by
  split
  · rename_i same
    rw [same, Finmap.lookup_erase]
  · rename_i apart
    exact Finmap.lookup_erase_ne apart

theorem lookup_change (action : γ → γ) : (change map number action).lookup other =
    if other = number then (map.lookup other).map action else map.lookup other := by
  unfold change
  split
  · rename_i absent
    split
    · rename_i same
      rw [same, absent]
      rfl
    · rfl
  · rename_i value found
    rw [lookup_insert]
    split
    · rename_i same
      rw [same, found]
      rfl
    · rfl

theorem change_of_lookup {map : FiniteMap γ} {number : Nat} {value : γ}
    (found : map.lookup number = some value) (action : γ → γ) :
    change map number action = map.insert number (action value) := by
  unfold change
  rw [found]

@[simp]
theorem mem_keys_iff : number ∈ map.keys ↔ (map.lookup number).isSome = true := by
  rw [Finmap.mem_keys, Finmap.lookup_isSome]

end Lookup

@[simp]
theorem ofList_nil : ofList ([] : List (Nat × γ)) = ∅ := rfl

theorem ofList_cons (pair : Nat × γ) (pairs : List (Nat × γ)) :
    ofList (pair :: pairs) = (ofList pairs).insert pair.1 pair.2 := rfl

theorem lookup_ofList_cons (pair : Nat × γ) (pairs : List (Nat × γ)) (number : Nat) :
    (ofList (pair :: pairs)).lookup number =
      if number = pair.1 then some pair.2 else (ofList pairs).lookup number := by
  rw [ofList_cons, lookup_insert]

/-- A list without repeated numbers names every pair of its map once. -/
theorem lists_ofList {pairs : List (Nat × γ)} (distinct : (pairs.map Prod.fst).Nodup) :
    Lists pairs (ofList pairs) := by
  refine ⟨distinct, ?_⟩
  induction pairs with
  | nil => exact fun number value => by simp
  | cons pair rest inductionHypothesis =>
      rcases List.nodup_cons.mp distinct with ⟨outside, apart⟩
      intro number value
      rw [List.mem_cons, lookup_ofList_cons, inductionHypothesis apart]
      by_cases same : number = pair.1
      · have elsewhere : (ofList rest).lookup number ≠ some value := fun found =>
          outside (List.mem_map.mpr
            ⟨(number, value), (inductionHypothesis apart number value).mpr found, same⟩)
        rw [if_pos same, or_iff_left elsewhere, Option.some.injEq]
        constructor
        · rintro rfl
          rfl
        · rintro rfl
          exact Prod.ext same rfl
      · have another : (number, value) ≠ pair := fun equal => same (congrArg Prod.fst equal)
        rw [if_neg same, or_iff_right another]

theorem Lists.length_eq_card {pairs : List (Nat × γ)} {map : FiniteMap γ}
    (lists : Lists pairs map) : pairs.length = map.keys.card := by
  have members : (pairs.map Prod.fst).toFinset = map.keys := by
    ext number
    rw [List.mem_toFinset, mem_keys_iff, Option.isSome_iff_exists, List.mem_map]
    constructor
    · rintro ⟨⟨_, value⟩, member, rfl⟩
      exact ⟨value, (lists.mem_iff _ value).mp member⟩
    · rintro ⟨value, found⟩
      exact ⟨(number, value), (lists.mem_iff number value).mpr found, rfl⟩
  rw [← members, List.toFinset_card_of_nodup lists.distinct, List.length_map]

theorem ofList_perm {pairs others : List (Nat × γ)} (same : pairs.Perm others)
    (distinct : (pairs.map Prod.fst).Nodup) : ofList pairs = ofList others := by
  have apart := (same.map Prod.fst).nodup_iff.mp distinct
  refine Finmap.ext_lookup fun number => Option.ext fun value => ?_
  rw [← (lists_ofList distinct).mem_iff, ← (lists_ofList apart).mem_iff, same.mem_iff]

/-- Changing the value of a number in a list changes it in the map. -/
theorem ofList_map_change (pairs : List (Nat × γ)) (number : Nat) (action : γ → γ) :
    ofList (pairs.map fun pair => if pair.1 = number then (pair.1, action pair.2) else pair) =
      change (ofList pairs) number action := by
  apply Finmap.ext_lookup
  intro other
  rw [lookup_change]
  induction pairs with
  | nil => split <;> rfl
  | cons pair rest inductionHypothesis =>
      rw [List.map_cons, lookup_ofList_cons, lookup_ofList_cons, inductionHypothesis]
      split <;> split <;> simp_all

/-- Dropping a number from a list erases it from the map. -/
theorem ofList_filter_ne (pairs : List (Nat × γ)) (number : Nat) :
    ofList (pairs.filter fun pair => pair.1 != number) = (ofList pairs).erase number := by
  apply Finmap.ext_lookup
  intro other
  rw [lookup_erase]
  induction pairs with
  | nil => split <;> rfl
  | cons pair rest inductionHypothesis =>
      by_cases same : pair.1 = number
      · rw [List.filter_cons_of_neg (by simp [same]), inductionHypothesis, lookup_ofList_cons]
        split <;> simp_all
      · rw [List.filter_cons_of_pos (by simp [same]), lookup_ofList_cons, inductionHypothesis,
          lookup_ofList_cons]
        split <;> split <;> simp_all

end FiniteMap

end SoftSimplex
