import SoftSimplex.Proofs.Listing
import SoftSimplex.Proofs.SlotTable.Refinement

/-!
# Catalogs as finite maps

Which place a value lies at does not show. Whatever is asked of a catalog in whatever order, it
answers as a finite map from numbers does, and the numbers of the map share the places that hold
values one to one.
-/

namespace SoftSimplex.Catalog

variable {β : Type}

/-- What can be asked of a catalog. -/
inductive Request (β : Type) where
  | insert (symbol : Symbol) (value : β)
  | erase (symbol : Symbol)
  | get (symbol : Symbol)
  /-- Look up the value of a symbol in order to change it. -/
  | modify (symbol : Symbol) (action : β → β)
  /-- Change every value. What becomes of a value may depend on all values that came before. -/
  | pass (action : List β → β → β)

/-- What a catalog answers. -/
inductive Answer (β : Type) where
  | value (value : Option β)
  | values (values : List β)
  | done

/-- Do what is asked. A value that is to be changed is answered as it was found. -/
def perform (catalog : Catalog β) : Request β → Answer β × Catalog β
  | .insert symbol value => (.done, catalog.insert symbol value)
  | .erase symbol =>
      match catalog.take? symbol with
      | none => (.value none, catalog)
      | some (value, rest) => (.value (some value), rest)
  | .get symbol => (.value (catalog.get? symbol), catalog)
  | .modify symbol action => (.value (catalog.get? symbol), catalog.modify symbol action)
  | .pass action =>
      let (catalog, met) := catalog.pass [] fun met value => (action met value, met ++ [value])
      (.values met, catalog)

/-- What a finite map answers to a request, and what becomes of it. A pass may come past the
values in any order. -/
inductive Request.Meant (map : FiniteMap β) : Request β → Answer β → FiniteMap β → Prop where
  | insert (symbol : Symbol) (value : β) :
      Meant map (.insert symbol value) .done (map.insert symbol.id value)
  | erase (symbol : Symbol) :
      Meant map (.erase symbol) (.value (map.lookup symbol.id)) (map.erase symbol.id)
  | get (symbol : Symbol) : Meant map (.get symbol) (.value (map.lookup symbol.id)) map
  | modify (symbol : Symbol) (action : β → β) :
      Meant map (.modify symbol action) (.value (map.lookup symbol.id))
        (FiniteMap.change map symbol.id action)
  | pass (action : List β → β → β) (pairs : List (Nat × β)) (lists : FiniteMap.Lists pairs map) :
      Meant map (.pass action) (.values (pairs.map Prod.snd))
        (FiniteMap.ofList (pairs.mapIdx fun position pair =>
          (pair.1, action ((pairs.take position).map Prod.snd) pair.2)))

/-- The finite map that a catalog stands for. -/
def values (catalog : Catalog β) : FiniteMap β :=
  FiniteMap.ofList catalog.listing

theorem lists_values (catalog : Catalog β) :
    FiniteMap.Lists catalog.listing catalog.values :=
  FiniteMap.lists_ofList catalog.numbers_nodup

@[simp]
theorem lookup_values (catalog : Catalog β) (symbol : Symbol) :
    catalog.values.lookup symbol.id = catalog.get? symbol := by
  refine Option.ext fun value => ?_
  rw [← catalog.lists_values.mem_iff, mem_listing_iff]

/-- A map is that of a catalog if it finds the same under every symbol. -/
theorem values_eq {catalog : Catalog β} {map : FiniteMap β}
    (same : ∀ symbol : Symbol, catalog.get? symbol = map.lookup symbol.id) :
    catalog.values = map := by
  apply Finmap.ext_lookup
  intro number
  exact (catalog.lookup_values ⟨number, .external⟩).trans (same ⟨number, .external⟩)

theorem values_insert (catalog : Catalog β) (symbol : Symbol) (value : β) :
    (catalog.insert symbol value).values = catalog.values.insert symbol.id value := by
  apply values_eq
  intro other
  rw [get?_insert, FiniteMap.lookup_insert, lookup_values]

theorem values_erase (catalog : Catalog β) (symbol : Symbol) :
    (catalog.erase symbol).values = catalog.values.erase symbol.id := by
  apply values_eq
  intro other
  rw [get?_erase, FiniteMap.lookup_erase, lookup_values]

theorem values_erase_of_absent {catalog : Catalog β} {symbol : Symbol}
    (absent : catalog.get? symbol = none) : (catalog.erase symbol).values = catalog.values :=
  FiniteMap.ofList_perm (listing_erase_perm_of_absent absent) (numbers_nodup _)

theorem values_modify (catalog : Catalog β) (symbol : Symbol) (action : β → β) :
    (catalog.modify symbol action).values = FiniteMap.change catalog.values symbol.id action := by
  apply values_eq
  intro other
  rw [get?_modify, FiniteMap.lookup_change, lookup_values]

/-- A pass that notes all values comes past every value once, and changes each by the values that
came before. -/
theorem pass_noting (catalog : Catalog β) (action : List β → β → β) :
    ((catalog.pass [] fun met value => (action met value, met ++ [value])).1.listing,
        (catalog.pass [] fun met value => (action met value, met ++ [value])).2) =
      (catalog.listing.mapIdx fun position pair =>
        (pair.1, action ((catalog.listing.take position).map Prod.snd) pair.2),
        catalog.listing.map Prod.snd) := by
  have walk := (catalog.pass_eq [] fun met value => (action met value, met ++ [value])).trans
    (SlotTable.passEntries_noting Prod.snd (fun met _ value => action met value) catalog.entries [])
  have changed := congrArg Prod.fst walk
  have met := congrArg Prod.snd walk
  simp only [List.nil_append] at changed met
  rw [listing, listing, changed, met]
  refine Prod.ext (List.ext_getElem? fun position => ?_) ?_
  · simp [Function.comp_def]
  · simp [Function.comp_def]

/-- A catalog answers as the finite map that it stands for. -/
theorem perform_meant (catalog : Catalog β) (request : Request β) :
    Request.Meant catalog.values request (catalog.perform request).1
      (catalog.perform request).2.values := by
  cases request with
  | insert symbol value =>
      simp only [perform, values_insert]
      exact .insert symbol value
  | erase symbol =>
      have meant : Request.Meant catalog.values (.erase symbol) _ _ := .erase symbol
      rw [lookup_values, ← values_erase] at meant
      simp only [perform, take?]
      cases found : catalog.get? symbol with
      | none =>
          rw [found, values_erase_of_absent found] at meant
          exact meant
      | some value =>
          rw [found] at meant
          exact meant
  | get symbol =>
      simp only [perform, ← lookup_values]
      exact .get symbol
  | modify symbol action =>
      simp only [perform, ← lookup_values, values_modify]
      exact .modify symbol action
  | pass action =>
      have walk := catalog.pass_noting action
      have changed := congrArg Prod.fst walk
      have met := congrArg Prod.snd walk
      simp only at changed met
      simp only [perform, values, changed, met]
      exact .pass action catalog.listing catalog.lists_values

/-- The index leads from the numbers of a map to the places that hold values, one to one, and is
as long as the arena is full. -/
structure Matches (catalog : Catalog β) (map : FiniteMap β) : Prop where
  mem_iff : ∀ symbol : Symbol, symbol.id ∈ map ↔ ∃ key, catalog.index.get? symbol = some key
  injective : ∀ first second key, catalog.index.get? first = some key →
    catalog.index.get? second = some key → first.id = second.id
  live_iff : ∀ key, (∃ symbol, catalog.index.get? symbol = some key) ↔
    ∃ value, catalog.arena.get? key = some value
  index_size : catalog.index.size = catalog.arena.size
  size : catalog.arena.size = map.keys.card

theorem matches_values (catalog : Catalog β) : catalog.Matches catalog.values where
  mem_iff symbol := by
    rw [← Finmap.lookup_isSome, lookup_values, ← Option.ne_none_iff_isSome,
      ← Option.ne_none_iff_exists', Ne, get?_eq_none_iff]
  injective := catalog.place_injective
  live_iff key := by rw [catalog.exists_symbol_iff, Option.isSome_iff_exists]
  index_size := catalog.size_eq_index_size.symm
  size := by
    rw [← catalog.lists_values.length_eq_card]
    exact catalog.size_eq_length_listing

/-- Whatever is asked of a catalog that starts without values, it answers as a finite map that
starts empty, and then stands for that map with one place for each of its values. -/
theorem follow_new_meant (pageSize : Nat) (requests : List (Request β)) :
    Requests.AllMeant Request.Meant ∅ requests
        (Requests.follow perform (new pageSize) requests).1
        (Requests.follow perform (new pageSize) requests).2.values ∧
      (Requests.follow perform (new pageSize) requests).2.Matches
        (Requests.follow perform (new pageSize) requests).2.values :=
  ⟨Requests.follow_allMeant perform_meant (new pageSize) requests, matches_values _⟩

end SoftSimplex.Catalog
