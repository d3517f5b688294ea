import Mathlib.Data.List.Nodup
import Mathlib.Data.List.Perm.Basic
import SoftSimplex.Catalog.Values

/-!
# Catalogs as lists

The listing of a catalog pairs every number in use with its value, each number once. Up to order
it is determined by what the catalog finds, so that the effect of every change on the listing can
be read off the effect on look-ups.
-/

namespace SoftSimplex.Catalog

variable {β : Type} {catalog other : Catalog β}

/-- All values with the numbers that they are filed under. -/
def listing (catalog : Catalog β) : List (Nat × β) :=
  catalog.entries.map fun entry => (entry.1.id, entry.2)

theorem mem_listing_iff (catalog : Catalog β) (symbol : Symbol) (value : β) :
    (symbol.id, value) ∈ catalog.listing ↔ catalog.get? symbol = some value := by
  rw [get?_eq_some_iff, listing, List.mem_map]
  refine exists_congr fun filed => and_congr_right fun _ => ?_
  rw [Prod.mk.injEq]

theorem numbers_nodup (catalog : Catalog β) : (catalog.listing.map Prod.fst).Nodup := by
  unfold listing entries entries.lookAll
  rw [List.map_map]
  refine List.pairwise_map.mpr (List.Pairwise.filterMap _ ?_ catalog.index.distinct)
  intro first second apart entry looked entry' looked'
  obtain ⟨_, _, rfl⟩ := Option.map_eq_some_iff.mp (Option.mem_def.mp looked)
  obtain ⟨_, _, rfl⟩ := Option.map_eq_some_iff.mp (Option.mem_def.mp looked')
  exact apart

theorem listing_nodup (catalog : Catalog β) : catalog.listing.Nodup :=
  List.Nodup.of_map Prod.fst catalog.numbers_nodup

/-- Catalogs that find the same have the same listing up to order. -/
theorem listing_perm (same : ∀ symbol, catalog.get? symbol = other.get? symbol) :
    catalog.listing.Perm other.listing := by
  refine (List.perm_ext_iff_of_nodup catalog.listing_nodup other.listing_nodup).mpr ?_
  rintro ⟨id, value⟩
  rw [catalog.mem_listing_iff ⟨id, .external⟩, other.mem_listing_iff ⟨id, .external⟩, same]

/-- A value that is found and all others. -/
theorem listing_perm_cons {symbol : Symbol} {value : β}
    (found : catalog.get? symbol = some value) :
    catalog.listing.Perm ((symbol.id, value) :: (catalog.erase symbol).listing) := by
  have outside : (symbol.id, value) ∉ (catalog.erase symbol).listing := by
    rw [mem_listing_iff, get?_erase, if_pos rfl]
    simp
  refine (List.perm_ext_iff_of_nodup catalog.listing_nodup
    (List.nodup_cons.mpr ⟨outside, listing_nodup _⟩)).mpr ?_
  rintro ⟨id, kept⟩
  rw [List.mem_cons, catalog.mem_listing_iff ⟨id, .external⟩,
    mem_listing_iff _ ⟨id, .external⟩, get?_erase, Prod.mk.injEq]
  by_cases same : id = symbol.id
  · have number : (⟨id, .external⟩ : Symbol).id = symbol.id := same
    rw [catalog.get?_congr number, found]
    simp [same, eq_comm]
  · simp [same]

theorem erase_modify_get? (catalog : Catalog β) (symbol other : Symbol) (action : β → β) :
    ((catalog.modify symbol action).erase symbol).get? other =
      (catalog.erase symbol).get? other := by
  rw [get?_erase, get?_erase, get?_modify]
  split <;> rfl

/-- Nothing is lost with a symbol that files nothing. -/
theorem listing_erase_perm_of_absent {symbol : Symbol} (absent : catalog.get? symbol = none) :
    (catalog.erase symbol).listing.Perm catalog.listing := by
  refine listing_perm fun other => ?_
  rw [get?_erase]
  split
  · rename_i same
    rw [catalog.get?_congr same, absent]
  · rfl

theorem size_eq_length_listing (catalog : Catalog β) :
    catalog.size = catalog.listing.length := by
  have all : ∀ filed ∈ catalog.index.entries, (catalog.arena.get? filed.2).isSome = true := by
    intro filed member
    exact catalog.isSome_of_index ((catalog.index.get?_eq_some_iff _ _).mpr
      ⟨filed, member, rfl, rfl⟩)
  rw [size_eq_index_size, SlotTable.size_eq, listing, List.length_map, entries, entries.lookAll]
  generalize catalog.index.entries = filed at all
  induction filed with
  | nil => rfl
  | cons first rest inductionHypothesis =>
      obtain ⟨value, found⟩ := Option.isSome_iff_exists.mp (all first List.mem_cons_self)
      have others := inductionHypothesis fun later member => all later
        (List.mem_cons_of_mem _ member)
      simp only [List.filterMap_cons, found, Option.map_some, List.length_cons, others]

theorem size_erase_of_found {symbol : Symbol} {value : β}
    (found : catalog.get? symbol = some value) :
    (catalog.erase symbol).size + 1 = catalog.size := by
  rw [size_eq_length_listing, size_eq_length_listing, (listing_perm_cons found).length_eq,
    List.length_cons]

/-- Catalogs that find something for the same symbols have the same size. -/
theorem size_congr
    (same : ∀ symbol, (other.get? symbol).isSome = (catalog.get? symbol).isSome) :
    other.size = catalog.size := by
  have numbered : ∀ (one : Catalog β) (id : Nat), id ∈ one.listing.map Prod.fst ↔
      (one.get? ⟨id, .external⟩).isSome = true := by
    intro one id
    rw [List.mem_map, Option.isSome_iff_exists]
    constructor
    · rintro ⟨⟨_, value⟩, member, rfl⟩
      exact ⟨value, (one.mem_listing_iff ⟨_, .external⟩ value).mp member⟩
    · rintro ⟨value, found⟩
      exact ⟨(id, value), (one.mem_listing_iff ⟨id, .external⟩ value).mpr found, rfl⟩
  have perm : (other.listing.map Prod.fst).Perm (catalog.listing.map Prod.fst) := by
    refine (List.perm_ext_iff_of_nodup other.numbers_nodup catalog.numbers_nodup).mpr fun id => ?_
    rw [numbered, numbered, same]
  rw [size_eq_length_listing, size_eq_length_listing]
  simpa using perm.length_eq

/-- Every value after a pass is the action's result on the value of before. -/
theorem get?_pass {σ : Type} (catalog : Catalog β) (start : σ) (action : σ → β → β × σ)
    (change : β → β) (uniform : ∀ state value, (action state value).1 = change value)
    (symbol : Symbol) :
    (catalog.pass start action).1.get? symbol = (catalog.get? symbol).map change := by
  have walk : ∀ (entries : List (Symbol × β)) (state : σ),
      (passEntries (fun state _ value => action state value) entries state).1 =
        entries.map fun entry => (entry.1, change entry.2) := by
    intro entries
    induction entries with
    | nil => exact fun _ => rfl
    | cons first rest inductionHypothesis =>
        intro state
        simp only [passEntries, inductionHypothesis, uniform, List.map_cons]
  have listed := congrArg Prod.fst (catalog.pass_eq start action)
  rw [walk] at listed
  dsimp only at listed
  refine Option.ext fun value => ?_
  rw [get?_eq_some_iff, listed, Option.map_eq_some_iff]
  constructor
  · rintro ⟨_, member, same, rfl⟩
    obtain ⟨filed, inside, rfl⟩ := List.mem_map.mp member
    exact ⟨filed.2, (get?_eq_some_iff _ _ _).mpr ⟨filed, inside, same, rfl⟩, rfl⟩
  · rintro ⟨before, found, rfl⟩
    obtain ⟨filed, inside, same, rfl⟩ := (get?_eq_some_iff _ _ _).mp found
    exact ⟨_, List.mem_map_of_mem inside, same, rfl⟩

end SoftSimplex.Catalog
