import Mathlib.Order.Bounds.Basic
import SoftSimplex.Arena.Values
import SoftSimplex.Proofs.FiniteMap

/-!
# What an arena has been through

An arena is judged by what was asked of it and what it answered. That record alone says which keys
are live, what was stored under them last, and how many were live at a time at most. Whatever was
asked, the vacant places form one path, a new key is none of the live ones, and there are never
more pages than the most values at a time have needed.
-/

namespace SoftSimplex.Arena

variable {β : Type}

/-- What can be asked of an arena. -/
inductive Request (β : Type) where
  | store (value : β)
  | release (key : Nat)
  | get (key : Nat)
  /-- Look up the value of a key in order to change it. -/
  | modify (key : Nat) (action : β → β)

/-- What an arena answers. -/
inductive Answer (β : Type) where
  | key (key : Nat)
  | value (value : Option β)

/-- Do what is asked. A value that is to be changed is answered as it was found. -/
def perform (arena : Arena β) : Request β → Answer β × Arena β
  | .store value => (.key (arena.store value).1, (arena.store value).2)
  | .release key => (.value ((arena.release? key).map Prod.fst), arena.release key)
  | .get key => (.value (arena.get? key), arena)
  | .modify key action => (.value (arena.get? key), arena.modify key action)

/-- What was asked and answered, the latest first. -/
abbrev History (β : Type) := List (Request β × Answer β)

/-- Do what is asked one after the other and keep the record. -/
def follow (history : History β) (arena : Arena β) : List (Request β) → History β × Arena β
  | [] => (history, arena)
  | request :: rest =>
      let (answer, arena) := arena.perform request
      follow ((request, answer) :: history) arena rest

namespace History

/-- The live keys, with what was stored under them last. -/
def kept : History β → FiniteMap β
  | [] => ∅
  | (.store value, .key key) :: earlier => (kept earlier).insert key value
  | (.release key, _) :: earlier => (kept earlier).erase key
  | (.modify key action, _) :: earlier => FiniteMap.change (kept earlier) key action
  | _ :: earlier => kept earlier

/-- The largest number of keys that were live at the same time. -/
def peak : History β → Nat
  | [] => 0
  | event :: earlier => max (peak earlier) (kept (event :: earlier)).keys.card

end History

/-- The number of places on all pages. -/
def placeCount (arena : Arena β) : Nat :=
  arena.layout.pages.flatten.size

theorem placeCount_eq_extent (arena : Arena β) : arena.placeCount = arena.layout.extent := by
  have same_size : arena.layout.pages.toList.map Array.size =
      arena.layout.pages.toList.map fun _ => arena.layout.pageSize := by
    apply List.map_congr_left
    intro page member
    rcases List.mem_iff_getElem?.mp member with ⟨number, found⟩
    exact arena.threaded.uniform number page (by rwa [Array.getElem?_toList] at found)
  rw [placeCount, Array.size_flatten, ← Array.sum_toList, Array.toList_map, same_size,
    List.map_const', List.sum_replicate_nat, Array.length_toList]
  rfl

theorem size_le_extent (arena : Arena β) : arena.size ≤ arena.layout.extent := by
  rw [size_eq_length_keys]
  exact (List.length_filter_le _ _).trans_eq List.length_range

/-- An arena keeps as many values as a finite map that finds the same. -/
theorem size_eq_card {arena : Arena β} {map : FiniteMap β}
    (same : ∀ key, arena.get? key = map.lookup key) : arena.size = map.keys.card := by
  have members : arena.keys.toFinset = map.keys := by
    ext key
    rw [List.mem_toFinset, mem_keys_iff, same, FiniteMap.mem_keys_iff]
  rw [size_eq_length_keys, ← members, List.toFinset_card_of_nodup arena.keys_nodup]

/-- The arena finds what its record says, and its places are the least number of pages for the
most values at a time. -/
structure Tracks (pageSize : Nat) (history : History β) (arena : Arena β) : Prop where
  get?_eq : ∀ key, arena.get? key = history.kept.lookup key
  pageSize_eq : arena.layout.pageSize = max pageSize 1
  peak_le : history.peak ≤ arena.layout.extent
  extent_lt : arena.layout.extent < history.peak + arena.layout.pageSize

theorem tracks_new (pageSize : Nat) : Tracks pageSize [] (new pageSize : Arena β) where
  get?_eq key := get?_new pageSize key
  pageSize_eq := rfl
  peak_le := Nat.zero_le _
  extent_lt := by
    have nothing : (new pageSize : Arena β).layout.extent = 0 := Nat.zero_mul _
    rw [nothing, History.peak, Nat.zero_add]
    exact (new pageSize : Arena β).threaded.pageSize_pos

namespace Tracks

variable {pageSize : Nat} {history : History β} {arena after : Arena β}

/-- A step that carves no page, or carves one for a value that finds all places taken. -/
theorem step (tracks : Tracks pageSize history arena) (event : Request β × Answer β)
    (finds : ∀ key, after.get? key = (History.kept (event :: history)).lookup key)
    (same_pageSize : after.layout.pageSize = arena.layout.pageSize)
    (grown : after.layout.extent = arena.layout.extent ∨
      (after.layout.extent = arena.layout.extent + arena.layout.pageSize ∧
        after.size = arena.layout.extent + 1)) :
    Tracks pageSize (event :: history) after := by
  have peak_le := tracks.peak_le
  have extent_lt := tracks.extent_lt
  have room := after.size_le_extent
  have peak_eq : History.peak (event :: history) = max history.peak after.size := by
    rw [History.peak, size_eq_card finds]
  refine ⟨finds, same_pageSize.trans tracks.pageSize_eq, ?_, ?_⟩
  · rw [peak_eq]
    rcases grown with same | ⟨more, full⟩ <;> omega
  · rw [peak_eq, same_pageSize]
    rcases grown with same | ⟨more, full⟩ <;> omega

theorem store (tracks : Tracks pageSize history arena) (value : β) :
    Tracks pageSize ((.store value, .key (arena.store value).1) :: history)
      (arena.store value).2 := by
  have finds : ∀ key, (arena.store value).2.get? key = (History.kept
      ((.store value, .key (arena.store value).1) :: history)).lookup key := by
    intro key
    rw [get?_store, History.kept, FiniteMap.lookup_insert, tracks.get?_eq]
  rcases arena.threaded.store_cases value with ⟨key, following, _, stored⟩ | ⟨full, stored⟩
  · have layout : (arena.store value).2.layout = arena.layout.occupy key value :=
      congrArg Prod.snd stored
    refine tracks.step _ finds ?_ (Or.inl ?_)
    · rw [layout]
      rfl
    · rw [layout]
      exact arena.layout.extent_put key _
  · have layout : (arena.store value).2.layout =
        arena.layout.carve.occupy arena.layout.extent value := congrArg Prod.snd stored
    refine tracks.step _ finds ?_ (Or.inr ⟨?_, ?_⟩)
    · rw [layout]
      rfl
    · rw [layout]
      exact (arena.layout.carve.extent_put _ _).trans arena.layout.extent_carve
    · rw [size_store]
      exact congrArg (· + 1) full

theorem release (tracks : Tracks pageSize history arena) (key : Nat) (answer : Answer β) :
    Tracks pageSize ((.release key, answer) :: history) (arena.release key) := by
  have finds : ∀ other, (arena.release key).get? other =
      (History.kept ((.release key, answer) :: history)).lookup other := by
    intro other
    rw [get?_release, History.kept, FiniteMap.lookup_erase, tracks.get?_eq]
  have layout : (arena.release key).layout = arena.layout ∨
      (arena.release key).layout = arena.layout.vacate key := by
    unfold Arena.release release?
    split
    · exact Or.inl rfl
    · exact Or.inr rfl
  rcases layout with same | vacated
  · exact tracks.step _ finds (by rw [same]) (Or.inl (by rw [same]))
  · refine tracks.step _ finds ?_ (Or.inl ?_)
    · rw [vacated]
      rfl
    · rw [vacated]
      exact arena.layout.extent_put key _

theorem modify (tracks : Tracks pageSize history arena) (key : Nat) (action : β → β)
    (answer : Answer β) :
    Tracks pageSize ((.modify key action, answer) :: history) (arena.modify key action) := by
  have finds : ∀ other, (arena.modify key action).get? other =
      (History.kept ((.modify key action, answer) :: history)).lookup other := by
    intro other
    rw [get?_modify, History.kept, FiniteMap.lookup_change, tracks.get?_eq]
  have layout : (arena.modify key action).layout = arena.layout ∨ ∃ place,
      (arena.modify key action).layout = arena.layout.put key place := by
    simp only [Arena.modify, Pages.modify]
    split
    · exact Or.inl rfl
    · exact Or.inr ⟨_, rfl⟩
  rcases layout with same | ⟨place, changed⟩
  · exact tracks.step _ finds (by rw [same]) (Or.inl (by rw [same]))
  · refine tracks.step _ finds ?_ (Or.inl ?_)
    · rw [changed]
      rfl
    · rw [changed]
      exact arena.layout.extent_put key place

theorem perform (tracks : Tracks pageSize history arena) (request : Request β) :
    Tracks pageSize ((request, (arena.perform request).1) :: history)
      (arena.perform request).2 := by
  cases request with
  | store value => exact tracks.store value
  | release key => exact tracks.release key _
  | get key => exact tracks.step _ tracks.get?_eq rfl (Or.inl rfl)
  | modify key action => exact tracks.modify key action _

theorem follow (tracks : Tracks pageSize history arena) (requests : List (Request β)) :
    Tracks pageSize (arena.follow history requests).1 (arena.follow history requests).2 := by
  induction requests generalizing history arena with
  | nil => exact tracks
  | cons request rest inductionHypothesis => exact inductionHypothesis (tracks.perform request)

/-- No fewer pages would do for the most values at a time. -/
theorem isLeast_pages (tracks : Tracks pageSize history arena) :
    IsLeast {pages | history.peak ≤ pages * max pageSize 1} arena.layout.pages.size := by
  have peak_le := tracks.peak_le
  have extent_lt := tracks.extent_lt
  rw [Pages.extent, tracks.pageSize_eq] at peak_le extent_lt
  refine ⟨peak_le, fun pages enough => ?_⟩
  have fewer : arena.layout.pages.size * max pageSize 1 < (pages + 1) * max pageSize 1 := by
    rw [Nat.succ_mul]
    exact extent_lt.trans_le (Nat.add_le_add_right enough _)
  exact Nat.le_of_lt_succ (Nat.lt_of_mul_lt_mul_right fewer)

end Tracks

/-- What holds of an arena that has been through what its record says. -/
structure Sound (pageSize : Nat) (history : History β) (arena : Arena β) : Prop where
  /-- The list of vacant places does not come back to where it was, and comes past exactly the
  vacant places. -/
  exists_path : ∃ path, Pages.Trail arena.layout.next? arena.layout.firstVacant path ∧
    path.Nodup ∧ ∀ key, key ∈ path ↔ ∃ next, arena.layout.place? key = some (.vacant next)
  /-- A new key is none of the live ones. -/
  store_key : ∀ value, (arena.store value).1 ∉ history.kept
  /-- Storing leaves all other places as they are. -/
  place?_store : ∀ value key place, arena.layout.place? key = some place →
    key ≠ (arena.store value).1 → (arena.store value).2.layout.place? key = some place
  /-- A live key leads to what was stored under it last, and any other key to nothing. -/
  get?_eq : ∀ key, arena.get? key = history.kept.lookup key
  /-- Releasing a key that is not live gives nothing and changes nothing. -/
  release_eq : ∀ key, key ∉ history.kept → arena.perform (.release key) = (.value none, arena)
  size_eq : arena.size = history.kept.keys.card
  /-- There are as many pages as are needed for the most values at a time. -/
  placeCount_eq : ∃ pages, IsLeast {pages | history.peak ≤ pages * max pageSize 1} pages ∧
    arena.placeCount = max pageSize 1 * pages

theorem Tracks.sound {pageSize : Nat} {history : History β} {arena : Arena β}
    (tracks : Tracks pageSize history arena) : Sound pageSize history arena where
  exists_path := by
    rcases arena.threaded.exists_trail with ⟨path, leads, vacant_iff, _⟩
    refine ⟨path, leads, leads.nodup, fun key => ?_⟩
    rw [vacant_iff, Option.isSome_iff_exists]
    exact exists_congr fun next => arena.layout.next?_eq_some_iff key next
  store_key value := by
    rw [← Finmap.lookup_eq_none, ← tracks.get?_eq]
    exact arena.get?_store_key value
  place?_store value key place found apart :=
    (arena.threaded.place?_store value found).trans (if_neg apart)
  get?_eq := tracks.get?_eq
  release_eq key absent := by
    rw [← Finmap.lookup_eq_none, ← tracks.get?_eq] at absent
    have nothing := (arena.release?_eq_none_iff key).mpr absent
    rw [Arena.perform, Arena.release, nothing]
    rfl
  size_eq := size_eq_card tracks.get?_eq
  placeCount_eq := by
    refine ⟨_, tracks.isLeast_pages, ?_⟩
    rw [placeCount_eq_extent, Pages.extent, tracks.pageSize_eq, Nat.mul_comm]

/-- Whatever is asked of an arena that starts without pages, it never hands out a place that is in
use, never loses one, and carves no page too many. -/
theorem follow_new_sound (pageSize : Nat) (requests : List (Request β)) :
    Sound pageSize ((new pageSize : Arena β).follow [] requests).1
      ((new pageSize : Arena β).follow [] requests).2 :=
  ((tracks_new pageSize).follow requests).sound

end SoftSimplex.Arena
