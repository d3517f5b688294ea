import SoftSimplex.Arena.Basic

/-!
# What an arena keeps

Through its keys an arena is a finite map. Storing gives a value a key that was not in use,
releasing frees a key, and no operation touches what is kept under another key.
-/

namespace SoftSimplex

namespace Pages

variable {β : Type} {layout : Pages β} {key : Nat} {value : β}

/-- A vacant place takes the value, and all other places stay. -/
theorem place?_occupy_of_next? {following : Option Nat}
    (vacant : layout.next? key = some following) (value : β) (other : Nat) :
    (layout.occupy key value).place? other =
      if other = key then some (.taken value) else layout.place? other := by
  refine (layout.place?_put key (.taken value) other).trans ?_
  rw [(layout.next?_eq_some_iff key following).mp vacant]
  rfl

/-- The place of a value is emptied, and all other places stay. -/
theorem place?_vacate_of_get? (found : layout.get? key = some value) (other : Nat) :
    (layout.vacate key).place? other =
      if other = key then some (.vacant layout.firstVacant) else layout.place? other := by
  refine (layout.place?_put key (.vacant layout.firstVacant) other).trans ?_
  rw [(layout.get?_eq_some_iff key value).mp found]
  rfl

namespace Threaded

/-- The first place of a new page is vacant. -/
theorem next?_carve_extent (threaded : layout.Threaded) :
    ∃ following, layout.carve.next? layout.extent = some following := by
  have within : layout.extent < layout.extent + layout.pageSize :=
    Nat.lt_add_of_pos_right threaded.pageSize_pos
  unfold next?
  rw [threaded.place?_carve, if_neg (Nat.lt_irrefl _), if_pos within]
  exact ⟨_, rfl⟩

/-- A stored value lies in its place, and every place that there was before stays. -/
theorem place?_store (threaded : layout.Threaded) (value : β) {key : Nat} {place : Place β}
    (found : layout.place? key = some place) :
    (layout.store value).2.place? key =
      if key = (layout.store value).1 then some (.taken value) else some place := by
  rcases threaded.store_cases value with ⟨first, following, vacant, stored⟩ | ⟨_, stored⟩
  · rw [stored, place?_occupy_of_next? vacant, found]
  · rcases threaded.next?_carve_extent with ⟨following, vacant⟩
    rw [stored, place?_occupy_of_next? vacant, threaded.place?_carve,
      if_pos (threaded.lt_extent found), found]

theorem get?_store (threaded : layout.Threaded) (value : β) (key : Nat) :
    (layout.store value).2.get? key =
      if key = (layout.store value).1 then some value else layout.get? key := by
  rcases threaded.store_cases value with ⟨first, following, vacant, stored⟩ | ⟨_, stored⟩
  · rw [stored, Pages.get?, place?_occupy_of_next? vacant]
    split <;> rfl
  · rcases threaded.next?_carve_extent with ⟨following, vacant⟩
    rw [stored, Pages.get?, place?_occupy_of_next? vacant, threaded.place?_carve]
    split
    · rfl
    · rename_i apart
      by_cases inside : key < layout.extent
      · rw [if_pos inside]
        rfl
      · have nothing : layout.place? key = none := by
          cases found : layout.place? key with
          | none => rfl
          | some place => exact absurd (threaded.lt_extent found) inside
        rw [if_neg inside, Pages.get?, nothing]
        split <;> rfl

/-- A new value takes a place where nothing was kept. -/
theorem get?_store_key (threaded : layout.Threaded) (value : β) :
    layout.get? (layout.store value).1 = none := by
  rcases threaded.store_cases value with ⟨first, following, vacant, stored⟩ | ⟨_, stored⟩
  · rw [stored]
    exact get?_of_next? vacant
  · rw [stored, Pages.get?, threaded.place?_extent]
    rfl

theorem live_store (threaded : layout.Threaded) (value : β) :
    (layout.store value).2.live = layout.live + 1 := by
  rcases threaded.store_cases value with ⟨_, _, _, stored⟩ | ⟨_, stored⟩ <;> rw [stored] <;> rfl

end Threaded

end Pages

namespace Arena

variable {β : Type}

/-- The keys of the values, in ascending order. -/
def keys (arena : Arena β) : List Nat :=
  (List.range arena.layout.extent).filter fun key => (arena.get? key).isSome

theorem mem_keys_iff (arena : Arena β) (key : Nat) :
    key ∈ arena.keys ↔ (arena.get? key).isSome = true := by
  simp only [keys, List.mem_filter, List.mem_range, and_iff_right_iff_imp]
  intro kept
  rcases Option.isSome_iff_exists.mp kept with ⟨value, found⟩
  exact arena.threaded.lt_extent ((arena.layout.get?_eq_some_iff key value).mp found)

theorem keys_nodup (arena : Arena β) : arena.keys.Nodup :=
  List.nodup_range.filter _

/-- Every place either lies on the list of vacant places or holds a value. -/
theorem size_eq_length_keys (arena : Arena β) : arena.size = arena.keys.length := by
  rcases arena.threaded.exists_trail with ⟨trail, leads, vacant_iff, counted⟩
  have on_trail : ∀ key, key ∈ trail ↔
      key ∈ (List.range arena.layout.extent).filter fun key => ¬ (arena.get? key).isSome := by
    intro key
    rw [vacant_iff, List.mem_filter, List.mem_range, ← arena.threaded.isSome_place?_iff]
    cases found : arena.layout.place? key with
    | none => simp [Pages.next?, found]
    | some place => cases place <;> simp [Pages.next?, Pages.get?, Arena.get?, found,
        Place.next?, Place.value?]
  have apart : ((List.range arena.layout.extent).filter fun key =>
      ¬ (arena.get? key).isSome).Nodup := List.nodup_range.filter _
  have lengths := Nat.le_antisymm
    (leads.nodup.length_le_of_subset fun key => (on_trail key).mp)
    (apart.length_le_of_subset fun key => (on_trail key).mpr)
  have parts := @List.length_eq_countP_add_countP _ (fun key => (arena.get? key).isSome)
    (List.range arena.layout.extent)
  rw [List.length_range, List.countP_eq_length_filter, List.countP_eq_length_filter] at parts
  unfold size keys
  omega

@[simp]
theorem size_new (pageSize : Nat) : (new pageSize : Arena β).size = 0 := rfl

@[simp]
theorem size_store (arena : Arena β) (value : β) :
    (arena.store value).2.size = arena.size + 1 :=
  arena.threaded.live_store value

@[simp]
theorem size_modify (arena : Arena β) (key : Nat) (action : β → β) :
    (arena.modify key action).size = arena.size := by
  simp only [size, modify, Pages.modify]
  split <;> rfl

@[simp]
theorem get?_new (pageSize key : Nat) : (new pageSize : Arena β).get? key = none := by
  simp [new, get?, Pages.get?, Pages.place?, Pages.new]

/-- A value is found under its new key, and every other one where it was. -/
theorem get?_store (arena : Arena β) (value : β) (key : Nat) :
    (arena.store value).2.get? key =
      if key = (arena.store value).1 then some value else arena.get? key :=
  arena.threaded.get?_store value key

/-- A new key was not in use. -/
theorem get?_store_key (arena : Arena β) (value : β) :
    arena.get? (arena.store value).1 = none :=
  arena.threaded.get?_store_key value

theorem release?_eq_none_iff (arena : Arena β) (key : Nat) :
    arena.release? key = none ↔ arena.get? key = none := by
  unfold release?
  split
  · rename_i absent
    simp [absent]
  · rename_i value found
    simp [found]

theorem get?_vacate (arena : Arena β) {key : Nat} {value : β}
    (found : arena.get? key = some value) (other : Nat) :
    (arena.vacate found).get? other = if other = key then none else arena.get? other := by
  rw [get?, Pages.get?, vacate, Pages.place?_vacate_of_get? found]
  split <;> rfl

/-- A released value is the one that was kept, and all others stay. -/
theorem get?_of_release? {arena rest : Arena β} {key : Nat} {value : β}
    (released : arena.release? key = some (value, rest)) :
    arena.get? key = some value ∧
      ∀ other, rest.get? other = if other = key then none else arena.get? other := by
  unfold release? at released
  split at released
  · exact absurd released (by simp)
  · rename_i kept found
    have parts := Prod.mk.inj (Option.some.inj released)
    rw [← parts.1, ← parts.2]
    exact ⟨found, arena.get?_vacate found⟩

theorem get?_release (arena : Arena β) (key other : Nat) :
    (arena.release key).get? other = if other = key then none else arena.get? other := by
  unfold release
  cases released : arena.release? key with
  | none =>
      have absent := (arena.release?_eq_none_iff key).mp released
      by_cases same : other = key
      · rw [if_pos same, same]
        exact absent
      · rw [if_neg same]
        rfl
  | some result => exact (get?_of_release? released).2 other

theorem get?_modify (arena : Arena β) (key other : Nat) (action : β → β) :
    (arena.modify key action).get? other =
      if other = key then (arena.get? other).map action else arena.get? other := by
  simp only [get?, modify, Pages.modify]
  cases found : arena.layout.get? key with
  | none =>
      dsimp only
      split
      · rename_i same
        rw [same, found]
        rfl
      · rfl
  | some value =>
      dsimp only
      rw [Pages.get?_put, (arena.layout.get?_eq_some_iff key value).mp found]
      split
      · rename_i same
        rw [same, found]
        rfl
      · rfl

end Arena

end SoftSimplex
