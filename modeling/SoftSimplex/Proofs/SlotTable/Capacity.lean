import Mathlib.Data.Nat.Bitwise
import SoftSimplex.Proofs.SlotTable.Refinement
import SoftSimplex.Proofs.SlotTable.Walks

/-!
# The number of slots

A table gets new slots only when an entry finds no place, and then the number of entries at that
time decides on how many. So the number of slots stays a power of two and within four times the
greatest number of entries that were ever there at once, however many came and went.
-/

namespace SoftSimplex

namespace Layout

variable {β : Type}

theorem exists_doubled_eq (bound steps capacity : Nat) :
    ∃ power, doubled bound steps capacity = 2 ^ power * capacity := by
  induction steps generalizing capacity with
  | zero => exact ⟨0, (Nat.one_mul capacity).symm⟩
  | succ steps inductionHypothesis =>
      simp only [doubled]
      split
      · obtain ⟨power, doubled_eq⟩ := inductionHypothesis (2 * capacity)
        exact ⟨power + 1, by rw [doubled_eq, pow_succ, Nat.mul_assoc]⟩
      · exact ⟨0, (Nat.one_mul capacity).symm⟩

/-- Only a capacity below the bound is doubled. -/
theorem doubled_le (bound steps capacity : Nat) :
    doubled bound steps capacity ≤ max capacity (2 * bound) := by
  induction steps generalizing capacity with
  | zero => exact Nat.le_max_left capacity (2 * bound)
  | succ steps inductionHypothesis =>
      simp only [doubled]
      split
      · have step := inductionHypothesis (2 * capacity)
        omega
      · exact Nat.le_max_left capacity (2 * bound)

/-- Whether a number of slots is right when `most` entries at most were ever there at once. -/
structure Sparing (most slots : Nat) : Prop where
  power : slots = 0 ∨ 4 ≤ slots ∧ ∃ power, slots = 2 ^ power
  few : slots ≤ max 4 (4 * most)

theorem Sparing.mono {most more slots : Nat} (sparing : Sparing most slots)
    (within : most ≤ more) : Sparing more slots where
  power := sparing.power
  few := by
    have few := sparing.few
    omega

theorem sparing_capacityFor {most bound : Nat} (within : bound ≤ 2 * most) :
    Sparing most (capacityFor bound) := by
  obtain ⟨power, capacity⟩ := exists_doubled_eq bound bound 4
  refine ⟨Or.inr ⟨four_le_capacityFor bound, power + 2, ?_⟩, ?_⟩
  · rw [capacityFor, capacity, pow_add]
    rfl
  · have few := doubled_le bound bound 4
    rw [capacityFor]
    omega

/-- The slot at which a search begins is given by the low bits of the number. -/
theorem Sparing.home_eq {most : Nat} {layout : Layout β}
    (sparing : Sparing most layout.slots.size) (inhabited : 0 < layout.slots.size) (id : Nat) :
    layout.home id = id &&& (layout.slots.size - 1) := by
  rcases sparing.power with no_slots | ⟨_, power, slots⟩
  · omega
  · rw [home, slots, Nat.and_two_pow_sub_one_eq_mod]

theorem Orderly.size_le {layout : Layout β} (orderly : layout.Orderly) :
    layout.size ≤ layout.slots.size := by
  rw [orderly.size_eq, entries, filedIn, ← Array.length_toList]
  exact List.length_filterMap_le _ _

/-- Filing a new entry leaves the slots as many as they are, or as many as twice the entries
need. -/
theorem Orderly.slots_insertNew {layout : Layout β} (orderly : layout.Orderly)
    {filed : Symbol × β} (absent : layout.Absent filed.1.id) :
    (layout.insertNew filed).slots.size = layout.slots.size ∨
      ∃ bound ≤ 2 * layout.size, (layout.insertNew filed).slots.size = capacityFor bound := by
  obtain ⟨start_orderly, inhabited, same_entries⟩ := orderly.started
  have same_size : layout.started.size = layout.size := by
    rw [start_orderly.size_eq, orderly.size_eq, same_entries.length_eq]
  have start_absent := orderly.started_absent absent
  rw [insertNew_eq]
  cases placed : layout.started.place? filed with
  | some changed =>
      have kept := (start_orderly.placed_of_place? inhabited start_absent placed).slots_size
      rw [Option.getD_some, kept]
      by_cases vacuous : layout.slots.isEmpty = true
      · have fresh := orderly.laidOut_rehash 0 (by
          rw [orderly.size_eq, entries_eq_nil vacuous]
          exact Nat.zero_le _)
        have started : layout.started = layout.rehash 0 := if_pos vacuous
        refine Or.inr ⟨0, Nat.zero_le _, ?_⟩
        rw [started, fresh.slots_size, vacant, Array.size_replicate]
      · have started : layout.started = layout := if_neg vacuous
        exact Or.inl (by rw [started])
  | none =>
      have enough := le_capacityFor (2 * layout.started.size)
      have fresh := start_orderly.laidOut_rehash (2 * layout.started.size) (by omega)
      have filed_in := (start_orderly.fits_grown start_absent).laidOut
      refine Or.inr ⟨2 * layout.started.size, by omega, ?_⟩
      rw [Option.getD_none, filed_in.slots_size, fresh.slots_size, vacant, Array.size_replicate]

end Layout

namespace SlotTable

open Layout

variable {β : Type}

/-- The entry that a request files if its symbol is absent. -/
def Request.adds : Request β → Option (Symbol × β)
  | .insert symbol value => some (symbol, value)
  | .alter symbol start action => some (symbol, action start)
  | _ => none

/-- The greatest number of entries that are there at once while requests are answered. -/
def peak (table : SlotTable β) : List (Request β) → Nat
  | [] => table.size
  | request :: rest => max table.size ((table.perform request).2.peak rest)

theorem absent_of_get? {table : SlotTable β} {symbol : Symbol}
    (absent : table.get? symbol = none) : table.layout.Absent symbol.id :=
  (table.orderly.position?_eq_none_iff symbol.id).mp
    ((table.position?_eq_none_iff symbol).mpr absent)

theorem layout_alter_of_absent (table : SlotTable β) (symbol : Symbol) (start : β)
    (action : β → β) (absent : table.get? symbol = none) :
    (table.alter symbol start action).layout =
      table.layout.insertNew (symbol, action start) := by
  unfold alter
  split
  · rfl
  · rename_i position found
    exact absurd (((table.position?_eq_none_iff symbol).mpr absent).symm.trans found) (by simp)

theorem slots_alter_of_present (table : SlotTable β) (symbol : Symbol) (start : β)
    (action : β → β) (present : table.get? symbol ≠ none) :
    (table.alter symbol start action).layout.slots.size = table.layout.slots.size := by
  unfold alter
  split
  · rename_i absent
    exact absurd ((table.position?_eq_none_iff symbol).mp absent) present
  · simp [changeAt, Layout.changeAt]

/-- A request that files a new entry lays it out, and every other one leaves the number of slots
as it is. -/
theorem layout_perform_of_adds (table : SlotTable β) {request : Request β}
    {filed : Symbol × β} (adds : request.adds = some filed) (absent : table.get? filed.1 = none) :
    (table.perform request).2.layout = table.layout.insertNew filed := by
  cases request with
  | insert symbol value =>
      obtain rfl := Option.some.inj adds
      exact table.layout_alter_of_absent symbol value (fun _ => value) absent
  | alter symbol start action =>
      obtain rfl := Option.some.inj adds
      exact table.layout_alter_of_absent symbol start action absent
  | _ => exact absurd adds (by simp [Request.adds])

theorem slots_modify (table : SlotTable β) (symbol : Symbol) (action : β → β) :
    (table.modify symbol action).layout.slots.size = table.layout.slots.size := by
  unfold modify
  split
  · rfl
  · simp [changeAt, Layout.changeAt]

theorem slots_erase (table : SlotTable β) (symbol : Symbol) :
    (table.erase symbol).layout.slots.size = table.layout.slots.size := by
  unfold erase
  split
  · rfl
  · simp [emptyAt]

theorem slots_perform (table : SlotTable β) (request : Request β) :
    (table.perform request).2.layout.slots.size = table.layout.slots.size ∨
      ∃ bound ≤ 2 * table.size,
        (table.perform request).2.layout.slots.size = capacityFor bound := by
  have altered : ∀ symbol start action,
      (table.alter symbol start action).layout.slots.size = table.layout.slots.size ∨
        ∃ bound ≤ 2 * table.size,
          (table.alter symbol start action).layout.slots.size = capacityFor bound := by
    intro symbol start action
    by_cases absent : table.get? symbol = none
    · rw [table.layout_alter_of_absent symbol start action absent]
      exact table.orderly.slots_insertNew (absent_of_get? absent)
    · exact Or.inl (table.slots_alter_of_present symbol start action absent)
  cases request with
  | insert symbol value => exact altered symbol value fun _ => value
  | alter symbol start action => exact altered symbol start action
  | erase symbol => exact Or.inl (table.slots_erase symbol)
  | modify symbol action => exact Or.inl (table.slots_modify symbol action)
  | clear => exact Or.inl Array.size_replicate
  | rewrite action => exact Or.inl (by simp [perform, pass, Layout.pass, length_passSlots])
  | get | contains | list | size => exact Or.inl rfl

theorem sparing_perform {table : SlotTable β} {most : Nat}
    (sparing : Sparing most table.layout.slots.size) (within : table.size ≤ most)
    (request : Request β) :
    Sparing most (table.perform request).2.layout.slots.size := by
  rcases table.slots_perform request with same | ⟨bound, small, grown⟩
  · rwa [same]
  · rw [grown]
    exact sparing_capacityFor (by omega)

/-- The number of slots never gets out of proportion to the greatest number of entries. -/
theorem sparing_follow {table : SlotTable β} {most : Nat}
    (sparing : Sparing most table.layout.slots.size) (requests : List (Request β)) :
    Sparing (max most (table.peak requests))
      (Requests.follow perform table requests).2.layout.slots.size := by
  induction requests generalizing table most with
  | nil => exact sparing.mono (Nat.le_max_left most table.size)
  | cons request rest inductionHypothesis =>
      have now := sparing_perform (sparing.mono (Nat.le_max_left most table.size))
        (Nat.le_max_right most table.size) request
      have later := inductionHypothesis now
      rwa [Nat.max_assoc] at later

/-- Whatever has been asked of a table that started without slots, the number of its slots is zero
or a power of two that is at least four, at least the number of entries and at most four times the
greatest number of entries that were there at once, unless that is less than four. Every search
ends. Filing a new entry ends as well, including the walk to the slot before a guest that makes
room, which stops at a slot that leads to the guest; it grows the table once at most, so that
nothing is grown again while the old entries are laid out afresh. -/
theorem walks_end_and_slots_stay_few (requests : List (Request β)) :
    let table := (Requests.follow perform (empty : SlotTable β) requests).2
    Sparing ((empty : SlotTable β).peak requests) table.layout.slots.size ∧
      table.size ≤ table.layout.slots.size ∧
      (0 < table.layout.slots.size → ∀ id result,
        Searches table.layout id (id &&& (table.layout.slots.size - 1)) result ↔
          result = table.layout.position? id) ∧
      ∀ request filed, request.adds = some filed → table.get? filed.1 = none →
        ∃ growths ≤ 1, ∀ others after,
          Files table.size [filed] table.layout others after ↔
            others = growths ∧ after = (table.perform request).2.layout := by
  intro table
  have start : Sparing 0 (empty : SlotTable β).layout.slots.size := ⟨Or.inl rfl, Nat.zero_le _⟩
  have sparing := sparing_follow start requests
  rw [Nat.zero_max] at sparing
  refine ⟨sparing, table.orderly.size_le, ?_, ?_⟩
  · intro inhabited id result
    rw [← sparing.home_eq inhabited id]
    exact table.orderly.searches_iff inhabited id result
  · intro request filed adds absent
    rw [table.layout_perform_of_adds adds absent]
    obtain ⟨growths, once, files⟩ := table.orderly.files_insertNew (absent_of_get? absent)
    refine ⟨growths, once, fun others after => ⟨fun other => files.unique other, ?_⟩⟩
    rintro ⟨rfl, rfl⟩
    exact files

end SlotTable

end SoftSimplex
