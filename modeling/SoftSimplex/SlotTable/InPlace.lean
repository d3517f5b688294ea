import SoftSimplex.SlotTable.Growth

/-!
# Changes that move no entry

Changing a value, taking an entry out, and passing over all values leave every chain as it is.
Each is described by what becomes of the list of entries.
-/

namespace SoftSimplex.Layout

variable {β : Type}

/-- Replacing the slot of an entry changes or drops that entry and no other. -/
theorem filedIn_set_eq_filterMap (slots : List (Slot β)) (position : Nat) (slot : Slot β)
    (bound : position < slots.length) {filed : Symbol × β}
    (found : slots[position].entry = some filed) (distinct : Distinct (filedIn slots)) :
    filedIn (slots.set position slot) =
      (filedIn slots).filterMap fun other =>
        if other.1.id = filed.1.id then slot.entry else some other := by
  induction slots generalizing position with
  | nil => exact absurd bound (Nat.not_lt_zero position)
  | cons first rest inductionHypothesis =>
      cases position with
      | zero =>
          simp only [List.getElem_cons_zero] at found
          simp only [filedIn, List.filterMap_cons, found] at distinct
          have apart := (List.pairwise_cons.mp distinct).1
          have same : (filedIn rest).map (fun other =>
              if other.1.id = filed.1.id then slot.entry else some other) =
                (filedIn rest).map some :=
            List.map_congr_left fun other member => if_neg fun same => apart other member same.symm
          have kept : (filedIn rest).filterMap (fun other =>
              if other.1.id = filed.1.id then slot.entry else some other) = filedIn rest := by
            simpa [List.filterMap_map] using congrArg (List.filterMap id) same
          simp only [List.set_cons_zero]
          cases changed : slot.entry with
          | none => simpa [filedIn, found, changed] using kept.symm
          | some other => simpa [filedIn, found, changed] using kept.symm
      | succ position =>
          simp only [List.getElem_cons_succ] at found
          have bound' := Nat.lt_of_succ_lt_succ bound
          cases at_first : first.entry with
          | none =>
              have inner := inductionHypothesis position bound' found
                (by simpa [filedIn, at_first] using distinct)
              simpa [filedIn, at_first] using inner
          | some other =>
              simp only [filedIn, List.filterMap_cons, at_first] at distinct
              obtain ⟨apart, rest_distinct⟩ := List.pairwise_cons.mp distinct
              have inner := inductionHypothesis position bound' found rest_distinct
              have member : filed ∈ filedIn rest :=
                List.mem_filterMap.mpr ⟨rest[position], List.getElem_mem bound', found⟩
              have unequal : other.1.id ≠ filed.1.id := apart filed member
              simpa [filedIn, at_first, unequal] using inner

theorem slotAt_changeAt (layout : Layout β) (position : Nat) (action : β → β) (place : Nat) :
    slotAt (layout.changeAt position action).slots place =
      if place = position ∧ position < layout.slots.size then
        (slotAt layout.slots position).change action
      else slotAt layout.slots place := by
  simp [changeAt, slotAt_setIfInBounds]

theorem entries_changeAt {layout : Layout β} (orderly : layout.Orderly) {position : Nat}
    {filed : Symbol × β} (found : layout.entry position = some filed) (action : β → β) :
    (layout.changeAt position action).entries =
      layout.entries.map fun other =>
        if other.1.id = filed.1.id then (other.1, action other.2) else other := by
  have inside := entry_lt found
  have found' : layout.slots.toList[position].entry = some filed := by
    simpa [entry, slotAt, inside] using found
  have replaced := filedIn_set_eq_filterMap layout.slots.toList position
    ((slotAt layout.slots position).change action) (by simpa using inside) found' orderly.distinct
  have at_position : (slotAt layout.slots position).entry = some filed := found
  have chosen : (fun other : Symbol × β => if other.1.id = filed.1.id then
      ((slotAt layout.slots position).change action).entry else some other) =
        some ∘ fun other => if other.1.id = filed.1.id then (filed.1, action filed.2) else other := by
    funext other
    by_cases same : other.1.id = filed.1.id <;> simp [same, Slot.change, at_position]
  simp only [entries, changeAt, Array.toList_setIfInBounds]
  rw [replaced, chosen, List.filterMap_eq_map]
  refine List.map_congr_left fun other member => ?_
  by_cases same : other.1.id = filed.1.id
  · obtain ⟨place, at_place⟩ := (mem_filedIn_iff _ other).mp member
    have equal_place := orderly.unique place position other filed at_place found same
    have equal : other = filed := by
      rw [equal_place] at at_place
      exact Option.some.inj (at_place.symm.trans found)
    rw [equal]
  · rw [if_neg same, if_neg same]

theorem Orderly.changeAt {layout : Layout β} (orderly : layout.Orderly) (position : Nat)
    (action : β → β) : (layout.changeAt position action).Orderly := by
  refine orderly.of_shape ?_ ?_ ?_ ?_ ?_ ?_
  · simp [Layout.changeAt]
  · intro place
    rw [next, slotAt_changeAt]
    split
    · rename_i both; rw [both.1]; rfl
    · rfl
  · intro place
    rw [slotAt_changeAt]
    split
    · rename_i both; rw [both.1]; rfl
    · rfl
  · intro place filed found
    rw [entry, slotAt_changeAt] at found
    split at found
    · rename_i both
      obtain ⟨before, at_position, changed⟩ := Option.map_eq_some_iff.mp found
      refine ⟨before.2, ?_⟩
      rw [both.1, entry, at_position, ← changed]
    · exact ⟨filed.2, found⟩
  · cases found : layout.entry position with
    | some filed =>
        rw [entries_changeAt orderly found, List.length_map, ← orderly.size_eq]
        rfl
    | none =>
        have unchanged : (layout.changeAt position action).entries.Perm layout.entries := by
          by_cases inside : position < layout.slots.size
          · have exchange := filedIn_setIfInBounds_perm layout.slots position
              ((slotAt layout.slots position).change action) inside
            have at_position : (slotAt layout.slots position).entry = none := found
            simpa [Slot.change, at_position, entries, Layout.changeAt] using exchange
          · simp [entries, Layout.changeAt, Array.setIfInBounds, inside]
        rw [unchanged.length_eq, ← orderly.size_eq]
        rfl
  · simpa [Layout.changeAt] using orderly.cursor_le

theorem slotAt_emptyAt (layout : Layout β) (position place : Nat) :
    slotAt (layout.emptyAt position).slots place =
      if place = position ∧ position < layout.slots.size then
        (slotAt layout.slots position).emptied
      else slotAt layout.slots place := by
  simp [emptyAt, slotAt_setIfInBounds]

theorem entries_emptyAt {layout : Layout β} (orderly : layout.Orderly) {position : Nat}
    {filed : Symbol × β} (found : layout.entry position = some filed) :
    (layout.emptyAt position).entries =
      layout.entries.filter fun other => other.1.id != filed.1.id := by
  have inside := entry_lt found
  have found' : layout.slots.toList[position].entry = some filed := by
    simpa [entry, slotAt, inside] using found
  have replaced := filedIn_set_eq_filterMap layout.slots.toList position
    (slotAt layout.slots position).emptied (by simpa using inside) found' orderly.distinct
  simp only [entries, emptyAt, Array.toList_setIfInBounds]
  rw [replaced, ← List.filterMap_eq_filter]
  refine congrArg (fun choose => List.filterMap choose layout.entries) (funext fun other => ?_)
  by_cases same : other.1.id = filed.1.id
  · simp [same, Slot.emptied, Option.guard]
  · simp [same, Option.guard]

theorem Orderly.emptyAt {layout : Layout β} (orderly : layout.Orderly) {position id : Nat}
    (found : ∃ filed, layout.entry position = some filed ∧ filed.1.id = id) :
    (layout.emptyAt position).Orderly := by
  obtain ⟨filed, at_position, _⟩ := found
  have inside := entry_lt at_position
  refine orderly.of_shape ?_ ?_ ?_ ?_ ?_ ?_
  · simp [Layout.emptyAt]
  · intro place
    rw [next, slotAt_emptyAt]
    split
    · rename_i both; rw [both.1]; rfl
    · rfl
  · intro place
    rw [slotAt_emptyAt]
    split
    · rename_i both; rw [both.1]; rfl
    · rfl
  · intro place other found
    rw [entry, slotAt_emptyAt] at found
    split at found
    · exact absurd found (by simp [Slot.emptied])
    · exact ⟨other.2, found⟩
  · have exchange := filedIn_setIfInBounds_perm layout.slots position
      (slotAt layout.slots position).emptied inside
    have before : (slotAt layout.slots position).entry = some filed := at_position
    have lengths := exchange.length_eq
    simp only [before, Slot.emptied, Option.toList_some, Option.toList_none, List.length_append,
      List.length_singleton, List.nil_append] at lengths
    have size_eq := orderly.size_eq
    simp only [entries, Layout.emptyAt, Slot.emptied] at size_eq ⊢
    omega
  · simpa [Layout.emptyAt] using orderly.cursor_le

/-- Change every value in slot order, carrying a state along. -/
def pass {σ : Type} (layout : Layout β) (action : σ → Symbol → β → β × σ) (start : σ) :
    Layout β :=
  { layout with slots := (passSlots action layout.slots.toList start).1.toArray }

section Pass

variable {σ : Type} (action : σ → Symbol → β → β × σ)

theorem filedIn_passSlots (slots : List (Slot β)) (start : σ) :
    filedIn (passSlots action slots start).1 = (passEntries action (filedIn slots) start).1 ∧
      (passSlots action slots start).2 = (passEntries action (filedIn slots) start).2 := by
  induction slots generalizing start with
  | nil => exact ⟨rfl, rfl⟩
  | cons slot rest inductionHypothesis =>
      cases found : slot.entry with
      | none =>
          have inner := inductionHypothesis start
          simp only [passSlots, found, filedIn, List.filterMap_cons] at inner ⊢
          exact inner
      | some filed =>
          obtain ⟨symbol, value⟩ := filed
          have inner := inductionHypothesis (action start symbol value).2
          simp only [passSlots, found, filedIn, List.filterMap_cons, passEntries] at inner ⊢
          exact ⟨congrArg _ inner.1, inner.2⟩

/-- A pass leaves links as they are and every entry under its symbol. -/
theorem shape_passSlots (slots : List (Slot β)) (start : σ) (position : Nat) :
    let changed := (passSlots action slots start).1[position]?.getD Slot.vacant
    let slot := slots[position]?.getD Slot.vacant
    changed.next = slot.next ∧ changed.linked = slot.linked ∧
      changed.entry.map Prod.fst = slot.entry.map Prod.fst := by
  induction slots generalizing start position with
  | nil => simp [passSlots]
  | cons slot rest inductionHypothesis =>
      cases found : slot.entry with
      | none =>
          simp only [passSlots, found]
          cases position with
          | zero => simp [found]
          | succ position => simpa using inductionHypothesis start position
      | some filed =>
          simp only [passSlots, found]
          cases position with
          | zero => simp [found]
          | succ position =>
              simpa using inductionHypothesis (action start filed.1 filed.2).2 position

theorem length_passSlots (slots : List (Slot β)) (start : σ) :
    (passSlots action slots start).1.length = slots.length := by
  induction slots generalizing start with
  | nil => rfl
  | cons slot rest inductionHypothesis =>
      cases found : slot.entry with
      | none =>
          simp only [passSlots, found, List.length_cons]
          rw [inductionHypothesis]
      | some filed =>
          simp only [passSlots, found, List.length_cons]
          rw [inductionHypothesis]

theorem entries_pass (layout : Layout β) (start : σ) :
    (layout.pass action start).entries = (passEntries action layout.entries start).1 := by
  simpa [entries, pass] using (filedIn_passSlots action layout.slots.toList start).1

theorem Orderly.pass {layout : Layout β} (orderly : layout.Orderly) (start : σ) :
    (layout.pass action start).Orderly := by
  have shape : ∀ position,
      (slotAt (layout.pass action start).slots position).next =
          (slotAt layout.slots position).next ∧
        (slotAt (layout.pass action start).slots position).linked =
            (slotAt layout.slots position).linked ∧
          (slotAt (layout.pass action start).slots position).entry.map Prod.fst =
            (slotAt layout.slots position).entry.map Prod.fst := by
    intro position
    simpa [slotAt, Layout.pass] using
      shape_passSlots action layout.slots.toList start position
  refine orderly.of_shape ?_ ?_ ?_ ?_ ?_ ?_
  · simp [Layout.pass, length_passSlots]
  · exact fun position => (shape position).1
  · exact fun position => (shape position).2.1
  · intro position filed found
    have symbols := (shape position).2.2
    have at_position : (slotAt (layout.pass action start).slots position).entry = some filed :=
      found
    rw [at_position, Option.map_some] at symbols
    obtain ⟨before, is_before, same⟩ := Option.map_eq_some_iff.mp symbols.symm
    exact ⟨before.2, by rw [entry, is_before, ← same]⟩
  · rw [entries_pass, length_passEntries, ← orderly.size_eq]
    rfl
  · simpa [Layout.pass, length_passSlots] using orderly.cursor_le

end Pass

end SoftSimplex.Layout
