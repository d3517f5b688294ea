import SoftSimplex.SlotTable.Basic

/-!
# What the operations do to the entries

Through its entries a table is a finite map from numbers to values. Filing a new symbol adds an
entry somewhere. Every other operation changes or drops entries where they lie.
-/

namespace SoftSimplex.SlotTable

variable {β : Type}

theorem position?_eq_none_iff (table : SlotTable β) (symbol : Symbol) :
    table.layout.position? symbol.id = none ↔ table.get? symbol = none := by
  rw [table.orderly.position?_eq_none_iff, Layout.absent_iff, get?_eq_none_iff]
  rfl

@[simp]
theorem entries_empty : (empty : SlotTable β).entries = [] := rfl

@[simp]
theorem entries_clear (table : SlotTable β) : table.clear.entries = [] :=
  Layout.entries_vacant _

theorem entries_insertNew (table : SlotTable β) (symbol : Symbol) (value : β)
    (absent : table.layout.position? symbol.id = none) :
    (table.insertNew symbol value absent).entries.Perm ((symbol, value) :: table.entries) :=
  (table.orderly.insertNew ((table.orderly.position?_eq_none_iff _).mp absent)).2

theorem entries_modify (table : SlotTable β) (symbol : Symbol) (action : β → β) :
    (table.modify symbol action).entries = table.entries.map fun filed =>
      if filed.1.id = symbol.id then (filed.1, action filed.2) else filed := by
  unfold modify
  split
  · rename_i absent
    have none_there := (table.get?_eq_none_iff symbol).mp
      ((table.position?_eq_none_iff symbol).mp absent)
    refine ((List.map_congr_left fun filed member => ?_).trans (List.map_id _)).symm
    exact if_neg (none_there filed member)
  · rename_i position found
    obtain ⟨filed, at_position, same⟩ :=
      (table.orderly.position?_eq_some_iff symbol.id position).mp found
    rw [← same]
    exact Layout.entries_changeAt table.orderly at_position action

/-- The changed value of a symbol that is filed lies where the value was. -/
theorem entries_alter_of_present (table : SlotTable β) (symbol : Symbol) (start : β)
    (action : β → β) (present : table.get? symbol ≠ none) :
    (table.alter symbol start action).entries = table.entries.map fun filed =>
      if filed.1.id = symbol.id then (filed.1, action filed.2) else filed := by
  unfold alter
  split
  · rename_i absent
    exact absurd ((table.position?_eq_none_iff symbol).mp absent) present
  · rename_i position found
    obtain ⟨filed, at_position, same⟩ :=
      (table.orderly.position?_eq_some_iff symbol.id position).mp found
    rw [← same]
    exact Layout.entries_changeAt table.orderly at_position action

theorem entries_alter_of_absent (table : SlotTable β) (symbol : Symbol) (start : β)
    (action : β → β) (absent : table.get? symbol = none) :
    (table.alter symbol start action).entries.Perm
      ((symbol, action start) :: table.entries) := by
  unfold alter
  split
  · exact table.entries_insertNew symbol (action start) _
  · rename_i position found
    rw [(table.position?_eq_none_iff symbol).mpr absent] at found
    exact absurd found (by simp)

theorem entries_insert_of_present (table : SlotTable β) (symbol : Symbol) (value : β)
    (present : table.get? symbol ≠ none) :
    (table.insert symbol value).entries = table.entries.map fun filed =>
      if filed.1.id = symbol.id then (filed.1, value) else filed :=
  table.entries_alter_of_present symbol value _ present

theorem entries_insert_of_absent (table : SlotTable β) (symbol : Symbol) (value : β)
    (absent : table.get? symbol = none) :
    (table.insert symbol value).entries.Perm ((symbol, value) :: table.entries) :=
  table.entries_alter_of_absent symbol value _ absent

theorem entries_erase (table : SlotTable β) (symbol : Symbol) :
    (table.erase symbol).entries =
      table.entries.filter fun filed => filed.1.id != symbol.id := by
  unfold erase
  split
  · rename_i absent
    have none_there := (table.get?_eq_none_iff symbol).mp
      ((table.position?_eq_none_iff symbol).mp absent)
    refine (List.filter_eq_self.mpr fun filed member => ?_).symm
    simpa using none_there filed member
  · rename_i position found
    obtain ⟨filed, at_position, same⟩ :=
      (table.orderly.position?_eq_some_iff symbol.id position).mp found
    have emptied := Layout.entries_emptyAt table.orderly at_position
    rw [same] at emptied
    exact emptied

/-- A pass over a table is a pass over its entries. -/
theorem pass_eq {σ : Type} (table : SlotTable β) (start : σ)
    (action : σ → Symbol → β → β × σ) :
    ((table.pass start action).1.entries, (table.pass start action).2) =
      passEntries action table.entries start := by
  have parts := Layout.filedIn_passSlots action table.layout.slots.toList start
  exact Prod.ext (Layout.entries_pass action table.layout start) parts.2

@[simp]
theorem entries_map (table : SlotTable β) (action : β → β) :
    (table.map action).entries = table.entries.map fun filed => (filed.1, action filed.2) := by
  have walked := congrArg Prod.fst (table.pass_eq () fun _ _ value => (action value, ()))
  refine walked.trans ?_
  induction table.entries with
  | nil => rfl
  | cons filed rest inductionHypothesis =>
      simp only [passEntries, List.map_cons, inductionHypothesis]

@[simp]
theorem size_empty : (empty : SlotTable β).size = 0 := rfl

@[simp]
theorem size_modify (table : SlotTable β) (symbol : Symbol) (action : β → β) :
    (table.modify symbol action).size = table.size := by
  rw [size_eq, size_eq, entries_modify, List.length_map]

@[simp]
theorem size_map (table : SlotTable β) (action : β → β) :
    (table.map action).size = table.size := by
  rw [size_eq, size_eq, entries_map, List.length_map]

@[simp]
theorem get?_empty (symbol : Symbol) : (empty : SlotTable β).get? symbol = none := rfl

@[simp]
theorem get?_clear (table : SlotTable β) (symbol : Symbol) : table.clear.get? symbol = none := by
  rw [get?_eq_none_iff, entries_clear]
  exact fun _ member => absurd member List.not_mem_nil

theorem get?_modify (table : SlotTable β) (symbol other : Symbol) (action : β → β) :
    (table.modify symbol action).get? other =
      if other.id = symbol.id then (table.get? other).map action else table.get? other := by
  have images : ∀ value, (table.modify symbol action).get? other = some value ↔
      ∃ filed ∈ table.entries, filed.1.id = other.id ∧
        (if filed.1.id = symbol.id then action filed.2 else filed.2) = value := by
    intro value
    rw [get?_eq_some_iff, entries_modify]
    constructor
    · rintro ⟨_, member, same, rfl⟩
      obtain ⟨filed, inside, rfl⟩ := List.mem_map.mp member
      exact ⟨filed, inside, by split at same <;> exact same, by split <;> rfl⟩
    · rintro ⟨filed, inside, same, rfl⟩
      exact ⟨_, List.mem_map_of_mem inside, by split <;> exact same, by split <;> rfl⟩
  apply Option.ext
  intro value
  rw [images]
  by_cases bears : other.id = symbol.id
  · rw [if_pos bears, Option.map_eq_some_iff]
    constructor
    · rintro ⟨filed, inside, same, changed⟩
      rw [if_pos (same.trans bears)] at changed
      exact ⟨filed.2, (table.get?_eq_some_iff other filed.2).mpr ⟨filed, inside, same, rfl⟩,
        changed⟩
    · rintro ⟨before, found, changed⟩
      obtain ⟨filed, inside, same, is_before⟩ := (table.get?_eq_some_iff other before).mp found
      exact ⟨filed, inside, same, by rw [if_pos (same.trans bears), is_before, changed]⟩
  · rw [if_neg bears, get?_eq_some_iff]
    constructor
    · rintro ⟨filed, inside, same, kept⟩
      rw [if_neg fun equal => bears (same.symm.trans equal)] at kept
      exact ⟨filed, inside, same, kept⟩
    · rintro ⟨filed, inside, same, kept⟩
      exact ⟨filed, inside, same, by rwa [if_neg fun equal => bears (same.symm.trans equal)]⟩

theorem get?_insert (table : SlotTable β) (symbol other : Symbol) (value : β) :
    (table.insert symbol value).get? other =
      if other.id = symbol.id then some value else table.get? other := by
  by_cases absent : table.get? symbol = none
  · have filed_iff : ∀ filed, filed ∈ (table.insert symbol value).entries ↔
        filed = (symbol, value) ∨ filed ∈ table.entries := fun filed =>
      (table.entries_insert_of_absent symbol value absent).mem_iff.trans List.mem_cons
    apply Option.ext
    intro found
    rw [get?_eq_some_iff]
    by_cases bears : other.id = symbol.id
    · rw [if_pos bears]
      constructor
      · rintro ⟨filed, member, same, is_found⟩
        rcases (filed_iff filed).mp member with is_new | is_old
        · rw [← is_found, is_new]
        · exact absurd (same.trans bears) ((table.get?_eq_none_iff symbol).mp absent filed is_old)
      · intro is_found
        exact ⟨(symbol, value), (filed_iff _).mpr (Or.inl rfl), bears.symm,
          Option.some.inj is_found⟩
    · rw [if_neg bears, get?_eq_some_iff]
      constructor
      · rintro ⟨filed, member, same, is_found⟩
        rcases (filed_iff filed).mp member with is_new | is_old
        · rw [is_new] at same
          exact absurd same.symm bears
        · exact ⟨filed, is_old, same, is_found⟩
      · rintro ⟨filed, member, same, is_found⟩
        exact ⟨filed, (filed_iff filed).mpr (Or.inr member), same, is_found⟩
  · have equal : (table.insert symbol value).get? other =
        (table.modify symbol fun _ => value).get? other := by
      apply Option.ext
      intro found
      rw [get?_eq_some_iff, get?_eq_some_iff, entries_modify,
        table.entries_insert_of_present symbol value absent]
    rw [equal, get?_modify]
    by_cases bears : other.id = symbol.id
    · rw [if_pos bears, if_pos bears, table.get?_congr bears]
      cases found : table.get? symbol with
      | none => exact absurd found absent
      | some before => rfl
    · rw [if_neg bears, if_neg bears]

theorem get?_erase (table : SlotTable β) (symbol other : Symbol) :
    (table.erase symbol).get? other =
      if other.id = symbol.id then none else table.get? other := by
  apply Option.ext
  intro value
  rw [get?_eq_some_iff, entries_erase]
  simp only [List.mem_filter, bne_iff_ne, ne_eq]
  by_cases bears : other.id = symbol.id
  · rw [if_pos bears]
    constructor
    · rintro ⟨filed, ⟨_, unequal⟩, same, _⟩
      exact absurd (same.trans bears) unequal
    · intro found
      exact absurd found (by simp)
  · rw [if_neg bears, get?_eq_some_iff]
    constructor
    · rintro ⟨filed, ⟨member, _⟩, same, is_value⟩
      exact ⟨filed, member, same, is_value⟩
    · rintro ⟨filed, member, same, is_value⟩
      exact ⟨filed, ⟨member, fun equal => bears (same.symm.trans equal)⟩, same, is_value⟩

@[simp]
theorem get?_map (table : SlotTable β) (action : β → β) (symbol : Symbol) :
    (table.map action).get? symbol = (table.get? symbol).map action := by
  apply Option.ext
  intro value
  rw [get?_eq_some_iff, entries_map, Option.map_eq_some_iff]
  constructor
  · rintro ⟨_, member, same, rfl⟩
    obtain ⟨filed, inside, rfl⟩ := List.mem_map.mp member
    exact ⟨filed.2, (table.get?_eq_some_iff symbol filed.2).mpr ⟨filed, inside, same, rfl⟩, rfl⟩
  · rintro ⟨before, found, rfl⟩
    obtain ⟨filed, inside, same, rfl⟩ := (table.get?_eq_some_iff symbol before).mp found
    exact ⟨_, List.mem_map_of_mem inside, same, rfl⟩

/-- A member of a list without repeated numbers can be brought to the front. -/
theorem perm_cons_filter {entries : List (Symbol × β)} (distinct : Layout.Distinct entries)
    {filed : Symbol × β} (member : filed ∈ entries) :
    entries.Perm (filed :: entries.filter fun other => other.1.id != filed.1.id) := by
  induction entries with
  | nil => exact absurd member List.not_mem_nil
  | cons first rest inductionHypothesis =>
      obtain ⟨apart, distinct_rest⟩ := List.pairwise_cons.mp distinct
      rcases List.mem_cons.mp member with rfl | inside
      · have unchanged : (rest.filter fun other => other.1.id != filed.1.id) = rest := by
          refine List.filter_eq_self.mpr fun other within => ?_
          simpa using Ne.symm (apart other within)
        rw [List.filter_cons_of_neg (by simp), unchanged]
      · rw [List.filter_cons_of_pos (by simpa using apart filed inside)]
        exact ((inductionHypothesis distinct_rest inside).cons first).trans (List.Perm.swap _ _ _)

/-- A filed entry and all entries that its symbol's erasure leaves. -/
theorem entries_perm_cons_erase (table : SlotTable β) {filed : Symbol × β}
    (member : filed ∈ table.entries) :
    table.entries.Perm (filed :: (table.erase filed.1).entries) := by
  rw [entries_erase]
  exact perm_cons_filter table.distinct member

/-- After filing, the new value and all entries of other symbols. -/
theorem exists_entries_insert_perm (table : SlotTable β) (symbol : Symbol) (value : β) :
    ∃ key, key.id = symbol.id ∧
      (table.insert symbol value).entries.Perm ((key, value) :: (table.erase symbol).entries) := by
  have found := (table.get?_insert symbol symbol value).trans (if_pos rfl)
  obtain ⟨⟨key, stored⟩, member, same, rfl⟩ :=
    ((table.insert symbol value).get?_eq_some_iff symbol _).mp found
  refine ⟨key, same, ((table.insert symbol stored).entries_perm_cons_erase member).trans ?_⟩
  refine List.Perm.cons _ ?_
  rw [entries_erase, entries_erase, same]
  by_cases absent : table.get? symbol = none
  · refine ((table.entries_insert_of_absent symbol stored absent).filter _).trans ?_
    rw [List.filter_cons_of_neg (by simp)]
  · rw [table.entries_insert_of_present symbol stored absent, List.filter_map]
    refine List.Perm.of_eq ?_
    have kept : ((fun other : Symbol × β => other.1.id != symbol.id) ∘ fun filed =>
        if filed.1.id = symbol.id then (filed.1, stored) else filed) =
          fun other => other.1.id != symbol.id := by
      funext other
      simp only [Function.comp_apply]
      split <;> rfl
    rw [kept]
    refine (List.map_congr_left fun filed inside => ?_).trans (List.map_id _)
    have apart := (List.mem_filter.mp inside).2
    rw [if_neg (by simpa using apart), id]

theorem mem_entries_erase_iff (table : SlotTable β) (symbol : Symbol) (filed : Symbol × β) :
    filed ∈ (table.erase symbol).entries ↔ filed ∈ table.entries ∧ filed.1.id ≠ symbol.id := by
  rw [entries_erase, List.mem_filter, bne_iff_ne]

/-- What is filed after filing a value was filed before, or is the new value, which lies under
the symbol it was filed with first. -/
theorem mem_entries_insert {table : SlotTable β} {symbol : Symbol} {value : β}
    {filed : Symbol × β} (member : filed ∈ (table.insert symbol value).entries) :
    (filed ∈ table.entries ∧ filed.1.id ≠ symbol.id) ∨
      (filed.1.id = symbol.id ∧ filed.2 = value ∧
        (filed.1 = symbol ∨ ∃ before, (filed.1, before) ∈ table.entries)) := by
  by_cases absent : table.get? symbol = none
  · rcases List.mem_cons.mp ((table.entries_insert_of_absent symbol value absent).mem_iff.mp member)
      with rfl | inside
    · exact Or.inr ⟨rfl, rfl, Or.inl rfl⟩
    · exact Or.inl ⟨inside, (table.get?_eq_none_iff symbol).mp absent filed inside⟩
  · rw [table.entries_insert_of_present symbol value absent] at member
    obtain ⟨other, inside, rfl⟩ := List.mem_map.mp member
    by_cases same : other.1.id = symbol.id
    · rw [if_pos same]
      exact Or.inr ⟨same, rfl, Or.inr ⟨other.2, inside⟩⟩
    · rw [if_neg same]
      exact Or.inl ⟨inside, same⟩

end SoftSimplex.SlotTable
