import SoftSimplex.Proofs.Tableau.Removal

/-!
# The agenda of a tableau

A row that is flagged waits in the queue of repairs, and a row that fell below zero is flagged as
long as nobody has looked at it. The queue holds symbols other than external ones. Every change
of an external row is noted, so that the value of an external symbol cannot change unnoticed.
-/

namespace SoftSimplex

namespace Agenda

variable {α : Type} [Scalar α]

/-- The action leaves a row alone or changes its form and notes the change. -/
def Notes (action : Agenda → Symbol → Row α → Row α × Agenda) : Prop :=
  ∀ agenda basic row, action agenda basic row = (row, agenda) ∨
    ∃ form, action agenda basic row = agenda.note basic { row with form }

/-- What became of a row: it was left alone, or its change was noted. -/
def Followed (agenda : Agenda) (before after : Symbol × Row α) : Prop :=
  before.1 = after.1 ∧ (after.2 = before.2 ∨
    ((after.2.isQueued = true → before.2.isQueued = true ∨ after.1 ∈ agenda.repairs) ∧
      (after.1.isExternal = false → after.2.form.constant < 0 → after.2.isQueued = true) ∧
        (after.1.isExternal = true → after.1 ∈ agenda.touched)))

theorem repairs_note (agenda : Agenda) (symbol : Symbol) (row : Row α) :
    (agenda.note symbol row).2.repairs = agenda.repairs ∨
      (symbol.isExternal = false ∧
        (agenda.note symbol row).2.repairs = symbol :: agenda.repairs) := by
  unfold note
  split
  · rename_i external
    exact Or.inl (by simp [touch, external])
  · rename_i internal
    unfold queue
    split
    · exact Or.inr ⟨by simpa using internal, rfl⟩
    · exact Or.inl rfl

theorem touched_note (agenda : Agenda) (symbol : Symbol) (row : Row α) :
    (agenda.note symbol row).2.touched =
      if symbol.isExternal then symbol :: agenda.touched else agenda.touched := by
  unfold note
  split
  · rename_i external
    simp [touch, external]
  · unfold queue
    split <;> rfl

theorem followed_note (agenda : Agenda) (symbol : Symbol) (row : Row α)
    (form : LinearForm α) :
    Followed (agenda.note symbol { row with form }).2 (symbol, row)
      (symbol, (agenda.note symbol { row with form }).1) := by
  refine ⟨rfl, Or.inr ⟨?_, ?_, ?_⟩⟩
  · unfold note
    split
    · exact Or.inl
    · unfold queue
      split
      · exact fun _ => Or.inr List.mem_cons_self
      · exact Or.inl
  · intro internal negative
    have not_external : ¬ symbol.isExternal = true := by simpa using internal
    dsimp only at negative ⊢
    rw [note, if_neg not_external] at negative ⊢
    unfold queue at negative ⊢
    split
    · rfl
    · rename_i calm
      rw [if_neg calm] at negative
      simpa [negative] using calm
  · intro external
    rw [touched_note, if_pos external]
    exact List.mem_cons_self

theorem Followed.mono {agenda later : Agenda} {before after : Symbol × Row α}
    (followed : Followed agenda before after)
    (repairs : ∀ symbol ∈ agenda.repairs, symbol ∈ later.repairs)
    (touched : ∀ symbol ∈ agenda.touched, symbol ∈ later.touched) :
    Followed later before after := by
  obtain ⟨same, unchanged | ⟨queued, alert, told⟩⟩ := followed
  · exact ⟨same, Or.inl unchanged⟩
  · exact ⟨same, Or.inr ⟨fun flagged => (queued flagged).imp_right (repairs _), alert,
      fun external => touched _ (told external)⟩⟩

/-- One row is left alone, or its change is noted and nothing is taken off the agenda. -/
theorem Notes.here {action : Agenda → Symbol → Row α → Row α × Agenda} (notes : Notes action)
    (agenda : Agenda) (symbol : Symbol) (row : Row α) :
    (∀ other ∈ agenda.repairs, other ∈ (action agenda symbol row).2.repairs) ∧
      (∀ other ∈ agenda.touched, other ∈ (action agenda symbol row).2.touched) ∧
      (∀ other ∈ (action agenda symbol row).2.repairs, other ∈ agenda.repairs ∨
        (symbol.isExternal = false ∧ symbol = other)) ∧
      Followed (action agenda symbol row).2 (symbol, row)
        (symbol, (action agenda symbol row).1) := by
  rcases notes agenda symbol row with unchanged | ⟨form, noted⟩
  · rw [unchanged]
    exact ⟨fun _ => id, fun _ => id, fun _ => Or.inl, rfl, Or.inl rfl⟩
  · rw [noted]
    refine ⟨?_, ?_, ?_, followed_note agenda symbol row form⟩
    · intro other member
      rcases agenda.repairs_note symbol { row with form } with same | ⟨_, more⟩
      · rwa [same]
      · rw [more]
        exact List.mem_cons_of_mem _ member
    · intro other member
      rw [touched_note]
      split
      · exact List.mem_cons_of_mem _ member
      · exact member
    · intro other member
      rcases agenda.repairs_note symbol { row with form } with same | ⟨internal, more⟩
      · rw [same] at member
        exact Or.inl member
      · rw [more] at member
        rcases List.mem_cons.mp member with rfl | inside
        · exact Or.inr ⟨internal, rfl⟩
        · exact Or.inl inside

/-- A pass that notes its changes keeps the agenda and adds to it, and every row of the result is
one that was left alone or whose change was noted. -/
theorem Notes.passEntries {action : Agenda → Symbol → Row α → Row α × Agenda}
    (notes : Notes action) (entries : List (Symbol × Row α)) (agenda : Agenda) :
    (∀ symbol ∈ agenda.repairs,
      symbol ∈ (SoftSimplex.passEntries action entries agenda).2.repairs) ∧
    (∀ symbol ∈ agenda.touched,
      symbol ∈ (SoftSimplex.passEntries action entries agenda).2.touched) ∧
    (∀ symbol ∈ (SoftSimplex.passEntries action entries agenda).2.repairs,
      symbol ∈ agenda.repairs ∨
        (symbol.isExternal = false ∧ ∃ entry ∈ entries, entry.1 = symbol)) ∧
    (∀ after ∈ (SoftSimplex.passEntries action entries agenda).1, ∃ before ∈ entries,
      Followed (SoftSimplex.passEntries action entries agenda).2 before after) := by
  induction entries generalizing agenda with
  | nil => exact ⟨fun _ => id, fun _ => id, fun _ => Or.inl, by simp [SoftSimplex.passEntries]⟩
  | cons first rest inductionHypothesis =>
      obtain ⟨symbol, row⟩ := first
      -- The rest is walked with the agenda that the first row leaves, which later ones only extend.
      obtain ⟨keeps, keeps_touched, origin, follows⟩ :=
        inductionHypothesis (action agenda symbol row).2
      obtain ⟨keeps_here, touched_here, origin_here, followed_here⟩ := notes.here agenda symbol row
      simp only [SoftSimplex.passEntries]
      refine ⟨fun other member => keeps other (keeps_here other member),
        fun other member => keeps_touched other (touched_here other member), ?_, ?_⟩
      · intro other member
        rcases origin other member with before | ⟨internal, entry, inside, same⟩
        · rcases origin_here other before with earlier | ⟨internal, rfl⟩
          · exact Or.inl earlier
          · exact Or.inr ⟨internal, _, List.mem_cons_self, rfl⟩
        · exact Or.inr ⟨internal, entry, List.mem_cons_of_mem _ inside, same⟩
      · intro after member
        rcases List.mem_cons.mp member with rfl | inside
        · exact ⟨_, List.mem_cons_self, followed_here.mono keeps keeps_touched⟩
        · obtain ⟨before, earlier, followed⟩ := follows after inside
          exact ⟨before, List.mem_cons_of_mem _ earlier, followed⟩

end Agenda

namespace Tableau

/-! ## Flagged rows -/

section Flagged

variable {α : Type} {tableau other : Tableau α} {symbol : Symbol}

theorem agenda_touch_repairs (agenda : Agenda) (symbol : Symbol) :
    (agenda.touch symbol).repairs = agenda.repairs := by
  unfold Agenda.touch
  split <;> rfl

theorem entries_discard {entry : Symbol × Row α}
    (member : entry ∈ (tableau.discard symbol).rows.entries) :
    entry ∈ tableau.rows.entries ∧ entry.1.id ≠ symbol.id := by
  unfold discard take? at member
  cases found : tableau.rows.get? symbol with
  | none =>
      rw [found] at member
      exact ⟨member, (tableau.rows.get?_eq_none_iff symbol).mp found entry member⟩
  | some row =>
      rw [found] at member
      exact (tableau.rows.mem_entries_erase_iff symbol entry).mp member

theorem repairs_discard (tableau : Tableau α) (symbol : Symbol) :
    (tableau.discard symbol).agenda.repairs = tableau.agenda.repairs := by
  unfold discard take?
  cases tableau.rows.get? symbol with
  | none => rfl
  | some row => exact agenda_touch_repairs _ _

/-- Every flagged row waits in the queue of repairs. -/
def Flagged (tableau : Tableau α) : Prop :=
  ∀ entry ∈ tableau.rows.entries, entry.2.isQueued = true →
    ∃ symbol ∈ tableau.agenda.repairs, symbol.id = entry.1.id

namespace Flagged

variable (flagged : tableau.Flagged)

include flagged

/-- Rows may go, and others may change as long as none of them is flagged anew. -/
theorem of_entries (repairs : other.agenda.repairs = tableau.agenda.repairs)
    (entries : ∀ entry ∈ other.rows.entries, entry.2.isQueued = true →
      ∃ before ∈ tableau.rows.entries, before.1.id = entry.1.id ∧ before.2.isQueued = true) :
    other.Flagged := by
  intro entry member queued
  obtain ⟨before, was, named, waited⟩ := entries entry member queued
  rw [repairs, ← named]
  exact flagged before was waited

theorem discard (symbol : Symbol) : (tableau.discard symbol).Flagged := by
  apply flagged.of_entries (tableau.repairs_discard symbol)
  exact fun entry member queued => ⟨entry, (entries_discard member).1, rfl, queued⟩

theorem put (symbol : Symbol) (form : LinearForm α) : (tableau.put symbol form).Flagged := by
  apply flagged.of_entries (agenda_touch_repairs _ _)
  intro entry member queued
  rcases SlotTable.mem_entries_insert member with ⟨before, _⟩ | ⟨_, is_row, _⟩
  · exact ⟨entry, before, rfl, queued⟩
  · rw [is_row] at queued
    exact Bool.noConfusion queued

/-- The forms of all rows may change. -/
theorem map (change : LinearForm α → LinearForm α) (objective : LinearForm α) :
    Flagged { tableau with
      rows := tableau.rows.map fun row => { row with form := change row.form }
      objective } := by
  refine flagged.of_entries rfl fun entry member queued => ?_
  rw [SlotTable.entries_map] at member
  obtain ⟨before, was, rfl⟩ := List.mem_map.mp member
  exact ⟨before, was, rfl, queued⟩

/-- A row that is raised stays as it is flagged, or is flagged and joins the queue. -/
theorem raise [Scalar α] (symbol : Symbol) (amount : α) :
    (tableau.raise symbol amount).Flagged := by
  unfold Tableau.raise
  split
  · exact flagged
  · rename_i row found
    unfold Agenda.queue
    dsimp only
    split
    · intro entry member queued
      rcases SlotTable.mem_entries_insert member with ⟨before, _⟩ | ⟨same, _⟩
      · obtain ⟨waiting, waits, named⟩ := flagged entry before queued
        exact ⟨waiting, List.mem_cons_of_mem _ waits, named⟩
      · exact ⟨symbol, List.mem_cons_self, same.symm⟩
    · refine flagged.of_entries rfl fun entry member queued => ?_
      rcases SlotTable.mem_entries_insert member with ⟨before, _⟩ | ⟨same, is_row, _⟩
      · exact ⟨entry, before, rfl, queued⟩
      · rw [is_row] at queued
        obtain ⟨filed, inside, named, is_filed⟩ :=
          (tableau.rows.get?_eq_some_iff symbol row).mp found
        exact ⟨filed, inside, named.trans same.symm, by rw [is_filed]; exact queued⟩

/-- A pass that notes its changes. -/
theorem pass [Scalar α] {action : Agenda → Symbol → Row α → Row α × Agenda}
    (notes : Agenda.Notes action) (objective : LinearForm α) :
    Flagged ⟨(tableau.rows.pass tableau.agenda action).1, objective,
      (tableau.rows.pass tableau.agenda action).2⟩ := by
  obtain ⟨keeps, _, _, follows⟩ := notes.passEntries tableau.rows.entries tableau.agenda
  rw [← tableau.rows.pass_eq tableau.agenda action] at keeps follows
  intro after member queued
  have waited : ∀ before ∈ tableau.rows.entries, before.1 = after.1 →
      before.2.isQueued = true →
        ∃ symbol ∈ (tableau.rows.pass tableau.agenda action).2.repairs,
          symbol.id = after.1.id := by
    intro before was same earlier
    obtain ⟨symbol, waits, named⟩ := flagged before was earlier
    exact ⟨symbol, keeps symbol waits, by rw [named, same]⟩
  obtain ⟨before, was, same, unchanged | ⟨noted, _⟩⟩ := follows after member
  · rw [unchanged] at queued
    exact waited before was same queued
  · rcases noted queued with earlier | waits
    · exact waited before was same earlier
    · exact ⟨after.1, waits, rfl⟩

end Flagged

end Flagged

variable {kinds : Nat → Symbol.Kind} {tableau : Tableau Rat}

/-! ## Waiting rows -/

/-- The queue holds proper symbols other than external ones, and every flagged row waits in
it. -/
structure Tidy (kinds : Nat → Symbol.Kind) (tableau : Tableau Rat) : Prop where
  queue : ∀ symbol ∈ tableau.agenda.repairs, symbol.Proper kinds ∧ symbol.isExternal = false
  flagged : ∀ entry ∈ tableau.rows.entries, entry.2.isQueued = true →
    ∃ symbol ∈ tableau.agenda.repairs, symbol.id = entry.1.id

/-- Every row below zero is flagged, rows of external symbols apart. -/
def Alert (tableau : Tableau Rat) : Prop :=
  ∀ entry ∈ tableau.rows.entries, entry.1.isExternal = false → entry.2.form.constant < 0 →
    entry.2.isQueued = true

/-- Every row below zero is flagged or spared, rows of external symbols apart. -/
def Heeded (spared : LinearForm Rat → Prop) (tableau : Tableau Rat) : Prop :=
  ∀ entry ∈ tableau.rows.entries, entry.1.isExternal = false → entry.2.form.constant < 0 →
    entry.2.isQueued = true ∨ spared entry.2.form

theorem Alert.heeded (alert : tableau.Alert) (spared : LinearForm Rat → Prop) :
    tableau.Heeded spared :=
  fun entry member internal negative => Or.inl (alert entry member internal negative)

/-- If nothing is spared, every row below zero is flagged. -/
theorem Heeded.alert (heeded : tableau.Heeded fun _ => False) : tableau.Alert :=
  fun entry member internal negative =>
    (heeded entry member internal negative).resolve_right False.elim

/-- The rows and the queue after a pass that notes its changes. -/
theorem Tidy.pass (tidy : tableau.Tidy kinds) (regular : tableau.Regular kinds)
    {action : Agenda → Symbol → Row Rat → Row Rat × Agenda} (notes : Agenda.Notes action)
    (objective : LinearForm Rat) :
    Tidy kinds ⟨(tableau.rows.pass tableau.agenda action).1, objective,
      (tableau.rows.pass tableau.agenda action).2⟩ := by
  refine ⟨?_, Flagged.pass tidy.flagged notes objective⟩
  obtain ⟨_, _, origin, _⟩ := notes.passEntries tableau.rows.entries tableau.agenda
  rw [← tableau.rows.pass_eq tableau.agenda action] at origin
  intro symbol member
  rcases origin symbol member with before | ⟨internal, entry, inside, rfl⟩
  · exact tidy.queue symbol before
  · exact ⟨regular.proper (entry.1, entry.2.form) (List.mem_map_of_mem inside), internal⟩

theorem Heeded.pass {spared : LinearForm Rat → Prop} (heeded : tableau.Heeded spared)
    {action : Agenda → Symbol → Row Rat → Row Rat × Agenda} (notes : Agenda.Notes action)
    (objective : LinearForm Rat) :
    Heeded spared ⟨(tableau.rows.pass tableau.agenda action).1, objective,
      (tableau.rows.pass tableau.agenda action).2⟩ := by
  have walked := tableau.rows.pass_eq tableau.agenda action
  obtain ⟨_, _, _, follows⟩ := notes.passEntries tableau.rows.entries tableau.agenda
  rw [← walked] at follows
  intro after member internal negative
  obtain ⟨before, inside, same, unchanged | ⟨_, alerted, _⟩⟩ := follows after member
  · rw [unchanged] at negative ⊢
    exact heeded before inside (by rw [same]; exact internal) negative
  · exact Or.inl (alerted internal negative)

theorem Alert.pass (alert : tableau.Alert)
    {action : Agenda → Symbol → Row Rat → Row Rat × Agenda} (notes : Agenda.Notes action)
    (objective : LinearForm Rat) :
    Alert ⟨(tableau.rows.pass tableau.agenda action).1, objective,
      (tableau.rows.pass tableau.agenda action).2⟩ :=
  ((alert.heeded _).pass notes objective).alert

theorem notes_eliminate {α : Type} [Scalar α] (symbol : Symbol) (definition : LinearForm α) :
    Agenda.Notes fun agenda basic (row : Row α) =>
      if row.form.mentions symbol then
        agenda.note basic { row with form := row.form.substitute symbol definition }
      else (row, agenda) := by
  intro agenda basic row
  dsimp only
  split
  · exact Or.inr ⟨_, rfl⟩
  · exact Or.inl rfl

theorem Tidy.eliminate (tidy : tableau.Tidy kinds) (regular : tableau.Regular kinds)
    (symbol : Symbol) (definition : LinearForm Rat) :
    (tableau.eliminate symbol definition).Tidy kinds :=
  tidy.pass regular (notes_eliminate symbol definition) _

theorem Heeded.eliminate {spared : LinearForm Rat → Prop} (heeded : tableau.Heeded spared)
    (symbol : Symbol) (definition : LinearForm Rat) :
    (tableau.eliminate symbol definition).Heeded spared :=
  heeded.pass (notes_eliminate symbol definition) _

theorem Tidy.discard (tidy : tableau.Tidy kinds) (symbol : Symbol) :
    (tableau.discard symbol).Tidy kinds := by
  refine ⟨?_, Flagged.discard tidy.flagged symbol⟩
  rw [repairs_discard]
  exact tidy.queue

theorem Tidy.put (tidy : tableau.Tidy kinds) (symbol : Symbol) (form : LinearForm Rat) :
    (tableau.put symbol form).Tidy kinds := by
  refine ⟨?_, Flagged.put tidy.flagged symbol form⟩
  change ∀ other ∈ (tableau.agenda.touch symbol).repairs, _
  rw [agenda_touch_repairs]
  exact tidy.queue

/-- A row that is not below zero, or that is spared, may be filed without a flag. -/
theorem Heeded.put {spared : LinearForm Rat → Prop} (heeded : tableau.Heeded spared)
    {symbol : Symbol} {form : LinearForm Rat} (unneeded : 0 ≤ form.constant ∨ spared form) :
    (tableau.put symbol form).Heeded spared := by
  intro entry member internal negative
  rcases SlotTable.mem_entries_insert member with ⟨before, _⟩ | ⟨_, is_row, _⟩
  · exact heeded entry before internal negative
  · rw [is_row] at negative ⊢
    exact Or.inr (unneeded.resolve_left (not_le.mpr negative))

theorem Tidy.pivot (tidy : tableau.Tidy kinds) (regular : tableau.Regular kinds)
    (form : LinearForm Rat) (entering leaving : Symbol) :
    (tableau.pivot form entering leaving).Tidy kinds :=
  (tidy.eliminate regular entering _).put entering _

theorem Tidy.forget (tidy : tableau.Tidy kinds) (symbol : Symbol) :
    (tableau.forget symbol).Tidy kinds :=
  ⟨tidy.queue, Flagged.map tidy.flagged (·.without symbol) _⟩

theorem Tidy.dropMarker (tidy : tableau.Tidy kinds) (regular : tableau.Regular kinds)
    (marker : Symbol) : (tableau.dropMarker marker).Tidy kinds := by
  cases tableau.dropping marker with
  | basic form found result =>
      rw [result]
      exact tidy.discard marker
  | exchanged leaving form coefficient free member found yields result =>
      rw [result]
      exact (tidy.discard leaving).eliminate (regular.discard leaving) marker _
  | absent foreign result =>
      rw [result]
      exact tidy

/-- Trimming leaves the queue and the flags as they are. -/
theorem Tidy.truncate (tidy : tableau.Tidy kinds) {mark : Nat}
    (below : ∀ row ∈ tableau.equations, row.1.id ≤ mark) :
    (tableau.truncate mark).Tidy kinds ∧ (tableau.truncate mark).agenda = tableau.agenda := by
  rw [truncate_eq below]
  exact ⟨⟨tidy.queue, Flagged.map tidy.flagged (·.restrict fun symbol => symbol.id ≤ mark) _⟩, rfl⟩

/-- An empty queue means that no row is flagged. -/
theorem Tidy.isQueued_eq_false (tidy : tableau.Tidy kinds)
    (idle : tableau.agenda.repairs = []) {entry : Symbol × Row Rat}
    (member : entry ∈ tableau.rows.entries) : entry.2.isQueued = false := by
  by_contra flagged
  obtain ⟨symbol, waits, _⟩ := tidy.flagged entry member (by simpa using flagged)
  rw [idle] at waits
  exact List.not_mem_nil waits

/-- With an empty queue nothing but rows of external symbols is below zero. -/
theorem Alert.constant_nonneg (alert : tableau.Alert) (tidy : tableau.Tidy kinds)
    (idle : tableau.agenda.repairs = []) {row : Symbol × LinearForm Rat}
    (member : row ∈ tableau.equations) (internal : row.1.isExternal = false) :
    0 ≤ row.2.constant := by
  obtain ⟨entry, inside, rfl⟩ := List.mem_map.mp member
  by_contra negative
  have flagged := alert entry inside internal (not_le.mp negative)
  rw [tidy.isQueued_eq_false idle inside] at flagged
  exact Bool.noConfusion flagged

end Tableau

end SoftSimplex
