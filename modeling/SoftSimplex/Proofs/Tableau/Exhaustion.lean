import SoftSimplex.Proofs.Tableau.Optimality

/-!
# Rows that the dual phase gives up

The dual phase looks at the rows below zero in the order of its queue, which may name rows that are
gone, that have been repaired meanwhile, or that are named again. A row that nothing lifts is put
back without a flag. A later pivot changes the row only if it mentions the entering symbol, and then
the row is queued anew. So whatever the order was, when the queue is empty no row below zero can be
lifted, and a single one of them shows that there is no admissible solution.

All this rests on flags and queue saying the same. A row that is flagged without being queued is
overlooked when it falls below zero, and an external symbol in the queue is lifted at the expense of
the rows that have to stay nonnegative.
-/

namespace SoftSimplex

/-- No symbol, dummies apart, makes the form larger when it grows. -/
def LinearForm.Highest (form : LinearForm Rat) : Prop :=
  ∀ term ∈ form.terms, term.1.isDummy = false → term.2 ≤ 0

/-- However far the dual phase goes, a row below zero is flagged or cannot be lifted. -/
theorem Tableau.Striving.repair {kinds : Nat → Symbol.Kind} {start now : Tableau Rat}
    (striving : Striving kinds LinearForm.Highest start now) (steps : Nat) :
    Striving kinds LinearForm.Highest start (now.repair steps).state :=
  iterate_invariant
    (fun _ _ striving moves => striving.step (fun _ _ _ _ _ _ highest => highest) moves) steps now
    striving

/-- Wherever the dual phase has come to, the objective is at its least and the solutions are those
it started with, for every queue that names the flagged rows and no external symbol, whatever its
order and whatever else it names. When it ends, no row below zero can be lifted, external ones
apart; and if there is such a row, there is no admissible solution. -/
theorem repair_exhausts {kinds : Nat → Symbol.Kind} {tableau : Tableau Rat}
    (regular : tableau.Regular kinds) (lowest : tableau.objective.Lowest)
    (tidy : tableau.Tidy kinds) (alert : tableau.Alert) (steps : Nat) :
    (tableau.repair steps).state.objective.Lowest ∧
      (∀ assignment, Tableau.Solves assignment (tableau.repair steps).state ↔
        Tableau.Solves assignment tableau) ∧
      ((tableau.repair steps).result? = some () →
        ∀ row ∈ (tableau.repair steps).state.equations, row.1.isExternal = false →
          row.2.constant < 0 → row.2.Highest ∧
            ∀ assignment : Assignment, assignment.Admissible kinds →
              ¬ Tableau.Solves assignment tableau) := by
  have striving : Tableau.Striving kinds LinearForm.Highest tableau (tableau.repair steps).state :=
    Tableau.Striving.repair ⟨.refl regular, tidy, alert.heeded _, lowest⟩ steps
  have same_solutions := striving.equivalent.solves_iff
  refine ⟨striving.lowest, same_solutions, fun finished row member internal negative => ?_⟩
  have idle := Tableau.repairs_eq_nil_of_halt (step_state_of_result steps tableau () finished)
  have highest := striving.heeded.spared striving.tidy idle member internal negative
  have regular_there := striving.equivalent.regular
  refine ⟨highest, fun assignment admissible solves => ?_⟩
  exact regular_there.no_admissible_of_stuck (regular_there.proper row member) internal
    (Tableau.form?_of_mem member) negative highest admissible
    ((same_solutions assignment).mpr solves)

/-- What has to be looked up, row by row and term by term, to see that a given tableau is
regular. -/
theorem Tableau.Regular.of_lookups {kinds : Nat → Symbol.Kind} {tableau : Tableau Rat}
    (rows : ∀ row ∈ tableau.equations, (row.1.id ≠ 0 ∧ row.1.kind = kinds row.1.id) ∧
      ∀ term ∈ row.2.terms, ((term.1.id ≠ 0 ∧ term.1.kind = kinds term.1.id) ∧
        tableau.isBasic term.1 = false) ∧ term.2 ≠ 0 ∧
          (row.1.isExternal = false → term.1.isExternal = false))
    (objective : ∀ term ∈ tableau.objective.terms,
      ((term.1.id ≠ 0 ∧ term.1.kind = kinds term.1.id) ∧ tableau.isBasic term.1 = false) ∧
        term.2 ≠ 0 ∧ term.1.isExternal = false) : tableau.Regular kinds := by
  have free : ∀ symbol : Symbol, ((symbol.id ≠ 0 ∧ symbol.kind = kinds symbol.id) ∧
      tableau.isBasic symbol = false) → tableau.Free kinds symbol :=
    fun symbol holds => ⟨holds.1, (tableau.isBasic_eq_false_iff symbol).mp holds.2⟩
  constructor
  · exact fun row member => (rows row member).1
  · exact fun row member => ⟨fun term inside => free _ ((rows row member).2 term inside).1,
      fun term inside => ((rows row member).2 term inside).2.1⟩
  · exact fun row member internal term inside => ((rows row member).2 term inside).2.2 internal
  · exact ⟨fun term inside => free _ (objective term inside).1,
      fun term inside => (objective term inside).2.1⟩
  · exact fun term inside => (objective term inside).2.2

/-- Two rows below zero are flagged, and the queue also names a row that is not there and one of
the two again. Nothing lifts the first row. -/
def strained : Tableau Rat where
  rows := (SlotTable.empty.insert ⟨1, .slack⟩
      ⟨(LinearForm.ofConstant (-2)).plus ⟨2, .slack⟩ (-1), true⟩).insert ⟨3, .error⟩
    ⟨((LinearForm.ofConstant (-1)).plus ⟨2, .slack⟩ 1).plus ⟨4, .error⟩ 2, true⟩
  objective := ((LinearForm.ofConstant 0).plus ⟨2, .slack⟩ 3).plus ⟨4, .error⟩ 1
  agenda := ⟨[⟨5, .error⟩, ⟨3, .error⟩, ⟨1, .slack⟩, ⟨3, .error⟩], []⟩

/-- The kinds of the symbols of the strained tableau. -/
def strainedKinds (id : Nat) : Symbol.Kind :=
  if id ≤ 2 then .slack else .error

/-- The strained tableau has no admissible solution. -/
theorem repair_exhausts_strained :
    (strained.repair 9).result? = some () ∧
      ∀ assignment : Assignment, assignment.Admissible strainedKinds →
        ¬ Tableau.Solves assignment strained := by
  have finished : (strained.repair 9).result? = some () := by decide +kernel
  have lowest : ∀ term ∈ strained.objective.terms, term.1.isDummy = false → 0 ≤ term.2 := by
    decide +kernel
  have queue : ∀ symbol ∈ strained.agenda.repairs,
      (symbol.id ≠ 0 ∧ symbol.kind = strainedKinds symbol.id) ∧ symbol.isExternal = false := by
    decide +kernel
  have flagged : ∀ entry ∈ strained.rows.entries, entry.2.isQueued = true →
      ∃ symbol ∈ strained.agenda.repairs, symbol.id = entry.1.id := by decide +kernel
  have alert : ∀ entry ∈ strained.rows.entries, entry.1.isExternal = false →
      entry.2.form.constant < 0 → entry.2.isQueued = true := by decide +kernel
  obtain ⟨row, member, internal, negative⟩ : ∃ row ∈ (strained.repair 9).state.equations,
      row.1.isExternal = false ∧ row.2.constant < 0 := by decide +kernel
  have regular : strained.Regular strainedKinds :=
    .of_lookups (by decide +kernel) (by decide +kernel)
  obtain ⟨_, _, ends⟩ := repair_exhausts regular lowest ⟨queue, flagged⟩ alert 9
  exact ⟨finished, (ends finished row member internal negative).2⟩

/-- Where there is no dummy, the assignments that are nowhere negative, external symbols apart, are
admissible. -/
theorem Assignment.admissible_of_nonneg {kinds : Nat → Symbol.Kind} {assignment : Assignment}
    (no_dummy : ∀ id, kinds id ≠ .dummy)
    (nonneg : ∀ id, kinds id ≠ .external → 0 ≤ assignment id) : assignment.Admissible kinds := by
  refine fun symbol proper => ⟨fun restricted => nonneg _ fun external => ?_, fun is_dummy => ?_⟩
  · have outside : symbol.isExternal = true := (proper.isOf_iff .external).mpr external
    rw [Symbol.isExternal_eq_false_of_isRestricted restricted] at outside
    contradiction
  · exact absurd ((proper.isOf_iff .dummy).mp is_dummy) (no_dummy _)

/-- Every row below zero is flagged and queued, rows of external symbols apart. The other rows may
be flagged as well without being queued, and the queue may name anything else. -/
def Tableau.Summons (tableau : Tableau Rat) : Prop :=
  ∀ entry ∈ tableau.rows.entries, entry.1.isExternal = false → entry.2.form.constant < 0 →
    entry.2.isQueued = true ∧ entry.1 ∈ tableau.agenda.repairs

/-- The dual phase starts with an objective at its least and every row below zero flagged and
queued, and it ends with a row below zero although there is an admissible solution. -/
structure Tableau.Overlooks (kinds : Nat → Symbol.Kind) (tableau : Tableau Rat)
    (steps : Nat) : Prop where
  regular : tableau.Regular kinds
  lowest : tableau.objective.Lowest
  summons : tableau.Summons
  finished : (tableau.repair steps).result? = some ()
  left : ∃ row ∈ (tableau.repair steps).state.equations,
    row.1.isExternal = false ∧ row.2.constant < 0
  solvable : ∃ assignment : Assignment, assignment.Admissible kinds ∧
    Tableau.Solves assignment tableau

/-- The row of the first slack is flagged but not queued. The pivot that lifts the second slack
takes it below zero, and a flagged row is not queued again. -/
def neglected : Tableau Rat where
  rows := (SlotTable.empty.insert ⟨1, .slack⟩
      ⟨((LinearForm.ofConstant 1).plus ⟨3, .slack⟩ (-1)).plus ⟨4, .slack⟩ 2, true⟩).insert
    ⟨2, .slack⟩ ⟨(LinearForm.ofConstant (-2)).plus ⟨3, .slack⟩ 1, true⟩
  objective := ((LinearForm.ofConstant 0).plus ⟨3, .slack⟩ 1).plus ⟨4, .slack⟩ 1
  agenda := ⟨[⟨2, .slack⟩], []⟩

theorem overlooks_neglected : neglected.Overlooks (fun _ => .slack) 9 where
  regular := .of_lookups (by decide +kernel) (by decide +kernel)
  lowest := by unfold LinearForm.Lowest; decide +kernel
  summons := by unfold Tableau.Summons; decide +kernel
  finished := by decide +kernel
  left := by decide +kernel
  solvable := by
    refine ⟨fun id => if id = 3 then 2 else if id = 4 then 1 / 2 else 0, ?_, ?_⟩
    · refine Assignment.admissible_of_nonneg (fun id => by decide) fun id _ => ?_
      split_ifs <;> norm_num
    · unfold Tableau.Solves; decide +kernel

/-- The row of the external symbol is queued, although an external symbol may well be below
zero. -/
def diverted : Tableau Rat where
  rows := (SlotTable.empty.insert ⟨1, .external⟩
      ⟨(LinearForm.ofConstant (-2)).plus ⟨3, .slack⟩ 1, true⟩).insert
    ⟨2, .slack⟩ ⟨(LinearForm.ofConstant 1).plus ⟨3, .slack⟩ (-1), false⟩
  objective := (LinearForm.ofConstant 0).plus ⟨3, .slack⟩ 1
  agenda := ⟨[⟨1, .external⟩], []⟩

theorem overlooks_diverted :
    diverted.Overlooks (fun id => if id = 1 then .external else .slack) 9 where
  regular := .of_lookups (by decide +kernel) (by decide +kernel)
  lowest := by unfold LinearForm.Lowest; decide +kernel
  summons := by unfold Tableau.Summons; decide +kernel
  finished := by decide +kernel
  left := by decide +kernel
  solvable := by
    refine ⟨fun id => if id = 1 then -2 else if id = 2 then 1 else 0, ?_, ?_⟩
    · refine Assignment.admissible_of_nonneg (fun id => by split <;> decide) fun id slack => ?_
      split_ifs at slack ⊢ <;> first | contradiction | norm_num
    · unfold Tableau.Solves; decide +kernel

/-- It is not enough that the rows below zero are flagged and queued. A row that is flagged without
being queued may be left below zero though a symbol could lift it, and so may a row that falls below
zero when an external symbol of the queue is lifted. -/
theorem repair_overlooks :
    (neglected.Overlooks (fun _ => .slack) 9 ∧
      ∃ row ∈ (neglected.repair 9).state.equations, row.1.isExternal = false ∧
        row.2.constant < 0 ∧ ¬ row.2.Highest) ∧
      diverted.Overlooks (fun id => if id = 1 then .external else .slack) 9 := by
  have liftable : ∃ row ∈ (neglected.repair 9).state.equations, row.1.isExternal = false ∧
      row.2.constant < 0 ∧
        ¬ ∀ term ∈ row.2.terms, term.1.isDummy = false → term.2 ≤ 0 := by decide +kernel
  exact ⟨⟨overlooks_neglected, liftable⟩, overlooks_diverted⟩

end SoftSimplex
