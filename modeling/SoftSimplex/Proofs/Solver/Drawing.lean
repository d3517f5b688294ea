import SoftSimplex.Proofs.Solver.Standing
import SoftSimplex.Proofs.Solver.Work

/-!
# Preparing a constraint

A constraint that is about to take part draws its markers from the supply, so they are above every
symbol in use. From then on the ledger has the constraint, but the tableau has only its price and
not yet its row.
-/

namespace SoftSimplex

namespace Markers

variable {kinds : Nat → Symbol.Kind} {supply : SymbolSupply} {relation : Option Relation}
  {isRequired : Bool}

theorem draw_eq (supply : SymbolSupply) (relation : Option Relation) (isRequired : Bool) :
    draw supply relation isRequired =
      (⟨⟨supply.last + 1, markerKind relation isRequired⟩,
          if isRequired then Symbol.null else ⟨supply.last + 2, .error⟩⟩,
        ⟨supply.last + if isRequired then 1 else 2⟩) := by
  cases isRequired <;> rcases relation with _ | _ | _ | _ <;> rfl

/-- The kinds of symbols once markers have been drawn above a mark. Whatever is drawn next is a
slack. -/
def drawnKinds (kinds : Nat → Symbol.Kind) (mark : Nat) (relation : Option Relation)
    (isRequired : Bool) (id : Nat) : Symbol.Kind :=
  if id ≤ mark then kinds id
  else if id = mark + 1 then markerKind relation isRequired
  else if id = mark + 2 ∧ isRequired = false then .error
  else .slack

theorem drawnKinds_of_le {mark id : Nat} (low : id ≤ mark) :
    drawnKinds kinds mark relation isRequired id = kinds id :=
  if_pos low

theorem fit_draw : (draw supply relation isRequired).1.Fit
    (drawnKinds kinds supply.last relation isRequired) relation isRequired := by
  rw [draw_eq]
  refine ⟨⟨Nat.succ_ne_zero _, ?_⟩, rfl, fun required => if_pos required, fun soft => ?_, ?_⟩
  · simp [drawnKinds]
  · simp [drawnKinds, Symbol.Proper, soft]
  · split <;> simp [Symbol.null]

/-- All markers are among the symbols that have been drawn. -/
theorem id_draw {symbol : Symbol} (proper : symbol.id ≠ 0)
    (member : symbol = (draw supply relation isRequired).1.marker ∨
      symbol = (draw supply relation isRequired).1.other) :
    supply.last < symbol.id ∧ symbol.id ≤ (draw supply relation isRequired).2.last := by
  rw [draw_eq] at member ⊢
  rcases member with rfl | rfl
  · dsimp only
    split <;> omega
  · cases isRequired with
    | true => exact absurd rfl proper
    | false => exact ⟨by simp, le_rfl⟩

theorem last_le_draw : supply.last ≤ (draw supply relation isRequired).2.last := by
  rw [draw_eq]
  exact Nat.le_add_right _ _

/-- The symbol after the markers is a slack. -/
theorem proper_draw : ((draw supply relation isRequired).2.draw .slack).1.Proper
    (drawnKinds kinds supply.last relation isRequired) := by
  rw [draw_eq]
  refine ⟨Nat.succ_ne_zero _, ?_⟩
  cases isRequired <;> simp +arith [drawnKinds]

end Markers

theorem Constraint.isActive_of_ne_zero {α : Type} {constraint : Constraint α}
    (proper : constraint.markers.marker.id ≠ 0) : constraint.isActive = true := by
  simpa [Constraint.isActive, Symbol.isNull] using proper

theorem Constraint.lowered_zero (constraint : Constraint Rat) :
    constraint.lowered 0 = constraint := by
  simp [Constraint.lowered]

namespace Solver

variable {discipline : Discipline} {kinds : Nat → Symbol.Kind} {offset : Nat → Rat}
  {ignored changed : Nat → Prop} {solver other third : Solver Rat} {key : Symbol}
  {constraint : Constraint Rat} {form : LinearForm Rat}

/-- Of what is kept about variables and constraints nothing has changed but caches and the
constraints under certain numbers. -/
structure Framed (changed : Nat → Prop) (solver other : Solver Rat) : Prop where
  identity : other.identity = solver.identity
  lastConstraint : other.lastConstraint = solver.lastConstraint
  autoUpdate : other.autoUpdate = solver.autoUpdate
  outline : ∀ symbol, (other.unknowns.get? symbol).map Variable.outline =
    (solver.unknowns.get? symbol).map Variable.outline
  constraints : ∀ key : Symbol, ¬ changed key.id →
    other.constraints.get? key = solver.constraints.get? key

theorem Framed.trans (framed : Framed changed solver other)
    (framed' : Framed changed other third) : Framed changed solver third where
  identity := framed'.identity.trans framed.identity
  lastConstraint := framed'.lastConstraint.trans framed.lastConstraint
  autoUpdate := framed'.autoUpdate.trans framed.autoUpdate
  outline symbol := (framed'.outline symbol).trans (framed.outline symbol)
  constraints key unchanged :=
    (framed'.constraints key unchanged).trans (framed.constraints key unchanged)

theorem SameBooks.framed (same : SameBooks ignored solver other) : Framed changed solver other where
  identity := same.identity
  lastConstraint := same.lastConstraint
  autoUpdate := same.autoUpdate
  outline := same.outline
  constraints _ _ := by rw [same.constraints]

/-! ## Prepared solvers -/

section Prepared

variable {α : Type} [Scalar α] {solver : Solver α} {constraint : Constraint α}

/-- The constraint with the markers that the solver would draw for it. -/
def marking (solver : Solver α) (constraint : Constraint α) : Constraint α :=
  { constraint with
    markers :=
      (Markers.draw solver.symbols constraint.relation constraint.strength.isRequired).1 }

/-- What comes of preparing a constraint. -/
def prepared (solver : Solver α) (key : Symbol) (constraint : Constraint α) : Solver α :=
  let marked := constraint.expression.terms.foldl (fun solver term => solver.markStale term.1)
    solver
  let markers := (solver.marking constraint).markers
  { marked with
    symbols :=
      (Markers.draw solver.symbols constraint.relation constraint.strength.isRequired).2
    tableau := marked.tableau.chargeFresh markers.errors constraint.strength.weight
    constraints := marked.constraints.modify key fun state => { state with markers } }

/-- The kinds that a constraint to be prepared needs. -/
abbrev drawn (kinds : Nat → Symbol.Kind) (solver : Solver α) (constraint : Constraint α) :
    Nat → Symbol.Kind :=
  Markers.drawnKinds kinds solver.symbols.last constraint.relation constraint.strength.isRequired

omit [Scalar α] in
theorem marked_terms (solver : Solver α) (constraint : Constraint α) :
    Marked (constraint.expression.terms.map Prod.fst) solver
      (constraint.expression.terms.foldl (fun solver term => solver.markStale term.1) solver) := by
  have walked := marked_foldl (constraint.expression.terms.map Prod.fst) solver
  rwa [List.foldl_map] at walked

/-- The markers that are drawn fit the constraint. -/
theorem fit_marking (kinds : Nat → Symbol.Kind) (solver : Solver α) (constraint : Constraint α) :
    (solver.marking constraint).markers.Fit (drawn kinds solver constraint)
      constraint.relation constraint.strength.isRequired :=
  Markers.fit_draw

theorem marking_active (solver : Solver α) (constraint : Constraint α) :
    (solver.marking constraint).isActive = true := by
  refine Constraint.isActive_of_ne_zero ?_
  rw [marking, Markers.draw_eq]
  exact Nat.succ_ne_zero _

theorem owns_marking (key : Symbol) {id : Nat} (owned : (solver.marking constraint).Owns id) :
    solver.symbols.last < id ∧ id ≤ (solver.prepared key constraint).symbols.last := by
  obtain ⟨proper, rfl | rfl⟩ := owned
  · exact Markers.id_draw proper (Or.inl rfl)
  · exact Markers.id_draw proper (Or.inr rfl)

theorem drawn_eq (solver : Solver α) (constraint : Constraint α) (id : Nat) (_ : id ≠ 0)
    (low : id ≤ solver.symbols.last) : drawn kinds solver constraint id = kinds id :=
  Markers.drawnKinds_of_le low

theorem last_le_prepared (solver : Solver α) (key : Symbol) (constraint : Constraint α) :
    solver.symbols.last ≤ (solver.prepared key constraint).symbols.last :=
  Markers.last_le_draw

theorem prepared_constraints (solver : Solver α) (key : Symbol) (constraint : Constraint α) :
    (solver.prepared key constraint).constraints = solver.constraints.modify key fun state =>
      { state with markers := (solver.marking constraint).markers } := by
  rw [prepared, (solver.marked_terms constraint).rest]

theorem get?_prepared (found : solver.constraints.get? key = some constraint) :
    (solver.prepared key constraint).constraints.get? key = some (solver.marking constraint) := by
  rw [prepared_constraints, Catalog.get?_modify, if_pos rfl, found]
  rfl

/-- A constraint of the prepared solver is the marked one or was there before. -/
theorem of_get?_prepared (found : solver.constraints.get? key = some constraint) {sought : Symbol}
    {state : Constraint α}
    (there : (solver.prepared key constraint).constraints.get? sought = some state) :
    (sought.id = key.id ∧ state = solver.marking constraint) ∨
      solver.constraints.get? sought = some state := by
  rw [prepared_constraints, Catalog.get?_modify] at there
  split at there
  · rename_i same
    rw [solver.constraints.get?_congr same, found] at there
    exact Or.inl ⟨same, (Option.some.inj there).symm⟩
  · exact Or.inr there

theorem prepared_tableau (solver : Solver α) (key : Symbol) (constraint : Constraint α) :
    (solver.prepared key constraint).tableau = solver.tableau.chargeFresh
      (solver.marking constraint).markers.errors constraint.strength.weight := by
  rw [prepared, (solver.marked_terms constraint).rest]

end Prepared

/-- A registered variable that neither an active constraint nor the given one mentions. -/
def Overlooked (solver : Solver Rat) (constraint : Constraint Rat) (id : Nat) : Prop :=
  (∃ state, solver.unknowns.get? ⟨id, .external⟩ = some state) ∧ solver.Quiet id ∧
    constraint.expression.Over fun symbol => symbol.id ≠ id

/-- With a constraint that was not active, the ledger gains the marked one. -/
theorem perm_prepared (found : solver.constraints.get? key = some constraint)
    (inactive : constraint.isActive = false) (settled : offset key.id = 0) :
    (solver.marking constraint :: solver.constraints.ledger offset).Perm
      ((solver.prepared key constraint).constraints.ledger offset) := by
  have after := Catalog.ledger_modify_perm_cons found
    (fun state => { state with markers := (solver.marking constraint).markers })
    (solver.marking_active constraint) offset
  rw [settled, Constraint.lowered_zero] at after
  have before : (solver.constraints.ledger offset).Perm
      ((solver.constraints.erase key).ledger offset) := by
    refine Catalog.ledger_perm_erase (fun state there => ?_) offset
    rw [found] at there
    rwa [← Option.some.inj there]
  rw [prepared_constraints]
  exact (before.cons _).trans after.symm

/-- What was quiet and is not mentioned stays quiet. -/
theorem quiet_prepared (found : solver.constraints.get? key = some constraint) {id : Nat}
    (quiet : solver.Quiet id) (avoids : constraint.expression.Over fun symbol => symbol.id ≠ id) :
    (solver.prepared key constraint).Quiet id := by
  intro sought state there active
  rcases of_get?_prepared found there with ⟨_, rfl⟩ | before
  · exact avoids
  · exact quiet sought state before active

theorem not_mem_terms {id : Nat}
    (avoids : constraint.expression.Over fun symbol => symbol.id ≠ id) :
    ¬ ∃ symbol ∈ constraint.expression.terms.map Prod.fst, symbol.id = id := by
  rintro ⟨symbol, member, same⟩
  obtain ⟨term, inside, rfl⟩ := List.mem_map.mp member
  exact avoids term inside same

theorem framed_prepared (solver : Solver Rat) (key : Symbol) (constraint : Constraint Rat) :
    Framed (fun id => id = key.id) solver (solver.prepared key constraint) := by
  have marked := solver.marked_terms constraint
  refine ⟨?_, ?_, ?_, marked.outline, fun sought apart => ?_⟩
  · rw [prepared, marked.rest]
  · rw [prepared, marked.rest]
  · rw [prepared, marked.rest]
  · rw [prepared_constraints, Catalog.get?_modify, if_neg apart]

theorem watched_prepared (watched : solver.Watched)
    (found : solver.constraints.get? key = some constraint) :
    (solver.prepared key constraint).Watched := by
  have marked := solver.marked_terms constraint
  refine ⟨marked.queued watched.queued, fun symbol state there calm busy => ?_⟩
  obtain ⟨before, was, rfl⟩ := Option.map_eq_some_iff.mp ((marked.unknowns symbol).symm.trans there)
  split at calm
  · exact Bool.noConfusion calm
  · rename_i unmarked
    have busy_before : ¬ solver.Quiet symbol.id := fun quiet =>
      busy (quiet_prepared found quiet fun term member same =>
        unmarked ⟨term.1, List.mem_map_of_mem member, same⟩)
    rw [if_neg unmarked, watched.cached symbol before was calm busy_before, prepared_tableau]
    rfl

theorem unmarked_prepared (solver : Solver Rat) (key : Symbol) (constraint : Constraint Rat)
    {symbol : Symbol} (overlooked : solver.Overlooked constraint symbol.id) :
    (solver.prepared key constraint).unknowns.get? symbol = solver.unknowns.get? symbol ∧
      ((solver.prepared key constraint).Waits symbol.id ↔ solver.Waits symbol.id) := by
  have marked := solver.marked_terms constraint
  have unmarked := not_mem_terms overlooked.2.2
  refine ⟨(marked.unknowns symbol).trans ?_, fun waits => ?_, marked.waits symbol.id⟩
  · simp only [if_neg unmarked, Option.map_id']
  · exact (marked.origin symbol.id waits).resolve_right unmarked

namespace Standing

variable (standing : solver.Standing discipline kinds offset)
  (found : solver.constraints.get? key = some constraint)

include standing found

theorem entries_marking : Ledger.Regular (drawn kinds solver constraint)
    (solver.marking constraint :: solver.constraints.ledger offset) := by
  have rekinded := standing.toCatalogued.rekind (drawn_eq solver constraint)
  have fit : (solver.marking constraint).Fit (drawn kinds solver constraint) :=
    ⟨(rekinded.expression key constraint found).mono fun _ both => both.1,
      fit_marking kinds solver constraint⟩
  refine ⟨List.forall_mem_cons.mpr ⟨fit, rekinded.entries.fit⟩,
    List.pairwise_cons.mpr ⟨fun entry member id owned owned' => ?_, rekinded.entries.apart⟩⟩
  have low := (standing.toOrderly.below offset entry member).2 id owned'
  have above := (owns_marking key owned).1
  omega

theorem catalogued_prepared (inactive : constraint.isActive = false)
    (settled : offset key.id = 0) :
    (solver.prepared key constraint).Catalogued discipline (drawn kinds solver constraint)
      offset := by
  have rekinded := standing.toCatalogued.rekind (drawn_eq solver constraint)
  have later := solver.last_le_prepared key constraint
  have marked := solver.marked_terms constraint
  refine ⟨⟨?_, ?_, ?_, ?_, ?_, ?_, ?_⟩, ?_, ?_⟩
  · intro symbol state there
    obtain ⟨before, was, _⟩ := Option.map_eq_some_iff.mp ((marked.unknowns symbol).symm.trans there)
    exact rekinded.registers symbol before was
  · intro symbol state there
    obtain ⟨before, was, _⟩ := Option.map_eq_some_iff.mp ((marked.unknowns symbol).symm.trans there)
    exact (rekinded.variable_below symbol before was).trans later
  · intro sought state there
    rcases of_get?_prepared found there with ⟨_, rfl⟩ | before
    · exact (rekinded.expression key constraint found).mono fun _ both =>
        ⟨both.1, both.2.trans later⟩
    · exact (rekinded.expression sought state before).mono fun _ both =>
        ⟨both.1, both.2.trans later⟩
  · intro sought state there
    rcases of_get?_prepared found there with ⟨_, rfl⟩ | before
    · exact rekinded.reduced key constraint found
    · exact rekinded.reduced sought state before
  · intro sought state there idle
    rcases of_get?_prepared found there with ⟨_, rfl⟩ | before
    · rw [marking_active] at idle
      exact Bool.noConfusion idle
    · exact rekinded.inactive sought state before idle
  · intro sought state there id owned
    rcases of_get?_prepared found there with ⟨_, rfl⟩ | before
    · exact (owns_marking _ owned).2
    · exact (rekinded.owned sought state before id owned).trans later
  · intro sought state there
    have same : (solver.prepared key constraint).lastConstraint = solver.lastConstraint := by
      rw [prepared, marked.rest]
    rw [same]
    rw [prepared_constraints, Catalog.get?_modify] at there
    split at there
    · obtain ⟨before, was, _⟩ := Option.map_eq_some_iff.mp there
      exact rekinded.key_below sought before was
    · exact rekinded.key_below sought state there
  · exact (standing.entries_marking found).perm (perm_prepared found inactive settled)
  · intro is_priced sought state there
    rcases of_get?_prepared found there with ⟨_, rfl⟩ | before
    · exact rekinded.weights is_priced key constraint found
    · exact rekinded.weights is_priced sought state before

omit found in
theorem stands_drawn : solver.tableau.Stands (drawn kinds solver constraint)
    (solver.constraints.ledger offset) (solver.constraints.ledger offset) :=
  have below := standing.toOrderly.below offset
  standing.stands.rekind below below (drawn_eq solver constraint) standing.restful.idle

theorem draft_prepared : (solver.prepared key constraint).tableau.Draft
    (drawn kinds solver constraint) (solver.constraints.ledger offset)
    (solver.marking constraint)
    (solver.tableau.rowFor constraint.expression (solver.marking constraint).markers) := by
  rw [prepared_tableau]
  exact standing.stands_drawn.draft (standing.entries_marking found)

theorem bench_prepared (inactive : constraint.isActive = false) (settled : offset key.id = 0) :
    (solver.prepared key constraint).Bench (drawn kinds solver constraint)
      (solver.constraints.ledger offset)
      (solver.marking constraint :: solver.constraints.ledger offset) where
  registers := (standing.catalogued_prepared found inactive settled).registers
  stands := (standing.draft_prepared found).stands
  untouched := by
    rw [prepared_tableau]
    exact standing.untouched

omit found in
theorem upright_prepared (key : Symbol) :
    (solver.prepared key constraint).tableau.Upright discipline := by
  rw [prepared_tableau]
  exact ⟨standing.restful.grounded, standing.restful.feasible⟩

/-- The ledger does not speak of variables that are overlooked. -/
theorem silent_prepared : Ledger.Silent (drawn kinds solver constraint)
    (solver.Overlooked constraint)
    (solver.marking constraint :: solver.constraints.ledger offset) := by
  rintro id ⟨⟨state, registered⟩, quiet, avoids⟩
  have entries := standing.entries_marking found
  obtain ⟨proper, external⟩ := standing.registers _ state registered
  have low := standing.variable_below _ state registered
  have kind : drawn kinds solver constraint id = .external :=
    (drawn_eq solver constraint id proper low).trans external
  refine ⟨proper, kind, fun entry member => ⟨?_, fun owned =>
    (entries.fit entry member).kind_ne_external owned kind⟩⟩
  rcases List.mem_cons.mp member with rfl | inside
  · exact avoids
  · obtain ⟨sought, active, there, is_active, rfl⟩ :=
      (solver.constraints.mem_ledger_iff offset entry).mp inside
    exact quiet sought active there is_active

theorem artificial_avoided :
    ∀ entry ∈ solver.marking constraint :: solver.constraints.ledger offset,
      entry.Avoids ((solver.prepared key constraint).symbols.draw .slack).1.id := by
  have later := solver.last_le_prepared key constraint
  refine List.forall_mem_cons.mpr ⟨⟨?_, fun owned => ?_⟩, fun entry member => ?_⟩
  · refine (standing.expression key constraint found).mono fun symbol both same => ?_
    have low := both.2
    rw [SymbolSupply.draw_symbol_id] at same
    omega
  · have low := (owns_marking key owned).2
    rw [SymbolSupply.draw_symbol_id] at low
    omega
  · refine (standing.toOrderly.below offset).avoids ?_ member
    rw [SymbolSupply.draw_symbol_id]
    omega

end Standing

end Solver

end SoftSimplex
