import SoftSimplex.Proofs.Solver.History

/-!
# What a solver has solved

The live constraints are the active ones as they count now: an edit asks that its variable equals
the present target. They are met, missed and priced exactly as the entries of the ledger, so what
the tableau says about the ledger it says about them.
-/

namespace SoftSimplex

variable {discipline : Discipline} {kinds : Nat → Symbol.Kind} {offset : Nat → Rat}
  {solver after : Solver Rat} {issued : Nat → Prop} {symbol key : Symbol}
  {constraint : Constraint Rat} {target : Rat}

namespace Solver

/-- The values that the tableau gives, zero for symbols that are not basic. -/
def solution (solver : Solver Rat) : Assignment := fun id =>
  solver.tableau.value ⟨id, .external⟩

/-- The variable that is edited under a key, and its target. -/
def editOf? (solver : Solver Rat) (id : Nat) : Option (Symbol × Rat) :=
  (solver.unknowns.entries.find? fun entry => entry.2.edit.any fun key => key.id == id).map
    fun entry => (entry.1, entry.2.target)

/-- A constraint as it counts now: the hidden constraint of an edit has the expression "variable
minus target", and every other constraint has the expression that was written. -/
def present (solver : Solver Rat) (id : Nat) (constraint : Constraint Rat) : Constraint Rat :=
  match solver.editOf? id with
  | some (symbol, target) =>
      { constraint with expression := (LinearForm.ofConstant (-target)).plus symbol 1 }
  | none => constraint

/-- The constraints that take part, as they count now. -/
def live (solver : Solver Rat) : List (Constraint Rat) :=
  (solver.constraints.listing.filter fun entry => entry.2.isActive).map fun entry =>
    solver.present entry.1 entry.2

end Solver

/-- No assignment that meets the required constraints costs less than this one. -/
structure Ledger.Optimal (ledger : Ledger) (assignment : Assignment) : Prop where
  met : ledger.Met assignment
  least : ∀ given, ledger.Met given → ledger.cost assignment ≤ ledger.cost given

/-- Being optimal is a matter of what is met and what it costs. -/
theorem Ledger.optimal_congr {ledger other : Ledger}
    (met : ∀ given, ledger.Met given ↔ other.Met given)
    (cost : ∀ given, ledger.cost given = other.cost given) (assignment : Assignment) :
    ledger.Optimal assignment ↔ other.Optimal assignment := by
  constructor
  · rintro ⟨here, least⟩
    refine ⟨(met _).mp here, fun given there => ?_⟩
    rw [← cost, ← cost]
    exact least given ((met given).mpr there)
  · rintro ⟨here, least⟩
    refine ⟨(met _).mpr here, fun given there => ?_⟩
    rw [cost, cost]
    exact least given ((met given).mp there)

theorem Ledger.optimal_perm {ledger other : Ledger} (perm : ledger.Perm other)
    (assignment : Assignment) : ledger.Optimal assignment ↔ other.Optimal assignment :=
  Ledger.optimal_congr (fun _ => forall_congr' fun _ => by rw [perm.mem_iff])
    (fun _ => (perm.map _).sum_eq) assignment

/-- Constraints that ask for the same at the same price. -/
structure Constraint.Agrees (constraint other : Constraint Rat) : Prop where
  relation : constraint.relation = other.relation
  strength : constraint.strength = other.strength
  eval : ∀ assignment, constraint.expression.eval assignment = other.expression.eval assignment

namespace Constraint.Agrees

variable {other : Constraint Rat} (agrees : constraint.Agrees other) (assignment : Assignment)

include agrees

theorem holds_iff : constraint.Holds assignment ↔ other.Holds assignment := by
  unfold Holds
  rw [agrees.relation, agrees.eval]

theorem cost_eq : constraint.cost assignment = other.cost assignment := by
  unfold cost violation
  rw [agrees.relation, agrees.strength, agrees.eval]

end Constraint.Agrees

namespace Ledger

variable {ι : Type} {items : List ι} {first second : ι → Constraint Rat}
  (agree : ∀ item ∈ items, (first item).Agrees (second item)) (assignment : Assignment)

include agree

theorem met_map_iff : Ledger.Met (items.map first) assignment ↔
    Ledger.Met (items.map second) assignment := by
  simp only [Ledger.Met, List.forall_mem_map]
  refine forall₂_congr fun item member => ?_
  rw [(agree item member).strength, (agree item member).holds_iff]

theorem cost_map_eq : Ledger.cost (items.map first) assignment =
    Ledger.cost (items.map second) assignment := by
  unfold Ledger.cost
  rw [List.map_map, List.map_map]
  exact congrArg List.sum (List.map_congr_left fun item member =>
    (agree item member).cost_eq assignment)

end Ledger

namespace Solver

theorem solution_eq (solver : Solver Rat) :
    solver.solution = solver.tableau.complete Assignment.zero :=
  funext fun id => (solver.tableau.complete_zero ⟨id, .external⟩).symm

theorem editOf?_eq_some {id : Nat} (found : solver.editOf? id = some (symbol, target)) :
    ∃ key, solver.Edits symbol key target ∧ key.id = id := by
  obtain ⟨entry, there, is_entry⟩ := Option.map_eq_some_iff.mp found
  obtain ⟨rfl, rfl⟩ := Prod.mk.inj is_entry
  have edited := List.find?_some there
  obtain ⟨key, edit, named⟩ := (Option.any_eq_true _ _).mp edited
  exact ⟨key, ⟨entry.2, (Catalog.get?_eq_some_iff _ _ _).mpr
    ⟨entry, List.mem_of_find?_eq_some there, rfl, rfl⟩, edit, rfl⟩, beq_iff_eq.mp named⟩

theorem editOf?_eq_none {id : Nat} (absent : solver.editOf? id = none) :
    ∀ symbol key target, solver.Edits symbol key target → key.id ≠ id := by
  rintro symbol key target ⟨state, found, edit, _⟩ named
  obtain ⟨entry, member, _, rfl⟩ := (Catalog.get?_eq_some_iff _ _ _).mp found
  have unedited := List.find?_eq_none.mp (Option.map_eq_none_iff.mp absent) entry member
  rw [edit, Option.any_some, named] at unedited
  exact unedited (beq_self_eq_true id)

namespace Editing

variable (editing : solver.Editing issued (fun _ => False) offset)

include editing

/-- A constraint counts as it stands in the ledger. -/
theorem agrees (found : solver.constraints.get? key = some constraint) :
    (solver.present key.id constraint).Agrees (constraint.lowered (offset key.id)) := by
  unfold present
  cases edit : solver.editOf? key.id with
  | none =>
      have unmoved : offset key.id = 0 := by
        by_contra moved
        obtain ⟨symbol, sought, target, edits, named⟩ :=
          (editing.settled _ moved).resolve_left False.elim
        exact editOf?_eq_none edit symbol sought target edits named
      rw [unmoved, constraint.lowered_zero]
      exact ⟨rfl, rfl, fun _ => rfl⟩
  | some pair =>
      obtain ⟨symbol, target⟩ := pair
      obtain ⟨sought, edits, named⟩ := editOf?_eq_some edit
      obtain ⟨⟨hidden, there, pulls, at_target⟩, _⟩ := editing.pulled symbol sought target edits
      rw [solver.constraints.get?_congr named, found] at there
      obtain rfl := Option.some.inj there
      refine ⟨rfl, rfl, fun assignment => ?_⟩
      have evaluated := pulls.expression assignment
      simp only [LinearForm.eval_plus, LinearForm.eval_ofConstant]
      simp only [LinearForm.eval, Constraint.lowered, ← named, at_target] at evaluated ⊢
      linarith

theorem agrees_of_mem {entry : Nat × Constraint Rat}
    (member : entry ∈ solver.constraints.listing.filter fun entry => entry.2.isActive) :
    (solver.present entry.1 entry.2).Agrees (entry.2.lowered (offset entry.1)) :=
  editing.agrees ((solver.constraints.mem_listing_iff ⟨entry.1, .external⟩ _).mp
    (List.mem_of_mem_filter member))

theorem met_live_iff (assignment : Assignment) : Ledger.Met solver.live assignment ↔
    (solver.constraints.ledger offset).Met assignment :=
  Ledger.met_map_iff (fun _ => editing.agrees_of_mem) assignment

theorem cost_live (assignment : Assignment) : Ledger.cost solver.live assignment =
    (solver.constraints.ledger offset).cost assignment :=
  Ledger.cost_map_eq (fun _ => editing.agrees_of_mem) assignment

theorem optimal_live_iff (assignment : Assignment) : Ledger.Optimal solver.live assignment ↔
    Ledger.Optimal (solver.constraints.ledger offset) assignment :=
  Ledger.optimal_congr editing.met_live_iff editing.cost_live assignment

/-- What has taken no part is as it was written, and so are required constraints. -/
theorem offset_of_idle (found : solver.constraints.get? key = some constraint)
    (apart : constraint.isActive = false ∨ constraint.strength.isRequired = true) :
    offset key.id = 0 := by
  by_contra moved
  obtain ⟨symbol, sought, target, edits, named⟩ :=
    (editing.settled _ moved).resolve_left False.elim
  obtain ⟨⟨hidden, there, pulls, _⟩, _⟩ := editing.pulled symbol sought target edits
  rw [solver.constraints.get?_congr named, found] at there
  obtain rfl := Option.some.inj there
  rcases apart with inactive | required
  · exact Bool.noConfusion (inactive.symm.trans pulls.active)
  · exact Bool.noConfusion (pulls.soft.symm.trans required)

end Editing

/-- The solved values are optimal if the discipline promises what it takes. -/
theorem Standing.optimal (standing : solver.Standing discipline kinds offset)
    (editing : solver.Editing issued (fun _ => False) offset) (steady : discipline.steady)
    (priced : discipline.priced) : Ledger.Optimal solver.live solver.solution := by
  have feasible := standing.restful.feasible steady priced
  have grounded := standing.restful.grounded steady
  refine ⟨?_, fun given met => ?_⟩
  · rw [editing.met_live_iff, solution_eq]
    exact standing.met steady priced
  · rw [editing.met_live_iff] at met
    rw [editing.cost_live, editing.cost_live, solution_eq]
    exact standing.stands.means.cost_le standing.stands.prices standing.stands.regular
      standing.entries (standing.toCatalogued.priced priced) feasible grounded
        (standing.restful.lowest steady priced) met

end Solver

end SoftSimplex
