import SoftSimplex.Proofs.Solver.Course
import SoftSimplex.Proofs.Solver.Keeping
import Mathlib.Data.List.Count

/-!
# Counting references

The references to a variable are those that callers hold and one for each constraint that mentions
it. While a constraint is being rewritten or removed, a variable may be owed a correction. The
change of one constraint alters what is owed by whether the constraint mentioned the variable before
and whether it does now.
-/

namespace SoftSimplex

variable {α : Type}

namespace Deal

/-- What a deal adds to the references that callers hold to a variable. -/
def weight (id : Nat) : Deal → Int
  | created other => if other = id then 1 else 0
  | shared other => if other = id then 1 else 0
  | gaveUp other => if other = id then -1 else 0

/-- The references that callers hold to a variable after some deals. -/
def balance (deals : List Deal) (id : Nat) : Int :=
  (deals.map (weight id)).sum

@[simp]
theorem balance_nil (id : Nat) : balance [] id = 0 := rfl

@[simp]
theorem balance_cons (deal : Deal) (deals : List Deal) (id : Nat) :
    balance (deal :: deals) id = deal.weight id + balance deals id := rfl

/-- Creations and shares count for a caller, and what it gave up counts against it. -/
theorem balance_eq (deals : List Deal) (id : Nat) : balance deals id =
    deals.count (created id) + deals.count (shared id) - deals.count (gaveUp id) := by
  induction deals with
  | nil => rfl
  | cons deal rest inductionHypothesis =>
      rw [balance_cons, inductionHypothesis]
      simp only [List.count_cons, beq_iff_eq]
      cases deal <;> simp only [weight, created.injEq, shared.injEq, gaveUp.injEq, reduceCtorEq,
        if_false] <;> split <;> push_cast <;> ring

end Deal

/-! ## Constraints that mention a variable -/

namespace LinearForm

/-- One if the variable with a number is mentioned, and otherwise zero. -/
def occurrences (form : LinearForm α) (id : Nat) : Nat :=
  if form.mentions ⟨id, .external⟩ then 1 else 0

variable (form : LinearForm α)

theorem occurrences_eq (symbol : Symbol) :
    form.occurrences symbol.id = if form.mentions symbol then 1 else 0 := by
  have same : form.mentions ⟨symbol.id, .external⟩ = form.mentions symbol := by
    rw [mentions_eq_isSome, mentions_eq_isSome]
    exact congrArg Option.isSome (form.coefficient?_congr rfl)
  rw [occurrences, same]

theorem occurrences_eq_zero_iff (id : Nat) :
    form.occurrences id = 0 ↔ ∀ term ∈ form.terms, term.1.id ≠ id := by
  have mentioned := form.mentions_eq_false_iff ⟨id, .external⟩
  rw [← mentioned, occurrences]
  split
  · rename_i present
    simp [present]
  · rename_i absent
    simpa using absent

theorem occurrences_le_one (id : Nat) : form.occurrences id ≤ 1 := by
  unfold occurrences
  split <;> decide

theorem occurrences_congr {form other : LinearForm α} {id : Nat}
    (same : form.coefficient? ⟨id, .external⟩ = other.coefficient? ⟨id, .external⟩) :
    form.occurrences id = other.occurrences id := by
  rw [occurrences, occurrences, mentions_eq_isSome, mentions_eq_isSome, same]

theorem occurrences_of_mem {term : Symbol × α} (member : term ∈ form.terms) :
    form.occurrences term.1.id = 1 := by
  have present : form.occurrences term.1.id ≠ 0 := by
    rw [ne_eq, occurrences_eq_zero_iff]
    exact fun absent => absent term member rfl
  have := form.occurrences_le_one term.1.id
  omega

section Arithmetic

variable [Scalar α]

theorem occurrences_plus_of_ne {symbol : Symbol} {id : Nat} (apart : id ≠ symbol.id) (amount : α) :
    (form.plus symbol amount).occurrences id = form.occurrences id :=
  occurrences_congr (form.coefficient?_plus_of_ne apart amount)

theorem occurrences_scale (factor : α) (id : Nat) :
    (form.scale factor).occurrences id = form.occurrences id := by
  rw [occurrences, occurrences, mentions_eq_isSome, mentions_eq_isSome, coefficient?_scale,
    Option.isSome_map]

/-- Only what the added form mentions can come or go. -/
theorem occurrences_plusMultiple_of_unmentioned {other : LinearForm α} {id : Nat}
    (unmentioned : ∀ term ∈ other.terms, term.1.id ≠ id) (factor : α) :
    (form.plusMultiple other factor).occurrences id = form.occurrences id := by
  have walk : ∀ (terms : List (Symbol × α)) (sum : LinearForm α),
      (∀ term ∈ terms, term.1.id ≠ id) →
        (sum.plusTerms terms factor).occurrences id = sum.occurrences id := by
    intro terms
    induction terms with
    | nil => exact fun _ _ => rfl
    | cons first rest inductionHypothesis =>
        intro sum apart
        obtain ⟨here, elsewhere⟩ := List.forall_mem_cons.mp apart
        exact (inductionHypothesis _ elsewhere).trans (sum.occurrences_plus_of_ne here.symm _)
  exact walk other.terms _ unmentioned

end Arithmetic

end LinearForm

namespace Catalog

variable {constraints other : Catalog (Constraint α)} {key : Symbol}

/-- The number of constraints that mention the variable with a number. -/
def mentioning (constraints : Catalog (Constraint α)) (id : Nat) : Nat :=
  constraints.listing.countP fun entry => entry.2.expression.mentions ⟨id, .external⟩

/-- One if the constraint is there and mentions the variable with a number, and otherwise zero. -/
def occurrencesAt (constraints : Catalog (Constraint α)) (key : Symbol) (id : Nat) : Nat :=
  (constraints.get? key).elim 0 fun constraint => constraint.expression.occurrences id

theorem occurrencesAt_of_found {constraint : Constraint α}
    (found : constraints.get? key = some constraint) (id : Nat) :
    constraints.occurrencesAt key id = constraint.expression.occurrences id := by
  rw [occurrencesAt, found, Option.elim_some]

theorem occurrencesAt_of_absent (absent : constraints.get? key = none) (id : Nat) :
    constraints.occurrencesAt key id = 0 := by
  rw [occurrencesAt, absent, Option.elim_none]

/-- Only the expression counts. -/
theorem occurrencesAt_congr (same : (other.get? key).map Constraint.expression =
      (constraints.get? key).map Constraint.expression) (id : Nat) :
    other.occurrencesAt key id = constraints.occurrencesAt key id := by
  have through : ∀ catalog : Catalog (Constraint α), catalog.occurrencesAt key id =
      ((catalog.get? key).map Constraint.expression).elim 0 fun form => form.occurrences id := by
    intro catalog
    unfold occurrencesAt
    cases catalog.get? key <;> rfl
  rw [through, through, same]

/-- A constraint and all others. -/
theorem mentioning_eq_add (constraints : Catalog (Constraint α)) (key : Symbol) (id : Nat) :
    constraints.mentioning id =
      constraints.occurrencesAt key id + (constraints.erase key).mentioning id := by
  unfold mentioning
  cases found : constraints.get? key with
  | none =>
      rw [occurrencesAt_of_absent found, Nat.zero_add]
      exact (listing_erase_perm_of_absent found).symm.countP_eq _
  | some constraint =>
      rw [(listing_perm_cons found).countP_eq, List.countP_cons, occurrencesAt_of_found found,
        Nat.add_comm]
      rfl

/-- When a single constraint changes, so does the number of those that mention a variable. -/
theorem mentioning_exchange (elsewhere : ∀ sought : Symbol, sought.id ≠ key.id →
      other.get? sought = constraints.get? sought) (id : Nat) :
    other.mentioning id + constraints.occurrencesAt key id =
      constraints.mentioning id + other.occurrencesAt key id := by
  have rest : (other.erase key).mentioning id = (constraints.erase key).mentioning id := by
    apply List.Perm.countP_eq
    apply listing_perm
    intro sought
    rw [get?_erase, get?_erase]
    split
    · rfl
    · rename_i apart
      exact elsewhere sought apart
  rw [other.mentioning_eq_add key, constraints.mentioning_eq_add key, rest]
  omega

/-- A constraint that mentions a variable is counted. -/
theorem occurrencesAt_le_mentioning (constraints : Catalog (Constraint α)) (key : Symbol)
    (id : Nat) : constraints.occurrencesAt key id ≤ constraints.mentioning id := by
  rw [constraints.mentioning_eq_add key]
  exact Nat.le_add_right _ _

/-- Only expressions count. -/
theorem mentioning_congr (same : ∀ key, (other.get? key).map Constraint.expression =
      (constraints.get? key).map Constraint.expression) (id : Nat) :
    other.mentioning id = constraints.mentioning id := by
  have mem_iff : ∀ (catalog : Catalog (Constraint α)) (number : Nat) (form : LinearForm α),
      (number, form) ∈ catalog.listing.map (fun entry => (entry.1, entry.2.expression)) ↔
        (catalog.get? ⟨number, .external⟩).map Constraint.expression = some form := by
    intro catalog number form
    rw [List.mem_map, Option.map_eq_some_iff]
    constructor
    · rintro ⟨⟨_, constraint⟩, member, same⟩
      obtain ⟨rfl, rfl⟩ := Prod.mk.inj same
      exact ⟨constraint, (catalog.mem_listing_iff ⟨_, .external⟩ constraint).mp member, rfl⟩
    · rintro ⟨constraint, found, rfl⟩
      exact ⟨(number, constraint),
        (catalog.mem_listing_iff ⟨number, .external⟩ constraint).mpr found, rfl⟩
  have nodup : ∀ catalog : Catalog (Constraint α),
      (catalog.listing.map fun entry => (entry.1, entry.2.expression)).Nodup := by
    intro catalog
    apply List.Nodup.of_map Prod.fst
    rw [List.map_map]
    exact catalog.numbers_nodup
  have perm : (other.listing.map fun entry => (entry.1, entry.2.expression)).Perm
      (constraints.listing.map fun entry => (entry.1, entry.2.expression)) := by
    rw [List.perm_ext_iff_of_nodup (nodup other) (nodup constraints)]
    rintro ⟨number, form⟩
    rw [mem_iff, mem_iff, same]
  have counted := perm.countP_eq fun entry => entry.2.mentions ⟨id, .external⟩
  rwa [List.countP_map, List.countP_map] at counted

theorem mentioning_new (pageSize id : Nat) :
    (new pageSize : Catalog (Constraint α)).mentioning id = 0 := rfl

end Catalog

/-! ## Counted references -/

namespace Solver

variable {deals : List Deal} {owed : Nat → Int} {solver after : Solver α} {key symbol : Symbol}
  {constraint : Constraint α} {state : Variable α}

/-- The variable is registered. -/
def Knows (solver : Solver α) (symbol : Symbol) : Prop :=
  ∃ state, solver.unknowns.get? symbol = some state

/-- The references to a registered variable are those that callers hold, one for each constraint
that mentions it, and those that are still owed a correction. Of a variable that is not registered
nothing is left. -/
structure Counted (deals : List Deal) (owed : Nat → Int) (solver : Solver α) : Prop where
  exact : ∀ symbol state, solver.unknowns.get? symbol = some state →
    (state.references : Int) = Deal.balance deals symbol.id +
      solver.constraints.mentioning symbol.id + owed symbol.id
  positive : ∀ symbol state, solver.unknowns.get? symbol = some state → 1 ≤ state.references
  settled : ∀ symbol : Symbol, solver.unknowns.get? symbol = none →
    Deal.balance deals symbol.id = 0 ∧ solver.constraints.mentioning symbol.id = 0 ∧
      owed symbol.id = 0
  covered : ∀ id, 0 ≤ Deal.balance deals id
  created : ∀ symbol state, solver.unknowns.get? symbol = some state → .created symbol.id ∈ deals
  drawn : ∀ deal ∈ deals, deal.id ≤ solver.symbols.last
  once : ∀ id, deals.count (.created id) ≤ 1

theorem Counted.new [Scalar α] (identity : Nat) (options : Options) :
    (Solver.new identity options : Solver α).Counted [] fun _ => 0 := by
  have none_yet : ∀ symbol, (Solver.new identity options : Solver α).unknowns.get? symbol = none :=
    Catalog.get?_new options.pageSize
  constructor
  · exact fun symbol state found => absurd (none_yet symbol ▸ found) (by simp)
  · exact fun symbol state found => absurd (none_yet symbol ▸ found) (by simp)
  · exact fun symbol _ => ⟨rfl, Catalog.mentioning_new _ _, rfl⟩
  · exact fun id => (Deal.balance_nil id).ge
  · exact fun symbol state found => absurd (none_yet symbol ▸ found) (by simp)
  · exact fun _ member => absurd member List.not_mem_nil
  · exact fun _ => Nat.zero_le 1

namespace Counted

variable (counted : solver.Counted deals owed)

include counted

theorem congr_owed {owed' : Nat → Int} (same : ∀ id, owed id = owed' id) :
    solver.Counted deals owed' :=
  funext same ▸ counted

theorem knows_of_mentioned (mentioned : solver.constraints.mentioning symbol.id ≠ 0) :
    solver.Knows symbol := by
  rw [Knows, ← Option.ne_none_iff_exists']
  exact fun absent => mentioned (counted.settled symbol absent).2.1

/-- Every variable that a registered constraint mentions is registered. -/
theorem over_known (found : solver.constraints.get? key = some constraint) :
    constraint.expression.Over solver.Knows := by
  intro term member
  apply counted.knows_of_mentioned
  have counts := solver.constraints.occurrencesAt_le_mentioning key term.1.id
  rw [Catalog.occurrencesAt_of_found found,
    constraint.expression.occurrences_of_mem member] at counts
  omega

theorem knows_of_owed (debt : owed symbol.id ≠ 0) : solver.Knows symbol := by
  rw [Knows, ← Option.ne_none_iff_exists']
  exact fun absent => debt (counted.settled symbol absent).2.2

/-- The change of a single constraint leaves a correction owed. -/
theorem exchange (key : Symbol)
    (references : ∀ symbol, (after.unknowns.get? symbol).map Variable.references =
      (solver.unknowns.get? symbol).map Variable.references)
    (elsewhere : ∀ sought : Symbol, sought.id ≠ key.id →
      after.constraints.get? sought = solver.constraints.get? sought)
    (spread : ∀ constraint, after.constraints.get? key = some constraint →
      constraint.expression.Over solver.Knows)
    (later : solver.symbols.last ≤ after.symbols.last) :
    after.Counted deals fun id => owed id + solver.constraints.occurrencesAt key id -
      after.constraints.occurrencesAt key id := by
  have was : ∀ symbol state, after.unknowns.get? symbol = some state → ∃ before,
      solver.unknowns.get? symbol = some before ∧ before.references = state.references := by
    intro symbol state found
    have same := references symbol
    rw [found, Option.map_some] at same
    exact Option.map_eq_some_iff.mp same.symm
  constructor
  · intro symbol state found
    obtain ⟨before, there, same⟩ := was symbol state found
    have counts := Catalog.mentioning_exchange elsewhere symbol.id
    have exactly := counted.exact symbol before there
    omega
  · intro symbol state found
    obtain ⟨before, there, same⟩ := was symbol state found
    exact same ▸ counted.positive symbol before there
  · intro symbol absent
    have unregistered : solver.unknowns.get? symbol = none := by
      have same := references symbol
      rw [absent, Option.map_none] at same
      exact Option.map_eq_none_iff.mp same.symm
    have unmentioned : after.constraints.occurrencesAt key symbol.id = 0 := by
      cases found : after.constraints.get? key with
      | none => exact Catalog.occurrencesAt_of_absent found _
      | some constraint =>
          rw [Catalog.occurrencesAt_of_found found, LinearForm.occurrences_eq_zero_iff]
          intro term member same
          obtain ⟨state, there⟩ := spread constraint found term member
          rw [solver.unknowns.get?_congr same, unregistered] at there
          exact absurd there.symm (Option.some_ne_none state)
    have counts := Catalog.mentioning_exchange elsewhere symbol.id
    have counted_before := solver.constraints.occurrencesAt_le_mentioning key symbol.id
    obtain ⟨balanced, none_mention, nothing_owed⟩ := counted.settled symbol unregistered
    omega
  · exact counted.covered
  · intro symbol state found
    obtain ⟨before, there, _⟩ := was symbol state found
    exact counted.created symbol before there
  · exact fun deal member => (counted.drawn deal member).trans later
  · exact counted.once

/-- Nothing is owed if no expression changes. -/
theorem keep (key : Symbol)
    (references : ∀ symbol, (after.unknowns.get? symbol).map Variable.references =
      (solver.unknowns.get? symbol).map Variable.references)
    (elsewhere : ∀ sought : Symbol, sought.id ≠ key.id →
      after.constraints.get? sought = solver.constraints.get? sought)
    (written : (after.constraints.get? key).map Constraint.expression =
      (solver.constraints.get? key).map Constraint.expression)
    (later : solver.symbols.last ≤ after.symbols.last) : after.Counted deals owed := by
  apply (counted.exchange key references elsewhere _ later).congr_owed
  · intro id
    rw [Catalog.occurrencesAt_congr written]
    ring
  · intro constraint found
    rw [found, Option.map_some] at written
    obtain ⟨before, there, same⟩ := Option.map_eq_some_iff.mp written.symm
    rw [← same]
    exact counted.over_known there

/-- Neither the tableau nor the markers count. -/
theorem of_expressions {constraints : Catalog (Constraint α)} {tableau : Tableau α}
    (same : ∀ key, (constraints.get? key).map Constraint.expression =
      (solver.constraints.get? key).map Constraint.expression) :
    ({ solver with tableau, constraints } : Solver α).Counted deals owed where
  exact symbol state found := by
    rw [Catalog.mentioning_congr same]
    exact counted.exact symbol state found
  positive := counted.positive
  settled symbol absent := by
    rw [Catalog.mentioning_congr same]
    exact counted.settled symbol absent
  covered := counted.covered
  created := counted.created
  drawn := counted.drawn
  once := counted.once

/-- Changing the references to a variable corrects what is owed to it. -/
theorem modify_unknown (change : Variable α → Variable α) (correction : Int)
    (found : solver.unknowns.get? symbol = some state)
    (corrected : ((change state).references : Int) = state.references + correction)
    (positive : 1 ≤ (change state).references) :
    ({ solver with unknowns := solver.unknowns.modify symbol change } : Solver α).Counted deals
      (Function.update owed symbol.id (owed symbol.id + correction)) := by
  have look : ∀ sought now, (solver.unknowns.modify symbol change).get? sought = some now →
      (sought.id = symbol.id ∧ now = change state) ∨
        (sought.id ≠ symbol.id ∧ solver.unknowns.get? sought = some now) := by
    intro sought now there
    apply (Catalog.of_get?_modify there).imp_left
    rintro ⟨same, before, was, rfl⟩
    rw [solver.unknowns.get?_congr same, found] at was
    exact ⟨same, congrArg change (Option.some.inj was).symm⟩
  constructor
  · intro sought now there
    rcases look sought now there with ⟨same, rfl⟩ | ⟨apart, before⟩
    · rw [same, Function.update_self, corrected, counted.exact symbol state found]
      ring
    · rw [Function.update_of_ne apart]
      exact counted.exact sought now before
  · intro sought now there
    rcases look sought now there with ⟨_, rfl⟩ | ⟨_, before⟩
    · exact positive
    · exact counted.positive sought now before
  · intro sought absent
    dsimp only at absent
    rw [Catalog.get?_modify] at absent
    split at absent
    · rename_i same
      rw [solver.unknowns.get?_congr same, found] at absent
      exact absurd absent (Option.some_ne_none _)
    · rename_i apart
      rw [Function.update_of_ne apart]
      exact counted.settled sought absent
  · exact counted.covered
  · intro sought now there
    rcases look sought now there with ⟨same, _⟩ | ⟨_, before⟩
    · exact same ▸ counted.created symbol state found
    · exact counted.created sought now before
  · exact counted.drawn
  · exact counted.once

/-- A variable whose last reference goes is not mentioned, and no caller holds it. -/
theorem unmentioned_of_last (found : solver.unknowns.get? symbol = some state)
    (debt : owed symbol.id = 1) (last : state.references ≤ 1) :
    Deal.balance deals symbol.id = 0 ∧ solver.constraints.mentioning symbol.id = 0 := by
  have exactly := counted.exact symbol state found
  have covered := counted.covered symbol.id
  omega

/-- The last reference goes. -/
theorem erase_unknown (found : solver.unknowns.get? symbol = some state)
    (debt : owed symbol.id = 1) (last : state.references ≤ 1) :
    ({ solver with unknowns := solver.unknowns.erase symbol } : Solver α).Counted deals
      (Function.update owed symbol.id 0) := by
  constructor
  · intro sought now there
    obtain ⟨apart, before⟩ := Catalog.of_get?_erase there
    rw [Function.update_of_ne apart]
    exact counted.exact sought now before
  · exact fun sought now there => counted.positive sought now (Catalog.of_get?_erase there).2
  · intro sought absent
    by_cases same : sought.id = symbol.id
    · rw [same, Function.update_self]
      obtain ⟨unheld, unmentioned⟩ := counted.unmentioned_of_last found debt last
      exact ⟨unheld, unmentioned, rfl⟩
    · dsimp only at absent
      rw [Catalog.get?_erase, if_neg same] at absent
      rw [Function.update_of_ne same]
      exact counted.settled sought absent
  · exact counted.covered
  · exact fun sought now there => counted.created sought now (Catalog.of_get?_erase there).2
  · exact counted.drawn
  · exact counted.once

/-- Callers share a registered variable, or give it up. -/
theorem deal {deal : Deal} (later : ∀ id, deal ≠ .created id)
    (found : solver.unknowns.get? ⟨deal.id, .external⟩ = some state)
    (covered : 0 ≤ Deal.balance (deal :: deals) deal.id) :
    solver.Counted (deal :: deals) fun id => owed id - deal.weight id := by
  have elsewhere : ∀ id, id ≠ deal.id → deal.weight id = 0 := by
    intro id apart
    cases deal <;> exact if_neg (Ne.symm apart)
  constructor
  · intro symbol now there
    have exactly := counted.exact symbol now there
    rw [Deal.balance_cons]
    omega
  · exact counted.positive
  · intro symbol absent
    have apart : symbol.id ≠ deal.id := by
      intro same
      have there : solver.unknowns.get? symbol = some state :=
        (solver.unknowns.get?_congr same).trans found
      exact Option.some_ne_none state (there.symm.trans absent)
    rw [Deal.balance_cons, elsewhere _ apart, zero_add, sub_zero]
    exact counted.settled symbol absent
  · intro id
    by_cases same : id = deal.id
    · rw [same]
      exact covered
    · rw [Deal.balance_cons, elsewhere id same, zero_add]
      exact counted.covered id
  · exact fun symbol now there => List.mem_cons_of_mem _ (counted.created symbol now there)
  · intro other member
    rcases List.mem_cons.mp member with rfl | before
    · exact counted.drawn (.created other.id) (counted.created _ state found)
    · exact counted.drawn other before
  · intro id
    rw [List.count_cons_of_ne (later id)]
    exact counted.once id

/-- A variable is created above all symbols in use. -/
theorem insert_fresh [Scalar α] (absent : solver.unknowns.get? symbol = none)
    {symbols : SymbolSupply} (above : solver.symbols.last < symbol.id)
    (low : symbol.id ≤ symbols.last) :
    ({ solver with symbols, unknowns := solver.unknowns.insert symbol Variable.fresh } :
      Solver α).Counted (.created symbol.id :: deals) owed := by
  obtain ⟨unheld, unmentioned, nothing_owed⟩ := counted.settled symbol absent
  have own : Deal.balance (.created symbol.id :: deals) symbol.id = 1 := by
    simp [Deal.weight, unheld]
  have elsewhere : ∀ id, id ≠ symbol.id →
      Deal.balance (.created symbol.id :: deals) id = Deal.balance deals id := by
    intro id apart
    simp [Deal.weight, Ne.symm apart]
  constructor
  · intro sought now there
    rcases Catalog.of_get?_insert there with ⟨same, rfl⟩ | ⟨apart, before⟩
    · rw [same, own, unmentioned, nothing_owed]
      rfl
    · rw [elsewhere _ apart]
      exact counted.exact sought now before
  · intro sought now there
    rcases Catalog.of_get?_insert there with ⟨_, rfl⟩ | ⟨_, before⟩
    · exact Nat.le_refl 1
    · exact counted.positive sought now before
  · intro sought none_there
    dsimp only at none_there
    rw [Catalog.get?_insert] at none_there
    split at none_there
    · exact absurd none_there (Option.some_ne_none _)
    · rename_i apart
      rw [elsewhere _ apart]
      exact counted.settled sought none_there
  · intro id
    by_cases same : id = symbol.id
    · rw [same, own]
      decide
    · rw [elsewhere id same]
      exact counted.covered id
  · intro sought now there
    rcases Catalog.of_get?_insert there with ⟨same, _⟩ | ⟨_, before⟩
    · exact same ▸ List.mem_cons_self
    · exact List.mem_cons_of_mem _ (counted.created sought now before)
  · intro deal member
    rcases List.mem_cons.mp member with rfl | before
    · exact low
    · exact (counted.drawn deal before).trans (above.le.trans low)
  · intro id
    by_cases same : id = symbol.id
    · have new : .created id ∉ deals :=
        fun member => absurd (counted.drawn _ member) (Nat.not_le_of_lt (same ▸ above))
      rw [same, List.count_cons_self, List.count_eq_zero_of_not_mem (same ▸ new)]
    · rw [List.count_cons_of_ne (fun equal => same (Deal.created.inj equal).symm)]
      exact counted.once id

end Counted

end Solver

end SoftSimplex
