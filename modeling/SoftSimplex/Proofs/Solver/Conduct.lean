import SoftSimplex.Proofs.Solver.OrderedActivation

/-!
# Actions along a relation

An action is along a relation if, however it ends, the solver that it leaves behind is related to
the one that it started from. Along a preorder, composed actions follow from their parts. Neither
what the tableau holds nor the arithmetic matters.

All work on the tableau for one constraint, from activation to roll-back and deactivation, is along
the relation of having changed the markers of that constraint alone.
-/

namespace SoftSimplex

variable {α : Type}

namespace Action

variable {ρ τ : Type} {action : Action α ρ} {relation : Solver α → Solver α → Prop}

/-- However the action ends, the solver is related to the one that it started from. -/
def Along (relation : Solver α → Solver α → Prop) (action : Action α ρ) : Prop :=
  ∀ solver : Solver α, action.Meets solver (fun _ after => relation solver after)
    (fun _ after => relation solver after) (relation solver)

namespace Along

theorem mono {weaker : Solver α → Solver α → Prop} (along : action.Along relation)
    (weakens : ∀ solver after, relation solver after → weaker solver after) :
    action.Along weaker :=
  fun solver => (along solver).mono (fun _ => weakens solver) (fun _ => weakens solver)
    (weakens solver)

theorem read_bind {following : Solver α → Action α ρ}
    (along : ∀ solver, (following solver).Along relation) :
    (Action.read >>= following).Along relation :=
  fun solver => Meets.read_bind (along solver solver)

theorem update {change : Solver α → Solver α}
    (related : ∀ solver, relation solver (change solver)) : Along relation (Action.update change) :=
  fun solver => Meets.update (related solver)

theorem map {change : ρ → τ} (along : action.Along relation) :
    (change <$> action).Along relation :=
  fun solver => Meets.map (along solver)

theorem attempt (along : action.Along relation) : (Action.attempt action).Along relation := by
  intro solver
  refine (Meets.attempt (along solver)).weaken fun result after related => ?_
  cases result <;> exact related

variable [IsPreorder (Solver α) relation]

theorem bind {following : ρ → Action α τ} (first : action.Along relation)
    (second : ∀ result, (following result).Along relation) :
    (action >>= following).Along relation := by
  intro solver
  refine Meets.bind (first solver) fun result between related => ?_
  exact (second result between).mono (fun _ _ => trans_of relation related)
    (fun _ _ => trans_of relation related) fun _ => trans_of relation related

theorem update_bind {change : Solver α → Solver α} {following : Unit → Action α τ}
    (related : ∀ solver, relation solver (change solver))
    (rest : (following ()).Along relation) : (Action.update change >>= following).Along relation :=
  (update related).bind fun _ => rest

theorem pure (result : ρ) : Along relation (Pure.pure result : Action α ρ) :=
  fun solver => Meets.pure (refl_of relation solver)

theorem refuse (reason : Refusal) : Along relation (Action.refuse reason : Action α ρ) :=
  fun solver => Meets.refuse (refl_of relation solver)

theorem demand (result : Except Refusal ρ) :
    Along relation (Action.demand result : Action α ρ) := by
  cases result with
  | ok value => exact pure value
  | error reason => exact refuse reason

theorem forM {σ : Type} {items : List σ} {round : σ → Action α PUnit}
    (along : ∀ item, (round item).Along relation) : (items.forM round).Along relation := by
  intro solver
  refine Meets.forM (relation solver) (fun item _ before related => ?_) (refl_of relation solver)
  exact (along item before).mono (fun _ _ => trans_of relation related)
    (fun _ _ => trans_of relation related) fun _ => trans_of relation related

end Along

open Solver

variable {key : Symbol}

instance (key : Symbol) : IsPreorder (Solver α) (Remarked key) where
  refl solver := (SameRecords.refl solver).remarked (fun _ => rfl) key
  trans _ _ _ := Remarked.trans

theorem remarked_adopt (key : Symbol) (solver : Solver α) (tableau : Tableau α) :
    Remarked key solver (solver.adopt tableau) := by
  refine (SameRecords.adopt solver tableau).remarked (fun _ => ?_) key
  rw [(solver.marked_adopt tableau).rest]

theorem remarked_symbols (key : Symbol) (solver : Solver α) (symbols : SymbolSupply) :
    Remarked key solver { solver with symbols } :=
  (refl_of (Remarked key) solver).with_symbols symbols

theorem along_rework (key : Symbol) (change : Tableau α → Tableau α) :
    (rework change).Along (Remarked key) :=
  .update fun solver => remarked_adopt key solver _

variable [Scalar α]

theorem along_descend (key : Symbol) (goal? : Option (LinearForm α)) :
    (descend goal?).Along (Remarked key) :=
  fun solver => Meets.descend (fun _ _ _ => remarked_adopt key solver _)
    fun _ => remarked_adopt key solver _

theorem along_repair (key : Symbol) : (repair : Action α Unit).Along (Remarked key) :=
  fun solver => Meets.repair (fun _ _ => remarked_adopt key solver _)
    fun _ => remarked_adopt key solver _

theorem along_optimize (key : Symbol) : (optimize : Action α Unit).Along (Remarked key) :=
  (along_descend key none).bind fun _ => along_repair key

theorem remarked_refresh (key : Symbol) (solver : Solver α) :
    Remarked key solver solver.refresh :=
  (SameRecords.refresh solver).remarked (fun _ => rfl) key

theorem along_refreshIfAutomatic (key : Symbol) :
    (refreshIfAutomatic : Action α Unit).Along (Remarked key) := by
  refine .update fun solver => ?_
  split
  · exact remarked_refresh key solver
  · exact refl_of (Remarked key) solver

/-- The two phases and the refresh that may follow. -/
theorem along_settle (key : Symbol) :
    (do optimize; refreshIfAutomatic : Action α Unit).Along (Remarked key) :=
  (along_optimize key).bind fun _ => along_refreshIfAutomatic key

theorem along_prepare (key : Symbol) (constraint : Constraint α) :
    (prepare key constraint).Along (Remarked key) :=
  fun solver => Meets.read_bind (Meets.update_bind (Meets.pure
    (remarked_prepared solver key constraint)))

theorem along_strip (key : Symbol) :
    (strip key : Action α (Option Symbol)).Along (Remarked key) := by
  intro solver
  apply Meets.read_bind
  split
  · exact Along.pure _ solver
  · split
    · exact Meets.update_bind (Meets.pure (remarked_stripped solver key _))
    · exact Along.pure _ solver

theorem along_freeArtificial (key artificial : Symbol) :
    (freeArtificial artificial : Action α Bool).Along (Remarked key) := by
  apply Along.read_bind
  intro _
  split
  · exact .pure _
  · split
    · exact (along_rework key _).bind fun _ => .pure _
    · split
      · exact (along_rework key _).bind fun _ => .pure _
      · exact (along_rework key _).bind fun _ => .pure _

theorem along_placeArtificially (key : Symbol) (form : LinearForm α) :
    (placeArtificially form).Along (Remarked key) := by
  refine .read_bind fun _ => .update_bind (fun solver => remarked_symbols key solver _) ?_
  refine (along_rework key _).bind fun _ => (along_descend key _).bind fun _ => ?_
  refine (along_freeArtificial key _).bind fun _ => (along_rework key _).bind fun _ => ?_
  exact .update_bind (fun solver => remarked_symbols key solver _) (.pure _)

theorem along_place (key : Symbol) (form : LinearForm α) (markers : Markers) :
    (place form markers).Along (Remarked key) := by
  unfold place
  split
  · exact (along_rework key _).bind fun _ => .pure _
  · split
    · split
      · exact (along_rework key _).bind fun _ => .pure _
      · exact .pure _
    · refine (along_placeArtificially key form).bind fun placed => ?_
      split <;> exact .pure _

theorem along_rollBack (key : Symbol) (reason : Refusal) (mark : Nat) :
    (rollBack key reason mark : Action α Unit).Along (Remarked key) := by
  unfold rollBack
  apply (along_strip key).bind
  intro marker?
  have restores : (update fun solver : Solver α =>
      { solver with symbols := solver.symbols.restore mark }).Along (Remarked key) :=
    .update fun solver => remarked_symbols key solver _
  have clears : (do
      rework fun tableau : Tableau α => tableau.truncate mark
      optimize
      update fun solver => { solver with symbols := solver.symbols.restore mark } :
        Action α Unit).Along (Remarked key) :=
    (along_rework key _).bind fun _ => (along_optimize key).bind fun _ => restores
  split
  · cases marker? with
    | none => simpa using clears
    | some marker => simpa using (along_rework key _).bind fun _ => clears
  · simpa using restores

theorem along_activate (key : Symbol) :
    (activate key : Action α Unit).Along (Remarked key) := by
  apply Along.read_bind
  intro solver
  split
  · exact .refuse _
  · refine (along_prepare key _).bind fun prepared => (along_place key _ _).bind fun placed => ?_
    split
    · exact along_settle key
    · exact (along_rollBack key _ _).bind fun _ => .refuse _

theorem along_deactivate (key : Symbol) :
    (deactivate key : Action α Unit).Along (Remarked key) := by
  apply (along_strip key).bind
  intro marker?
  cases marker? with
  | none => exact .pure _
  | some marker => exact (along_rework key _).bind fun _ => along_settle key

end Action

end SoftSimplex
