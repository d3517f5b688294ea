import SoftSimplex.Proofs.Form.Reduced
import SoftSimplex.Proofs.Solver.Tolerance
import SoftSimplex.Proofs.Tableau.Choice

/-!
# Near ties

Under the tolerance, the walk over the rows that limit a symbol exchanges the best row so far for
one of a smaller ratio, or for an older one of a close ratio. In the second case the ratio may rise
by almost the tolerance. The next close row is compared with the new ratio and not with the least
one, so a run of near ties lets the ratio rise again and again, by the tolerance for every row at
most.

Where close ratios form clusters, all ratios that come after the least one and are exchanged for it
lie in its cluster, and the ratio in the end exceeds none by more than the tolerance.
-/

namespace SoftSimplex

namespace Candidate

/-- Keep the candidate of the smaller ratio, or the older one of two within the tolerance. -/
abbrev nearer : Option (Candidate Rat) → Candidate Rat → Option (Candidate Rat) :=
  @smallerOrOlder Rat Rational.tolerant

/-- Two ratios that are not told apart. -/
def Near (left right : Candidate Rat) : Prop :=
  |left.ratio - right.ratio| < Rational.tolerance

instance (left right : Candidate Rat) : Decidable (left.Near right) :=
  inferInstanceAs (Decidable (_ < _))

variable {current candidate least : Candidate Rat} {candidates all : List (Candidate Rat)}

theorem near_self (candidate : Candidate Rat) : candidate.Near candidate := by
  rw [Near, sub_self, abs_zero]
  exact Rational.tolerance_pos

theorem nearer_none (candidate : Candidate Rat) : nearer none candidate =
    if candidate.ratio < Rational.largest then some candidate else none := by
  split
  · rename_i below
    exact if_pos (decide_eq_true below)
  · rename_i not_below
    exact if_neg (mt of_decide_eq_true not_below)

/-- A candidate that is kept instead of the current one is smaller or near. One that is not kept is
no smaller. -/
theorem nearer_some (current candidate : Candidate Rat) :
    (nearer (some current) candidate = some candidate ∧
      (candidate.ratio < current.ratio ∨ candidate.Near current)) ∨
      (nearer (some current) candidate = some current ∧ current.ratio ≤ candidate.ratio) := by
  unfold nearer smallerOrOlder
  dsimp only
  split
  · rename_i chosen
    rw [Bool.or_eq_true, Bool.and_eq_true] at chosen
    refine Or.inl ⟨rfl, chosen.imp of_decide_eq_true fun both => ?_⟩
    exact (Rational.within_iff _ _ _).mp both.1
  · rename_i rejected
    refine Or.inr ⟨rfl, not_lt.mp fun less => rejected ?_⟩
    rw [decide_eq_true less, Bool.true_or]

/-- The ratio that is kept exceeds that of a candidate by the tolerance for every later one at
most. -/
theorem foldl_nearer_some (candidates : List (Candidate Rat)) (current : Candidate Rat) :
    ∃ best, candidates.foldl nearer (some current) = some best ∧
      (best = current ∨ best ∈ candidates) ∧
      best.ratio ≤ current.ratio + candidates.length * Rational.tolerance ∧
      ∀ candidate ∈ candidates,
        best.ratio ≤ candidate.ratio + (candidates.length - 1 : Nat) * Rational.tolerance := by
  have positive := Rational.tolerance_pos
  induction candidates generalizing current with
  | nil => exact ⟨current, rfl, Or.inl rfl, by simp, by simp⟩
  | cons candidate rest inductionHypothesis =>
      have step : ∃ kept, nearer (some current) candidate = some kept ∧
          (kept = current ∨ kept = candidate) ∧ kept.ratio ≤ candidate.ratio ∧
            kept.ratio ≤ current.ratio + Rational.tolerance := by
        rcases nearer_some current candidate with ⟨kept, less | near⟩ | ⟨kept, less⟩
        · exact ⟨candidate, kept, Or.inr rfl, le_rfl, by linarith⟩
        · have apart := (abs_lt.mp near).2
          exact ⟨candidate, kept, Or.inr rfl, le_rfl, by linarith⟩
        · exact ⟨current, kept, Or.inl rfl, less, by linarith⟩
      obtain ⟨kept, is_kept, origin, below_candidate, below_current⟩ := step
      obtain ⟨best, is_best, origin_best, below_kept, below_rest⟩ := inductionHypothesis kept
      rw [List.foldl_cons, is_kept, List.length_cons, Nat.add_sub_cancel]
      refine ⟨best, is_best, ?_, ?_, ?_⟩
      · rcases origin_best with rfl | inside
        · rcases origin with same | rfl
          · exact Or.inl same
          · exact Or.inr List.mem_cons_self
        · exact Or.inr (List.mem_cons_of_mem _ inside)
      · push_cast
        linarith
      · intro other member
        rcases List.mem_cons.mp member with rfl | inside
        · linarith
        · have fewer : ((rest.length - 1 : Nat) : Rat) ≤ rest.length := by
            exact_mod_cast Nat.sub_le _ _
          have spread := mul_le_mul_of_nonneg_right fewer positive.le
          linarith [below_rest other inside]

/-- Candidates that are near to the same one are near to each other, and none that is near to one
below the largest number reaches it. -/
def Clustered (candidates : List (Candidate Rat)) : Prop :=
  ∀ first ∈ candidates, ∀ second ∈ candidates, first.Near second →
    (first.ratio < Rational.largest → second.ratio < Rational.largest) ∧
      ∀ third ∈ candidates, second.Near third → first.Near third

instance (candidates : List (Candidate Rat)) : Decidable (Clustered candidates) :=
  inferInstanceAs (Decidable (∀ first ∈ candidates, ∀ second ∈ candidates, first.Near second →
    (first.ratio < Rational.largest → second.ratio < Rational.largest) ∧
      ∀ third ∈ candidates, second.Near third → first.Near third))

/-- The candidate that is kept stays near to the least one. -/
theorem Clustered.foldl_nearer_some (clustered : Clustered all)
    (inside : ∀ candidate ∈ candidates, candidate ∈ all) (current_inside : current ∈ all)
    (least_inside : least ∈ all) (near : least.Near current) (below : least.ratio ≤ current.ratio) :
    ∃ best ∈ all, candidates.foldl nearer (some current) = some best ∧
      ∃ least' ∈ all, least'.Near best ∧ least'.ratio ≤ least.ratio ∧
        ∀ candidate ∈ candidates, least'.ratio ≤ candidate.ratio := by
  induction candidates generalizing current least with
  | nil => exact ⟨current, current_inside, rfl, least, least_inside, near, le_rfl, by simp⟩
  | cons candidate rest inductionHypothesis =>
      have candidate_inside := inside candidate List.mem_cons_self
      have step : ∃ kept ∈ all, nearer (some current) candidate = some kept ∧
          ∃ next ∈ all, next.Near kept ∧ next.ratio ≤ kept.ratio ∧ next.ratio ≤ least.ratio ∧
            next.ratio ≤ candidate.ratio := by
        by_cases new : candidate.ratio < least.ratio
        · rcases nearer_some current candidate with ⟨kept, _⟩ | ⟨_, less⟩
          · exact ⟨candidate, candidate_inside, kept, candidate, candidate_inside,
              near_self candidate, le_rfl, new.le, le_rfl⟩
          · exact absurd (below.trans less) (not_le.mpr new)
        · rw [not_lt] at new
          rcases nearer_some current candidate with ⟨kept, less | close⟩ | ⟨kept, less⟩
          · refine ⟨candidate, candidate_inside, kept, least, least_inside, ?_, new, le_rfl, new⟩
            have apart := (abs_lt.mp near).1
            have positive := Rational.tolerance_pos
            exact abs_lt.mpr ⟨by linarith, by linarith⟩
          · have again : current.Near candidate := by
              rw [Near, abs_sub_comm]
              exact close
            have joined := (clustered least least_inside current current_inside near).2 candidate
              candidate_inside again
            exact ⟨candidate, candidate_inside, kept, least, least_inside, joined, new, le_rfl, new⟩
          · exact ⟨current, current_inside, kept, least, least_inside, near, below, le_rfl, new⟩
      obtain ⟨kept, kept_inside, is_kept, next, next_inside, near', below', low, low'⟩ := step
      obtain ⟨best, best_inside, is_best, least', least_inside', close, lower, lowest⟩ :=
        inductionHypothesis (fun other member => inside other (List.mem_cons_of_mem _ member))
          kept_inside next_inside near' below'
      rw [List.foldl_cons, is_kept]
      refine ⟨best, best_inside, is_best, least', least_inside', close, lower.trans low, ?_⟩
      intro other member
      rcases List.mem_cons.mp member with rfl | member
      · exact lower.trans low'
      · exact lowest other member

/-- Nothing is kept until a candidate comes that is below the largest number. -/
theorem foldl_nearer_none (candidates : List (Candidate Rat)) :
    (candidates.foldl nearer none = none ∧
      ∀ candidate ∈ candidates, Rational.largest ≤ candidate.ratio) ∨
      ∃ skipped first rest, candidates = skipped ++ first :: rest ∧
        (∀ candidate ∈ skipped, Rational.largest ≤ candidate.ratio) ∧
        first.ratio < Rational.largest ∧
        candidates.foldl nearer none = rest.foldl nearer (some first) := by
  induction candidates with
  | nil => exact Or.inl ⟨rfl, by simp⟩
  | cons candidate rest inductionHypothesis =>
      rw [List.foldl_cons, nearer_none]
      split
      · rename_i below
        exact Or.inr ⟨[], candidate, rest, rfl, by simp, below, rfl⟩
      · rename_i not_below
        have high := not_lt.mp not_below
        rcases inductionHypothesis with ⟨missing, high'⟩ |
          ⟨skipped, first, later, rfl, high', below, same⟩
        · exact Or.inl ⟨missing, List.forall_mem_cons.mpr ⟨high, high'⟩⟩
        · exact Or.inr ⟨candidate :: skipped, first, later, rfl,
            List.forall_mem_cons.mpr ⟨high, high'⟩, below, same⟩

theorem foldl_nearer_eq_none_iff (candidates : List (Candidate Rat)) :
    candidates.foldl nearer none = none ↔
      ∀ candidate ∈ candidates, Rational.largest ≤ candidate.ratio := by
  rcases foldl_nearer_none candidates with ⟨missing, high⟩ |
    ⟨skipped, first, rest, rfl, _, below, same⟩
  · exact iff_of_true missing high
  · obtain ⟨best, is_best, _⟩ := foldl_nearer_some rest first
    rw [same, is_best]
    refine iff_of_false (Option.some_ne_none best) fun high => ?_
    exact absurd below (not_lt.mpr (high first (by simp)))

/-- The chosen candidate exceeds none by more than the tolerance for all others together. -/
theorem of_foldl_nearer_eq_some {best : Candidate Rat}
    (chosen : candidates.foldl nearer none = some best) :
    best ∈ candidates ∧ ∀ candidate ∈ candidates, candidate.ratio < Rational.largest →
      best.ratio ≤ candidate.ratio + (candidates.length - 1 : Nat) * Rational.tolerance := by
  rcases foldl_nearer_none candidates with ⟨missing, _⟩ |
    ⟨skipped, first, rest, rfl, high, _, same⟩
  · rw [missing] at chosen
    exact absurd chosen.symm (Option.some_ne_none best)
  · obtain ⟨actual, is_best, origin, below_first, below_rest⟩ := foldl_nearer_some rest first
    rw [same, is_best] at chosen
    obtain rfl := Option.some.inj chosen
    refine ⟨List.mem_append_right _ (List.mem_cons.mpr origin), fun candidate member low => ?_⟩
    have positive := Rational.tolerance_pos
    have wide : ∀ {count : Nat}, count ≤ rest.length → (count : Rat) * Rational.tolerance ≤
        ((skipped ++ first :: rest).length - 1 : Nat) * Rational.tolerance := by
      intro count fewer
      apply mul_le_mul_of_nonneg_right _ positive.le
      rw [List.length_append, List.length_cons]
      exact_mod_cast by omega
    rcases List.mem_append.mp member with before | within
    · exact absurd low (not_lt.mpr (high candidate before))
    · rcases List.mem_cons.mp within with rfl | after
      · linarith [wide (Nat.le_refl _)]
      · linarith [below_rest candidate after, wide (Nat.sub_le rest.length 1)]

/-- Among clusters the chosen candidate exceeds none by the tolerance. -/
theorem Clustered.of_foldl_nearer_eq_some {best : Candidate Rat} (clustered : Clustered candidates)
    (chosen : candidates.foldl nearer none = some best) :
    best.ratio < Rational.largest ∧ ∀ candidate ∈ candidates, candidate.ratio < Rational.largest →
      best.ratio ≤ candidate.ratio + Rational.tolerance := by
  rcases foldl_nearer_none candidates with ⟨missing, _⟩ |
    ⟨skipped, first, rest, rfl, high, low, same⟩
  · rw [missing] at chosen
    exact absurd chosen.symm (Option.some_ne_none best)
  · have first_inside : first ∈ skipped ++ first :: rest := by simp
    have rest_inside : ∀ candidate ∈ rest, candidate ∈ skipped ++ first :: rest := fun _ member =>
      List.mem_append_right _ (List.mem_cons_of_mem _ member)
    obtain ⟨actual, best_inside, is_best, least, least_inside, near, below_first, below_rest⟩ :=
      clustered.foldl_nearer_some rest_inside first_inside first_inside (near_self first) le_rfl
    rw [same, is_best] at chosen
    obtain rfl := Option.some.inj chosen
    refine ⟨(clustered least least_inside actual best_inside near).1 (below_first.trans_lt low), ?_⟩
    intro candidate member below
    have apart := (abs_lt.mp near).1
    rcases List.mem_append.mp member with before | within
    · exact absurd below (not_lt.mpr (high candidate before))
    · rcases List.mem_cons.mp within with rfl | after
      · linarith
      · linarith [below_rest candidate after]

end Candidate

/-! ## Choosing a row -/

namespace Tableau

variable {tableau : Tableau Rat} {entering : Symbol}

/-- The basic symbol is restricted, and its row falls when the entering symbol grows and reaches
zero when that has grown by the ratio. -/
def Falls (tableau : Tableau Rat) (entering basic : Symbol) (ratio : Rat) : Prop :=
  basic.isRestricted = true ∧ ∃ form coefficient, (basic, form) ∈ tableau.equations ∧
    form.coefficient? entering = some coefficient ∧ coefficient < 0 ∧
      ratio = -form.constant / coefficient

/-- The row that leaves under the tolerance. -/
abbrev leavingTolerant? (tableau : Tableau Rat) (entering : Symbol) : Option Symbol :=
  @leaving? Rat Rational.tolerant tableau entering

theorem leavingTolerant?_eq (tableau : Tableau Rat) (entering : Symbol) :
    tableau.leavingTolerant? entering =
      ((tableau.bounds entering).foldl Candidate.nearer none).map Candidate.symbol :=
  rfl

/-- In a tableau that stores no zero coefficient the bounds are the rows that fall. -/
theorem mem_bounds_iff_falls (reduced : ∀ row ∈ tableau.equations, row.2.Reduced)
    (candidate : Candidate Rat) : candidate ∈ tableau.bounds entering ↔
      tableau.Falls entering candidate.symbol candidate.ratio := by
  rw [mem_bounds_iff]
  constructor
  · rintro ⟨⟨basic, form⟩, member, coefficient, found, restricted, not_rising, rfl⟩
    obtain ⟨term, in_form, _, rfl⟩ := (form.coefficient?_eq_some_iff entering coefficient).mp found
    have nonzero := reduced _ member term in_form
    exact ⟨restricted, form, term.2, member, found, lt_of_le_of_ne not_rising nonzero, rfl⟩
  · rintro ⟨restricted, form, coefficient, member, found, falling, ratio⟩
    refine ⟨(candidate.symbol, form), member, coefficient, found, restricted, falling.le, ?_⟩
    cases candidate
    rw [Candidate.mk.injEq]
    exact ⟨rfl, ratio⟩

/-- The row of the leaving symbol falls, and of all falling rows whose ratios are below the largest
number none reaches zero earlier by more than the excess. -/
def Tightest (tableau : Tableau Rat) (entering leaving : Symbol) (excess ratio : Rat) : Prop :=
  tableau.Falls entering leaving ratio ∧ ∀ basic other, tableau.Falls entering basic other →
    other < Rational.largest → ratio ≤ other + excess

end Tableau

/-- Under the tolerance a row leaves unless there is none to be considered. It is tightest up to the
tolerance for every other falling row, so for two rows up to the tolerance. If the ratios form
clusters, it is tightest up to the tolerance however many there are. -/
theorem leaving_within_tolerance {tableau : Tableau Rat}
    (reduced : ∀ row ∈ tableau.equations, row.2.Reduced) (entering : Symbol) :
    (tableau.leavingTolerant? entering = none ↔
      ∀ basic ratio, tableau.Falls entering basic ratio → Rational.largest ≤ ratio) ∧
    ∀ leaving, tableau.leavingTolerant? entering = some leaving → ∃ ratio,
      tableau.Tightest entering leaving
        (((tableau.bounds entering).length - 1 : Nat) * Rational.tolerance) ratio ∧
      (Candidate.Clustered (tableau.bounds entering) → ratio < Rational.largest ∧
        tableau.Tightest entering leaving Rational.tolerance ratio) := by
  have of_falls : ∀ {basic : Symbol} {ratio : Rat}, tableau.Falls entering basic ratio →
      (⟨basic, ratio⟩ : Candidate Rat) ∈ tableau.bounds entering :=
    fun falls => (Tableau.mem_bounds_iff_falls reduced ⟨_, _⟩).mpr falls
  constructor
  · rw [Tableau.leavingTolerant?_eq, Option.map_eq_none_iff, Candidate.foldl_nearer_eq_none_iff]
    constructor
    · exact fun high basic ratio falls => high _ (of_falls falls)
    · exact fun high candidate member =>
        high _ _ ((Tableau.mem_bounds_iff_falls reduced candidate).mp member)
  · intro leaving leaves
    rw [Tableau.leavingTolerant?_eq, Option.map_eq_some_iff] at leaves
    obtain ⟨best, chosen, rfl⟩ := leaves
    obtain ⟨member, nearly⟩ := Candidate.of_foldl_nearer_eq_some chosen
    have falls := (Tableau.mem_bounds_iff_falls reduced best).mp member
    refine ⟨best.ratio, ⟨falls, fun basic other falls' => nearly _ (of_falls falls')⟩, ?_⟩
    intro clustered
    obtain ⟨below, tightest⟩ := clustered.of_foldl_nearer_eq_some chosen
    exact ⟨below, falls, fun basic other falls' => tightest _ (of_falls falls')⟩

/-- A variable that is not negative gets three upper bounds, the last of which is zero, and is about
to be pulled toward ten. Other variables are created in between, so that the row of the last bound
comes first, and that of the first bound comes last. -/
def Command.crowding (first second : Rat) : List (Command Rat) :=
  createVariable :: (written 1 1000000000 [(1, 1)] .atLeast 0 ++
    List.replicate 1 createVariable ++ written 2 1000000000 [(1, 1)] .atMost first ++
    List.replicate 5 createVariable ++ written 3 1000000000 [(1, 1)] .atMost second ++
    List.replicate 5 createVariable ++ written 4 1000000000 [(1, 1 / 1024)] .atMost 0 ++
    List.replicate 4 createVariable ++ (written 5 1 [(1, 1)] .equal 10).dropLast)

/-- The tableau before the first pivot toward ten. -/
def crowded (first second : Rat) : Tableau Rat :=
  ((afterTolerant (Command.crowding first second)).solver.performTolerant
    (.addConstraint ⟨5, 0⟩) 0).2.tableau

/-- Of two equal bounds and one within the tolerance the oldest leaves. -/
theorem leaving_within_tolerance_crowded :
    (crowded (1 / 1048576) 0).leavingTolerant? ⟨2, .slack⟩ = some ⟨4, .slack⟩ ∧ ∃ ratio,
      (crowded (1 / 1048576) 0).Tightest ⟨2, .slack⟩ ⟨4, .slack⟩ Rational.tolerance ratio := by
  have reduced : ∀ row ∈ (crowded (1 / 1048576) 0).equations, ∀ term ∈ row.2.terms, term.2 ≠ 0 := by
    decide +kernel
  have leaves : (crowded (1 / 1048576) 0).leavingTolerant? ⟨2, .slack⟩ = some ⟨4, .slack⟩ := by
    decide +kernel
  obtain ⟨ratio, _, tightest⟩ := (leaving_within_tolerance reduced ⟨2, .slack⟩).2 _ leaves
  exact ⟨leaves, ratio, (tightest (by decide +kernel)).2⟩

/-- If the bounds rise in steps of less than the tolerance, the oldest leaves too, two steps beyond
the least one. -/
theorem leaving_beyond_tolerance :
    ¬ ∀ (tableau : Tableau Rat) (entering leaving : Symbol),
      (∀ row ∈ tableau.equations, row.2.Reduced) →
        tableau.leavingTolerant? entering = some leaving →
          ∃ ratio, tableau.Tightest entering leaving Rational.tolerance ratio := by
  intro always
  have reduced : ∀ row ∈ (crowded (1 / 524288) (1 / 1048576)).equations,
      ∀ term ∈ row.2.terms, term.2 ≠ 0 := by decide +kernel
  obtain ⟨ratio, falls, tightest⟩ := always (crowded (1 / 524288) (1 / 1048576)) ⟨2, .slack⟩
    ⟨4, .slack⟩ reduced (by decide +kernel)
  have bounds : ∀ candidate : Candidate Rat,
      candidate ∈ (crowded (1 / 524288) (1 / 1048576)).bounds ⟨2, .slack⟩ ↔
        (crowded (1 / 524288) (1 / 1048576)).Falls ⟨2, .slack⟩ candidate.symbol candidate.ratio :=
    Tableau.mem_bounds_iff_falls reduced
  have chosen : ∀ candidate ∈ (crowded (1 / 524288) (1 / 1048576)).bounds ⟨2, .slack⟩,
      candidate.symbol = ⟨4, .slack⟩ → candidate.ratio = 1 / 524288 := by decide +kernel
  obtain ⟨least, inside, zero⟩ : ∃ candidate ∈
      (crowded (1 / 524288) (1 / 1048576)).bounds ⟨2, .slack⟩, candidate.ratio = 0 := by
    decide +kernel
  have late : ratio = 1 / 524288 := chosen ⟨⟨4, .slack⟩, ratio⟩ ((bounds _).mpr falls) rfl
  have early := tightest _ _ ((bounds least).mp inside)
  rw [late, zero] at early
  exact absurd (early (by decide +kernel)) (by decide +kernel)

end SoftSimplex
