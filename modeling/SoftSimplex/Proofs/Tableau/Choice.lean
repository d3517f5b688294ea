import SoftSimplex.Proofs.Tableau.Solutions
import SoftSimplex.Tableau.Choice

/-!
# What the pivot rules choose

Every rule that compares ratios chooses a candidate of the least ratio, whatever it does about
ties, and chooses nothing only if there is no candidate. The other rules choose the first symbol
that passes a test.
-/

namespace SoftSimplex

namespace Candidate

/-- A rule for keeping the better of two candidates keeps one of them, and not one of the larger
ratio. -/
structure Selects (keep : Option (Candidate Rat) → Candidate Rat → Option (Candidate Rat)) :
    Prop where
  first : ∀ candidate, keep none candidate = some candidate
  better : ∀ current candidate,
    (keep (some current) candidate = some candidate ∧ candidate.ratio ≤ current.ratio) ∨
      (keep (some current) candidate = some current ∧ current.ratio ≤ candidate.ratio)

theorem selects_smaller : Selects smaller where
  first _ := rfl
  better current candidate := by
    by_cases less : candidate.ratio < current.ratio
    · exact Or.inl ⟨if_pos less, less.le⟩
    · exact Or.inr ⟨if_neg less, not_lt.mp less⟩

theorem selects_smallerOrOlder : Selects smallerOrOlder where
  first _ := rfl
  better current candidate := by
    unfold smallerOrOlder
    dsimp only
    split
    · rename_i chosen
      rw [Bool.or_eq_true, Bool.and_eq_true] at chosen
      rcases chosen with less | ⟨close, _⟩
      · exact Or.inl ⟨rfl, (of_decide_eq_true less).le⟩
      · have equal : candidate.ratio = current.ratio := of_decide_eq_true close
        exact Or.inl ⟨rfl, equal.le⟩
    · rename_i rejected
      have not_less : ¬ candidate.ratio < current.ratio := fun less =>
        rejected (by rw [decide_eq_true less, Bool.true_or])
      exact Or.inr ⟨rfl, not_lt.mp not_less⟩

variable {keep : Option (Candidate Rat) → Candidate Rat → Option (Candidate Rat)}

theorem Selects.foldl_some (selects : Selects keep) (candidates : List (Candidate Rat))
    (current : Candidate Rat) :
    ∃ best, candidates.foldl keep (some current) = some best ∧
      (best = current ∨ best ∈ candidates) ∧ best.ratio ≤ current.ratio ∧
        ∀ candidate ∈ candidates, best.ratio ≤ candidate.ratio := by
  induction candidates generalizing current with
  | nil => exact ⟨current, rfl, Or.inl rfl, le_rfl, by simp⟩
  | cons candidate rest inductionHypothesis =>
      have step : ∃ kept, keep (some current) candidate = some kept ∧
          (kept = current ∨ kept = candidate) ∧ kept.ratio ≤ current.ratio ∧
            kept.ratio ≤ candidate.ratio := by
        rcases selects.better current candidate with ⟨kept, less⟩ | ⟨kept, less⟩
        · exact ⟨candidate, kept, Or.inr rfl, less, le_rfl⟩
        · exact ⟨current, kept, Or.inl rfl, le_rfl, less⟩
      obtain ⟨kept, is_kept, origin, below_current, below_candidate⟩ := step
      obtain ⟨best, is_best, origin_best, below, least⟩ := inductionHypothesis kept
      refine ⟨best, by rw [List.foldl_cons, is_kept, is_best], ?_, below.trans below_current, ?_⟩
      · rcases origin_best with rfl | inside
        · rcases origin with same | rfl
          · exact Or.inl same
          · exact Or.inr List.mem_cons_self
        · exact Or.inr (List.mem_cons_of_mem _ inside)
      · intro other member
        rcases List.mem_cons.mp member with rfl | inside
        · exact below.trans below_candidate
        · exact least other inside

theorem Selects.foldl_eq_none_iff (selects : Selects keep) (candidates : List (Candidate Rat)) :
    candidates.foldl keep none = none ↔ candidates = [] := by
  cases candidates with
  | nil => simp
  | cons candidate rest =>
      obtain ⟨best, is_best, _⟩ := selects.foldl_some rest candidate
      simp [List.foldl_cons, selects.first, is_best]

/-- The chosen candidate is one of the least ratio. -/
theorem Selects.of_foldl_eq_some (selects : Selects keep) {candidates : List (Candidate Rat)}
    {best : Candidate Rat} (chosen : candidates.foldl keep none = some best) :
    best ∈ candidates ∧ ∀ candidate ∈ candidates, best.ratio ≤ candidate.ratio := by
  cases candidates with
  | nil => exact absurd chosen (by simp)
  | cons candidate rest =>
      obtain ⟨actual, is_best, origin, below, least⟩ := selects.foldl_some rest candidate
      rw [List.foldl_cons, selects.first, is_best] at chosen
      obtain rfl := Option.some.inj chosen
      refine ⟨List.mem_cons.mpr origin, fun other member => ?_⟩
      rcases List.mem_cons.mp member with rfl | inside
      · exact below
      · exact least other inside

end Candidate

/-! ## Choosing a symbol of a form -/

namespace LinearForm

variable {α : Type} [Scalar α] {form : LinearForm α}

theorem of_entering?_eq_some {entering : Symbol} (chosen : form.entering? = some entering) :
    ∃ coefficient, (entering, coefficient) ∈ form.terms ∧ entering.isDummy = false ∧
      coefficient < 0 := by
  obtain ⟨term, found, rfl⟩ := Option.map_eq_some_iff.mp chosen
  have test := List.find?_some found
  rw [Bool.and_eq_true, Bool.not_eq_true', decide_eq_true_eq] at test
  exact ⟨term.2, List.mem_of_find?_eq_some found, test⟩

theorem of_entering?_eq_none {form : LinearForm Rat} (stopped : form.entering? = none)
    {term : Symbol × Rat}
    (member : term ∈ form.terms) (not_dummy : term.1.isDummy = false) : 0 ≤ term.2 := by
  have failed := List.find?_eq_none.mp (Option.map_eq_none_iff.mp stopped) term member
  rw [not_dummy] at failed
  simpa using failed

/-- A subject is an external symbol, or a restricted one among the markers that has a negative
coefficient in a form without external symbols. -/
theorem of_subject?_eq_some {markers : List Symbol} {subject : Symbol}
    (chosen : form.subject? markers = some subject) :
    (subject.isExternal = true ∧ ∃ coefficient, (subject, coefficient) ∈ form.terms) ∨
      ((form.Over fun symbol => symbol.isExternal = false) ∧ subject ∈ markers ∧
        subject.isRestricted = true ∧ ∃ coefficient, form.coefficient? subject = some coefficient ∧
          coefficient < 0) := by
  unfold subject? at chosen
  split at chosen
  · rename_i term found
    obtain rfl := Option.some.inj chosen
    have is_external : term.1.isExternal = true := by simpa using List.find?_some found
    exact Or.inl ⟨is_external, term.2, List.mem_of_find?_eq_some found⟩
  · rename_i missing
    have internal : form.Over fun symbol => symbol.isExternal = false := fun term member => by
      simpa using List.find?_eq_none.mp missing term member
    have test := List.find?_some chosen
    rw [Bool.and_eq_true] at test
    obtain ⟨restricted, negative⟩ := test
    cases found : form.coefficient? subject with
    | none => simp [found] at negative
    | some coefficient =>
        refine Or.inr ⟨internal, List.mem_of_find?_eq_some chosen, restricted, coefficient, rfl, ?_⟩
        simpa [found] using negative

/-- A subject belongs to every class that has the symbols of the form and the markers. -/
theorem Over.of_subject? {allowed : Symbol → Prop} (spanned : form.Over allowed)
    {markers : List Symbol} (belong : ∀ marker ∈ markers, marker.isNull = false → allowed marker)
    {subject : Symbol} (chosen : form.subject? markers = some subject) : allowed subject := by
  rcases of_subject?_eq_some chosen with ⟨_, _, mentioned⟩ | ⟨_, member, restricted, _⟩
  · exact spanned _ mentioned
  · exact belong subject member ((Symbol.isNull_eq_false_iff _).mpr
      ((Symbol.isRestricted_eq_true_iff _).mp restricted).1)

/-- Without a subject there is no external symbol, and no restricted marker has a negative
coefficient. -/
theorem of_subject?_eq_none {form : LinearForm Rat} {markers : List Symbol}
    (missing : form.subject? markers = none) :
    (form.Over fun symbol => symbol.isExternal = false) ∧
      ∀ marker ∈ markers, marker.isRestricted = true → 0 ≤ form.coefficient marker := by
  unfold subject? at missing
  split at missing
  · exact absurd missing (Option.some_ne_none _)
  · rename_i no_external
    refine ⟨fun term member => ?_, fun marker member restricted => ?_⟩
    · simpa using List.find?_eq_none.mp no_external term member
    · have failed := List.find?_eq_none.mp missing marker member
      unfold coefficient
      cases found : form.coefficient? marker with
      | none => simp
      | some number =>
          rw [restricted, found] at failed
          simpa using failed

omit [Scalar α] in
theorem of_hasOnlyDummies (only : form.hasOnlyDummies = true) :
    form.Over fun symbol => symbol.isDummy = true :=
  fun term member => List.all_eq_true.mp only term member

omit [Scalar α] in
theorem exists_of_not_hasOnlyDummies (others : form.hasOnlyDummies = false) :
    ∃ term ∈ form.terms, term.1.isDummy = false := by
  obtain ⟨term, member, failed⟩ := List.all_eq_false.mp others
  exact ⟨term, member, by simpa using failed⟩

omit [Scalar α] in
theorem of_restricted?_eq_some {symbol : Symbol} (chosen : form.restricted? = some symbol) :
    symbol.isRestricted = true ∧ ∃ coefficient, (symbol, coefficient) ∈ form.terms := by
  obtain ⟨term, member, rfl⟩ := List.mem_map.mp (List.mem_of_find?_eq_some chosen)
  exact ⟨by simpa using List.find?_some chosen, term.2, member⟩

omit [Scalar α] in
theorem of_restricted?_eq_none (missing : form.restricted? = none) :
    form.Over fun symbol => symbol.isRestricted = false := fun term member => by
  simpa using List.find?_eq_none.mp missing term.1 (List.mem_map_of_mem member)

end LinearForm

/-! ## Choosing a row -/

namespace Tableau

variable {tableau : Tableau Rat}

theorem mem_bounds_iff (entering : Symbol) (candidate : Candidate Rat) :
    candidate ∈ tableau.bounds entering ↔
      ∃ row ∈ tableau.equations, ∃ coefficient, row.2.coefficient? entering = some coefficient ∧
        row.1.isRestricted = true ∧ coefficient ≤ 0 ∧
          candidate = ⟨row.1, -row.2.constant / coefficient⟩ := by
  unfold bounds
  rw [List.mem_filterMap]
  refine exists_congr fun row => and_congr_right fun _ => ?_
  simp only [Option.bind_eq_some_iff]
  refine exists_congr fun coefficient => and_congr_right fun _ => ?_
  split
  · rename_i rejected
    rw [Bool.or_eq_true, Bool.not_eq_true', decide_eq_true_eq] at rejected
    constructor
    · intro impossible
      exact absurd impossible.symm (Option.some_ne_none _)
    · rintro ⟨restricted, falling, _⟩
      rcases rejected with unrestricted | rising
      · exact absurd (restricted.symm.trans unrestricted) (by simp)
      · exact absurd rising (not_lt.mpr falling)
  · rename_i accepted
    rw [Bool.or_eq_true, not_or, Bool.not_eq_true', Bool.not_eq_false, decide_eq_true_eq,
      not_lt] at accepted
    rw [Option.some.injEq]
    exact ⟨fun equal => ⟨accepted.1, accepted.2, equal.symm⟩, fun all => all.2.2.symm⟩

/-- The row that leaves is restricted, falls when the entering symbol grows, and is among the
first such rows to reach zero. -/
theorem of_leaving?_eq_some {entering leaving : Symbol}
    (chosen : tableau.leaving? entering = some leaving) :
    ∃ form coefficient, (leaving, form) ∈ tableau.equations ∧ leaving.isRestricted = true ∧
      form.coefficient? entering = some coefficient ∧ coefficient ≤ 0 ∧
        ∀ row ∈ tableau.equations, ∀ other, row.1.isRestricted = true →
          row.2.coefficient? entering = some other → other ≤ 0 →
            -form.constant / coefficient ≤ -row.2.constant / other := by
  obtain ⟨best, is_best, rfl⟩ := Option.map_eq_some_iff.mp chosen
  obtain ⟨member, least⟩ := Candidate.selects_smallerOrOlder.of_foldl_eq_some is_best
  obtain ⟨row, inside, coefficient, found, restricted, falling, rfl⟩ :=
    (mem_bounds_iff entering best).mp member
  refine ⟨row.2, coefficient, inside, restricted, found, falling, ?_⟩
  intro row' inside' other restricted' found' falling'
  exact least _ ((mem_bounds_iff entering _).mpr
    ⟨row', inside', other, found', restricted', falling', rfl⟩)

/-- If no row leaves, no restricted row falls when the entering symbol grows. -/
theorem of_leaving?_eq_none {entering : Symbol} (missing : tableau.leaving? entering = none)
    {row : Symbol × LinearForm Rat} (member : row ∈ tableau.equations)
    (restricted : row.1.isRestricted = true) {coefficient : Rat}
    (found : row.2.coefficient? entering = some coefficient) : 0 < coefficient := by
  rw [leaving?, Option.map_eq_none_iff,
    Candidate.selects_smallerOrOlder.foldl_eq_none_iff] at missing
  by_contra not_rising
  have inside := (mem_bounds_iff entering ⟨row.1, -row.2.constant / coefficient⟩).mpr
    ⟨row, member, coefficient, found, restricted, not_lt.mp not_rising, rfl⟩
  rw [missing] at inside
  exact List.not_mem_nil inside

theorem mem_lifts_iff (form : LinearForm Rat) (candidate : Candidate Rat) :
    candidate ∈ tableau.lifts form ↔
      ∃ term ∈ form.terms, term.1.isDummy = false ∧ 0 < term.2 ∧
        candidate = ⟨term.1, tableau.objective.coefficient term.1 / term.2⟩ := by
  unfold lifts
  rw [List.mem_filterMap]
  refine exists_congr fun ⟨symbol, coefficient⟩ => and_congr_right fun _ => ?_
  dsimp only
  split
  · rename_i rejected
    rw [Bool.or_eq_true, decide_eq_true_eq] at rejected
    constructor
    · intro impossible
      exact absurd impossible.symm (Option.some_ne_none _)
    · rintro ⟨not_dummy, rising, _⟩
      rcases rejected with is_dummy | falling
      · exact absurd (is_dummy.symm.trans not_dummy) (by simp)
      · exact absurd rising (not_lt.mpr falling)
  · rename_i accepted
    rw [Bool.or_eq_true, not_or, Bool.not_eq_true, decide_eq_true_eq, not_le] at accepted
    rw [Option.some.injEq]
    exact ⟨fun equal => ⟨accepted.1, accepted.2, equal.symm⟩, fun all => all.2.2.symm⟩

/-- The symbol that lifts a row has a positive coefficient in it and costs the least. -/
theorem of_lifting?_eq_some {form : LinearForm Rat} {entering : Symbol}
    (chosen : tableau.lifting? form = some entering) :
    ∃ coefficient, (entering, coefficient) ∈ form.terms ∧ entering.isDummy = false ∧
      0 < coefficient ∧ ∀ term ∈ form.terms, term.1.isDummy = false → 0 < term.2 →
        tableau.objective.coefficient entering / coefficient ≤
          tableau.objective.coefficient term.1 / term.2 := by
  obtain ⟨best, is_best, rfl⟩ := Option.map_eq_some_iff.mp chosen
  obtain ⟨member, least⟩ := Candidate.selects_smaller.of_foldl_eq_some is_best
  obtain ⟨term, inside, not_dummy, rising, rfl⟩ := (mem_lifts_iff form best).mp member
  refine ⟨term.2, inside, not_dummy, rising, fun other inside' not_dummy' rising' => ?_⟩
  exact least _ ((mem_lifts_iff form _).mpr ⟨other, inside', not_dummy', rising', rfl⟩)

theorem of_lifting?_eq_none {form : LinearForm Rat} (missing : tableau.lifting? form = none)
    {term : Symbol × Rat} (member : term ∈ form.terms) (not_dummy : term.1.isDummy = false) :
    term.2 ≤ 0 := by
  rw [lifting?, Option.map_eq_none_iff, Candidate.selects_smaller.foldl_eq_none_iff] at missing
  by_contra not_falling
  have inside := (mem_lifts_iff form
    ⟨term.1, tableau.objective.coefficient term.1 / term.2⟩).mpr
      ⟨term, member, not_dummy, not_le.mp not_falling, rfl⟩
  rw [missing] at inside
  exact List.not_mem_nil inside

theorem mem_markerBounds_iff (marker : Symbol) (falling : Bool) (candidate : Candidate Rat) :
    candidate ∈ tableau.markerBounds marker falling ↔
      ∃ row ∈ tableau.equations, ∃ coefficient, row.2.coefficient? marker = some coefficient ∧
        row.1.isExternal = false ∧ decide (coefficient < 0) = falling ∧
          candidate = ⟨row.1, (if falling then -row.2.constant else row.2.constant) /
            coefficient⟩ := by
  unfold markerBounds
  rw [List.mem_filterMap]
  refine exists_congr fun ⟨basic, form⟩ => and_congr_right fun _ => ?_
  simp only [Option.bind_eq_some_iff]
  refine exists_congr fun coefficient => and_congr_right fun _ => ?_
  by_cases external : basic.isExternal = true
  · simp [external]
  · rw [Bool.not_eq_true] at external
    rw [external, Bool.false_or]
    split
    · rename_i other_side
      simp [bne_iff_ne.mp other_side]
    · rename_i same_side
      have side : decide (coefficient < 0) = falling := by simpa using same_side
      cases falling with
      | false => simp [side, eq_comm]
      | true => simp [side, eq_comm]

/-- How the row given up for a marker was found: among the rows that fall with the marker, or
without any bound from these among those that rise, or else among those of external symbols. -/
theorem markerLeaving?_cases {α : Type} [Scalar α] {tableau : Tableau α} {marker leaving : Symbol}
    (chosen : tableau.markerLeaving? marker = some leaving) :
    (∃ best, (tableau.markerBounds marker true).foldl Candidate.smaller none = some best ∧
      best.symbol = leaving) ∨
    (tableau.markerBounds marker true).foldl Candidate.smaller none = none ∧
      ((∃ best, (tableau.markerBounds marker false).foldl Candidate.smaller none = some best ∧
        best.symbol = leaving) ∨
      (tableau.markerBounds marker false).foldl Candidate.smaller none = none ∧
        ∃ row ∈ tableau.equations, row.1 = leaving ∧ row.1.isExternal = true ∧
          row.2.mentions marker = true) := by
  unfold markerLeaving? at chosen
  dsimp only at chosen
  cases falls : (tableau.markerBounds marker true).foldl Candidate.smaller none with
  | some best =>
      rw [falls] at chosen
      exact Or.inl ⟨best, rfl, by simpa using chosen⟩
  | none =>
      cases rises : (tableau.markerBounds marker false).foldl Candidate.smaller none with
      | some best =>
          rw [falls, rises] at chosen
          exact Or.inr ⟨rfl, Or.inl ⟨best, rfl, by simpa using chosen⟩⟩
      | none =>
          rw [falls, rises] at chosen
          obtain ⟨row, found, is_leaving⟩ : ∃ row, tableau.equations.reverse.find? (fun row =>
              row.1.isExternal && row.2.mentions marker) = some row ∧ row.1 = leaving := by
            simpa [lastExternal?] using chosen
          have test := List.find?_some found
          rw [Bool.and_eq_true] at test
          exact Or.inr ⟨rfl, Or.inr ⟨rfl, row,
            List.mem_reverse.mp (List.mem_of_find?_eq_some found), is_leaving, test⟩⟩

/-- What the row given up for a marker is: the tightest of the rows that fall with the marker, or
without such rows the tightest of those that rise, external rows apart; or without any of these
an external row. -/
inductive Yields (tableau : Tableau Rat) (marker leaving : Symbol) (form : LinearForm Rat)
    (coefficient : Rat) : Prop where
  | falling (internal : leaving.isExternal = false) (falls : coefficient < 0)
      (tightest : ∀ row ∈ tableau.equations, ∀ other, row.1.isExternal = false →
        row.2.coefficient? marker = some other → other < 0 →
          -form.constant / coefficient ≤ -row.2.constant / other)
  | rising (internal : leaving.isExternal = false) (rises : 0 ≤ coefficient)
      (all_rise : ∀ row ∈ tableau.equations, ∀ other, row.1.isExternal = false →
        row.2.coefficient? marker = some other → 0 ≤ other)
      (tightest : ∀ row ∈ tableau.equations, ∀ other, row.1.isExternal = false →
        row.2.coefficient? marker = some other →
          form.constant / coefficient ≤ row.2.constant / other)
  | outside (is_external : leaving.isExternal = true)
      (apart : ∀ row ∈ tableau.equations, row.1.isExternal = false →
        row.2.mentions marker = false)

/-- The row given up for a marker mentions it. -/
theorem of_markerLeaving?_eq_some {marker leaving : Symbol}
    (chosen : tableau.markerLeaving? marker = some leaving) :
    ∃ form coefficient, (leaving, form) ∈ tableau.equations ∧
      form.coefficient? marker = some coefficient ∧
        tableau.Yields marker leaving form coefficient := by
  rcases markerLeaving?_cases chosen with ⟨best, falls, rfl⟩ | ⟨falls, others⟩
  · obtain ⟨member, least⟩ := Candidate.selects_smaller.of_foldl_eq_some falls
    obtain ⟨row, inside, coefficient, found, internal, falling, rfl⟩ :=
      (mem_markerBounds_iff marker true best).mp member
    refine ⟨row.2, coefficient, inside, found,
      .falling internal (of_decide_eq_true falling) ?_⟩
    intro other inside' coefficient' internal' found' falling'
    simpa using least _ ((mem_markerBounds_iff marker true _).mpr
      ⟨other, inside', coefficient', found', internal', decide_eq_true falling', rfl⟩)
  -- Without a falling row, the rising ones are all the internal rows that mention the marker.
  · have none_falls := (Candidate.selects_smaller.foldl_eq_none_iff _).mp falls
    have all_rise : ∀ row ∈ tableau.equations, ∀ other, row.1.isExternal = false →
        row.2.coefficient? marker = some other → 0 ≤ other := by
      intro row inside other internal found
      by_contra falling
      have member := (mem_markerBounds_iff marker true _).mpr
        ⟨row, inside, other, found, internal, decide_eq_true (not_le.mp falling), rfl⟩
      rw [none_falls] at member
      exact List.not_mem_nil member
    rcases others with ⟨best, rises, rfl⟩ | ⟨rises, row, inside, rfl, is_external, mentioned⟩
    · obtain ⟨member, least⟩ := Candidate.selects_smaller.of_foldl_eq_some rises
      obtain ⟨row, inside, coefficient, found, internal, rising, rfl⟩ :=
        (mem_markerBounds_iff marker false best).mp member
      refine ⟨row.2, coefficient, inside, found,
        .rising internal (not_lt.mp (of_decide_eq_false rising)) all_rise ?_⟩
      intro other inside' coefficient' internal' found'
      have rising' := all_rise other inside' coefficient' internal' found'
      simpa using least _ ((mem_markerBounds_iff marker false _).mpr
        ⟨other, inside', coefficient', found', internal',
          decide_eq_false (not_lt.mpr rising'), rfl⟩)
    · have none_rises := (Candidate.selects_smaller.foldl_eq_none_iff _).mp rises
      have apart : ∀ row ∈ tableau.equations, row.1.isExternal = false →
          row.2.mentions marker = false := by
        intro row inside internal
        by_contra mentioned
        have found := LinearForm.coefficient?_of_mentions (by simpa using mentioned)
        have rising := all_rise row inside _ internal found
        have member := (mem_markerBounds_iff marker false _).mpr
          ⟨row, inside, _, found, internal, decide_eq_false (not_lt.mpr rising), rfl⟩
        rw [none_rises] at member
        exact List.not_mem_nil member
      exact ⟨row.2, _, inside, LinearForm.coefficient?_of_mentions mentioned,
        .outside is_external apart⟩

/-- If no row can be given up for a marker, no row mentions it. -/
theorem of_markerLeaving?_eq_none {marker : Symbol}
    (missing : tableau.markerLeaving? marker = none) {row : Symbol × LinearForm Rat}
    (member : row ∈ tableau.equations) : row.2.mentions marker = false := by
  unfold markerLeaving? at missing
  dsimp only at missing
  rw [Option.orElse_eq_orElse, Option.orElse_eq_or, Option.or_eq_none_iff,
    Option.orElse_eq_or, Option.or_eq_none_iff] at missing
  obtain ⟨⟨falls, rises⟩, no_external⟩ := missing
  rw [Option.map_eq_none_iff, Candidate.selects_smaller.foldl_eq_none_iff] at falls rises
  rw [lastExternal?, Option.map_eq_none_iff, List.find?_eq_none] at no_external
  by_contra mentioned
  rw [Bool.not_eq_false] at mentioned
  have found := LinearForm.coefficient?_of_mentions mentioned
  by_cases external : row.1.isExternal = true
  · refine no_external row (List.mem_reverse.mpr member) ?_
    change (row.1.isExternal && row.2.mentions marker) = true
    rw [external, mentioned, Bool.and_true]
  · have bound : ∀ falling, decide (row.2.coefficient marker < 0) = falling →
        tableau.markerBounds marker falling ≠ [] := by
      intro falling side empty
      have inside := (mem_markerBounds_iff marker falling _).mpr
        ⟨row, member, _, found, by simpa using external, side, rfl⟩
      rw [empty] at inside
      exact List.not_mem_nil inside
    cases side : decide (row.2.coefficient marker < 0) with
    | true => exact bound true side falls
    | false => exact bound false side rises

end Tableau

end SoftSimplex
