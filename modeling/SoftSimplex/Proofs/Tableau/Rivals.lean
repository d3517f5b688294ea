import SoftSimplex.Proofs.Tableau.Wishes

/-!
# Two wishes for one variable

A wish asks that a multiple of a variable equals that multiple of a target, and has a price. Two
wishes for the same variable pull at it from two sides, each with its price times the size of its
coefficient, and the objective adds the prices up. Which of the two is granted can be read off the
tableau by the markers that are free: a wish with both markers free is granted exactly. As long as
the other one does not pull harder the objective is at its least. If it does, one pivot exchanges
the roles of the two, and after that nothing pulls any more.
-/

namespace SoftSimplex.Tableau

variable {kinds : Nat → Symbol.Kind} {tableau : Tableau Rat} {symbol grown first second : Symbol}
  {wish : Wish} {sign : Rat}

/-- The first of two wishes is granted, and exactly one marker of the second one has a row. -/
structure Favours (kinds : Nat → Symbol.Kind) (tableau : Tableau Rat) (symbol : Symbol)
    (wish wish' : Wish) (kept given : Constraint Rat) : Prop where
  keeps : kept.Pursues kinds wish symbol
  gives : given.Pursues kinds wish' symbol
  entries : Ledger.Regular kinds [kept, given]
  stands : tableau.Stands kinds [kept, given] [kept, given]
  upright : tableau.Upright ⟨true, true⟩
  idle : tableau.agenda.repairs = []
  free : ∀ {first second sign}, kept.Twins first second sign → tableau.form? first = none
  half : ∃ basic spare sign, given.Twins basic spare sign ∧ tableau.form? basic ≠ none ∧
    tableau.form? spare = none

namespace Favours

variable {wish' : Wish} {kept given : Constraint Rat} {basic spare entering : Symbol} {sign' : Rat}
  (favours : tableau.Favours kinds symbol wish wish' kept given)

include favours

theorem value_eq : tableau.value symbol = wish.target :=
  favours.stands.value_eq_target List.mem_cons_self favours.keeps .straight
    (favours.free .straight) (favours.free .crossed)

variable (twins : kept.Twins first second sign) (twins' : given.Twins basic spare sign')
  (free' : tableau.form? spare = none)

include twins twins'

/-- The two wishes share no marker. -/
theorem apart : first.id ≠ basic.id := fun same =>
  favours.entries.not_owns List.mem_cons_self (favours.keeps.owns twins)
    (same ▸ favours.gives.owns twins')

theorem coefficient_eq (proper : grown.id ≠ 0) : tableau.objective.coefficient grown =
    wish.weight * (tableau.growth grown first + tableau.growth grown second) +
      wish'.weight * (tableau.growth grown basic + tableau.growth grown spare) := by
  rw [favours.stands.coefficient_objective proper]
  simp only [Ledger.price_cons, Ledger.price_nil, favours.keeps.price_eq twins,
    favours.gives.price_eq twins', complete_zero, growth]
  ring

include free'

/-- The marker that has a row moves by the quotient of the two coefficients. -/
theorem growth_basic : tableau.growth first basic =
    sign * sign' * (wish'.coefficient / wish.coefficient) := by
  have spare_apart := (favours.apart twins twins'.swap).symm
  have kept_moves := favours.stands.growth_eq List.mem_cons_self favours.keeps twins first
  have given_moves := favours.stands.growth_eq
    (List.mem_cons_of_mem _ List.mem_cons_self) favours.gives twins' first
  rw [growth_self (favours.free twins), growth_of_free (favours.free twins.swap)
    (favours.keeps.ids_ne twins).symm, sub_zero, mul_one] at kept_moves
  rw [growth_of_free free' spare_apart, sub_zero] at given_moves
  have nonzero := favours.keeps.sensible.coefficient
  have squared := twins'.sign_mul_self
  field_simp
  linear_combination (sign' * wish'.coefficient) * kept_moves -
    (wish.coefficient * sign') * given_moves - (wish.coefficient * tableau.growth first basic) * squared

theorem abs_growth_basic : |tableau.growth first basic| =
    |wish'.coefficient| / |wish.coefficient| := by
  rw [favours.growth_basic twins twins' free', abs_mul, abs_mul, twins.abs_sign, twins'.abs_sign,
    one_mul, one_mul, abs_div]

/-- What the objective gains with a marker of the granted wish. -/
theorem coefficient_first : tableau.objective.coefficient first =
    wish.weight + wish'.weight * tableau.growth first basic := by
  have spare_apart := (favours.apart twins twins'.swap).symm
  rw [favours.coefficient_eq twins twins' (favours.keeps.error twins).1.1,
    growth_self (favours.free twins), growth_of_free (favours.free twins.swap)
      (favours.keeps.ids_ne twins).symm, growth_of_free free' spare_apart]
  ring

/-- What the objective gains with the free marker of the other wish. -/
theorem coefficient_spare : tableau.objective.coefficient spare = 2 * wish'.weight := by
  have kept_moves := favours.stands.growth_eq List.mem_cons_self favours.keeps twins spare
  have given_moves := favours.stands.growth_eq
    (List.mem_cons_of_mem _ List.mem_cons_self) favours.gives twins' spare
  rw [favours.coefficient_eq twins twins' (favours.gives.error twins'.swap).1.1]
  rw [growth_of_free (favours.free twins) (favours.apart twins twins'.swap),
    growth_of_free (favours.free twins.swap) (favours.apart twins.swap twins'.swap)] at kept_moves ⊢
  rw [sub_zero, mul_zero] at kept_moves
  have resting := (mul_eq_zero.mp kept_moves).resolve_left favours.keeps.sensible.coefficient
  rw [resting, mul_zero, growth_self free', zero_eq_mul] at given_moves
  have along := given_moves.resolve_left fun vanishes => by
    have squared := twins'.sign_mul_self
    rw [vanishes, zero_mul] at squared
    exact zero_ne_one squared
  rw [growth_self free', sub_eq_zero.mp along]
  ring

omit twins twins' free' in
/-- A marker that has no row is one of the granted wish, or the free one of the other wish. -/
theorem twins_of_free {owned : Symbol} (twins' : given.Twins basic spare sign')
    (row : tableau.form? basic ≠ none) (free : tableau.Free kinds owned)
    (owner : ∃ entry ∈ [kept, given], entry.Owns owned.id) :
    (∃ second sign, kept.Twins owned second sign) ∨ owned = spare := by
  obtain ⟨entry, member, owns⟩ := owner
  rcases List.mem_cons.mp member with rfl | member
  · exact Or.inl (favours.keeps.exists_twins free.1 owns)
  · obtain rfl := List.mem_singleton.mp member
    refine Or.inr (free.1.eq_of_id_eq (favours.gives.error twins'.swap).1 ?_)
    refine (twins'.eq_or_eq owns).resolve_left fun same => row ?_
    rw [← tableau.form?_congr same, free.2]

omit twins in
/-- What lowers the objective is a marker of the granted wish. -/
theorem of_entering? (row : tableau.form? basic ≠ none)
    (chosen : tableau.objective.entering? = some entering) :
    (∃ second sign, kept.Twins entering second sign) ∧
      tableau.objective.coefficient entering < 0 := by
  obtain ⟨amount, member, _, negative⟩ := LinearForm.of_entering?_eq_some chosen
  have is_amount : tableau.objective.coefficient entering = amount :=
    LinearForm.coefficient_of_mem member
  rw [← is_amount] at negative
  have free := favours.stands.regular.objective_settled.free _ member
  have owner := favours.stands.exists_owner_of_mentions favours.entries free.1
    (favours.stands.regular.objective_confined _ member) (LinearForm.mentions_of_mem member)
  refine ⟨(favours.twins_of_free twins' row free owner).resolve_right ?_, negative⟩
  rintro rfl
  rw [favours.coefficient_spare .straight twins' free'] at negative
  linarith [favours.gives.sensible.weight]

omit twins twins' free' in
/-- While the other wish does not pull harder, nothing lowers the objective. -/
theorem entering?_eq_none (weaker : wish'.pull ≤ wish.pull) :
    tableau.objective.entering? = none := by
  obtain ⟨basic, spare, sign', twins', row, free'⟩ := favours.half
  by_contra chosen
  obtain ⟨entering, chosen⟩ := Option.ne_none_iff_exists'.mp chosen
  obtain ⟨⟨second, sign, twins⟩, negative⟩ := favours.of_entering? twins' free' row chosen
  have weight := favours.gives.sensible.weight
  have size := abs_pos.mpr favours.keeps.sensible.coefficient
  have bound : wish'.weight * |tableau.growth entering basic| ≤ wish.weight := by
    rw [favours.abs_growth_basic twins twins' free', mul_div_assoc', div_le_iff₀ size]
    exact weaker
  have steepest := mul_le_mul_of_nonneg_left (neg_abs_le (tableau.growth entering basic)) weight.le
  rw [favours.coefficient_first twins twins' free'] at negative
  linarith

/-- With one of its two markers the granted wish would make the other one be missed less. -/
theorem exists_falling : ∃ first second sign, kept.Twins first second sign ∧
    tableau.growth first basic < 0 := by
  have swapped : tableau.growth second basic = -tableau.growth first basic := by
    rw [favours.growth_basic twins twins' free', favours.growth_basic twins.swap twins' free']
    ring
  have nonzero : tableau.growth first basic ≠ 0 := by
    rw [← abs_ne_zero, favours.abs_growth_basic twins twins' free']
    exact div_ne_zero (abs_ne_zero.mpr favours.gives.sensible.coefficient)
      (abs_ne_zero.mpr favours.keeps.sensible.coefficient)
  rcases lt_or_gt_of_ne nonzero with falls | rises
  · exact ⟨first, second, sign, twins, falls⟩
  · exact ⟨second, first, -sign, twins.swap, by rw [swapped]; linarith⟩

omit twins in
/-- If the other wish pulls harder, a marker of the granted one lowers the objective. -/
theorem exists_entering (stronger : wish.pull < wish'.pull) :
    ∃ entering, tableau.objective.entering? = some entering := by
  rw [← Option.ne_none_iff_exists']
  intro stopped
  obtain ⟨first, second, sign, twins, falls⟩ := favours.exists_falling .straight twins' free'
  have size := abs_pos.mpr favours.keeps.sensible.coefficient
  have steep : wish.weight < wish'.weight * |tableau.growth first basic| := by
    rw [favours.abs_growth_basic twins twins' free', mul_div_assoc', lt_div_iff₀ size]
    exact stronger
  have negative : tableau.objective.coefficient first < 0 := by
    rw [favours.coefficient_first twins twins' free']
    rw [abs_of_neg falls] at steep
    linarith
  obtain ⟨term, member, same, amount⟩ := LinearForm.exists_term_of_mentions
    (LinearForm.mentions_of_coefficient_ne_zero negative.ne)
  have proper := favours.stands.regular.objective_settled.proper term member
  have is_first := proper.eq_of_id_eq (favours.keeps.error twins).1 same
  have not_dummy : term.1.isDummy = false := by
    rw [is_first]
    exact Symbol.isDummy_eq_false_of_isRestricted (favours.keeps.restricted twins)
  have nonnegative := LinearForm.of_entering?_eq_none stopped member not_dummy
  rw [amount] at nonnegative
  exact absurd negative (not_lt.mpr nonnegative)

omit twins in
/-- The only marker that has a row is one of the other wish. -/
theorem eq_basic {leaving : Symbol} (proper : leaving.Proper kinds)
    (internal : leaving.isExternal = false) (there : tableau.form? leaving ≠ none) :
    leaving = basic := by
  obtain ⟨entry, inside, owns⟩ :=
    favours.stands.exists_owner_of_form? favours.entries proper internal there
  rcases List.mem_cons.mp inside with rfl | inside
  · obtain ⟨_, _, is_twin⟩ := favours.keeps.exists_twins proper owns
    exact absurd (favours.free is_twin) there
  · obtain rfl := List.mem_singleton.mp inside
    rcases twins'.eq_or_eq owns with same | same
    · exact proper.eq_of_id_eq (favours.gives.error twins').1 same
    · exact absurd ((tableau.form?_congr same).trans free') there

/-- The only row that stops a falling marker is that of the other wish. -/
theorem leaving?_eq_some (row : tableau.form? basic ≠ none)
    (falls : tableau.growth first basic < 0) : tableau.leaving? first = some basic := by
  obtain ⟨form, found⟩ := Option.ne_none_iff_exists'.mp row
  rw [growth_of_form? found (favours.keeps.error twins).1.1] at falls
  have mentioned := LinearForm.mentions_of_coefficient_ne_zero falls.ne
  cases chosen : tableau.leaving? first with
  | none =>
      have rises := of_leaving?_eq_none chosen
        (favours.stands.regular.mem_equations (favours.gives.error twins').1 found)
        (favours.gives.restricted twins') (LinearForm.coefficient?_of_mentions mentioned)
      exact absurd falls (not_lt.mpr rises.le)
  | some leaving =>
      obtain ⟨other, _, member, restricted, _⟩ := of_leaving?_eq_some chosen
      have there : tableau.form? leaving ≠ none := by
        rw [form?_of_mem member]
        exact Option.some_ne_none other
      exact congrArg some (favours.eq_basic twins' free' (favours.stands.regular.proper _ member)
        (Symbol.isExternal_eq_false_of_isRestricted restricted) there)

omit twins twins' free' in
/-- If the other wish pulls harder, one pivot exchanges the roles of the two. -/
theorem step_eq_next (stronger : wish.pull < wish'.pull) :
    ∃ next, Descent.step ⟨tableau, none⟩ = .next ⟨next, none⟩ ∧
      next.Favours kinds symbol wish' wish given kept := by
  obtain ⟨basic, spare, sign', twins', row, free'⟩ := favours.half
  obtain ⟨entering, chosen⟩ := favours.exists_entering twins' free' stronger
  obtain ⟨⟨second, sign, twins⟩, negative⟩ := favours.of_entering? twins' free' row chosen
  have falls : tableau.growth entering basic < 0 := by
    rw [favours.coefficient_first twins twins' free'] at negative
    have weight := favours.keeps.sensible.weight
    exact neg_of_mul_neg_right (by linarith) favours.gives.sensible.weight.le
  have left := favours.leaving?_eq_some twins twins' free' row falls
  obtain ⟨form, found⟩ := Option.ne_none_iff_exists'.mp row
  have moves : Descent.step ⟨tableau, none⟩ =
      .next ⟨(tableau.discard basic).pivot form entering basic, none⟩ :=
    Descent.step_eq_next_of chosen left found
  obtain ⟨stands, upright⟩ := favours.stands.descends favours.upright moves
  have swapped := List.Perm.swap given kept []
  have frees : ∀ {other}, other.id ≠ entering.id →
      other.id = basic.id ∨ tableau.form? other = none →
        ((tableau.discard basic).pivot form entering basic).form? other = none :=
    fun apart gone => (form?_pivot_discard_eq_none_iff form entering basic _).mpr ⟨apart, gone⟩
  refine ⟨_, moves, favours.gives, favours.keeps, favours.entries.perm swapped,
    stands.perm swapped swapped, upright,
    ?_, fun {marker other _} is_twin => ?_, entering, second, sign, twins, ?_, ?_⟩
  · rw [repairs_pivot (favours.stands.regular.discard basic) ?_ stands.regular upright,
      repairs_discard, favours.idle]
    rw [form?_discard, favours.free twins, ite_self]
  · refine frees (favours.apart twins is_twin).symm ?_
    rcases twins'.eq_or_eq (favours.gives.owns is_twin) with same | same
    · exact Or.inl same
    · exact Or.inr ((tableau.form?_congr same).trans free')
  · rw [form?_pivot, if_pos rfl]
    exact Option.some_ne_none _
  · exact frees (favours.keeps.ids_ne twins).symm (Or.inr (favours.free twins.swap))

end Favours

/-! ## Entering the second wish -/

namespace Draft

variable {wish' : Wish} {kept given : Constraint Rat} {base : Tableau Rat} {form : LinearForm Rat}

section Second

variable (draft : base.Draft kinds [kept] given form) (keeps : kept.Pursues kinds wish symbol)
  (free : ∀ {first second sign}, kept.Twins first second sign → base.form? first = none)

include draft keeps free

/-- A granted wish holds the variable unless one of its markers grows. -/
theorem growth_variable (apart : ¬ kept.Owns grown.id) : base.growth grown symbol = 0 := by
  have rests : ∀ {first second sign}, kept.Twins first second sign →
      base.growth grown first = 0 := fun twins =>
    growth_of_free (free twins) fun same => apart (same ▸ keeps.owns twins)
  have moves := draft.stands.growth_eq List.mem_cons_self keeps .straight grown
  rw [rests .straight, rests .crossed, sub_zero, mul_zero] at moves
  exact (mul_eq_zero.mp moves).resolve_left keeps.sensible.coefficient

variable (gives : given.Pursues kinds wish' symbol)

include gives

/-- No variable occurs in the draft of the second wish. -/
theorem confined_of_rival : form.Over fun other => other.isExternal = false := by
  intro term member
  rw [← Bool.not_eq_true]
  intro external
  have proper := draft.settled.proper term member
  have kind : kinds term.1.id = .external := (proper.isOf_iff .external).mp external
  have rests : ∀ {first second sign}, given.Twins first second sign →
      base.growth term.1 first = 0 := fun twins =>
    growth_of_free (draft.form?_twin gives twins) fun same =>
      draft.entries.head.kind_ne_external (gives.owns twins) (same ▸ kind)
  have unowned : ¬ kept.Owns term.1.id := fun owned =>
    (draft.entries.fit kept (List.mem_cons_of_mem _ List.mem_cons_self)).kind_ne_external owned kind
  obtain ⟨factor, _, amounts⟩ := draft.exists_coefficient_eq gives .straight
  refine draft.settled.reduced term member ?_
  rw [← LinearForm.coefficient_of_mem member, amounts _ proper.1, rests .straight, rests .crossed,
    draft.growth_variable keeps free unowned]
  ring

/-- The draft of the second wish is solved for one of its markers. -/
theorem exists_marker : ∃ basic spare sign, given.Twins basic spare sign ∧
    form.subject? [given.markers.marker, given.markers.other] = some basic := by
  obtain ⟨factor, is_sign, amounts⟩ := draft.exists_coefficient_eq gives .straight
  have amount : ∀ {first second sign}, given.Twins first second sign →
      form.coefficient first = factor * sign := by
    intro first second sign twins
    have unowned : ¬ kept.Owns first.id :=
      draft.entries.not_owns List.mem_cons_self (gives.owns twins)
    have grows := growth_self (draft.form?_twin gives twins)
    have rests := growth_of_free (draft.form?_twin gives twins.swap) (gives.ids_ne twins).symm
    rw [amounts first (gives.error twins).1.1, draft.growth_variable keeps free unowned]
    cases twins with
    | straight => rw [grows, rests]; ring
    | crossed => rw [grows, rests]; ring
  have confined := draft.confined_of_rival keeps free gives
  cases chosen : form.subject? [given.markers.marker, given.markers.other] with
  | none =>
      have nonneg := (LinearForm.of_subject?_eq_none chosen).2
      have above := nonneg given.markers.marker (by simp) (gives.restricted .straight)
      have below := nonneg given.markers.other (by simp) (gives.restricted .crossed)
      rw [amount .straight] at above
      rw [amount .crossed] at below
      rcases is_sign with rfl | rfl
      · exact absurd above (by norm_num)
      · exact absurd below (by norm_num)
  | some subject =>
      rcases LinearForm.of_subject?_eq_some chosen with ⟨external, _, member⟩ | ⟨_, among, _⟩
      · exact Bool.noConfusion ((confined _ member).symm.trans external)
      · rw [List.mem_cons, List.mem_singleton] at among
        rcases among with rfl | rfl
        · exact ⟨_, _, _, .straight, rfl⟩
        · exact ⟨_, _, _, .crossed, rfl⟩

end Second

/-- Solving the draft of the second wish for one of its markers leaves the first one granted. -/
theorem exists_favours (draft : base.Draft kinds [kept] given form)
    (keeps : kept.Pursues kinds wish symbol) (gives : given.Pursues kinds wish' symbol)
    (free : ∀ {first second sign}, kept.Twins first second sign → base.form? first = none)
    (upright : base.Upright ⟨true, true⟩) (idle : base.agenda.repairs = []) : ∃ subject,
    form.subject? [given.markers.marker, given.markers.other] = some subject ∧
      (base.pivot form subject Symbol.null).Favours kinds symbol wish wish' kept given := by
  obtain ⟨basic, spare, sign, twins, chosen⟩ := draft.exists_marker keeps free gives
  obtain ⟨_, entered⟩ := draft.enter_subject upright chosen
  have swapped := List.Perm.swap kept given []
  have frees : ∀ {other : Symbol}, other.id ≠ basic.id → base.form? other = none →
      (base.pivot form basic Symbol.null).form? other = none := by
    intro other apart gone
    rw [form?_pivot, if_neg apart, gone, Option.map_none]
  refine ⟨basic, chosen, keeps, gives, draft.entries.perm swapped,
    entered.stands.perm swapped swapped, entered.upright, ?_, fun is_twin => ?_,
    basic, spare, sign, twins, ?_, ?_⟩
  · rw [repairs_pivot draft.stands.regular (draft.form?_twin gives twins) entered.stands.regular
      entered.upright, idle]
  · refine frees (fun same => ?_) (free is_twin)
    exact draft.entries.not_owns List.mem_cons_self (gives.owns twins)
      (same ▸ keeps.owns is_twin)
  · rw [form?_pivot, if_pos rfl]
    exact Option.some_ne_none _
  · exact frees (gives.ids_ne twins).symm (draft.form?_twin gives twins.swap)

end Draft

/-- The primal phase grants the wish that pulls harder, and does not exchange the wishes if both pull
equally hard. -/
theorem Favours.exists_lowers {wish' : Wish} {kept given : Constraint Rat}
    (favours : tableau.Favours kinds symbol wish wish' kept given) :
    ∃ need lowered, need ≤ 1 ∧ tableau.Lowers need lowered ∧ lowered.agenda.repairs = [] ∧
      lowered.value symbol = if wish'.pull ≤ wish.pull then wish.target else wish'.target := by
  by_cases weaker : wish'.pull ≤ wish.pull
  · rw [if_pos weaker]
    exact ⟨0, tableau, Nat.zero_le 1, lowers_self (favours.entering?_eq_none weaker), favours.idle,
      favours.value_eq⟩
  · obtain ⟨next, moves, exchanged⟩ := favours.step_eq_next (not_le.mp weaker)
    rw [if_neg weaker]
    exact ⟨1, next, le_rfl, (lowers_self
      (exchanged.entering?_eq_none (not_le.mp weaker).le)).step moves, exchanged.idle,
      exchanged.value_eq⟩

end SoftSimplex.Tableau
