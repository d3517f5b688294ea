import SoftSimplex.Arena.Pages

/-!
# Threaded pages

In threaded pages the list of vacant places is a path that comes past every vacant place once and
then ends. Storing takes the first place off the path, releasing puts one in front of it, and a page
is carved when the path is empty, so every operation keeps pages threaded.
-/

namespace SoftSimplex.Pages

variable {β : Type}

/-- Following the names of vacant places from the given one on leads past these places, and to no
further one. -/
inductive Trail (next? : Nat → Option (Option Nat)) : Option Nat → List Nat → Prop where
  | nil : Trail next? none []
  | cons {key : Nat} {following : Option Nat} {rest : List Nat} :
      next? key = some following → Trail next? following rest →
        Trail next? (some key) (key :: rest)

namespace Trail

variable {next? changed : Nat → Option (Option Nat)} {start : Option Nat} {trail other : List Nat}

theorem unique (first : Trail next? start trail) (second : Trail next? start other) :
    trail = other := by
  induction first generalizing other with
  | nil =>
      cases second
      rfl
  | cons link _ inductionHypothesis =>
      cases second with
      | cons link' rest =>
          rw [Option.some.inj (link.symm.trans link')] at inductionHypothesis
          exact congrArg _ (inductionHypothesis rest)

theorem exists_suffix (leads : Trail next? start trail) {key : Nat} (member : key ∈ trail) :
    ∃ rest, Trail next? (some key) (key :: rest) ∧ rest.length < trail.length := by
  induction leads with
  | nil => exact absurd member List.not_mem_nil
  | cons link rest inductionHypothesis =>
      rcases List.mem_cons.mp member with rfl | inside
      · exact ⟨_, .cons link rest, Nat.lt_succ_self _⟩
      · rcases inductionHypothesis inside with ⟨suffix, leads, shorter⟩
        exact ⟨suffix, leads, Nat.lt_succ_of_lt shorter⟩

/-- A trail does not come back to where it was. -/
theorem nodup (leads : Trail next? start trail) : trail.Nodup := by
  induction leads with
  | nil => exact List.nodup_nil
  | cons link rest inductionHypothesis =>
      refine List.nodup_cons.mpr ⟨fun member => ?_, inductionHypothesis⟩
      rcases rest.exists_suffix member with ⟨suffix, again, shorter⟩
      have same := List.tail_eq_of_cons_eq ((Trail.cons link rest).unique again)
      exact Nat.lt_irrefl _ (same ▸ shorter)

/-- A trail stays as it is when the places on it do. -/
theorem congr (leads : Trail next? start trail)
    (same : ∀ key ∈ trail, changed key = next? key) : Trail changed start trail := by
  induction leads with
  | nil => exact .nil
  | cons link _ inductionHypothesis =>
      exact .cons ((same _ List.mem_cons_self).trans link)
        (inductionHypothesis fun key member => same key (List.mem_cons_of_mem _ member))

end Trail

/-- All pages have the same size, and the list comes past every vacant place. -/
structure Threaded (layout : Pages β) : Prop where
  pageSize_pos : 0 < layout.pageSize
  uniform : layout.Uniform
  exists_trail : ∃ trail, Trail layout.next? layout.firstVacant trail ∧
    (∀ key, key ∈ trail ↔ (layout.next? key).isSome = true) ∧
      layout.live + trail.length = layout.extent

/-- There are places exactly for the keys below the extent. -/
theorem Threaded.isSome_place?_iff {layout : Pages β} (threaded : layout.Threaded) (key : Nat) :
    (layout.place? key).isSome = true ↔ key < layout.extent := by
  unfold place? extent
  rw [← Nat.div_lt_iff_lt_mul threaded.pageSize_pos]
  constructor
  · intro there
    apply Nat.lt_of_not_le
    intro outside
    rw [Array.getElem?_eq_none outside] at there
    exact absurd there (by simp)
  · intro inside
    have is_page := Array.getElem?_eq_getElem inside
    have offset : key % layout.pageSize < layout.pages[key / layout.pageSize].size := by
      rw [threaded.uniform _ _ is_page]
      exact Nat.mod_lt key threaded.pageSize_pos
    rw [is_page, Option.bind_some, Array.getElem?_eq_getElem offset]
    rfl

/-! ## Every operation keeps the list -/

theorem threaded_new {pageSize : Nat} (positive : 0 < pageSize) :
    (new pageSize : Pages β).Threaded where
  pageSize_pos := positive
  uniform number page found := absurd found (by simp [new])
  exists_trail :=
    ⟨[], .nil, fun key => by simp [next?, place?, new], by simp [extent, new]⟩

namespace Threaded

variable {layout : Pages β} {key : Nat} {value : β}

theorem lt_extent (threaded : layout.Threaded) {place : Place β}
    (found : layout.place? key = some place) : key < layout.extent :=
  (threaded.isSome_place?_iff key).mp (Option.isSome_of_eq_some found)

theorem place?_extent (threaded : layout.Threaded) : layout.place? layout.extent = none := by
  cases found : layout.place? layout.extent with
  | none => rfl
  | some place => exact absurd (threaded.lt_extent found) (Nat.lt_irrefl _)

theorem occupy (threaded : layout.Threaded) (first : layout.firstVacant = some key) (value : β) :
    (layout.occupy key value).Threaded := by
  rcases threaded.exists_trail with ⟨trail, leads, vacant_iff, counted⟩
  rw [first] at leads
  have apart := leads.nodup
  cases leads with
  | @cons _ following rest link leads =>
      have outside := (List.nodup_cons.mp apart).1
      have there := (layout.next?_eq_some_iff key following).mp link
      have now : ∀ other, (layout.occupy key value).next? other =
          if other = key then none else layout.next? other := by
        intro other
        exact (layout.next?_put key other (.taken value)).trans (by rw [there]; rfl)
      refine ⟨threaded.pageSize_pos, threaded.uniform.put key _, rest, ?_, ?_, ?_⟩
      · have second : (layout.occupy key value).firstVacant = following := by
          simp [Pages.occupy, link]
        rw [second]
        refine leads.congr fun other member => ?_
        have elsewhere : other ≠ key := fun same => outside (same ▸ member)
        rw [now, if_neg elsewhere]
      · intro other
        rw [now]
        by_cases same : other = key
        · simp [same, outside]
        · rw [if_neg same, ← vacant_iff, List.mem_cons, or_iff_right same]
      · have kept : (layout.occupy key value).extent = layout.extent := layout.extent_put key _
        rw [kept, ← counted, List.length_cons]
        exact Nat.add_right_comm layout.live 1 rest.length

theorem vacate (threaded : layout.Threaded) (found : layout.get? key = some value) :
    (layout.vacate key).Threaded := by
  rcases threaded.exists_trail with ⟨trail, leads, vacant_iff, counted⟩
  have there := (layout.get?_eq_some_iff key value).mp found
  have outside : key ∉ trail := by
    rw [vacant_iff, next?_of_get? found]
    exact Bool.false_ne_true
  have now : ∀ other, (layout.vacate key).next? other =
      if other = key then some layout.firstVacant else layout.next? other := by
    intro other
    exact (layout.next?_put key other (.vacant layout.firstVacant)).trans (by rw [there]; rfl)
  refine ⟨threaded.pageSize_pos, threaded.uniform.put key _, key :: trail,
    .cons ((now key).trans (if_pos rfl)) (leads.congr fun other member => ?_), ?_, ?_⟩
  · have elsewhere : other ≠ key := fun same => outside (same ▸ member)
    rw [now, if_neg elsewhere]
  · intro other
    rw [now]
    by_cases same : other = key
    · simp [same]
    · rw [if_neg same, ← vacant_iff, List.mem_cons, or_iff_right same]
  · -- the key lies below the extent and on no trail, so some value was kept
    have room : (key :: trail).length ≤ layout.extent := by
      have inside : key :: trail ⊆ List.range layout.extent := by
        intro other member
        rw [List.mem_range]
        rcases List.mem_cons.mp member with rfl | within
        · exact threaded.lt_extent there
        · rcases Option.isSome_iff_exists.mp ((vacant_iff other).mp within) with ⟨following, link⟩
          exact threaded.lt_extent ((layout.next?_eq_some_iff other following).mp link)
      simpa using (List.nodup_cons.mpr ⟨outside, leads.nodup⟩).length_le_of_subset inside
    have kept : (layout.vacate key).extent = layout.extent := layout.extent_put key _
    have fewer : (layout.vacate key).live = layout.live - 1 := rfl
    rw [List.length_cons] at room ⊢
    omega

theorem modify (threaded : layout.Threaded) (key : Nat) (action : β → β) :
    (layout.modify key action).Threaded := by
  unfold Pages.modify
  split
  · exact threaded
  · rename_i value found
    rcases threaded.exists_trail with ⟨trail, leads, vacant_iff, counted⟩
    have now : (layout.put key (.taken (action value))).next? = layout.next? := by
      funext other
      rw [next?_put, (layout.get?_eq_some_iff key value).mp found]
      split
      · rename_i same
        rw [same, next?_of_get? found]
        rfl
      · rfl
    refine ⟨threaded.pageSize_pos, threaded.uniform.put key _, trail, ?_, ?_, ?_⟩
    · rw [now]
      exact leads
    · rw [now]
      exact vacant_iff
    · rw [extent_put]
      exact counted

end Threaded

section Carve

variable {layout : Pages β}

/-- A carved page lies behind all others, and its places are vacant. -/
theorem Threaded.place?_carve (threaded : layout.Threaded) (key : Nat) :
    layout.carve.place? key =
      if key < layout.extent then layout.place? key
      else if key < layout.extent + layout.pageSize then
        some (.vacant (if key + 1 < layout.extent + layout.pageSize then some (key + 1)
          else layout.firstVacant))
      else none := by
  have positive := threaded.pageSize_pos
  have page_lt : ∀ pages, key / layout.pageSize < pages ↔ key < pages * layout.pageSize :=
    fun _ => Nat.div_lt_iff_lt_mul positive
  have extent_succ : (layout.pages.size + 1) * layout.pageSize = layout.extent + layout.pageSize :=
    Nat.succ_mul _ _
  simp only [place?, carve, Array.getElem?_push]
  by_cases inside : key < layout.extent
  · have page := (page_lt layout.pages.size).mpr inside
    rw [if_neg (Nat.ne_of_lt page), if_pos inside]
  · rw [if_neg inside]
    have beyond : ¬ key / layout.pageSize < layout.pages.size := fun page =>
      inside ((page_lt _).mp page)
    by_cases within : key < layout.extent + layout.pageSize
    · have page_le := (page_lt (layout.pages.size + 1)).mpr (extent_succ ▸ within)
      have page : key / layout.pageSize = layout.pages.size := by omega
      have offset_lt := Nat.mod_lt key positive
      have parts : layout.extent + key % layout.pageSize = key := by
        have whole := Nat.div_add_mod key layout.pageSize
        rwa [page, Nat.mul_comm] at whole
      have last_iff : key % layout.pageSize + 1 < layout.pageSize ↔
          key + 1 < layout.extent + layout.pageSize := by omega
      rw [if_pos page, if_pos within]
      simp only [Option.bind_some, Array.getElem?_map, Array.getElem?_range, offset_lt, if_true,
        Option.map_some, parts, last_iff]
    · have page : key / layout.pageSize ≠ layout.pages.size := by
        intro same
        have page_lt_succ := (page_lt (layout.pages.size + 1)).mp (by omega)
        exact within (extent_succ ▸ page_lt_succ)
      rw [if_neg page, if_neg within, Array.getElem?_eq_none (Nat.le_of_not_lt beyond)]
      rfl

theorem extent_carve (layout : Pages β) :
    layout.carve.extent = layout.extent + layout.pageSize := by
  simp [extent, carve, Nat.succ_mul]

/-- Places that are threaded in ascending order. -/
theorem Trail.ascending (next? : Nat → Option (Option Nat)) (lower bound : Nat)
    (links : ∀ key, lower ≤ key → key < bound →
      next? key = some (if key + 1 < bound then some (key + 1) else none)) (count start : Nat)
    (within : lower ≤ start) (ends : start + count = bound) :
    Trail next? (if start < bound then some start else none) (List.range' start count) := by
  induction count generalizing start with
  | zero =>
      rw [if_neg (by omega)]
      exact .nil
  | succ count inductionHypothesis =>
      rw [if_pos (by omega), List.range'_succ]
      exact .cons (links start within (by omega))
        (inductionHypothesis (start + 1) (by omega) (by omega))

/-- A page is carved when every place is taken, and its places are then the vacant ones. -/
theorem Threaded.carve (threaded : layout.Threaded) (full : layout.firstVacant = none) :
    layout.carve.Threaded := by
  rcases threaded.exists_trail with ⟨trail, leads, vacant_iff, counted⟩
  rw [full] at leads
  cases leads
  have positive := threaded.pageSize_pos
  have now : ∀ key, layout.carve.next? key =
      if layout.extent ≤ key ∧ key < layout.extent + layout.pageSize then
        some (if key + 1 < layout.extent + layout.pageSize then some (key + 1) else none)
      else none := by
    intro key
    rw [next?, threaded.place?_carve, full]
    by_cases inside : key < layout.extent
    · have taken : layout.next? key = none := by simpa using vacant_iff key
      rw [if_pos inside, if_neg (by omega)]
      exact taken
    · rw [if_neg inside]
      by_cases within : key < layout.extent + layout.pageSize
      · have both : layout.extent ≤ key ∧ key < layout.extent + layout.pageSize :=
          ⟨Nat.le_of_not_lt inside, within⟩
        rw [if_pos both, if_pos within]
        rfl
      · rw [if_neg within, if_neg fun both => within both.2]
        rfl
  refine ⟨positive, ?_, List.range' layout.extent layout.pageSize, ?_, ?_, ?_⟩
  · intro number page found
    simp only [Pages.carve, Array.getElem?_push] at found
    split at found
    · rw [← Option.some.inj found]
      simp [Pages.carve]
    · exact threaded.uniform number page found
  · have leads := Trail.ascending layout.carve.next? layout.extent
      (layout.extent + layout.pageSize) (fun key above below => by
        rw [now, if_pos ⟨above, below⟩]) layout.pageSize layout.extent (Nat.le_refl _) rfl
    rwa [if_pos (by omega)] at leads
  · intro key
    rw [now, List.mem_range'_1]
    split <;> simp_all
  · rw [extent_carve, List.length_range']
    have all_kept : layout.live = layout.extent := by simpa using counted
    rw [← all_kept]
    rfl

theorem Threaded.store (threaded : layout.Threaded) (value : β) :
    (layout.store value).2.Threaded := by
  unfold Pages.store
  split
  · rename_i key first
    exact threaded.occupy first value
  · rename_i full
    exact (threaded.carve full).occupy rfl value

/-- A value is stored in the vacant place that comes first, or at the beginning of a new page if
all places hold values. -/
theorem Threaded.store_cases (threaded : layout.Threaded) (value : β) :
    (∃ key following, layout.next? key = some following ∧
      layout.store value = (key, layout.occupy key value)) ∨
    (layout.live = layout.extent ∧
      layout.store value = (layout.extent, layout.carve.occupy layout.extent value)) := by
  rcases threaded.exists_trail with ⟨trail, leads, _, counted⟩
  unfold Pages.store
  cases first : layout.firstVacant with
  | some key =>
      rw [first] at leads
      cases leads with
      | cons link _ => exact Or.inl ⟨key, _, link, rfl⟩
  | none =>
      rw [first] at leads
      cases leads
      exact Or.inr ⟨counted, rfl⟩

end Carve

end SoftSimplex.Pages
