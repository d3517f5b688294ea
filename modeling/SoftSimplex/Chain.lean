/-!
# Chains of positions

A partial successor function links positions into chains. When no two positions share a
successor and every chain ends, the chains are disjoint paths. Two changes keep them so:
inserting a new position behind a given one, and rerouting a chain around a position through a
new one.
-/

namespace SoftSimplex.Chain

/-- The chain that starts at the first position comes past the second one. -/
inductive Leads (next : Nat → Option Nat) : Nat → Nat → Prop where
  | refl (position : Nat) : Leads next position position
  | step {start following target : Nat} :
      next start = some following → Leads next following target → Leads next start target

/-- The chain from a position comes to an end. -/
def Ends (next : Nat → Option Nat) (position : Nat) : Prop :=
  Acc (fun following start => next start = some following) position

/-- The chain from a position is this list of positions. -/
inductive Path (next : Nat → Option Nat) : Nat → List Nat → Prop where
  | last {position : Nat} : next position = none → Path next position [position]
  | cons {position following : Nat} {rest : List Nat} :
      next position = some following → Path next following rest →
        Path next position (position :: rest)

variable {next changed : Nat → Option Nat}

theorem Leads.append {start middle target following : Nat} (first : Leads next start middle)
    (link : next middle = some following) (last : Leads next following target) :
    Leads next start target := by
  induction first with
  | refl position => exact .step link last
  | step link' _ inductionHypothesis => exact .step link' (inductionHypothesis link)

theorem Leads.snoc {start target following : Nat} (path : Leads next start target)
    (link : next target = some following) : Leads next start following :=
  path.append link (.refl following)

/-- A chain that ends does not come back to where it was. -/
theorem Ends.not_leads {position : Nat} (ends : Ends next position) {following : Nat}
    (link : next position = some following) : ¬ Leads next following position := by
  induction ends generalizing following with
  | intro position _ inductionHypothesis =>
      intro back
      cases back with
      | refl => exact inductionHypothesis position link link (.refl position)
      | step link' rest =>
          exact inductionHypothesis following link link' (rest.snoc link)

/-- The last position before the target on a chain that leads to it. -/
theorem Leads.exists_predecessor {start target : Nat} (path : Leads next start target)
    (apart : start ≠ target) :
    ∃ before, Leads next start before ∧ next before = some target := by
  induction path with
  | refl position => exact absurd rfl apart
  | @step start following target link rest inductionHypothesis =>
      by_cases same : following = target
      · subst same
        exact ⟨start, .refl start, link⟩
      · obtain ⟨before, leads, last⟩ := inductionHypothesis same
        exact ⟨before, .step link leads, last⟩

theorem Ends.exists_path {position : Nat} (ends : Ends next position) :
    ∃ path, Path next position path := by
  induction ends with
  | intro position _ inductionHypothesis =>
      cases link : next position with
      | none => exact ⟨[position], .last link⟩
      | some following =>
          obtain ⟨rest, path⟩ := inductionHypothesis following link
          exact ⟨position :: rest, .cons link path⟩

theorem Path.mem_iff_leads {start : Nat} {path : List Nat} (chain : Path next start path)
    (target : Nat) : target ∈ path ↔ Leads next start target := by
  induction chain with
  | last ended =>
      constructor
      · intro member
        rw [List.mem_singleton.mp member]
        exact .refl _
      · intro leads
        cases leads with
        | refl => exact List.mem_singleton.mpr rfl
        | step link _ => rw [ended] at link; exact absurd link (by simp)
  | cons link _ inductionHypothesis =>
      constructor
      · intro member
        cases List.mem_cons.mp member with
        | inl same => rw [same]; exact .refl _
        | inr inside => exact .step link (inductionHypothesis.mp inside)
      · intro leads
        cases leads with
        | refl => exact List.mem_cons_self
        | step link' rest =>
            rw [link] at link'
            rw [← Option.some.inj link'] at rest
            exact List.mem_cons_of_mem _ (inductionHypothesis.mpr rest)

theorem Path.nodup {start : Nat} {path : List Nat} (chain : Path next start path)
    (ends : ∀ position, Ends next position) : path.Nodup := by
  induction chain with
  | last => simp
  | cons link rest inductionHypothesis =>
      refine List.nodup_cons.mpr ⟨?_, inductionHypothesis⟩
      intro member
      exact (ends _).not_leads link ((rest.mem_iff_leads _).mp member)

/-- A chain through positions below a bound is no longer than the bound. -/
theorem Path.length_le {start bound : Nat} {path : List Nat} (chain : Path next start path)
    (ends : ∀ position, Ends next position) (start_lt : start < bound)
    (next_lt : ∀ position following, next position = some following → following < bound) :
    path.length ≤ bound := by
  have inside : ∀ position ∈ path, position < bound := by
    intro position member
    have leads := (chain.mem_iff_leads position).mp member
    clear member chain
    induction leads with
    | refl => exact start_lt
    | step link _ inductionHypothesis => exact inductionHypothesis (next_lt _ _ link)
  have subset : path ⊆ List.range bound := fun position member =>
    List.mem_range.mpr (inside position member)
  simpa using (chain.nodup ends).length_le_of_subset subset

section Insert

variable {head free : Nat}
  (unlinked : ∀ position, next position ≠ some free) (unlinking : next free = none)
  (at_free : changed free = next head) (at_head : changed head = some free)
  (elsewhere : ∀ position, position ≠ free → position ≠ head → changed position = next position)

include unlinking at_free at_head elsewhere

theorem Leads.insert {start target : Nat} (leads : Leads next start target) :
    Leads changed start target := by
  induction leads with
  | refl position => exact .refl position
  | @step start following target link _ inductionHypothesis =>
      by_cases is_free : start = free
      · rw [is_free, unlinking] at link
        exact absurd link (by simp)
      · by_cases is_head : start = head
        · subst is_head
          exact .step at_head (.step (at_free.trans link) inductionHypothesis)
        · exact .step ((elsewhere start is_free is_head).trans link) inductionHypothesis

omit unlinking in
include unlinked in
theorem Ends.insert (apart : free ≠ head) (ends : ∀ position, Ends next position)
    (position : Nat) : Ends changed position := by
  have others : ∀ position, position ≠ free → Ends changed position := by
    intro position
    induction ends position with
    | intro position _ inductionHypothesis =>
        intro not_free
        refine Acc.intro position fun following link => ?_
        by_cases is_head : position = head
        · subst is_head
          rw [at_head] at link
          rw [← Option.some.inj link]
          refine Acc.intro free fun after link' => ?_
          rw [at_free] at link'
          exact inductionHypothesis after link' fun same => unlinked position (same ▸ link')
        · rw [elsewhere position not_free is_head] at link
          exact inductionHypothesis following link fun same => unlinked position (same ▸ link)
  by_cases is_free : position = free
  · rw [is_free]
    refine Acc.intro free fun following link => ?_
    rw [at_free] at link
    exact others following fun same => unlinked head (same ▸ link)
  · exact others position is_free

end Insert

section Reroute

variable {before head free : Nat}
  (injective : ∀ first second target,
    next first = some target → next second = some target → first = second)
  (unlinked : ∀ position, next position ≠ some free) (unlinking : next free = none)
  (link_before : next before = some head)
  (at_before : changed before = some free) (at_free : changed free = next head)
  (at_head : changed head = none)
  (elsewhere : ∀ position, position ≠ before → position ≠ free → position ≠ head →
    changed position = next position)

include injective unlinking link_before at_before at_free elsewhere

/-- Every chain is kept, with the new position in the place of the one that was cut out. -/
theorem Leads.reroute (loopless : ∀ position, next position ≠ some position)
    {start target : Nat} (leads : Leads next start target) (kept : target ≠ head) :
    Leads changed (if start = head then free else start) target := by
  have before_ne : before ≠ head := by
    intro same
    rw [same] at link_before
    exact loopless head link_before
  induction leads with
  | refl position =>
      rw [if_neg kept]
      exact .refl position
  | @step start following target link _ inductionHypothesis =>
      have rest := inductionHypothesis kept
      by_cases is_head : start = head
      · have following_ne : following ≠ head := by
          intro same
          rw [is_head, same] at link
          exact loopless head link
        rw [if_pos is_head]
        rw [if_neg following_ne] at rest
        exact .step (at_free.trans (is_head ▸ link)) rest
      · rw [if_neg is_head]
        by_cases is_before : start = before
        · have following_eq : following = head := by
            rw [is_before, link_before] at link
            exact (Option.some.inj link).symm
          rw [if_pos following_eq] at rest
          exact .step (is_before ▸ at_before) rest
        · have following_ne : following ≠ head := by
            intro same
            exact is_before (injective start before head (same ▸ link) link_before)
          have not_free : start ≠ free := by
            intro same
            rw [same, unlinking] at link
            exact absurd link (by simp)
          rw [if_neg following_ne] at rest
          exact .step ((elsewhere start is_before not_free is_head).trans link) rest

omit injective unlinking in
include unlinked at_head in
theorem Ends.reroute (apart : free ≠ head) (ends : ∀ position, Ends next position)
    (position : Nat) : Ends changed position := by
  have at_head_ends : Ends changed head :=
    Acc.intro head fun following link => by rw [at_head] at link; exact absurd link (by simp)
  have others : ∀ position, position ≠ free →
      Ends changed position ∧
        ∀ following, next position = some following → Ends changed following := by
    intro position
    induction ends position with
    | intro position _ inductionHypothesis =>
        intro not_free
        have successors : ∀ following, next position = some following →
            Ends changed following := fun following link =>
          (inductionHypothesis following link
            fun same => unlinked position (same ▸ link)).1
        refine ⟨?_, successors⟩
        by_cases is_head : position = head
        · exact is_head ▸ at_head_ends
        · refine Acc.intro position fun following link => ?_
          by_cases is_before : position = before
          · rw [is_before, at_before] at link
            rw [← Option.some.inj link]
            refine Acc.intro free fun after link' => ?_
            rw [at_free] at link'
            exact (inductionHypothesis head (is_before ▸ link_before)
              (fun same => apart same.symm)).2 after link'
          · rw [elsewhere position is_before not_free is_head] at link
            exact successors following link
  by_cases is_free : position = free
  · rw [is_free]
    refine Acc.intro free fun following link => ?_
    rw [at_free] at link
    exact (others head fun same => apart same.symm).2 following link
  · exact (others position is_free).1

end Reroute

end SoftSimplex.Chain
