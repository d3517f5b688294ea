import SoftSimplex.SlotTable.Orderly

/-!
# Placing entries keeps layouts orderly

Each of the three ways to place an entry keeps a layout orderly and adds the entry to what is
filed. Laying entries out afresh never runs out of slots, so a new entry is always placed.
-/

namespace SoftSimplex.Layout

open Chain

variable {β : Type}

theorem filedIn_setIfInBounds_perm (slots : Array (Slot β)) (position : Nat) (slot : Slot β)
    (bound : position < slots.size) :
    ((slotAt slots position).entry.toList ++
        filedIn (slots.setIfInBounds position slot).toList).Perm
      (slot.entry.toList ++ filedIn slots.toList) := by
  have exchange := filedIn_set_perm slots.toList position slot (by simpa using bound)
  simpa [slotAt, bound, Array.toList_setIfInBounds] using exchange

section Free

variable {layout : Layout β} {free : Nat} (is_free : (slotAt layout.slots free).isFree = true)

include is_free

theorem entry_of_isFree : layout.entry free = none :=
  ((Slot.isFree_eq_true_iff _).mp is_free).1

theorem next_of_isFree : layout.next free = none :=
  ((Slot.isFree_eq_true_iff _).mp is_free).2.1

/-- A free slot holds no entry. -/
theorem ne_of_isFree {home : Nat} {occupant : Symbol × β}
    (found_home : layout.entry home = some occupant) : free ≠ home := by
  rintro rfl
  rw [entry_of_isFree is_free] at found_home
  exact absurd found_home (by simp)

/-- No chain runs through a free slot. -/
theorem Orderly.unlinked (orderly : layout.Orderly) (position : Nat) :
    layout.next position ≠ some free := by
  intro link
  have linked := orderly.linked_of_next position free link
  rw [((Slot.isFree_eq_true_iff _).mp is_free).2.2] at linked
  exact absurd linked (by simp)

/-- No entry has a free slot as its home. -/
theorem Orderly.home_ne_of_isFree (orderly : layout.Orderly) {place : Nat} {other : Symbol × β}
    (found : layout.entry place = some other) : layout.home other.1.id ≠ free := by
  intro at_free
  have leads := orderly.reachable place other found
  rw [at_free] at leads
  cases leads with
  | refl =>
      rw [entry_of_isFree is_free] at found
      exact absurd found (by simp)
  | step link _ =>
      rw [next_of_isFree is_free] at link
      exact absurd link (by simp)

end Free

/-- All entries but one were there before, in the same slots. -/
def Gains (layout changed : Layout β) (spot : Nat) (filed : Symbol × β) : Prop :=
  ∀ position other, changed.entry position = some other →
    (position = spot ∧ other = filed) ∨ (position ≠ spot ∧ layout.entry position = some other)

theorem Gains.unique {layout changed : Layout β} {spot : Nat} {filed : Symbol × β}
    (gains : Gains layout changed spot filed) (orderly : layout.Orderly)
    (absent : layout.Absent filed.1.id) (first second : Nat) (one other : Symbol × β)
    (found : changed.entry first = some one) (found' : changed.entry second = some other)
    (same : one.1.id = other.1.id) : first = second := by
  rcases gains first one found with ⟨at_first, is_new⟩ | ⟨_, before⟩ <;>
    rcases gains second other found' with ⟨at_second, is_new'⟩ | ⟨_, before'⟩
  · rw [at_first, at_second]
  · exact absurd (is_new ▸ same).symm (absent second other before')
  · exact absurd (is_new' ▸ same) (absent first one before)
  · exact orderly.unique first second one other before before' same

/-- Every link leads from a gate to a slot that was free, or from there to where a head used to
lead, or was there before and starts neither at the gate nor at the head. -/
def Splices (next changed : Nat → Option Nat) (gate head free : Nat) : Prop :=
  ∀ position following, changed position = some following →
    (position = gate ∧ following = free) ∨ (position = free ∧ next head = some following) ∨
      (position ≠ gate ∧ position ≠ head ∧ next position = some following)

namespace Splices

variable {next changed : Nat → Option Nat} {gate head free : Nat}
  (splices : Splices next changed gate head free)

include splices

/-- A slot that a link leads to was free or has been linked before. -/
theorem exists_link {position following : Nat} (link : changed position = some following)
    (not_free : following ≠ free) : ∃ earlier, next earlier = some following := by
  rcases splices position following link with ⟨_, is_free⟩ | ⟨_, before⟩ | ⟨_, _, before⟩
  · exact absurd is_free not_free
  · exact ⟨head, before⟩
  · exact ⟨position, before⟩

theorem lt {bound : Nat} (free_lt : free < bound)
    (next_lt : ∀ position following, next position = some following → following < bound)
    (position following : Nat) (link : changed position = some following) : following < bound := by
  by_cases is_new : following = free
  · rw [is_new]
    exact free_lt
  · obtain ⟨earlier, before⟩ := splices.exists_link link is_new
    exact next_lt earlier following before

theorem injective (unlinked : ∀ position, next position ≠ some free)
    (injective : ∀ first second target,
      next first = some target → next second = some target → first = second)
    (first second target : Nat) (link : changed first = some target)
    (link' : changed second = some target) : first = second := by
  rcases splices first target link with ⟨one, same⟩ | ⟨one, before⟩ | ⟨_, one, before⟩ <;>
    rcases splices second target link' with ⟨two, same'⟩ | ⟨two, before'⟩ | ⟨_, two, before'⟩
  · rw [one, two]
  · exact absurd (same ▸ before') (unlinked head)
  · exact absurd (same ▸ before') (unlinked second)
  · exact absurd (same' ▸ before) (unlinked head)
  · rw [one, two]
  · exact absurd (injective head second target before before').symm two
  · exact absurd (same' ▸ before) (unlinked first)
  · exact absurd (injective first head target before before') one
  · exact injective first second target before before'

end Splices

/-! ## Into an empty home -/

section Settle

variable {layout : Layout β} {home : Nat} {filed : Symbol × β}

theorem slotAt_settle (home : Nat) (inside : home < layout.slots.size) (filed : Symbol × β)
    (position : Nat) :
    slotAt (layout.settle home filed).slots position =
      if position = home then { slotAt layout.slots home with entry := some filed }
      else slotAt layout.slots position := by
  simp [settle, slotAt_setIfInBounds, inside]

theorem next_settle (inside : home < layout.slots.size) (position : Nat) :
    (layout.settle home filed).next position = layout.next position := by
  rw [next, slotAt_settle home inside]
  split
  · rename_i same; rw [same]; rfl
  · rfl

theorem entry_settle (inside : home < layout.slots.size) (position : Nat) :
    (layout.settle home filed).entry position =
      if position = home then some filed else layout.entry position := by
  rw [entry, slotAt_settle home inside]
  split <;> rfl

theorem entries_settle_perm (inside : home < layout.slots.size)
    (empty_home : layout.entry home = none) :
    (layout.settle home filed).entries.Perm (filed :: layout.entries) := by
  have exchange := filedIn_setIfInBounds_perm layout.slots home
    { slotAt layout.slots home with entry := some filed } inside
  have before : (slotAt layout.slots home).entry = none := empty_home
  simpa [before, entries, settle] using exchange

theorem gains_settle (filed : Symbol × β) (inside : home < layout.slots.size) :
    Gains layout (layout.settle home filed) home filed := by
  intro position other found
  rw [entry_settle inside] at found
  split at found
  · rename_i same
    exact Or.inl ⟨same, (Option.some.inj found).symm⟩
  · rename_i apart
    exact Or.inr ⟨apart, found⟩

theorem Orderly.settle (orderly : layout.Orderly) (inside : home < layout.slots.size)
    (home_eq : layout.home filed.1.id = home) (empty_home : layout.entry home = none)
    (absent : layout.Absent filed.1.id) : (layout.settle home filed).Orderly := by
  have same_next : (layout.settle home filed).next = layout.next :=
    funext fun position => next_settle inside position
  have same_size : (layout.settle home filed).slots.size = layout.slots.size := by
    simp [Layout.settle]
  have same_home : ∀ id, (layout.settle home filed).home id = layout.home id := fun id => by
    simp [Layout.home, same_size]
  have gains := gains_settle filed inside
  exact {
    next_lt := fun position following link => by
      rw [same_size]
      exact orderly.next_lt position following (next_settle inside position ▸ link)
    next_injective := same_next ▸ orderly.next_injective
    linked_of_next := fun position following link => by
      have before := orderly.linked_of_next position following (next_settle inside position ▸ link)
      rw [slotAt_settle home inside]
      split
      · rename_i same; rw [← same]; exact before
      · exact before
    ends := same_next ▸ orderly.ends
    unique := gains.unique orderly absent
    reachable := fun position other found => by
      rw [same_next, same_home]
      rcases gains position other found with ⟨at_home, is_new⟩ | ⟨_, before⟩
      · rw [at_home, is_new, home_eq]
        exact .refl home
      · exact orderly.reachable position other before
    guest := fun position other found away place another found' => by
      rw [same_home] at away ⊢
      rcases gains position other found with ⟨at_home, is_new⟩ | ⟨apart, before⟩
      · rw [at_home, is_new, home_eq] at away
        exact absurd rfl away
      · rcases gains place another found' with ⟨_, is_new⟩ | ⟨_, before'⟩
        · rw [is_new, home_eq]
          exact fun same => apart same.symm
        · exact orderly.guest position other before away place another before'
    size_eq := by
      rw [(entries_settle_perm inside empty_home).length_eq, List.length_cons,
        ← orderly.size_eq]
      rfl
    cursor_le := by
      rw [same_size]
      exact orderly.cursor_le }

end Settle

/-! ## Behind the occupant of the home -/

section ChainBehind

variable {layout : Layout β} {home free : Nat} {filed occupant : Symbol × β}

theorem slotAt_chainBehind (home_inside : home < layout.slots.size)
    (free_inside : free < layout.slots.size) (filed : Symbol × β) (position : Nat) :
    slotAt (layout.chainBehind home free filed).slots position =
      if position = home then { slotAt layout.slots home with next := some free }
      else if position = free then ⟨some filed, layout.next home, true⟩
      else slotAt layout.slots position := by
  simp [chainBehind, slotAt_setIfInBounds, home_inside, free_inside]

theorem entries_chainBehind_perm (home_inside : home < layout.slots.size)
    (free_inside : free < layout.slots.size) (apart : free ≠ home)
    (empty_free : layout.entry free = none) :
    (layout.chainBehind home free filed).entries.Perm (filed :: layout.entries) := by
  have first := filedIn_setIfInBounds_perm layout.slots free
    ⟨some filed, layout.next home, true⟩ free_inside
  have second := filedIn_setIfInBounds_perm
    (layout.slots.setIfInBounds free ⟨some filed, layout.next home, true⟩) home
    { slotAt layout.slots home with next := some free } (by simpa using home_inside)
  have before : (slotAt layout.slots free).entry = none := empty_free
  have kept : (slotAt (layout.slots.setIfInBounds free
      ⟨some filed, layout.next home, true⟩) home).entry = (slotAt layout.slots home).entry := by
    rw [slotAt_setIfInBounds, if_neg fun both => apart both.1.symm]
  rw [kept] at second
  have exchanged := (List.perm_append_left_iff _).mp second
  rw [before] at first
  exact exchanged.trans (by simpa [entries] using first)

theorem next_chainBehind (home_inside : home < layout.slots.size)
    (free_inside : free < layout.slots.size) (filed : Symbol × β) (position : Nat) :
    (layout.chainBehind home free filed).next position =
      if position = home then some free
      else if position = free then layout.next home
      else layout.next position := by
  rw [next, slotAt_chainBehind home_inside free_inside]
  split
  · rfl
  · split <;> rfl

theorem gains_chainBehind (home_inside : home < layout.slots.size)
    (free_inside : free < layout.slots.size) (apart : free ≠ home) (filed : Symbol × β) :
    Gains layout (layout.chainBehind home free filed) free filed := by
  intro position other found
  rw [entry, slotAt_chainBehind home_inside free_inside] at found
  split at found
  · rename_i is_home
    exact Or.inr ⟨fun same => apart (same.symm.trans is_home), is_home ▸ found⟩
  · split at found
    · rename_i is_free
      exact Or.inl ⟨is_free, (Option.some.inj found).symm⟩
    · rename_i not_free
      exact Or.inr ⟨not_free, found⟩

theorem splices_chainBehind (home_inside : home < layout.slots.size)
    (free_inside : free < layout.slots.size) (filed : Symbol × β) :
    Splices layout.next (layout.chainBehind home free filed).next home home free := by
  intro position following link
  rw [next_chainBehind home_inside free_inside] at link
  split at link
  · rename_i is_home
    exact Or.inl ⟨is_home, (Option.some.inj link).symm⟩
  · rename_i not_home
    split at link
    · rename_i is_free
      exact Or.inr (Or.inl ⟨is_free, link⟩)
    · exact Or.inr (Or.inr ⟨not_home, not_home, link⟩)

theorem Orderly.chainBehind (orderly : layout.Orderly) (home_inside : home < layout.slots.size)
    (free_inside : free < layout.slots.size) (is_free : (slotAt layout.slots free).isFree = true)
    (home_eq : layout.home filed.1.id = home) (found_home : layout.entry home = some occupant)
    (owner : layout.home occupant.1.id = home) (absent : layout.Absent filed.1.id) :
    (layout.chainBehind home free filed).Orderly := by
  have apart := ne_of_isFree is_free found_home
  have next_of := next_chainBehind home_inside free_inside filed
  have at_home : (layout.chainBehind home free filed).next home = some free := by simp [next_of]
  have at_free : (layout.chainBehind home free filed).next free = layout.next home := by
    simp [next_of, apart]
  have elsewhere : ∀ position, position ≠ free → position ≠ home →
      (layout.chainBehind home free filed).next position = layout.next position := by
    intro position not_free not_home
    simp [next_of, not_free, not_home]
  have same_size : (layout.chainBehind home free filed).slots.size = layout.slots.size := by
    simp [Layout.chainBehind]
  have same_home : ∀ id, (layout.chainBehind home free filed).home id = layout.home id :=
    fun id => by simp [Layout.home, same_size]
  have gains := gains_chainBehind home_inside free_inside apart filed
  have splices := splices_chainBehind home_inside free_inside filed
  exact {
    next_lt := same_size ▸ splices.lt free_inside orderly.next_lt
    next_injective := splices.injective (orderly.unlinked is_free) orderly.next_injective
    linked_of_next := fun position following link => by
      rw [slotAt_chainBehind home_inside free_inside]
      by_cases is_new : following = free
      · rw [if_neg fun is_home => apart (is_new.symm.trans is_home), if_pos is_new]
      · obtain ⟨earlier, before⟩ := splices.exists_link link is_new
        have linked := orderly.linked_of_next earlier following before
        split
        · rename_i is_home
          rw [← is_home]
          exact linked
        · exact linked
    ends := Ends.insert (orderly.unlinked is_free) at_free at_home elsewhere apart orderly.ends
    unique := gains.unique orderly absent
    reachable := fun position other found => by
      rw [same_home]
      rcases gains position other found with ⟨is_new, is_filed⟩ | ⟨_, before⟩
      · rw [is_new, is_filed, home_eq]
        exact .step at_home (.refl free)
      · exact (orderly.reachable position other before).insert (next_of_isFree is_free) at_free
          at_home elsewhere
    guest := fun position other found away place another found' => by
      rw [same_home] at away ⊢
      rcases gains position other found with ⟨is_new, _⟩ | ⟨_, before⟩ <;>
        rcases gains place another found' with ⟨_, is_filed⟩ | ⟨_, before'⟩
      · rw [is_filed, home_eq, is_new]
        exact fun same => apart same.symm
      · rw [is_new]
        exact orderly.home_ne_of_isFree is_free before'
      · rw [is_filed, home_eq]
        intro same
        rw [← same, found_home] at before
        rw [← same, ← Option.some.inj before, owner] at away
        exact away rfl
      · exact orderly.guest position other before away place another before'
    size_eq := by
      rw [(entries_chainBehind_perm home_inside free_inside apart
        (entry_of_isFree is_free)).length_eq, List.length_cons, ← orderly.size_eq]
      rfl
    cursor_le := by
      rw [same_size]
      exact Nat.le_of_lt free_inside }

end ChainBehind

/-! ## In the place of a guest -/

section Displace

variable {layout : Layout β} {before home free : Nat} {filed guest : Symbol × β}

theorem slotAt_displace (before_inside : before < layout.slots.size)
    (home_inside : home < layout.slots.size) (free_inside : free < layout.slots.size)
    (filed : Symbol × β) (position : Nat) :
    slotAt (layout.displace before home free filed).slots position =
      if position = home then ⟨some filed, none, false⟩
      else if position = free then { slotAt layout.slots home with linked := true }
      else if position = before then { slotAt layout.slots before with next := some free }
      else slotAt layout.slots position := by
  simp [displace, slotAt_setIfInBounds, before_inside, home_inside, free_inside]

theorem entries_displace_perm (before_inside : before < layout.slots.size)
    (home_inside : home < layout.slots.size) (free_inside : free < layout.slots.size)
    (apart : free ≠ home) (before_apart : before ≠ home)
    (empty_free : layout.entry free = none) :
    (layout.displace before home free filed).entries.Perm (filed :: layout.entries) := by
  have relink := filedIn_setIfInBounds_perm layout.slots before
    { slotAt layout.slots before with next := some free } before_inside
  have first := (List.perm_append_left_iff _).mp relink
  have second := filedIn_setIfInBounds_perm
    (layout.slots.setIfInBounds before { slotAt layout.slots before with next := some free })
    free { slotAt layout.slots home with linked := true } (by simpa using free_inside)
  have third := filedIn_setIfInBounds_perm
    ((layout.slots.setIfInBounds before
      { slotAt layout.slots before with next := some free }).setIfInBounds free
      { slotAt layout.slots home with linked := true }) home ⟨some filed, none, false⟩
    (by simpa using home_inside)
  have empty_still : (slotAt (layout.slots.setIfInBounds before
      { slotAt layout.slots before with next := some free }) free).entry = none := by
    rw [slotAt_setIfInBounds]
    split
    · rename_i same; rw [← same.1]; exact empty_free
    · exact empty_free
  have home_still : (slotAt ((layout.slots.setIfInBounds before
      { slotAt layout.slots before with next := some free }).setIfInBounds free
      { slotAt layout.slots home with linked := true }) home).entry =
        (slotAt layout.slots home).entry := by
    rw [slotAt_setIfInBounds, if_neg fun both => apart both.1.symm, slotAt_setIfInBounds,
      if_neg fun both => before_apart both.1.symm]
  rw [empty_still] at second
  rw [home_still] at third
  have moved := third.trans ((second.append_left (some filed).toList).trans
    ((first.append_left _).append_left _))
  have swapped : ((some filed).toList ++ ((slotAt layout.slots home).entry.toList ++
      filedIn layout.slots.toList)).Perm
        ((slotAt layout.slots home).entry.toList ++ (filed :: filedIn layout.slots.toList)) := by
    simpa using List.perm_middle.symm
  exact (List.perm_append_left_iff _).mp (moved.trans swapped)

theorem next_displace (before_inside : before < layout.slots.size)
    (home_inside : home < layout.slots.size) (free_inside : free < layout.slots.size)
    (filed : Symbol × β) (position : Nat) :
    (layout.displace before home free filed).next position =
      if position = home then none
      else if position = free then layout.next home
      else if position = before then some free
      else layout.next position := by
  rw [next, slotAt_displace before_inside home_inside free_inside]
  split
  · rfl
  · split
    · rfl
    · split <;> rfl

/-- Every entry but the new one was there before, and only the guest has moved. -/
theorem entry_displace_cases (before_inside : before < layout.slots.size)
    (home_inside : home < layout.slots.size) (free_inside : free < layout.slots.size)
    (found_home : layout.entry home = some guest) {position : Nat} {other : Symbol × β}
    (found : (layout.displace before home free filed).entry position = some other) :
    (position = home ∧ other = filed) ∨ (position = free ∧ other = guest) ∨
      (position ≠ home ∧ layout.entry position = some other) := by
  rw [entry, slotAt_displace before_inside home_inside free_inside] at found
  split at found
  · rename_i is_home
    exact Or.inl ⟨is_home, (Option.some.inj found).symm⟩
  · rename_i not_home
    split at found
    · rename_i is_free
      exact Or.inr (Or.inl ⟨is_free, Option.some.inj (found.symm.trans found_home)⟩)
    · split at found
      · rename_i is_before
        exact Or.inr (Or.inr ⟨not_home, is_before ▸ found⟩)
      · exact Or.inr (Or.inr ⟨not_home, found⟩)

theorem splices_displace (before_inside : before < layout.slots.size)
    (home_inside : home < layout.slots.size) (free_inside : free < layout.slots.size)
    (filed : Symbol × β) :
    Splices layout.next (layout.displace before home free filed).next before home free := by
  intro position following link
  rw [next_displace before_inside home_inside free_inside] at link
  split at link
  · exact absurd link (by simp)
  · rename_i not_home
    split at link
    · rename_i is_free
      exact Or.inr (Or.inl ⟨is_free, link⟩)
    · split at link
      · rename_i is_before
        exact Or.inl ⟨is_before, (Option.some.inj link).symm⟩
      · rename_i not_before
        exact Or.inr (Or.inr ⟨not_before, not_home, link⟩)

section Guest

variable (orderly : layout.Orderly) (found_home : layout.entry home = some guest)
  (link_before : layout.next before = some home)

include orderly

/-- No slot is linked to itself. -/
theorem Orderly.loopless (position : Nat) : layout.next position ≠ some position := fun link =>
  (orderly.ends position).not_leads link (.refl position)

include link_before

theorem Orderly.before_ne : before ≠ home := by
  rintro rfl
  exact orderly.loopless before link_before

/-- Once the guest has moved, its old slot starts a chain of its own. -/
theorem Orderly.displace_unlinked (before_inside : before < layout.slots.size)
    (home_inside : home < layout.slots.size) (free_inside : free < layout.slots.size)
    (apart : free ≠ home) (filed : Symbol × β) (position : Nat) :
    (layout.displace before home free filed).next position ≠ some home := by
  intro link
  rcases splices_displace before_inside home_inside free_inside filed position home link with
    ⟨_, same⟩ | ⟨_, old⟩ | ⟨not_before, _, old⟩
  · exact apart same.symm
  · exact orderly.loopless home old
  · exact not_before (orderly.next_injective position before home old link_before)

omit link_before
include found_home

theorem Orderly.displace_unique (before_inside : before < layout.slots.size)
    (home_inside : home < layout.slots.size) (free_inside : free < layout.slots.size)
    (absent : layout.Absent filed.1.id) (first second : Nat) (one other : Symbol × β)
    (found : (layout.displace before home free filed).entry first = some one)
    (found' : (layout.displace before home free filed).entry second = some other)
    (same : one.1.id = other.1.id) : first = second := by
  have cases_of := @entry_displace_cases β layout before home free filed guest before_inside
    home_inside free_inside found_home
  rcases cases_of found with ⟨at_home, rfl⟩ | ⟨at_free, rfl⟩ | ⟨not_home, old⟩ <;>
    rcases cases_of found' with ⟨at_home', is_filed⟩ | ⟨at_free', is_guest⟩ | ⟨not_home', old'⟩
  · rw [at_home, at_home']
  · exact absurd (is_guest ▸ same).symm (absent home guest found_home)
  · exact absurd same.symm (absent second other old')
  · exact absurd (is_filed ▸ same) (absent home one found_home)
  · rw [at_free, at_free']
  · exact absurd (orderly.unique home second one other found_home old' same).symm not_home'
  · exact absurd (is_filed ▸ same) (absent first one old)
  · exact absurd (orderly.unique first home one guest old found_home (is_guest ▸ same)) not_home
  · exact orderly.unique first second one other old old' same

end Guest

/-- A chain that led to a head leads to a slot that was free instead, and from there on as it did
from the head. -/
structure Reroutes (next changed : Nat → Option Nat) (before head free : Nat) : Prop where
  at_head : changed head = none
  at_free : changed free = next head
  at_before : changed before = some free
  elsewhere : ∀ position, position ≠ before → position ≠ free → position ≠ head →
    changed position = next position

theorem reroutes_displace (home_inside : home < layout.slots.size)
    (free_inside : free < layout.slots.size) (is_free : (slotAt layout.slots free).isFree = true)
    (link_before : layout.next before = some home) (before_apart : before ≠ home)
    (apart : free ≠ home) (filed : Symbol × β) :
    Reroutes layout.next (layout.displace before home free filed).next before home free := by
  have next_of := next_displace (lt_size_of_next link_before) home_inside free_inside filed
  have before_not_free : before ≠ free := by
    rintro rfl
    rw [next_of_isFree is_free] at link_before
    exact absurd link_before (by simp)
  constructor
  · rw [next_of, if_pos rfl]
  · rw [next_of, if_neg apart, if_pos rfl]
  · rw [next_of, if_neg before_apart, if_neg before_not_free, if_pos rfl]
  · intro position not_before not_free not_home
    rw [next_of, if_neg not_home, if_neg not_free, if_neg not_before]

section Leading

variable {changed : Nat → Option Nat} (orderly : layout.Orderly)
  (is_free : (slotAt layout.slots free).isFree = true)
  (reroutes : Reroutes layout.next changed before home free)
  (link_before : layout.next before = some home)

include orderly is_free reroutes link_before

theorem Orderly.leads_of_reroutes {start target : Nat} (leads : Leads layout.next start target)
    (kept : target ≠ home) : Leads changed (if start = home then free else start) target :=
  leads.reroute orderly.next_injective (next_of_isFree is_free) link_before reroutes.at_before
    reroutes.at_free reroutes.elsewhere orderly.loopless kept

/-- The guest is found where it has moved to. -/
theorem Orderly.leads_of_reroutes_guest (found_home : layout.entry home = some guest)
    (away : layout.home guest.1.id ≠ home) : Leads changed (layout.home guest.1.id) free := by
  obtain ⟨last, leads, link⟩ := (orderly.reachable home guest found_home).exists_predecessor away
  rw [orderly.next_injective last before home link link_before] at leads
  have path := orderly.leads_of_reroutes is_free reroutes link_before leads
    (orderly.before_ne link_before)
  rw [if_neg away] at path
  exact path.snoc reroutes.at_before

end Leading

theorem Orderly.displace (orderly : layout.Orderly) (home_inside : home < layout.slots.size)
    (free_inside : free < layout.slots.size) (is_free : (slotAt layout.slots free).isFree = true)
    (home_eq : layout.home filed.1.id = home) (found_home : layout.entry home = some guest)
    (away : layout.home guest.1.id ≠ home) (link_before : layout.next before = some home)
    (absent : layout.Absent filed.1.id) : (layout.displace before home free filed).Orderly := by
  have before_inside : before < layout.slots.size := lt_size_of_next link_before
  have before_apart := orderly.before_ne link_before
  have apart := ne_of_isFree is_free found_home
  have reroutes := reroutes_displace home_inside free_inside is_free link_before before_apart
    apart filed
  have same_size : (layout.displace before home free filed).slots.size = layout.slots.size := by
    simp [Layout.displace]
  have same_home : ∀ id, (layout.displace before home free filed).home id = layout.home id :=
    fun id => by simp [Layout.home, same_size]
  have cases_of := @entry_displace_cases β layout before home free filed guest before_inside
    home_inside free_inside found_home
  have splices := splices_displace before_inside home_inside free_inside filed
  exact {
    next_lt := same_size ▸ splices.lt free_inside orderly.next_lt
    next_injective := splices.injective (orderly.unlinked is_free) orderly.next_injective
    linked_of_next := fun position following link => by
      rw [slotAt_displace before_inside home_inside free_inside]
      split
      · rename_i is_home
        rw [is_home] at link
        exact absurd link (orderly.displace_unlinked link_before before_inside home_inside
          free_inside apart filed position)
      · split
        · rfl
        · rename_i not_free
          obtain ⟨earlier, old⟩ := splices.exists_link link not_free
          have linked := orderly.linked_of_next earlier following old
          split
          · rename_i is_before
            rw [← is_before]
            exact linked
          · exact linked
    ends := Ends.reroute (orderly.unlinked is_free) link_before reroutes.at_before
      reroutes.at_free reroutes.at_head reroutes.elsewhere apart orderly.ends
    unique := orderly.displace_unique found_home before_inside home_inside free_inside absent
    reachable := fun position other found => by
      rw [same_home]
      rcases cases_of found with ⟨at_position, is_new⟩ | ⟨at_position, is_guest⟩ | ⟨not_home, old⟩
      · rw [at_position, is_new, home_eq]
        exact .refl home
      · rw [at_position, is_guest]
        exact orderly.leads_of_reroutes_guest is_free reroutes link_before found_home away
      · have path := orderly.leads_of_reroutes is_free reroutes link_before
          (orderly.reachable position other old) not_home
        rwa [if_neg (orderly.guest home guest found_home away position other old)] at path
    guest := fun position other found away' place another found' => by
      rw [same_home] at away' ⊢
      -- Every entry but the new one has been filed before, wherever it was.
      have origin : another = filed ∨ ∃ spot, layout.entry spot = some another := by
        rcases cases_of found' with ⟨_, is_new⟩ | ⟨_, is_guest⟩ | ⟨_, old'⟩
        · exact Or.inl is_new
        · exact Or.inr ⟨home, is_guest ▸ found_home⟩
        · exact Or.inr ⟨place, old'⟩
      rcases cases_of found with ⟨at_position, is_new⟩ | ⟨at_position, _⟩ | ⟨not_home, old⟩
      · rw [is_new, home_eq, at_position] at away'
        exact absurd rfl away'
      · rw [at_position]
        rcases origin with is_new | ⟨spot, old'⟩
        · rw [is_new, home_eq]
          exact fun same => apart same.symm
        · exact orderly.home_ne_of_isFree is_free old'
      · rcases origin with is_new | ⟨spot, old'⟩
        · rw [is_new, home_eq]
          exact fun same => not_home same.symm
        · exact orderly.guest position other old away' spot another old'
    size_eq := by
      rw [(entries_displace_perm before_inside home_inside free_inside apart before_apart
        (entry_of_isFree is_free)).length_eq, List.length_cons, ← orderly.size_eq]
      rfl
    cursor_le := by
      rw [same_size]
      exact Nat.le_of_lt free_inside }

end Displace

end SoftSimplex.Layout
