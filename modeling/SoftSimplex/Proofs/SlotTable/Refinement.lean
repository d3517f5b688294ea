import Mathlib.Logic.Function.Basic
import SoftSimplex.Proofs.FiniteMap
import SoftSimplex.Proofs.Requests
import SoftSimplex.SlotTable.Entries

/-!
# Tables as finite maps

Where entries lie, which slots are chained and how many slots there are does not show. Whatever is
asked of tables in whatever order, they answer as finite maps from numbers do, in which the kind
that a number was first filed with stays beside the value. Only the order in which a walk comes
past the entries is the table's own.
-/

namespace SoftSimplex

/-- What a table stands for: the kind and the value filed under each number. -/
abbrev Filing (β : Type) := FiniteMap (Symbol.Kind × β)

/-- Entries by their numbers. -/
def numbered {β : Type} (entries : List (Symbol × β)) : List (Nat × Symbol.Kind × β) :=
  entries.map fun filed => (filed.1.id, filed.1.kind, filed.2)

namespace Filing

variable {β : Type}

/-- The value filed under a symbol. -/
def value? (filing : Filing β) (symbol : Symbol) : Option β :=
  (filing.lookup symbol.id).map Prod.snd

/-- File a value under a symbol. A number that is filed keeps its kind. -/
def file (filing : Filing β) (symbol : Symbol) (value : β) : Filing β :=
  filing.insert symbol.id
    (((filing.lookup symbol.id).map Prod.fst).getD symbol.kind, value)

/-- Change the value filed under a symbol, if there is one. -/
def change (filing : Filing β) (symbol : Symbol) (action : β → β) : Filing β :=
  FiniteMap.change filing symbol.id fun kept => (kept.1, action kept.2)

end Filing

namespace SlotTable

/-- What can be asked of a table. -/
inductive Request (β : Type) where
  | insert (symbol : Symbol) (value : β)
  | erase (symbol : Symbol)
  | get (symbol : Symbol)
  /-- Look up the value of a symbol in order to change it. -/
  | modify (symbol : Symbol) (action : β → β)
  | contains (symbol : Symbol)
  /-- Look up the value of a symbol in order to change it, and file a value first if there is
  none. -/
  | alter (symbol : Symbol) (start : β) (action : β → β)
  | clear
  /-- Walk over the entries and change them. What becomes of an entry may depend on all entries
  that the walk has come past. -/
  | rewrite (action : List (Symbol × β) → Symbol → β → β)
  | list
  | size

/-- What a table answers. -/
inductive Answer (β : Type) where
  | value (value : Option β)
  | truth (holds : Bool)
  | entries (entries : List (Symbol × β))
  | number (number : Nat)
  | done

variable {β : Type}

/-- Do what is asked. An entry that is to be changed is answered as it was found. -/
def perform (table : SlotTable β) : Request β → Answer β × SlotTable β
  | .insert symbol value => (.value (table.get? symbol), table.insert symbol value)
  | .erase symbol => (.value (table.get? symbol), table.erase symbol)
  | .get symbol => (.value (table.get? symbol), table)
  | .modify symbol action => (.value (table.get? symbol), table.modify symbol action)
  | .contains symbol => (.truth (table.contains symbol), table)
  | .alter symbol start action =>
      (.value ((table.alter symbol start id).get? symbol), table.alter symbol start action)
  | .clear => (.done, table.clear)
  | .rewrite action =>
      let (table, met) := table.pass [] fun met symbol value =>
        (action met symbol value, met ++ [(symbol, value)])
      (.entries met, table)
  | .list => (.entries table.entries, table)
  | .size => (.number table.size, table)

/-- Entries that were changed one after the other. -/
def rewritten (action : List (Symbol × β) → Symbol → β → β) (entries : List (Symbol × β)) :
    List (Symbol × β) :=
  entries.mapIdx fun position filed =>
    (filed.1, action (entries.take position) filed.1 filed.2)

/-- What a finite map answers to a request, and what becomes of it. A walk may come past the
entries in any order. -/
inductive Request.Meant (filing : Filing β) : Request β → Answer β → Filing β → Prop where
  | insert (symbol : Symbol) (value : β) :
      Meant filing (.insert symbol value) (.value (filing.value? symbol))
        (filing.file symbol value)
  | erase (symbol : Symbol) :
      Meant filing (.erase symbol) (.value (filing.value? symbol)) (filing.erase symbol.id)
  | get (symbol : Symbol) :
      Meant filing (.get symbol) (.value (filing.value? symbol)) filing
  | modify (symbol : Symbol) (action : β → β) :
      Meant filing (.modify symbol action) (.value (filing.value? symbol))
        (filing.change symbol action)
  | contains (symbol : Symbol) :
      Meant filing (.contains symbol) (.truth (decide (symbol.id ∈ filing))) filing
  | alter (symbol : Symbol) (start : β) (action : β → β) :
      Meant filing (.alter symbol start action)
        (.value (some ((filing.value? symbol).getD start)))
        (filing.file symbol (action ((filing.value? symbol).getD start)))
  | clear : Meant filing .clear .done ∅
  | rewrite (action : List (Symbol × β) → Symbol → β → β) (entries : List (Symbol × β))
      (lists : FiniteMap.Lists (numbered entries) filing) :
      Meant filing (.rewrite action) (.entries entries)
        (FiniteMap.ofList (numbered (rewritten action entries)))
  | list (entries : List (Symbol × β)) (lists : FiniteMap.Lists (numbered entries) filing) :
      Meant filing .list (.entries entries) filing
  | size : Meant filing .size (.number filing.keys.card) filing

/-! ## The finite map of a table -/

/-- The finite map that a table stands for. -/
def filing (table : SlotTable β) : Filing β :=
  FiniteMap.ofList (numbered table.entries)

theorem numbered_distinct {entries : List (Symbol × β)} (distinct : Layout.Distinct entries) :
    ((numbered entries).map Prod.fst).Nodup := by
  rw [numbered, List.map_map]
  exact List.pairwise_map.mpr distinct

theorem lists_filing (table : SlotTable β) :
    FiniteMap.Lists (numbered table.entries) table.filing :=
  FiniteMap.lists_ofList (numbered_distinct table.distinct)

theorem lookup_filing_eq_some_iff (table : SlotTable β) (symbol : Symbol) (value : β) :
    table.filing.lookup symbol.id = some (symbol.kind, value) ↔
      (symbol, value) ∈ table.entries := by
  rw [← table.lists_filing.mem_iff, numbered, List.mem_map]
  constructor
  · rintro ⟨⟨⟨id, kind⟩, kept⟩, member, same⟩
    obtain ⟨rfl, rfl, rfl⟩ : id = symbol.id ∧ kind = symbol.kind ∧ kept = value := by
      simpa using same
    exact member
  · exact fun member => ⟨_, member, rfl⟩

/-- The finite map finds what the table finds. -/
theorem value?_filing (table : SlotTable β) (symbol : Symbol) :
    table.filing.value? symbol = table.get? symbol := by
  refine Option.ext fun value => ?_
  rw [get?_eq_some_iff, Filing.value?, Option.map_eq_some_iff]
  constructor
  · rintro ⟨⟨kind, _⟩, found, rfl⟩
    exact ⟨_, (table.lookup_filing_eq_some_iff ⟨symbol.id, kind⟩ _).mp found, rfl, rfl⟩
  · rintro ⟨filed, member, same, rfl⟩
    exact ⟨_, same ▸ (table.lookup_filing_eq_some_iff filed.1 filed.2).mpr member, rfl⟩

/-- Changing the entry of a number, seen by the numbers. -/
theorem numbered_change (entries : List (Symbol × β)) (number : Nat) (action : β → β) :
    numbered (entries.map fun filed =>
        if filed.1.id = number then (filed.1, action filed.2) else filed) =
      (numbered entries).map fun pair =>
        if pair.1 = number then (pair.1, pair.2.1, action pair.2.2) else pair := by
  simp only [numbered, List.map_map]
  apply List.map_congr_left
  intro filed _
  simp only [Function.comp_apply]
  split <;> rfl

theorem filing_modify (table : SlotTable β) (symbol : Symbol) (action : β → β) :
    (table.modify symbol action).filing = table.filing.change symbol action := by
  rw [filing, entries_modify, numbered_change]
  exact FiniteMap.ofList_map_change _ symbol.id fun kept => (kept.1, action kept.2)

/-- A number that is filed keeps its kind, and another one gets the kind of the symbol. -/
theorem filing_alter (table : SlotTable β) (symbol : Symbol) (start : β) (action : β → β) :
    (table.alter symbol start action).filing =
      table.filing.file symbol (action ((table.filing.value? symbol).getD start)) := by
  cases found : table.filing.lookup symbol.id with
  | none =>
      have absent : table.get? symbol = none := by
        rw [← value?_filing, Filing.value?, found]
        rfl
      have entries := table.entries_alter_of_absent symbol start action absent
      have filed := FiniteMap.ofList_perm (entries.map _)
        (numbered_distinct (table.alter symbol start action).distinct)
      rw [Filing.file, Filing.value?, found]
      exact filed
  | some kept =>
      have present : table.get? symbol ≠ none := by
        rw [← value?_filing, Filing.value?, found]
        exact Option.some_ne_none kept.2
      rw [filing, table.entries_alter_of_present symbol start action present, numbered_change,
        FiniteMap.ofList_map_change _ symbol.id fun kept => (kept.1, action kept.2)]
      rw [Filing.file, Filing.value?, found]
      exact FiniteMap.change_of_lookup found _

theorem filing_insert (table : SlotTable β) (symbol : Symbol) (value : β) :
    (table.insert symbol value).filing = table.filing.file symbol value :=
  table.filing_alter symbol value fun _ => value

theorem filing_erase (table : SlotTable β) (symbol : Symbol) :
    (table.erase symbol).filing = table.filing.erase symbol.id := by
  rw [filing, entries_erase, filing, ← FiniteMap.ofList_filter_ne, numbered, numbered,
    List.filter_map]
  rfl

/-- A walk that notes what it comes past changes every entry by what it has noted so far. -/
theorem passEntries_noting {ν : Type} (note : Symbol × β → ν)
    (action : List ν → Symbol → β → β) (entries : List (Symbol × β)) (noted : List ν) :
    passEntries (fun noted symbol value =>
        (action noted symbol value, noted ++ [note (symbol, value)])) entries noted =
      (entries.mapIdx fun position filed =>
        (filed.1, action (noted ++ (entries.take position).map note) filed.1 filed.2),
        noted ++ entries.map note) := by
  induction entries generalizing noted with
  | nil => simp [passEntries]
  | cons filed rest inductionHypothesis =>
      simp [passEntries, inductionHypothesis, List.mapIdx_cons]

/-! ## Answers -/

/-- A table answers as the finite map that it stands for. -/
theorem perform_meant (table : SlotTable β) (request : Request β) :
    Request.Meant table.filing request (table.perform request).1
      (table.perform request).2.filing := by
  cases request with
  | insert symbol value =>
      simp only [perform, ← value?_filing, filing_insert]
      exact .insert symbol value
  | erase symbol =>
      simp only [perform, ← value?_filing, filing_erase]
      exact .erase symbol
  | get symbol =>
      simp only [perform, ← value?_filing]
      exact .get symbol
  | modify symbol action =>
      simp only [perform, ← value?_filing, filing_modify]
      exact .modify symbol action
  | contains symbol =>
      have held : table.contains symbol = decide (symbol.id ∈ table.filing) := by
        rw [contains_eq_isSome, ← value?_filing, Filing.value?, Option.isSome_map,
          Bool.eq_iff_iff, Finmap.lookup_isSome, decide_eq_true_iff]
      simp only [perform, held]
      exact .contains symbol
  | alter symbol start action =>
      have there : (table.filing.file symbol ((table.filing.value? symbol).getD start)).value?
          symbol = some ((table.filing.value? symbol).getD start) := by
        rw [Filing.value?, Filing.file, Finmap.lookup_insert]
        rfl
      simp only [perform, ← value?_filing, filing_alter, id, there]
      exact .alter symbol start action
  | clear =>
      have nothing : table.clear.filing = ∅ := by
        rw [filing, entries_clear]
        rfl
      simp only [perform, nothing]
      exact .clear
  | rewrite action =>
      have walk := (table.pass_eq [] fun met symbol value =>
        (action met symbol value, met ++ [(symbol, value)])).trans
          (passEntries_noting id action table.entries [])
      simp only [List.nil_append, List.map_id] at walk
      have changed := congrArg Prod.fst walk
      have met := congrArg Prod.snd walk
      simp only at changed met
      simp only [perform, filing, met, changed]
      exact .rewrite action table.entries table.lists_filing
  | list => exact .list table.entries table.lists_filing
  | size =>
      have counted : table.size = table.filing.keys.card := by
        rw [size_eq, ← table.lists_filing.length_eq_card, numbered, List.length_map]
      simp only [perform, counted]
      exact .size

end SlotTable

/-- Tables that are told apart by numbers. -/
abbrev Shelf (β : Type) := Nat → SlotTable β

namespace Shelf

variable {β : Type}

/-- No table has an entry. -/
def empty : Shelf β := fun _ => .empty

/-- What can be asked of the tables on a shelf. -/
inductive Request (β : Type) where
  | ask (table : Nat) (request : SlotTable.Request β)
  /-- Put a copy of a table in the place of another one. -/
  | copy (source target : Nat)

/-- Do what is asked. -/
def perform (shelf : Shelf β) : Request β → SlotTable.Answer β × Shelf β
  | .ask table request =>
      let (answer, changed) := (shelf table).perform request
      (answer, Function.update shelf table changed)
  | .copy source target => (.done, Function.update shelf target (shelf source))

/-- What finite maps that are told apart by numbers answer, and what becomes of them. -/
inductive Request.Meant (filings : Nat → Filing β) :
    Request β → SlotTable.Answer β → (Nat → Filing β) → Prop where
  | ask {table : Nat} {request : SlotTable.Request β} {answer : SlotTable.Answer β}
      {changed : Filing β} (meant : request.Meant (filings table) answer changed) :
      Meant filings (.ask table request) answer (Function.update filings table changed)
  | copy (source target : Nat) :
      Meant filings (.copy source target) .done
        (Function.update filings target (filings source))

/-- The finite maps that the tables stand for. -/
def filings (shelf : Shelf β) (table : Nat) : Filing β :=
  (shelf table).filing

theorem filings_update (shelf : Shelf β) (number : Nat) (table : SlotTable β) :
    filings (Function.update shelf number table) =
      Function.update shelf.filings number table.filing := by
  funext other
  unfold filings
  by_cases same : other = number
  · subst same
    simp
  · simp [Function.update_of_ne same]

theorem perform_meant (shelf : Shelf β) (request : Request β) :
    request.Meant shelf.filings (shelf.perform request).1 (shelf.perform request).2.filings := by
  cases request with
  | ask number request =>
      simp only [perform, filings_update]
      exact .ask ((shelf number).perform_meant request)
  | copy source target =>
      simp only [perform, filings_update]
      exact .copy source target

/-- Whatever is asked of tables that start without entries, in whatever order and with copies made
in between, they answer as finite maps that start empty, and then stand for those maps. -/
theorem follow_empty_meant (requests : List (Request β)) :
    Requests.AllMeant Request.Meant (fun _ => ∅) requests
      (Requests.follow perform empty requests).1
      (Requests.follow perform empty requests).2.filings :=
  Requests.follow_allMeant perform_meant empty requests

end Shelf

end SoftSimplex
