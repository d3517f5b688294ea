import SoftSimplex.Constraint
import SoftSimplex.Document.Basic
import SoftSimplex.Options
import SoftSimplex.Refusal

/-!
# Loading and saving

How options, relations, statuses and strengths are read from documents and written to them.
Reading is strict about kinds: a number is never taken for a truth value, a fraction never for a
count. Options may be written as a record, where missing fields keep their usual values and
unknown ones are ignored, or as a list of their values in order, which may stop early.
-/

namespace SoftSimplex

variable {α : Type}

namespace Options

/-- Read options from a record or a list. -/
def load? : Document α → Option Options
  | .record fields => do
      let autoUpdate ← (Document.field? fields "auto_update" |>
        Document.fieldOr Document.boolean? false)
      let pageSize ← (Document.field? fields "pool_page_slots" |>
        Document.fieldOr Document.count? 64)
      return ⟨autoUpdate, pageSize⟩
  | .list [] => some {}
  | .list [autoUpdate] => do return { autoUpdate := ← autoUpdate.boolean? }
  | .list [autoUpdate, pageSize] => do return ⟨← autoUpdate.boolean?, ← pageSize.count?⟩
  | _ => none

/-- Write options as a record. -/
def save (options : Options) : Document α :=
  .record [("auto_update", .boolean options.autoUpdate),
    ("pool_page_slots", .integer (.ofNat options.pageSize))]

/-- Options are read back as they were written, if their page size fits into sixty-four
bits. -/
theorem load?_save (options : Options) (fits : options.pageSize < Document.countLimit) :
    load? (options.save : Document α) = some options := by
  simp [save, load?, Document.field?, Document.fieldOr, Document.boolean?, Document.count?, fits]

end Options

namespace Relation

/-- The name of a relation. -/
def name : Relation → String
  | atMost => "LessOrEqual"
  | equal => "Equal"
  | atLeast => "GreaterOrEqual"

/-- The relation of a name. -/
def ofName? : String → Option Relation
  | "LessOrEqual" => some atMost
  | "Equal" => some equal
  | "GreaterOrEqual" => some atLeast
  | _ => none

/-- Read a relation. -/
def load? (document : Document α) : Option Relation :=
  document.choice?.bind ofName?

/-- Write a relation. -/
def save (relation : Relation) : Document α := .text relation.name

theorem ofName?_name (relation : Relation) : ofName? relation.name = some relation := by
  cases relation <;> rfl

/-- A relation is read back as it was written. -/
theorem load?_save (relation : Relation) : load? (relation.save : Document α) = some relation :=
  ofName?_name relation

end Relation

namespace Status

/-- The name of a status. -/
def name : Status → String
  | ok => "Ok"
  | failed => "Failed"
  | unsatisfied => "Unsatisfied"
  | unbound => "Unbound"

/-- The status of a name. -/
def ofName? : String → Option Status
  | "Ok" => some ok
  | "Failed" => some failed
  | "Unsatisfied" => some unsatisfied
  | "Unbound" => some unbound
  | _ => none

/-- Read a status. -/
def load? (document : Document α) : Option Status :=
  document.choice?.bind ofName?

/-- Write a status. -/
def save (status : Status) : Document α := .text status.name

theorem ofName?_name (status : Status) : ofName? status.name = some status := by
  cases status <;> rfl

/-- A status is read back as it was written. -/
theorem load?_save (status : Status) : load? (status.save : Document α) = some status :=
  ofName?_name status

end Status

namespace Strength

variable [Scalar α]

/-- The number nearest to a whole number. -/
def weightOfInt (value : Int) : α :=
  if value < 0 then -(value.natAbs : α) else (value.natAbs : α)

/-- Read a strength, which is a bare number. -/
def load? : Document α → Option (Strength α)
  | .integer value => some ⟨weightOfInt value⟩
  | .real value => some ⟨value⟩
  | _ => none

/-- Write a strength. -/
def save (strength : Strength α) : Document α := .real strength.weight

/-- A strength is read back as it was written. -/
@[simp]
theorem load?_save (strength : Strength α) : load? strength.save = some strength := rfl

end Strength

end SoftSimplex
