/-!
# Documents

Values as they are kept in files and messages: texts, numbers, lists and records with named
fields. Whole numbers are kept apart from numbers written with a fraction or an exponent.
-/

namespace SoftSimplex

/-- A value outside of the program. -/
inductive Document (α : Type) where
  | null
  | boolean (value : Bool)
  | integer (value : Int)
  | real (value : α)
  | text (value : String)
  | list (items : List (Document α))
  /-- A record. Each field name occurs once. -/
  | record (fields : List (String × Document α))

namespace Document

variable {α : Type}

/-- The value of a record's field. -/
def field? (fields : List (String × Document α)) (name : String) : Option (Document α) :=
  (fields.find? fun field => field.1 == name).map Prod.snd

/-- A truth value, and nothing else. -/
def boolean? : Document α → Option Bool
  | boolean value => some value
  | _ => none

/-- Counts are written in sixty-four bits. -/
def countLimit : Nat := 18446744073709551616

/-- A whole number from zero up, below the limit of counts. -/
def count? : Document α → Option Nat
  | integer (.ofNat value) => if value < countLimit then some value else none
  | _ => none

/-- The name of a choice: a text, or a record with that name as its only field and nothing in
it. -/
def choice? : Document α → Option String
  | text name => some name
  | record [(name, null)] => some name
  | _ => none

/-- The reading of a field that may be missing, in which case the given value stands. -/
def fieldOr {β : Type} (read : Document α → Option β) (missing : β) :
    Option (Document α) → Option β
  | none => some missing
  | some found => read found

end Document

end SoftSimplex
