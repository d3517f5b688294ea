/-!
# Symbols

A symbol names a row or a column of the tableau. Its number identifies it; its kind says which
part it plays. Number zero stands for the absence of a symbol, whatever the kind beside it.
Numbers are handed out in increasing order, and the supply can be set back to a mark when the
symbols drawn since then have been withdrawn.
-/

namespace SoftSimplex

/-- The part that a symbol plays in the tableau. -/
inductive Symbol.Kind where
  /-- An unknown of the constraint system. -/
  | external
  /-- The surplus of an inequality. -/
  | slack
  /-- The amount by which a preference is missed in one direction. -/
  | error
  /-- The mark of a required equality, held at zero. -/
  | dummy
  deriving DecidableEq, Inhabited

/-- A number together with the part that its bearer plays. -/
structure Symbol where
  id : Nat
  kind : Symbol.Kind
  deriving DecidableEq, Inhabited

namespace Symbol

/-- The absence of a symbol. -/
def null : Symbol := ⟨0, .external⟩

/-- The number is the one that stands for no symbol. -/
def isNull (symbol : Symbol) : Bool :=
  symbol.id == 0

/-- A symbol of the given kind. -/
def isOf (kind : Kind) (symbol : Symbol) : Bool :=
  !symbol.isNull && symbol.kind == kind

/-- An unknown of the constraint system. -/
def isExternal (symbol : Symbol) : Bool := symbol.isOf .external

/-- The surplus of an inequality. -/
def isSlack (symbol : Symbol) : Bool := symbol.isOf .slack

/-- A missed amount, which is what preferences are charged for. -/
def isError (symbol : Symbol) : Bool := symbol.isOf .error

/-- The mark of a required equality. -/
def isDummy (symbol : Symbol) : Bool := symbol.isOf .dummy

/-- A symbol that has to stay nonnegative and may leave the basis. -/
def isRestricted (symbol : Symbol) : Bool :=
  symbol.isSlack || symbol.isError

@[simp]
theorem isNull_null : null.isNull = true := rfl

@[simp]
theorem isOf_null (kind : Kind) : null.isOf kind = false := rfl

theorem isNull_eq_false_iff (symbol : Symbol) : symbol.isNull = false ↔ symbol.id ≠ 0 := by
  simp [isNull]

theorem isOf_eq_true_iff (kind : Kind) (symbol : Symbol) :
    symbol.isOf kind = true ↔ symbol.id ≠ 0 ∧ symbol.kind = kind := by
  simp [isOf, isNull]

theorem isRestricted_eq_true_iff (symbol : Symbol) :
    symbol.isRestricted = true ↔
      symbol.id ≠ 0 ∧ (symbol.kind = .slack ∨ symbol.kind = .error) := by
  simp [isRestricted, isSlack, isError, isOf_eq_true_iff, and_or_left]

end Symbol

/-- A supply of symbols, known by the number it gave out last. -/
structure SymbolSupply where
  last : Nat
  deriving DecidableEq

namespace SymbolSupply

/-- The supply from which nothing has been drawn. -/
def full : SymbolSupply := ⟨0⟩

/-- Draw the next number under the given kind. -/
def draw (supply : SymbolSupply) (kind : Symbol.Kind) : Symbol × SymbolSupply :=
  (⟨supply.last + 1, kind⟩, ⟨supply.last + 1⟩)

/-- Give back every number above a mark. -/
def restore (_ : SymbolSupply) (mark : Nat) : SymbolSupply :=
  ⟨mark⟩

@[simp]
theorem draw_symbol_id (supply : SymbolSupply) (kind : Symbol.Kind) :
    (supply.draw kind).1.id = supply.last + 1 := rfl

@[simp]
theorem draw_symbol_kind (supply : SymbolSupply) (kind : Symbol.Kind) :
    (supply.draw kind).1.kind = kind := rfl

@[simp]
theorem draw_supply_last (supply : SymbolSupply) (kind : Symbol.Kind) :
    (supply.draw kind).2.last = supply.last + 1 := rfl

@[simp]
theorem restore_draw (supply : SymbolSupply) (kind : Symbol.Kind) :
    (supply.draw kind).2.restore supply.last = supply := rfl

end SymbolSupply

end SoftSimplex
