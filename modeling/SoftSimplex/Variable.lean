import SoftSimplex.Symbol

/-!
# Variables

A variable lives as long as somebody refers to it: its creator, everyone who asked for a share
in it, and every constraint whose expression mentions it. Its solved value is cached, and a
stale cache waits in a queue to be refreshed. An edited variable has a hidden constraint that
pulls it toward a target.
-/

namespace SoftSimplex

/-- What a solver knows about a variable. -/
structure Variable (α : Type) where
  /-- The cached value is due for a refresh. -/
  isStale : Bool
  /-- How many times callers and expressions refer to the variable. It stands for a count of 32
  bits, and no count is taken to overflow. -/
  references : Nat
  /-- The key of the hidden constraint, if the variable is edited. -/
  edit : Option Symbol
  target : α
  value : α

namespace Variable

variable {α : Type}

/-- A new variable, referred to by its creator alone. -/
def fresh [Zero α] : Variable α where
  isStale := false
  references := 1
  edit := none
  target := 0
  value := 0

/-- One reference more. -/
def retained (state : Variable α) : Variable α :=
  { state with references := state.references + 1 }

/-- One reference fewer, if there is one. -/
def released (state : Variable α) : Variable α :=
  { state with references := state.references - 1 }

/-- The cache holds this value from now on. -/
def refreshed (state : Variable α) (value : α) : Variable α :=
  { state with isStale := false, value }

end Variable

end SoftSimplex
