/-!
# Options

What can be chosen when a solver is created.
-/

namespace SoftSimplex

/-- The choices that a solver is created with. -/
structure Options where
  /-- Refresh the cached values after every operation that may move them. -/
  autoUpdate : Bool := false
  /-- The number of places on each page of the catalogs. -/
  pageSize : Nat := 64
  deriving DecidableEq

namespace Options

/-- Choose whether values are refreshed without being asked for. -/
def withAutoUpdate (options : Options) (autoUpdate : Bool) : Options :=
  { options with autoUpdate }

/-- Choose the page size; zero counts as one. -/
def withPageSize (options : Options) (pageSize : Nat) : Options :=
  { options with pageSize := max pageSize 1 }

@[simp]
theorem withAutoUpdate_pageSize (options : Options) (autoUpdate : Bool) :
    (options.withAutoUpdate autoUpdate).pageSize = options.pageSize := rfl

/-- A chosen page size is never zero. -/
theorem withPageSize_pageSize_pos (options : Options) (pageSize : Nat) :
    0 < (options.withPageSize pageSize).pageSize :=
  Nat.lt_of_lt_of_le Nat.zero_lt_one (Nat.le_max_right pageSize 1)

end Options

end SoftSimplex
