import SoftSimplex.Scalar.Basic
import SoftSimplex.SlotTable.Basic

/-!
# Linear forms

A linear form is a constant plus finitely many symbols with coefficients. A coefficient that
falls to a negligible value when something is added to it is dropped together with its symbol.
The terms are walked in slot order.

A row of the tableau files a form under a basic symbol and reads: the basic symbol equals the
form.
-/

namespace SoftSimplex

/-- A constant and the coefficients of some symbols. -/
structure LinearForm (α : Type) where
  constant : α
  coefficients : SlotTable α

namespace LinearForm

variable {α : Type} [Scalar α]

/-- The form without symbols. -/
def ofConstant (constant : α) : LinearForm α := ⟨constant, SlotTable.empty⟩

/-- The symbols with their coefficients, in slot order. -/
def terms (form : LinearForm α) : List (Symbol × α) :=
  form.coefficients.entries

/-- The number of symbols. -/
def size (form : LinearForm α) : Nat :=
  form.coefficients.size

/-- No symbol occurs. -/
def isConstant (form : LinearForm α) : Bool :=
  form.coefficients.isEmpty

/-- The symbol occurs. -/
def mentions (form : LinearForm α) (symbol : Symbol) : Bool :=
  form.coefficients.contains symbol

/-- The coefficient of a symbol that occurs. -/
def coefficient? (form : LinearForm α) (symbol : Symbol) : Option α :=
  form.coefficients.get? symbol

/-- The coefficient of a symbol, which is zero if it does not occur. -/
def coefficient (form : LinearForm α) (symbol : Symbol) : α :=
  (form.coefficient? symbol).getD 0

/-- Add a multiple of a symbol. A coefficient that becomes negligible is dropped, and the null
symbol adds nothing. -/
def plus (form : LinearForm α) (symbol : Symbol) (amount : α) : LinearForm α :=
  if symbol.isNull then form
  else
    let total := form.coefficient symbol + amount
    let coefficients := form.coefficients.insert symbol total
    { form with
      coefficients :=
        if Scalar.negligible total then coefficients.erase symbol else coefficients }

/-- Add a multiple of every term of a list. -/
def plusTerms (form : LinearForm α) (terms : List (Symbol × α)) (factor : α) : LinearForm α :=
  terms.foldl (fun sum term => sum.plus term.1 (term.2 * factor)) form

/-- Add a multiple of another form. -/
def plusMultiple (form other : LinearForm α) (factor : α) : LinearForm α :=
  { form with constant := form.constant + other.constant * factor }.plusTerms other.terms factor

/-- Multiply the constant and every coefficient. -/
def scale (form : LinearForm α) (factor : α) : LinearForm α where
  constant := form.constant * factor
  coefficients := form.coefficients.map (· * factor)

/-- Take a symbol out. -/
def without (form : LinearForm α) (symbol : Symbol) : LinearForm α :=
  { form with coefficients := form.coefficients.erase symbol }

/-- Take all symbols out that fail a test. -/
def restrict (form : LinearForm α) (keep : Symbol → Bool) : LinearForm α :=
  (form.terms.filter fun term => !keep term.1).foldl (fun rest term => rest.without term.1) form

/-- The zero form, on the same slots. -/
def cleared (form : LinearForm α) : LinearForm α :=
  ⟨0, form.coefficients.clear⟩

/-- Solve the equation between the leaving symbol and the form for the entering symbol, which
has to occur. With no leaving symbol the equation sets the form to zero. -/
def isolate (form : LinearForm α) (entering leaving : Symbol) : LinearForm α :=
  match form.coefficient? entering with
  | none => form
  | some coefficient =>
      let reciprocal := 1 / coefficient
      ((form.without entering).scale (-reciprocal)).plus leaving reciprocal

/-- Replace a symbol by a form that equals it. -/
def substitute (form : LinearForm α) (symbol : Symbol) (definition : LinearForm α) :
    LinearForm α :=
  match form.coefficient? symbol with
  | none => form
  | some coefficient => (form.without symbol).plusMultiple definition coefficient

@[simp]
theorem plus_null (form : LinearForm α) (amount : α) : form.plus Symbol.null amount = form := by
  simp [plus]

@[simp]
theorem plus_constant (form : LinearForm α) (symbol : Symbol) (amount : α) :
    (form.plus symbol amount).constant = form.constant := by
  unfold plus
  split <;> rfl

@[simp]
theorem plusTerms_constant (form : LinearForm α) (terms : List (Symbol × α)) (factor : α) :
    (form.plusTerms terms factor).constant = form.constant := by
  unfold plusTerms
  induction terms generalizing form with
  | nil => rfl
  | cons term rest inductionHypothesis =>
      rw [List.foldl_cons, inductionHypothesis, plus_constant]

@[simp]
theorem plusMultiple_constant (form other : LinearForm α) (factor : α) :
    (form.plusMultiple other factor).constant = form.constant + other.constant * factor := by
  simp [plusMultiple]

omit [Scalar α] in
@[simp]
theorem terms_ofConstant (constant : α) : (ofConstant constant).terms = [] := rfl

end LinearForm

end SoftSimplex
