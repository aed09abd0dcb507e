import RowQuery.Evaluate

/-!
# Row expressions

A term over named row parameters, such as the restriction of a query or the list
of its columns.
-/

namespace RowQuery

/-- A term with names for its row parameters. -/
structure Lambda where
  params : List String
  body : Term
  /-- Every row parameter of the body has a name. -/
  bound : body.arity ≤ params.length

namespace Lambda

/-- The expression with these parameters and this body, if it names every row
parameter. -/
def make (params : List String) (body : Term) : Outcome Lambda :=
  if bound : body.arity ≤ params.length then .ok ⟨params, body, bound⟩
  else .error (.arity body.arity params.length)

/-- The number of rows that the expression takes. -/
def arity (e : Lambda) : Nat :=
  e.params.length

/-- The printed form of the body. -/
def repr (e : Lambda) : String :=
  e.body.repr e.params

/-- The printed form with the parameters. -/
def toText (e : Lambda) : String :=
  "lambda " ++ Text.join ", " e.params ++ ": " ++ e.repr

/-- Join two expressions under the parameter names of the first. -/
def combine (join : Term → Term → Term) (l r : Lambda) : Outcome Lambda :=
  if l.arity = r.arity then make l.params (join l.body r.body)
  else .error (.arity l.arity r.arity)

/-- The conjunction of two expressions. -/
def and : Lambda → Lambda → Outcome Lambda :=
  combine Term.and

/-- The disjunction of two expressions. -/
def or : Lambda → Lambda → Outcome Lambda :=
  combine Term.or

/-- The value of the expression on rows. -/
def evaluate (e : Lambda) (scope : Scope) : Outcome Value :=
  if scope.rows.length = e.arity then e.body.eval scope
  else .error (.arity e.arity scope.rows.length)

/-- The expression accepts the rows. -/
def matches? (e : Lambda) (scope : Scope) : Outcome Bool :=
  (e.evaluate scope).map Value.truthy

theorem arity_and_le (l r : Term) : (l.and r).arity ≤ max l.arity r.arity := by
  unfold Term.and
  split <;> simp [Term.arity, Term.arities, Term.arities_append] <;> omega

theorem arity_or_le (l r : Term) : (l.or r).arity ≤ max l.arity r.arity := by
  unfold Term.or
  split <;> simp [Term.arity, Term.arities, Term.arities_append] <;> omega

end Lambda

end RowQuery
