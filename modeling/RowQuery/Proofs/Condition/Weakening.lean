import RowQuery.Dialect.Ansi
import RowQuery.Proofs.Condition.Shape
import RowQuery.Proofs.Piece

/-!
# Weakened conditions

A compiled restriction may be weaker than its term: parts without SQL form are
TRUE, and some leaves are true too often.  This file proves that it is never
stronger.  If the SQL of the leaves is read in agreement with their evaluation,
the restriction is true on every row that the term accepts, and a restriction that
counts as exact is true on no other row.
-/

namespace RowQuery

namespace Shape

variable (reading : Term → Truth)

theorem reads_eq_map (parts : List Shape) : reads reading parts = parts.map (read reading) := by
  induction parts with
  | nil => rfl
  | cons part parts ih => simp [reads, ih]

theorem read_negated (dialect : Dialect) (shape : Shape) :
    (shape.negated dialect).read reading = (shape.read reading).not := by
  cases shape <;> rfl

theorem read_junction_all (dialect : Dialect) (parts : List Shape) :
    (junction dialect true parts).read reading = Truth.all (parts.map (read reading)) := by
  cases parts with
  | nil => rfl
  | cons part parts =>
      rw [← reads_eq_map]
      rfl

theorem read_junction_any (dialect : Dialect) (parts : List Shape) :
    (junction dialect false parts).read reading = Truth.any (parts.map (read reading)) := by
  cases parts with
  | nil => rfl
  | cons part parts =>
      rw [← reads_eq_map]
      rfl

end Shape

namespace Truth

/-- An agreement that NOT respects and under which what is true stays true. -/
structure ExactAgreement (R : Truth → Truth → Prop) : Prop extends Agreement R where
  not : ∀ {t u}, R t u → R t.not u.not
  implies : ∀ {t u}, R t u → Implies t u

theorem exactAgreement_eq : ExactAgreement Eq where
  toAgreement := agreement_eq
  not same := by rw [same]
  implies same := by
    rw [same]
    exact agreement_implies.refl _

theorem exactAgreement_refines : ExactAgreement Refines where
  toAgreement := agreement_refines
  not := Refines.not
  implies := Refines.implies

/-- Exact SQL agrees with its term; other SQL is true when the term is. -/
def Graded (R : Truth → Truth → Prop) (exact : Bool) : Truth → Truth → Prop :=
  if exact then R else Implies

theorem ExactAgreement.implies_of_graded {R : Truth → Truth → Prop}
    (agreement : ExactAgreement R) {exact : Bool} {t u : Truth} (graded : Graded R exact t u) :
    Implies t u := by
  cases exact with
  | false => exact graded
  | true => exact agreement.implies graded

theorem ExactAgreement.graded {R : Truth → Truth → Prop} (agreement : ExactAgreement R)
    (exact : Bool) : Agreement (Graded R exact) := by
  cases exact with
  | false => exact agreement_implies
  | true => exact agreement.toAgreement

end Truth

open Truth

namespace Term

variable (c : CompileContext) (params : List String) (scope : Scope) (reading : Term → Truth)

/-- The condition that a term compiles to, with its leaves read in a given way,
agrees with the evaluation of the term: in one way if it is exact, and otherwise as
far as truth goes. -/
def ReadsAs (R : Truth → Truth → Prop) (t : Term) : Prop :=
  ∀ shape exact v, t.shape c params = .ok (shape, exact) → t.eval scope = .ok v →
    Graded R exact v.truth (shape.read reading)

/-- A part that agrees with its term still does so when nothing stronger is asked of
it than of the whole junction. -/
theorem graded_of_exact_imp {R : Truth → Truth → Prop} (agreement : ExactAgreement R)
    {whole part : Bool} {t u : Truth} (stronger : whole = true → part = true)
    (graded : Graded R part t u) : Graded R whole t u := by
  cases whole with
  | false => exact agreement.implies_of_graded graded
  | true =>
      rw [stronger rfl] at graded
      exact graded

theorem partsAgree_of_forall₂ {R : Truth → Truth → Prop} (agreement : ExactAgreement R)
    {items : List Term} {parts : List ShapeOf} {whole : Bool}
    (agree : List.Forall₂ (fun t part => ∀ v, t.eval scope = .ok v →
      Graded R part.2 v.truth (part.1.read reading)) items parts)
    (stronger : whole = true → ∀ part ∈ parts, part.2 = true) :
    PartsAgree (Graded R whole) scope items
      ((parts.map Prod.fst).map (Shape.read reading)) := by
  induction agree with
  | nil => exact .nil
  | @cons item part items parts head tail ih =>
      refine .cons (fun v evaluated => ?_) (ih fun holds part member =>
        stronger holds part (by simp [member]))
      exact graded_of_exact_imp agreement (fun holds => stronger holds part (by simp))
        (head v evaluated)

/-- In place of a part without SQL form stands TRUE, which no part is stronger
than. -/
theorem graded_of_weakened {R : Truth → Truth → Prop} {t : Term}
    (reads : ReadsAs c params scope reading R t) {part : ShapeOf}
    (shaped : ShapeOf.weakened c.dialect (t.shape c params) = .ok part) {v : Value}
    (evaluated : t.eval scope = .ok v) :
    Graded R part.2 v.truth (part.1.read reading) := by
  cases shapeEq : t.shape c params with
  | ok shape =>
      rw [shapeEq] at shaped
      obtain rfl := Except.ok.inj shaped
      exact reads _ _ v shapeEq evaluated
  | error obstacle =>
      rw [shapeEq] at shaped
      cases obstacle with
      | fault cause => simp [ShapeOf.weakened] at shaped
      | noForm =>
          obtain rfl := Except.ok.inj shaped
          exact fun _ => rfl

/-- What a junction is made of. -/
theorem shape_junction_inv {conjunction : Bool} {parts : Walk (List ShapeOf)} {shape : Shape}
    {exact : Bool}
    (shaped : (parts >>= fun parts => c.truthType >>= fun _ =>
      .ok (Shape.junction c.dialect conjunction (parts.map Prod.fst), parts.all Prod.snd)) =
        .ok (shape, exact)) :
    ∃ found, parts = .ok found ∧
      shape = Shape.junction c.dialect conjunction (found.map Prod.fst) ∧
      exact = found.all Prod.snd := by
  obtain ⟨found, partsEq, typed⟩ := Except.bind_eq_ok_iff.1 shaped
  obtain ⟨type, -, ended⟩ := Except.bind_eq_ok_iff.1 typed
  obtain ⟨rfl, rfl⟩ := Prod.mk.inj (Except.ok.inj ended)
  exact ⟨found, partsEq, rfl, rfl⟩

/-- A negation is made of an exact condition. -/
theorem shape_not_inv {inner : Term} {shape : Shape} {exact : Bool}
    (shaped : (not inner).shape c params = .ok (shape, exact)) :
    ∃ found, inner.shape c params = .ok (found, true) ∧
      shape = found.negated c.dialect ∧ exact = true := by
  rw [Term.shape] at shaped
  obtain ⟨⟨found, innerExact⟩, innerEq, rest⟩ := Except.bind_eq_ok_iff.1 shaped
  cases innerExact with
  | false => cases rest
  | true =>
      obtain ⟨type, -, ended⟩ := Except.bind_eq_ok_iff.1 rest
      obtain ⟨rfl, rfl⟩ := Prod.mk.inj (Except.ok.inj ended)
      exact ⟨found, innerEq, rfl, rfl⟩

mutual

/-- A condition agrees with its term if its leaves do. -/
theorem readsAs_of_leaves {R : Truth → Truth → Prop} (agreement : ExactAgreement R) :
    ∀ t : Term,
    (∀ leaf ∈ t.leaves, ReadsAs c params scope reading R leaf) →
      ReadsAs c params scope reading R t
  | all items => fun leaves shape exact v shaped evaluated => by
      simp only [Term.shape] at shaped
      obtain ⟨parts, partsEq, rfl, rfl⟩ := shape_junction_inv c shaped
      rw [Shape.read_junction_all, ← Truth.true_and (Truth.all _)]
      rw [eval] at evaluated
      refine evalAll_agrees (agreement.graded _) ?_ ((agreement.graded _).refl _) evaluated
      exact partsAgree_of_forall₂ scope reading agreement
        (partsReadAs_of_leaves agreement items leaves parts partsEq) (by simp)
  | any items => fun leaves shape exact v shaped evaluated => by
      simp only [Term.shape] at shaped
      obtain ⟨parts, partsEq, rfl, rfl⟩ := shape_junction_inv c shaped
      rw [Shape.read_junction_any, ← Truth.false_or (Truth.any _)]
      rw [eval] at evaluated
      refine evalAny_agrees (agreement.graded _) ?_ ((agreement.graded _).refl _) evaluated
      exact partsAgree_of_forall₂ scope reading agreement
        (partsReadAs_of_leaves agreement items leaves parts partsEq) (by simp)
  | not inner => fun leaves shape exact v shaped evaluated => by
      obtain ⟨found, innerEq, rfl, rfl⟩ := shape_not_inv c params shaped
      rw [eval] at evaluated
      obtain ⟨value, valueEq, negated⟩ := Except.bind_eq_ok_iff.1 evaluated
      obtain rfl := Except.ok.inj negated
      rw [Shape.read_negated, Value.truth_negation]
      exact agreement.not
        (readsAs_of_leaves agreement inner leaves found true value innerEq valueEq)
  | named inner name => fun leaves shape exact v shaped evaluated => by
      rw [Term.shape] at shaped
      rw [eval] at evaluated
      exact readsAs_of_leaves agreement inner leaves shape exact v shaped evaluated
  | param _ | field _ _ | constant _ | argument _ | subscript _ _ | tuple _ | call _ _
  | method _ _ _ | compare _ _ _ | member _ _ _ | arithmetic _ _ _ | negate _ =>
      fun leaves => leaves _ (by simp [Term.leaves])

theorem partsReadAs_of_leaves {R : Truth → Truth → Prop} (agreement : ExactAgreement R) :
    ∀ items : List Term,
    (∀ leaf ∈ leavesOfAll items, ReadsAs c params scope reading R leaf) →
      ∀ parts, shapes c params items = .ok parts →
        List.Forall₂ (fun t part => ∀ v, t.eval scope = .ok v →
          Graded R part.2 v.truth (part.1.read reading)) items parts
  | [] => fun _ parts shaped => by
      obtain rfl := Except.ok.inj shaped
      exact .nil
  | item :: items => fun leaves parts shaped => by
      simp only [shapes] at shaped
      obtain ⟨part, partEq, rest⟩ := Except.bind_eq_ok_iff.1 shaped
      obtain ⟨parts', tailEq, ended⟩ := Except.bind_eq_ok_iff.1 rest
      obtain rfl := Except.ok.inj ended
      have head := readsAs_of_leaves agreement item fun leaf member =>
        leaves leaf (by simp [leavesOfAll, member])
      have tail := partsReadAs_of_leaves agreement items (fun leaf member =>
        leaves leaf (by simp [leavesOfAll, member])) parts' tailEq
      exact .cons (fun v evaluated =>
        graded_of_weakened c params scope reading head partEq evaluated) tail

end

mutual

/-- A term fails only if one of its leaves does. -/
theorem exists_leaf_fault {fault : Fault} : ∀ t : Term, t.eval scope = .error fault →
    ∃ leaf ∈ t.leaves, leaf.eval scope = .error fault
  | all items => fun failed => by
      rw [eval] at failed
      exact exists_leaf_fault_of_evalAll items failed
  | any items => fun failed => by
      rw [eval] at failed
      exact exists_leaf_fault_of_evalAny items failed
  | not inner => fun failed => by
      rw [eval] at failed
      refine exists_leaf_fault inner ?_
      cases innerEq : inner.eval scope with
      | error cause =>
          rw [innerEq] at failed
          exact failed
      | ok value =>
          rw [innerEq] at failed
          cases failed
  | named inner name => fun failed => by
      rw [eval] at failed
      exact exists_leaf_fault inner failed
  | param _ | field _ _ | constant _ | argument _ | subscript _ _ | tuple _ | call _ _
  | method _ _ _ | compare _ _ _ | member _ _ _ | arithmetic _ _ _ | negate _ =>
      fun failed => ⟨_, by simp [Term.leaves], failed⟩

theorem exists_leaf_fault_of_evalAll {fault : Fault} : ∀ (items : List Term)
    {undecided : Bool}, evalAll scope undecided items = .error fault →
      ∃ leaf ∈ leavesOfAll items, leaf.eval scope = .error fault
  | [] => fun failed => by cases failed
  | item :: items => fun failed => by
      simp only [evalAll] at failed
      cases itemEq : item.eval scope with
      | error cause =>
          rw [itemEq] at failed
          obtain rfl := Except.error.inj failed
          obtain ⟨leaf, member, leafEq⟩ := exists_leaf_fault item itemEq
          exact ⟨leaf, by simp [leavesOfAll, member], leafEq⟩
      | ok value =>
          simp only [itemEq, bind, Except.bind] at failed
          have rest : ∃ undecided, evalAll scope undecided items = .error fault := by
            split at failed
            · exact ⟨_, failed⟩
            · split at failed
              · exact ⟨_, failed⟩
              · cases failed
          obtain ⟨_, rest⟩ := rest
          obtain ⟨leaf, member, leafEq⟩ := exists_leaf_fault_of_evalAll items rest
          exact ⟨leaf, by simp [leavesOfAll, member], leafEq⟩

theorem exists_leaf_fault_of_evalAny {fault : Fault} : ∀ (items : List Term)
    {undecided : Bool}, evalAny scope undecided items = .error fault →
      ∃ leaf ∈ leavesOfAll items, leaf.eval scope = .error fault
  | [] => fun failed => by cases failed
  | item :: items => fun failed => by
      simp only [evalAny] at failed
      cases itemEq : item.eval scope with
      | error cause =>
          rw [itemEq] at failed
          obtain rfl := Except.error.inj failed
          obtain ⟨leaf, member, leafEq⟩ := exists_leaf_fault item itemEq
          exact ⟨leaf, by simp [leavesOfAll, member], leafEq⟩
      | ok value =>
          simp only [itemEq, bind, Except.bind] at failed
          have rest : ∃ undecided, evalAny scope undecided items = .error fault := by
            split at failed
            · exact ⟨_, failed⟩
            · split at failed
              · cases failed
              · exact ⟨_, failed⟩
          obtain ⟨_, rest⟩ := rest
          obtain ⟨leaf, member, leafEq⟩ := exists_leaf_fault_of_evalAny items rest
          exact ⟨leaf, by simp [leavesOfAll, member], leafEq⟩

end

/-- A term whose value is known beforehand: a constant or a late-bound argument. -/
def isLiteral : Term → Bool
  | constant _ | argument _ => true
  | _ => false

end Term

namespace CompileContext

variable {c : CompileContext}

/-- A constant in the place of a condition becomes the sentinel of its truth. -/
theorem literal_asCondition {v : Value} {p : Piece}
    (compiled : c.literal v >>= c.asCondition = .ok p) :
    p.fragment.sql = c.dialect.truthClause v.truthy ∧
      p.fragment.constant = some (.bool v.truthy) ∧ p.exact = true := by
  obtain ⟨piece, literal, condition⟩ := Except.bind_eq_ok_iff.1 compiled
  unfold CompileContext.literal at literal
  split at literal
  · rename_i b
    obtain ⟨type, -, ended⟩ := Except.bind_eq_ok_iff.1 literal
    obtain rfl := Except.ok.inj ended
    obtain rfl := Except.ok.inj condition
    exact ⟨rfl, rfl, rfl⟩
  · obtain ⟨type, -, rest⟩ := Except.bind_eq_ok_iff.1 literal
    obtain ⟨sql, -, ended⟩ := Except.bind_eq_ok_iff.1 rest
    obtain rfl := Except.ok.inj ended
    obtain ⟨type, rfl⟩ := truth_eq_ok condition
    exact ⟨rfl, rfl, rfl⟩

end CompileContext

namespace Term

variable {c : CompileContext} {params : List String} {scope : Scope} (reading : Term → Truth)

/-- A literal evaluates to the value that it is compiled from. -/
theorem compile_isLiteral (arguments : scope.arguments = c.arguments) {t : Term}
    (literal : t.isLiteral = true) {v : Value} (evaluated : t.eval scope = .ok v) :
    t.compile c params = c.literal v := by
  cases t <;> simp only [isLiteral, Bool.false_eq_true] at literal
  · rw [eval] at evaluated
    obtain rfl := Except.ok.inj evaluated
    rw [compile]
  · rw [eval, arguments] at evaluated
    rw [compile, CompileContext.folded, evaluated]
    rfl

/-- The shape of a literal is the sentinel of its truth. -/
theorem shape_isLiteral (arguments : scope.arguments = c.arguments) {t : Term}
    (literal : t.isLiteral = true) {v : Value} (evaluated : t.eval scope = .ok v)
    {shape : Shape} {exact : Bool} (shaped : t.shape c params = .ok (shape, exact)) :
    shape = .sentinel c.dialect v.truthy ∧ exact = true := by
  have leaf : t.shape c params = t.leafCondition c params := by
    cases t <;> simp only [isLiteral, Bool.false_eq_true] at literal <;> rfl
  rw [leaf, leafCondition, compile_isLiteral arguments literal evaluated] at shaped
  obtain ⟨piece, compiled, ended⟩ := Except.bind_eq_ok_iff.1 shaped
  obtain ⟨sql, known, exactness⟩ := CompileContext.literal_asCondition compiled
  rw [Piece.leafShape, known, sql, exactness] at ended
  obtain ⟨rfl, rfl⟩ := Prod.mk.inj (Except.ok.inj ended)
  exact ⟨rfl, rfl⟩

/-- What is asked of the SQL of the leaves.  That of a literal is a sentinel, of
which nothing has to be asked. -/
structure LeavesAgree (R : Truth → Truth → Prop) (c : CompileContext) (params : List String)
    (scope : Scope) (reading : Term → Truth) (t : Term) : Prop where
  /-- Exact SQL agrees with the evaluation of the leaf. -/
  exact : ∀ leaf ∈ t.leaves, leaf.isLiteral = false → ∀ shape v,
    leaf.shape c params = .ok (shape, true) → leaf.eval scope = .ok v →
      R v.truth (shape.read reading)
  /-- Other SQL is true at least when the leaf is. -/
  weak : ∀ leaf ∈ t.leaves, leaf.isLiteral = false → ∀ shape v,
    leaf.shape c params = .ok (shape, false) → leaf.eval scope = .ok v →
      v.truthy = true → shape.read reading = some true

/-- With such leaves every leaf reads as it should, if literals do. -/
theorem LeavesAgree.readsAs {R : Truth → Truth → Prop} {t : Term}
    (agree : LeavesAgree R c params scope reading t)
    (arguments : scope.arguments = c.arguments)
    (literals : ∀ leaf ∈ t.leaves, leaf.isLiteral = true → ∀ v, leaf.eval scope = .ok v →
      R v.truth (some v.truthy)) :
    ∀ leaf ∈ t.leaves, ReadsAs c params scope reading R leaf := by
  intro leaf member shape exact v shaped evaluated
  cases literal : leaf.isLiteral with
  | true =>
      obtain ⟨rfl, rfl⟩ := shape_isLiteral arguments literal evaluated shaped
      exact literals leaf member literal v evaluated
  | false =>
      cases exact with
      | true => exact agree.exact leaf member literal shape v shaped evaluated
      | false =>
          intro holds
          exact agree.weak leaf member literal shape v shaped evaluated
            (Value.truth_eq_true_iff.1 holds)

end Term

namespace CompileContext

/-- The shape of a restriction; one without SQL form is TRUE. -/
def restrictionShape (c : CompileContext) (e : Lambda) : Shape :=
  match e.body.shape c e.params with
  | .ok (shape, _) => shape
  | .error _ => .sentinel c.dialect true

/-- A restriction is written as its shape; if it counts as exact, so does the
shape. -/
theorem restrict_shape {c : CompileContext} {e : Lambda} {r : Rendering}
    (compiled : c.restrict e = .ok r) :
    r.fragment.sql = (c.restrictionShape e).text ∧
      (e.body.shape c e.params = .ok (c.restrictionShape e, r.exact) ∨
        e.body.shape c e.params = .error .noForm ∧ r.exact = false) := by
  obtain ⟨_, -, rest⟩ := Except.bind_eq_ok_iff.1 compiled
  have same := Term.summary_compile c e.params e.body
  unfold restrictionShape
  split at rest
  · rename_i piece compiledBody
    obtain rfl := Except.ok.inj rest
    rw [compiledBody] at same
    obtain ⟨⟨shape, exact⟩, shaped, summary⟩ := Except.map_eq_ok_iff.1 same.symm
    rw [shaped]
    obtain ⟨text, exactness, -⟩ := by
      simpa only [ShapeOf.summary, Piece.summary, Prod.mk.injEq] using summary
    exact ⟨text.symm, .inl (by rw [exactness])⟩
  · cases rest
  · rename_i compiledBody
    rw [compiledBody] at same
    cases shaped : e.body.shape c e.params with
    | ok shape => simp [shaped, Except.map] at same
    | error obstacle =>
        simp only [shaped, Except.map, Except.error.injEq] at same
        subst same
        split at rest
        · rename_i piece truth
          obtain rfl := Except.ok.inj rest
          obtain ⟨type, rfl⟩ := truth_eq_ok truth
          exact ⟨rfl, .inr ⟨rfl, rfl⟩⟩
        · cases rest

end CompileContext

namespace Lambda

theorem matches?_eq_true_iff {e : Lambda} {scope : Scope} :
    e.matches? scope = .ok true ↔
      scope.rows.length = e.arity ∧ ∃ v, e.body.eval scope = .ok v ∧ v.truthy = true := by
  rw [matches?, Except.map_eq_ok_iff, evaluate]
  split
  · rename_i rows
    simp [rows]
  · rename_i rows
    simp [rows]

end Lambda

open Term in
/-- A compiled restriction is never stronger than its term.  It is true on every row
that the term accepts; and if it counts as exact and no NULL stands in the place of
a condition, it is true on no other row, unless the term fails there because one of
its leaves does. -/
theorem restrict_never_stronger {c : CompileContext} {e : Lambda} {r : Rendering}
    (compiled : c.restrict e = .ok r) {scope : Scope}
    (arguments : scope.arguments = c.arguments) (reading : Term → Truth) :
    r.fragment.sql = (c.restrictionShape e).text ∧
    (LeavesAgree Refines c e.params scope reading e.body →
      e.matches? scope = .ok true → (c.restrictionShape e).read reading = some true) ∧
    (LeavesAgree Eq c e.params scope reading e.body → r.exact = true →
      scope.rows.length = e.arity →
      (∀ leaf ∈ e.body.leaves, leaf.isLiteral = true → leaf.eval scope ≠ .ok .null) →
      (c.restrictionShape e).read reading = some true →
        e.matches? scope = .ok true ∨
          ∃ leaf ∈ e.body.leaves, ∃ fault, leaf.eval scope = .error fault ∧
            e.matches? scope = .error fault) := by
  obtain ⟨text, shaped⟩ := c.restrict_shape compiled
  refine ⟨text, fun leaves accepted => ?_, fun leaves exactness rows noNull holds => ?_⟩
  · obtain ⟨-, v, evaluated, truthy⟩ := Lambda.matches?_eq_true_iff.1 accepted
    rcases shaped with shaped | ⟨noForm, -⟩
    · have agrees := readsAs_of_leaves c e.params scope reading exactAgreement_refines e.body
        (leaves.readsAs reading arguments fun _ _ _ w _ => w.truth_refines) _ _ v shaped evaluated
      exact exactAgreement_refines.implies_of_graded agrees (Value.truth_eq_true_iff.2 truthy)
    · rw [CompileContext.restrictionShape, noForm]
      rfl
  · have shaped : e.body.shape c e.params = .ok (c.restrictionShape e, true) := by
      rcases shaped with shaped | ⟨-, inexact⟩
      · rw [shaped, exactness]
      · rw [exactness] at inexact
        cases inexact
    have literals : ∀ leaf ∈ e.body.leaves, leaf.isLiteral = true → ∀ v,
        leaf.eval scope = .ok v → v.truth = some v.truthy := by
      intro leaf member literal v evaluated
      refine Value.truth_of_not_isNull ?_
      cases v <;> first | rfl | exact absurd evaluated (noNull leaf member literal)
    cases evaluated : e.body.eval scope with
    | ok v =>
        have agrees : v.truth = (c.restrictionShape e).read reading :=
          readsAs_of_leaves c e.params scope reading exactAgreement_eq e.body
            (leaves.readsAs reading arguments literals) _ _ v shaped evaluated
        rw [holds] at agrees
        exact .inl (Lambda.matches?_eq_true_iff.2
          ⟨rows, v, evaluated, Value.truth_eq_true_iff.1 agrees⟩)
    | error fault =>
        obtain ⟨leaf, member, leafFault⟩ := exists_leaf_fault scope e.body evaluated
        refine .inr ⟨leaf, member, fault, leafFault, ?_⟩
        rw [Lambda.matches?, Lambda.evaluate, if_pos rows, evaluated]
        rfl

section Lamp

/-- A table with one column of truth values. -/
def lampContext : CompileContext where
  dialect := .ansi
  functions := {}
  bindings := [.ofTable {
    name := "lamp", quotedName := "\"lamp\""
    columns := [{ key := "on", name := "on", quotedName := "\"on\"", kind := .bool,
                  type := .plainOf "BOOLEAN" .boolean }] }]

/-- A restriction that every lamp meets. -/
def lampIsOnOrOff : Lambda where
  params := ["x"]
  body := .any [.field (.param 0) "on", .not (.field (.param 0) "on")]
  bound := by decide

/-- The row of a lamp that is on. -/
def litLamp : Scope :=
  { rows := [[("on", .bool true)]] }

theorem lamp_leaf {leaf : Term} (member : leaf ∈ lampIsOnOrOff.body.leaves) :
    leaf = .field (.param 0) "on" := by
  simpa [lampIsOnOrOff, Term.leaves, Term.leavesOfAll] using member

theorem lamp_leavesAgree :
    Term.LeavesAgree Eq lampContext ["x"] litLamp (fun _ => some true) lampIsOnOrOff.body where
  exact := by
    intro leaf member _ shape v shaped evaluated
    obtain rfl := lamp_leaf member
    obtain rfl : .bool true = v := Except.ok.inj evaluated
    obtain rfl : .leaf (.field (.param 0) "on") "\"on\" = TRUE" = shape :=
      (Prod.mk.inj (Except.ok.inj shaped)).1
    rfl
  weak := by
    intro leaf member _ shape v shaped evaluated
    obtain rfl := lamp_leaf member
    cases shaped

theorem restrict_lamp :
    ∃ r, lampContext.restrict lampIsOnOrOff = .ok r ∧
      r.fragment.sql = "(\"on\" = TRUE OR NOT (\"on\" = TRUE))" ∧
      lampIsOnOrOff.matches? litLamp = .ok true := by
  refine ⟨_, rfl, rfl, ?_⟩
  have arguments : litLamp.arguments = lampContext.arguments := rfl
  obtain ⟨-, -, accepted⟩ := restrict_never_stronger (c := lampContext) (e := lampIsOnOrOff) rfl
    arguments fun _ => some true
  have noNull : ∀ leaf ∈ lampIsOnOrOff.body.leaves, leaf.isLiteral = true →
      leaf.eval litLamp ≠ .ok .null := by
    intro leaf member literal
    rw [lamp_leaf member] at literal
    cases literal
  rcases accepted lamp_leavesAgree rfl rfl noNull rfl with accepted | ⟨leaf, member, _, failed, -⟩
  · exact accepted
  · rw [lamp_leaf member] at failed
    cases failed

end Lamp

end RowQuery
