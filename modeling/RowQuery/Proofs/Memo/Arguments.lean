import RowQuery.Compile

/-!
# Terms without late-bound arguments

A term in which no late-bound argument occurs is compiled to the same piece whatever
the arguments are.  This is why a key may leave them out.
-/

namespace RowQuery

namespace CompileContext

-- all that a member test looks up in its context is the dialect
variable (c c' : CompileContext) (same : c'.dialect = c.dialect)
include same

theorem memberFragments_of_dialect (item : Sql.Fragment) (members : List Piece) :
    c'.memberFragments item members = c.memberFragments item members := by
  obtain ⟨dialect, functions, bindings, arguments⟩ := c'
  obtain rfl : dialect = c.dialect := same
  induction members with
  | nil => rfl
  | cons member members ih =>
      rw [memberFragments, memberFragments, ih]
      rfl

theorem member_of_dialect (item : Piece) (members : List Piece) (negated : Bool) :
    c'.member item members negated = c.member item members negated := by
  unfold member
  simp only [memberFragments_of_dialect c c' same]
  obtain ⟨dialect, functions, bindings, arguments⟩ := c'
  obtain rfl : dialect = c.dialect := same
  rfl

theorem contains_of_dialect (item collection : Piece) (negated : Bool) :
    c'.contains item collection negated = c.contains item collection negated := by
  unfold contains
  simp only [member_of_dialect c c' same]
  obtain ⟨dialect, functions, bindings, arguments⟩ := c'
  obtain rfl : dialect = c.dialect := same
  rfl

end CompileContext

namespace Term

open CompileContext

variable (c : CompileContext) (params : List String) (given : Arguments)

theorem compile_field {target : Term} (name : String) (noColumn : ∀ i, target ≠ param i) :
    (field target name).compile c params =
      target.compile c params >>= Piece.exactly >>= fun base => c.field base name := by
  cases target with
  | param i => exact absurd rfl (noColumn i)
  | _ => rfl

theorem compile_member (item : Term) {collection : Term} (negated : Bool)
    (noTuple : ∀ items, collection ≠ tuple items) :
    (member item collection negated).compile c params =
      item.compile c params >>= Piece.exactly >>= fun needle =>
        collection.compile c params >>= Piece.exactly >>= fun whole =>
          c.contains needle whole negated := by
  cases collection with
  | tuple items => exact absurd rfl (noTuple items)
  | _ => rfl

mutual

theorem compile_of_unused : ∀ {t : Term}, t.usesArguments = false →
    t.compile { c with arguments := given } params = t.compile c params
  | param _, _ => rfl
  | field target name, unused => by
      have same := compile_of_unused (t := target) unused
      cases target with
      | param i => rfl
      | _ =>
          refine (compile_field _ _ _ (by simp)).trans
            (Eq.trans ?_ (compile_field _ _ _ (by simp)).symm)
          rw [same]
          rfl
  | constant _, _ => rfl
  | argument _, unused => by cases unused
  | subscript target key, unused => by
      obtain ⟨left, right⟩ := Bool.or_eq_false_iff.1 unused
      rw [compile, compile, compile_of_unused left, compile_of_unused right]
      rfl
  | tuple items, unused => by
      rw [compile, compile, compileConstants_of_unused unused]
      rfl
  | call name operands, unused => by
      rw [compile, compile, compileItems_of_unused unused]
      rfl
  | method target name operands, unused => by
      obtain ⟨first, others⟩ := Bool.or_eq_false_iff.1 unused
      rw [compile, compile, compile_of_unused first, compileItems_of_unused others]
      rfl
  | compare l op r, unused => by
      obtain ⟨left, right⟩ := Bool.or_eq_false_iff.1 unused
      rw [compile, compile, compile_of_unused left, compile_of_unused right]
      rfl
  | member item collection negated, unused => by
      obtain ⟨left, right⟩ := Bool.or_eq_false_iff.1 unused
      have same := compile_of_unused right
      cases collection with
      | tuple members =>
          rw [compile, compile, compile_of_unused left, compileItems_of_unused right]
          simp only [contains_of_dialect c { c with arguments := given } rfl,
            member_of_dialect c { c with arguments := given } rfl]
          rfl
      | _ =>
          refine (compile_member _ _ _ _ (by simp)).trans
            (Eq.trans ?_ (compile_member _ _ _ _ (by simp)).symm)
          rw [same, compile_of_unused left]
          simp only [contains_of_dialect c { c with arguments := given } rfl]
  | arithmetic l op r, unused => by
      obtain ⟨left, right⟩ := Bool.or_eq_false_iff.1 unused
      rw [compile, compile, compile_of_unused left, compile_of_unused right]
      rfl
  | all items, unused => by
      rw [compile, compile, compileParts_of_unused unused]
      rfl
  | any items, unused => by
      rw [compile, compile, compileParts_of_unused unused]
      rfl
  | not inner, unused => by
      rw [compile, compile, compile_of_unused (t := inner) unused]
      rfl
  | negate inner, unused => by
      rw [compile, compile, compile_of_unused (t := inner) unused]
      rfl
  | named inner name, unused => by
      rw [compile, compile, compile_of_unused (t := inner) unused]

theorem compileItems_of_unused : ∀ {items : List Term}, anyUsesArguments items = false →
    compileItems { c with arguments := given } params items = compileItems c params items
  | [], _ => rfl
  | item :: items, unused => by
      obtain ⟨head, tail⟩ := Bool.or_eq_false_iff.1 unused
      rw [compileItems, compileItems, compile_of_unused head, compileItems_of_unused tail]

theorem compileConstants_of_unused : ∀ {items : List Term}, anyUsesArguments items = false →
    compileConstants { c with arguments := given } params items = compileConstants c params items
  | [], _ => rfl
  | item :: items, unused => by
      obtain ⟨head, tail⟩ := Bool.or_eq_false_iff.1 unused
      rw [compileConstants, compileConstants, compile_of_unused head,
        compileConstants_of_unused tail]

theorem compileParts_of_unused : ∀ {items : List Term}, anyUsesArguments items = false →
    compileParts { c with arguments := given } params items = compileParts c params items
  | [], _ => rfl
  | item :: items, unused => by
      obtain ⟨head, tail⟩ := Bool.or_eq_false_iff.1 unused
      rw [compileParts, compileParts, compile_of_unused head, compileParts_of_unused tail]
      rfl

end

end Term

/-- A restriction does not depend on arguments that do not occur in it. -/
theorem Workspace.compileRestriction_of_unused (w : Workspace) (bindings : List Binding)
    {e : Lambda} (unused : e.body.usesArguments = false) (given others : Arguments) :
    w.compileRestriction bindings e given = w.compileRestriction bindings e others := by
  have same := Term.compile_of_unused (w.context bindings others) e.params given unused
  unfold compileRestriction CompileContext.restrict
  rw [← same]
  rfl

end RowQuery
