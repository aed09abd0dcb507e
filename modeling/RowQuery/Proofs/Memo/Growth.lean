import RowQuery.Proofs.Memo.Transparency
import RowQuery.Proofs.Steps

/-!
# Tables with more columns

A restriction that compiles over some tables compiles to the same SQL over tables that have
more columns.  What a missing column causes is a fault, and no part of an expression recovers
from a fault: where a part without SQL form is replaced, it has no SQL form over the larger
tables either.
-/

namespace RowQuery

/-- The later of two tables has the name and all columns of the earlier one. -/
structure Table.GrowsTo (t t' : Table) : Prop where
  name : t'.name = t.name
  columns : ∀ key column, t.column? key = some column → t'.column? key = some column

theorem Table.GrowsTo.refl (t : Table) : t.GrowsTo t :=
  ⟨rfl, fun _ _ found => found⟩

/-- A table in reach that has grown, under the same alias. -/
structure Binding.GrowsTo (b b' : Binding) : Prop where
  label : b'.label = b.label
  table : b.table.GrowsTo b'.table

/-- The second step ends like the first, unless the first ends in a fault. -/
def Walk.Settles {α : Type} (x y : Walk α) : Prop :=
  (∀ cause, x ≠ .error (.fault cause)) → y = x

namespace Walk.Settles

variable {α β : Type} {x y : Walk α} {f g : α → Walk β}

theorem of_eq (same : y = x) : Settles x y :=
  fun _ => same

theorem of_fault {cause : Fault} (fault : x = .error (.fault cause)) : Settles x y :=
  fun faultless => absurd fault (faultless cause)

theorem bind (first : Settles x y) (rest : ∀ a, Settles (f a) (g a)) :
    Settles (x >>= f) (y >>= g) := by
  intro faultless
  have same : y = x := by
    refine first fun cause fault => faultless cause ?_
    rw [fault]
    rfl
  rw [same]
  cases x with
  | error obstacle => rfl
  | ok a => exact rest a faultless

end Walk.Settles

namespace CompileContext

variable {c : CompileContext} {given : List Binding}

theorem column_grown (grown : List.Forall₂ Binding.GrowsTo c.bindings given) (index : Nat)
    (key : String) :
    Walk.Settles (c.column index key) (column { c with bindings := given } index key) := by
  unfold column
  cases found : c.bindings[index]? with
  | none => exact .of_fault rfl
  | some b =>
      obtain ⟨b', found', label, table⟩ := grown.exists_getElem? found
      simp only [found', label, ← grown.length_eq]
      unfold Table.lookup
      cases present : b.table.column? key with
      | none => exact .of_fault rfl
      | some column =>
          rw [table.columns key column present]
          exact .of_eq rfl

end CompileContext

namespace Term

open CompileContext Walk

variable {c : CompileContext} {given : List Binding} (params : List String)

mutual

theorem compile_grown (grown : List.Forall₂ Binding.GrowsTo c.bindings given) :
    ∀ t : Term, Settles (t.compile c params) (t.compile { c with bindings := given } params)
  | param _ => .of_eq rfl
  | field target name => by
      by_cases column : ∃ i, target = param i
      · obtain ⟨i, rfl⟩ := column
        exact column_grown grown i name
      · have noColumn : ∀ i, target ≠ param i := fun i same => column ⟨i, same⟩
        rw [compile_field _ _ _ noColumn, compile_field _ _ _ noColumn]
        exact ((compile_grown grown target).bind fun _ => .of_eq rfl).bind fun _ => .of_eq rfl
  | constant _ => .of_eq rfl
  | argument _ => .of_eq rfl
  | subscript target key => by
      rw [compile, compile]
      refine ((compile_grown grown target).bind fun _ => .of_eq rfl).bind fun _ => ?_
      exact ((compile_grown grown key).bind fun _ => .of_eq rfl).bind fun _ => .of_eq rfl
  | tuple items => by
      rw [compile, compile]
      exact (compileConstants_grown grown items).bind fun _ => .of_eq rfl
  | call name operands => by
      rw [compile, compile]
      refine Settles.bind (.of_eq rfl) fun _ => ?_
      exact (compileItems_grown grown operands).bind fun _ => .of_eq rfl
  | method target name operands => by
      rw [compile, compile]
      refine Settles.bind (.of_eq rfl) fun _ => ?_
      refine ((compile_grown grown target).bind fun _ => .of_eq rfl).bind fun _ => ?_
      exact (compileItems_grown grown operands).bind fun _ => .of_eq rfl
  | compare l op r => by
      rw [compile, compile]
      refine ((compile_grown grown l).bind fun _ => .of_eq rfl).bind fun _ => ?_
      exact ((compile_grown grown r).bind fun _ => .of_eq rfl).bind fun _ => .of_eq rfl
  | member item collection negated => by
      by_cases listed : ∃ members, collection = tuple members
      · obtain ⟨members, rfl⟩ := listed
        rw [compile, compile]
        refine ((compile_grown grown item).bind fun _ => .of_eq rfl).bind fun _ => ?_
        refine (compileItems_grown grown members).bind fun _ => ?_
        simp only [contains_of_dialect c { c with bindings := given } rfl,
          member_of_dialect c { c with bindings := given } rfl]
        exact .of_eq rfl
      · have noTuple : ∀ members, collection ≠ tuple members := fun members same =>
          listed ⟨members, same⟩
        rw [compile_member _ _ _ _ noTuple, compile_member _ _ _ _ noTuple]
        refine ((compile_grown grown item).bind fun _ => .of_eq rfl).bind fun _ => ?_
        refine ((compile_grown grown collection).bind fun _ => .of_eq rfl).bind fun _ => ?_
        exact .of_eq (contains_of_dialect c { c with bindings := given } rfl _ _ _)
  | arithmetic l op r => by
      rw [compile, compile]
      refine ((compile_grown grown l).bind fun _ => .of_eq rfl).bind fun _ => ?_
      exact ((compile_grown grown r).bind fun _ => .of_eq rfl).bind fun _ => .of_eq rfl
  | all items => by
      rw [compile, compile]
      exact (compileParts_grown grown items).bind fun _ => .of_eq rfl
  | any items => by
      rw [compile, compile]
      exact (compileParts_grown grown items).bind fun _ => .of_eq rfl
  | not inner => by
      rw [compile, compile]
      refine (((compile_grown grown inner).bind fun _ => .of_eq rfl).bind fun _ => .of_eq rfl).bind ?_
      exact fun _ => .of_eq rfl
  | negate inner => by
      rw [compile, compile]
      exact ((compile_grown grown inner).bind fun _ => .of_eq rfl).bind fun _ => .of_eq rfl
  | named inner name => by
      rw [compile, compile]
      exact (compile_grown grown inner).bind fun _ => .of_eq rfl

theorem compileItems_grown (grown : List.Forall₂ Binding.GrowsTo c.bindings given) :
    ∀ items : List Term,
    Settles (compileItems c params items) (compileItems { c with bindings := given } params items)
  | [] => .of_eq rfl
  | item :: items => by
      rw [compileItems, compileItems]
      refine ((compile_grown grown item).bind fun _ => .of_eq rfl).bind fun _ => ?_
      exact (compileItems_grown grown items).bind fun _ => .of_eq rfl

theorem compileConstants_grown (grown : List.Forall₂ Binding.GrowsTo c.bindings given) :
    ∀ items : List Term,
    Settles (compileConstants c params items)
      (compileConstants { c with bindings := given } params items)
  | [] => .of_eq rfl
  | item :: items => by
      rw [compileConstants, compileConstants]
      refine ((compile_grown grown item).bind fun _ => .of_eq rfl).bind fun _ => ?_
      refine Settles.bind (.of_eq rfl) fun _ => ?_
      exact (compileConstants_grown grown items).bind fun _ => .of_eq rfl

theorem compileParts_grown (grown : List.Forall₂ Binding.GrowsTo c.bindings given) :
    ∀ items : List Term,
    Settles (compileParts c params items) (compileParts { c with bindings := given } params items)
  | [] => .of_eq rfl
  | item :: items => by
      have condition : Settles (item.compile c params >>= c.asCondition)
          (item.compile { c with bindings := given } params >>=
            asCondition { c with bindings := given }) :=
        (compile_grown grown item).bind fun _ => .of_eq rfl
      rw [compileParts, compileParts]
      -- only a part without SQL form is left out, and it has none over the larger tables
      cases ended : item.compile c params >>= c.asCondition with
      | ok piece =>
          rw [condition (by simp [ended]), ended]
          exact (compileParts_grown grown items).bind fun _ => .of_eq rfl
      | error obstacle =>
          cases obstacle with
          | noForm =>
              rw [condition (by simp [ended]), ended]
              exact (compileParts_grown grown items).bind fun _ => .of_eq rfl
          | fault cause => exact .of_fault rfl

end

end Term

/-- A restriction stays what it is when its tables grow. -/
theorem Workspace.compileRestriction_grown (w : Workspace) {bindings given : List Binding}
    (grown : List.Forall₂ Binding.GrowsTo bindings given) {e : Lambda} {arguments : Arguments}
    {found : Restriction} (compiled : w.compileRestriction bindings e arguments = .ok found) :
    w.compileRestriction given e arguments = .ok found := by
  have sameArity : (w.context given arguments).checkArity e =
      (w.context bindings arguments).checkArity e := by
    have lengths : (w.context given arguments).bindings.length =
        (w.context bindings arguments).bindings.length := grown.length_eq.symm
    rw [CompileContext.checkArity, CompileContext.checkArity, lengths]
  have condition : Walk.Settles
      (e.body.compile (w.context bindings arguments) e.params >>=
        (w.context bindings arguments).asCondition)
      (e.body.compile (w.context given arguments) e.params >>=
        (w.context given arguments).asCondition) :=
    (Term.compile_grown e.params grown e.body).bind fun _ => .of_eq rfl
  obtain ⟨rendering, restricted, ended⟩ := Except.bind_eq_ok_iff.1 compiled
  obtain ⟨_, checked, rest⟩ := Except.bind_eq_ok_iff.1 restricted
  refine Except.bind_eq_ok_iff.2 ⟨rendering, ?_, ended⟩
  refine Except.bind_eq_ok_iff.2 ⟨_, sameArity.trans checked, ?_⟩
  rw [condition fun cause fault => ?_]
  · exact rest
  · rw [fault] at rest
    cases rest

end RowQuery
