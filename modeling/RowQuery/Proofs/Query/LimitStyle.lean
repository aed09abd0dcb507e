import RowQuery.Proofs.Kind.Projection
import RowQuery.Proofs.Memo.Transparency
import RowQuery.Query.Write

/-!
# Where limits stand

Whether a dialect writes row limits behind SELECT or behind the statement matters to nothing but the
limits: with the standard functions all that is compiled of expressions and relations is the same.
-/

namespace RowQuery

open RowQuery.Sql

/-- The dialect with its limits in another place. -/
def Dialect.withLimits (d : Dialect) (style : LimitStyle) : Dialect :=
  { d with limitStyle := style }

def CompileContext.withLimits (c : CompileContext) (style : LimitStyle) : CompileContext :=
  { c with dialect := c.dialect.withLimits style }

def Workspace.withLimits (w : Workspace) (style : LimitStyle) : Workspace :=
  { w with dialect := w.dialect.withLimits style }

/-! ## Functions -/

/-- Calls are written alike wherever limits stand. -/
def Function.IgnoresLimits (f : Function) : Prop :=
  ∀ d style operands, f.render? (Dialect.withLimits d style) operands = f.render? d operands

namespace FunctionLibrary

open RowQuery.Function

theorem ignoresLimits_standardMethods : ∀ pair ∈ standardMethods, pair.2.IgnoresLimits := by
  refine forall_ofList fun pair member => ?_
  simp only [List.mem_cons, List.not_mem_nil, or_false] at member
  rcases member with rfl | rfl | rfl | rfl <;> exact fun _ _ _ => rfl

theorem ignoresLimits_standardFunctions : ∀ pair ∈ standardFunctions, pair.2.IgnoresLimits := by
  refine forall_ofList fun pair member => ?_
  simp only [List.mem_cons, List.not_mem_nil, or_false] at member
  rcases member with rfl | rfl | rfl | rfl | rfl | rfl | rfl | rfl | rfl | rfl | rfl | rfl | rfl |
    rfl | rfl | rfl | rfl | rfl | rfl <;> exact fun _ _ _ => rfl

/-- What is called is written alike wherever limits stand. -/
structure IgnoresLimits (l : FunctionLibrary) : Prop where
  functions : ∀ name f, l.function? name = some f → f.IgnoresLimits
  methods : ∀ name f, l.method? name = some f → f.IgnoresLimits

theorem IsStandard.ignoresLimits {l : FunctionLibrary} (isStandard : l.IsStandard) :
    l.IgnoresLimits := by
  have builtins : ∀ pair ∈ l.builtins, pair.2.IgnoresLimits := by
    rcases isStandard with rfl | ⟨now, today, rfl⟩
    · exact ignoresLimits_standardFunctions
    · intro pair member
      rcases Keyed.mem_extend member with standard | clock
      · exact ignoresLimits_standardFunctions pair standard
      · simp only [List.mem_cons, List.not_mem_nil, or_false] at clock
        rcases clock with rfl | rfl <;> exact fun _ _ _ => rfl
  constructor
  · refine forall_function? builtins ?_
    rcases isStandard with rfl | ⟨now, today, rfl⟩ <;> nofun
  · intro name f found
    refine ignoresLimits_standardMethods (name, f) ?_
    rcases isStandard with rfl | ⟨now, today, rfl⟩ <;> exact Keyed.mem_of_get? found

end FunctionLibrary

/-! ## Terms -/

namespace CompileContext

variable (c : CompileContext) (style : LimitStyle)

theorem memberFragments_withLimits (item : Fragment) (members : List Piece) :
    (c.withLimits style).memberFragments item members = c.memberFragments item members := by
  induction members with
  | nil => rfl
  | cons member members ih =>
      rw [memberFragments, memberFragments, ih]
      rfl

theorem member_withLimits (item : Piece) (members : List Piece) (negated : Bool) :
    (c.withLimits style).member item members negated = c.member item members negated := by
  unfold member
  have same : (c.withLimits style).operand item = c.operand item := rfl
  simp only [same, memberFragments_withLimits]
  rfl

theorem contains_withLimits (item collection : Piece) (negated : Bool) :
    (c.withLimits style).contains item collection negated =
      c.contains item collection negated := by
  unfold contains
  simp only [member_withLimits]
  rfl

theorem call_withLimits (name : String) {f : Function} (ignores : f.IgnoresLimits)
    (operands : List Piece) :
    (c.withLimits style).call name f operands = c.call name f operands := by
  have rendered : call.rendered (c.withLimits style) f operands = call.rendered c f operands := by
    have same : (c.withLimits style).dialect = c.dialect.withLimits style := rfl
    unfold call.rendered
    simp only [same, ignores _ style]
    rfl
  unfold call
  rw [rendered]
  rfl

end CompileContext

namespace Term

open CompileContext

variable {c : CompileContext} (ignores : c.functions.IgnoresLimits) (style : LimitStyle)
variable (params : List String)

mutual

theorem compile_withLimits (ignores : c.functions.IgnoresLimits) :
    ∀ t : Term, t.compile (c.withLimits style) params = t.compile c params
  | param _ | constant _ | argument _ => rfl
  | field target name => by
      have same := compile_withLimits ignores target
      cases target with
      | param i => rfl
      | _ =>
          refine (compile_field _ _ _ (by simp)).trans
            (Eq.trans ?_ (compile_field _ _ _ (by simp)).symm)
          rw [same]
          rfl
  | subscript target key => by
      rw [compile, compile, compile_withLimits ignores target, compile_withLimits ignores key]
      rfl
  | tuple items => by
      rw [compile, compile, compileConstants_withLimits ignores items]
      rfl
  | call name operands => by
      rw [compile, compile, compileItems_withLimits ignores operands]
      have same : (c.withLimits style).functions = c.functions := rfl
      rw [same]
      cases found : c.functions.function? name with
      | none => rfl
      | some f =>
          have alike := funext (call_withLimits c style name (ignores.functions name f found))
          exact congrArg (compileItems c params operands >>= ·) alike
  | method target name operands => by
      rw [compile, compile, compile_withLimits ignores target,
        compileItems_withLimits ignores operands]
      have same : (c.withLimits style).functions = c.functions := rfl
      rw [same]
      cases found : c.functions.method? name with
      | none => rfl
      | some f =>
          have alike := call_withLimits c style name (ignores.methods name f found)
          refine congrArg (compile c params target >>= Piece.exactly >>= ·) (funext fun first => ?_)
          exact congrArg (compileItems c params operands >>= ·) (funext fun pieces => alike _)
  | compare l op r => by
      rw [compile, compile, compile_withLimits ignores l, compile_withLimits ignores r]
      rfl
  | member item collection negated => by
      have same := compile_withLimits ignores collection
      cases collection with
      | tuple members =>
          rw [compile, compile, compile_withLimits ignores item,
            compileItems_withLimits ignores members]
          simp only [contains_withLimits, member_withLimits]
          rfl
      | _ =>
          refine (compile_member _ _ _ _ (by simp)).trans
            (Eq.trans ?_ (compile_member _ _ _ _ (by simp)).symm)
          rw [same, compile_withLimits ignores item]
          simp only [contains_withLimits]
  | arithmetic l op r => by
      rw [compile, compile, compile_withLimits ignores l, compile_withLimits ignores r]
      rfl
  | all items => by
      rw [compile, compile, compileParts_withLimits ignores items]
      rfl
  | any items => by
      rw [compile, compile, compileParts_withLimits ignores items]
      rfl
  | not inner => by
      rw [compile, compile, compile_withLimits ignores inner]
      rfl
  | negate inner => by
      rw [compile, compile, compile_withLimits ignores inner]
      rfl
  | named inner name => by
      rw [compile, compile, compile_withLimits ignores inner]

theorem compileItems_withLimits (ignores : c.functions.IgnoresLimits) : ∀ items : List Term,
    compileItems (c.withLimits style) params items = compileItems c params items
  | [] => rfl
  | item :: items => by
      rw [compileItems, compileItems, compile_withLimits ignores item,
        compileItems_withLimits ignores items]

theorem compileConstants_withLimits (ignores : c.functions.IgnoresLimits) :
    ∀ items : List Term,
      compileConstants (c.withLimits style) params items = compileConstants c params items
  | [] => rfl
  | item :: items => by
      rw [compileConstants, compileConstants, compile_withLimits ignores item,
        compileConstants_withLimits ignores items]

theorem compileParts_withLimits (ignores : c.functions.IgnoresLimits) : ∀ items : List Term,
    compileParts (c.withLimits style) params items = compileParts c params items
  | [] => rfl
  | item :: items => by
      rw [compileParts, compileParts, compile_withLimits ignores item,
        compileParts_withLimits ignores items]
      rfl

end

end Term

/-! ## Expressions and relations -/

namespace CompileContext

variable {c : CompileContext} (ignores : c.functions.IgnoresLimits) (style : LimitStyle)
include ignores

theorem restrict_withLimits (e : Lambda) :
    (c.withLimits style).restrict e = c.restrict e := by
  unfold restrict
  rw [Term.compile_withLimits style e.params ignores]
  rfl

theorem exactValue_withLimits (e : Lambda) (t : Term) :
    (c.withLimits style).exactValue e t = c.exactValue e t := by
  unfold exactValue
  rw [Term.compile_withLimits style e.params ignores]
  rfl

theorem value_withLimits (e : Lambda) : (c.withLimits style).value e = c.value e := by
  unfold value
  rw [exactValue_withLimits ignores]
  rfl

theorem columns_withLimits (e : Lambda) : (c.withLimits style).columns e = c.columns e := by
  have named (index : Nat) (ts : List Term) :
      (c.withLimits style).namedValues e index ts = c.namedValues e index ts := by
    induction ts generalizing index with
    | nil => rfl
    | cons t ts ih => rw [namedValues, namedValues, exactValue_withLimits ignores, ih]
  unfold columns
  rw [named]
  rfl

end CompileContext

namespace Workspace

variable {w : Workspace} (ignores : w.functions.IgnoresLimits) (style : LimitStyle)
include ignores

theorem compileRestriction_withLimits (bindings : List Binding) (e : Lambda)
    (arguments : Arguments) : (w.withLimits style).compileRestriction bindings e arguments =
      w.compileRestriction bindings e arguments := by
  have same := CompileContext.restrict_withLimits (c := w.context bindings arguments) ignores style e
  unfold compileRestriction
  rw [← same]
  rfl

theorem restriction_withLimits (bindings : List Binding) (e : Lambda) (arguments : Arguments) :
    (w.withLimits style).restriction bindings e arguments =
      w.restriction bindings e arguments := by
  unfold restriction
  rw [compileRestriction_withLimits ignores]
  rfl

theorem joinCondition_withLimits (arguments : Arguments) (path : Option Lambda)
    (near far : List Binding) : (w.withLimits style).joinCondition arguments path near far =
      w.joinCondition arguments path near far := by
  unfold joinCondition
  simp only [restriction_withLimits ignores]
  rfl

theorem relationText_withLimits (arguments : Arguments) (r : Relation) (bindings : List Binding) :
    (w.withLimits style).relationText arguments r bindings =
      w.relationText arguments r bindings := by
  induction r generalizing bindings with
  | table t => rfl
  | join kind left right path ihLeft ihRight =>
      simp only [relationText, ihLeft, ihRight, joinCondition_withLimits ignores]
      rfl

theorem columns_context_withLimits (bindings : List Binding) (arguments : Arguments) (e : Lambda) :
    ((w.withLimits style).context bindings arguments).columns e =
      (w.context bindings arguments).columns e :=
  CompileContext.columns_withLimits (c := w.context bindings arguments) ignores style e

theorem selection_withLimits (bindings : List Binding) (projection : Projection)
    (arguments : Arguments) : (w.withLimits style).selection bindings projection arguments =
      w.selection bindings projection arguments := by
  cases projection with
  | all | keys lists => rfl
  | computed e =>
      rw [selection, selection, computedSelection, columns_context_withLimits ignores]
      rfl

theorem orderText_withLimits (bindings : List Binding) (order : Order) (arguments : Arguments) :
    (w.withLimits style).orderText bindings order arguments =
      w.orderText bindings order arguments := by
  cases order with
  | keys keys => rfl
  | computed e =>
      rw [orderText, orderText]
      simp only [columns_context_withLimits ignores]

theorem orderClause_withLimits (bindings : List Binding) (q : Query) :
    (w.withLimits style).orderClause bindings q = w.orderClause bindings q := by
  rw [orderClause, orderClause]
  simp only [orderText_withLimits ignores]

theorem setText_withLimits (t : Table) (arguments : Arguments) (assignment : String × Assignment) :
    (w.withLimits style).setText t arguments assignment = w.setText t arguments assignment := by
  have same (e : Lambda) : ((w.withLimits style).context [.ofTable t] arguments).value e =
      (w.context [.ofTable t] arguments).value e :=
    CompileContext.value_withLimits (c := w.context [.ofTable t] arguments) ignores style e
  obtain ⟨key, new⟩ := assignment
  cases new with
  | value v => rfl
  | computed e =>
      rw [setText, setText]
      simp only [assignmentText, same]
      rfl

theorem queryRestriction_withLimits (strict : Bool) (bindings : List Binding) (q : Query)
    (selection : Selection) : (w.withLimits style).queryRestriction strict bindings q selection =
      w.queryRestriction strict bindings q selection := by
  unfold queryRestriction
  simp only [restriction_withLimits ignores]
  rfl

end Workspace

/-! ## Answers through a memo -/

/-- A memo recalls the same wherever limits stand, and so the same is ensured. -/
theorem Memoized.Ensures.withLimits {α : Type} {w : Workspace} {among : RestrictionRequest → Prop}
    {m : Memoized α} {holds : α → Prop} (ignores : w.functions.IgnoresLimits) (style : LimitStyle)
    (ensures : Ensures w among m holds) : Ensures (w.withLimits style) among m holds := by
  have same (r : RestrictionRequest) : r.afresh (w.withLimits style) = r.afresh w :=
    Workspace.compileRestriction_withLimits ignores style _ _ _
  have recalls (memo : Option Memo) : RestrictionRequest.Recalls (w.withLimits style) among memo ↔
      RestrictionRequest.Recalls w among memo := by
    simp only [RestrictionRequest.Recalls, RestrictionRequest.Remembers, same]
    rfl
  intro memo remembered
  rw [recalls] at remembered ⊢
  exact ensures memo remembered

end RowQuery
