import RowQuery.Dialect.Ansi
import RowQuery.Proofs.Kind.Term
import RowQuery.Proofs.Query.OutputName
import RowQuery.Query.Select

/-!
# Kinds of selected columns

Each computed column of a query has the kind of its term.  What the database returns for it is
decoded to a value of that kind or to NULL, as is what the term is evaluated to in process.
-/

namespace RowQuery

namespace Codec

theorem fits_decode? {codec : Codec} {cell : Cell} {v : Value}
    (found : codec.decode? cell = some v) : v.Fits codec.kind := by
  unfold decode? at found
  -- for each kind of cell, the codecs that read it as it is, those that convert it and the others
  split at found
  · obtain rfl := Option.some.inj found
    exact Value.fits_null _
  all_goals
    split at found <;>
      first
      | (obtain ⟨a, -, rfl⟩ := Option.map_eq_some_iff.1 found; exact .inr rfl)
      | (obtain rfl := Option.some.inj found; exact .inr rfl)
      | cases found
      | (split at found
         · obtain ⟨a, -, rfl⟩ := Option.map_eq_some_iff.1 found
           exact .inr rfl
         · cases found)

/-- A cell is decoded to a value of the kind of the codec, or to NULL. -/
theorem fits_decode {codec : Codec} {type : ColumnType} {cell : Cell} {v : Value}
    (decoded : codec.decode type cell = .ok v) : v.Fits codec.kind := by
  unfold decode orFault at decoded
  split at decoded
  · rename_i found
    obtain rfl := Except.ok.inj decoded
    exact fits_decode? found
  · cases decoded

theorem kind_ofKind (kind : Kind) (type : ColumnType) : (ofKind kind type).kind = kind := by
  unfold ofKind
  split <;> first | rfl | (split <;> rfl)

end Codec

theorem OutputColumn.fits_decode {column : OutputColumn} {cell : Cell} {v : Value}
    (decoded : column.decode cell = .ok v) : v.Fits column.kind := by
  have fits := Codec.fits_decode decoded
  rwa [Codec.kind_ofKind] at fits

namespace CompileContext

variable {c : CompileContext} {scope : Scope} {e : Lambda}

/-- The fragments of a list of columns have the kinds of its terms. -/
theorem fits_namedValues (suits : scope.Suits c) (sound : c.functions.Sound) {ts : List Term}
    {index : Nat} {fragments : List Sql.Fragment}
    (compiled : c.namedValues e index ts = .ok fragments) :
    List.Forall₂ (fun t f => ∀ v, t.eval scope = .ok v → v.Fits f.kind) ts fragments := by
  refine (forall₂_namedValues compiled).flip.imp fun t f found v evaluated => ?_
  obtain ⟨g, valued, same⟩ := found
  obtain ⟨p, compiled, -, rfl⟩ := exactValue_eq_ok valued
  have kind : f.kind = p.fragment.kind := by
    rw [same]
    exact operand_kind p
  rw [kind]
  exact (Term.compile_foretells suits sound compiled evaluated).fits

end CompileContext

namespace Workspace

variable {w : Workspace} {bindings : List Binding} {e : Lambda} {arguments : Arguments}

/-- The columns of a computed selection have the kinds of the fragments. -/
theorem computedSelection_eq_ok {selection : Selection}
    (selected : w.computedSelection bindings e arguments = .ok selection) :
    ∃ fragments, (w.context bindings arguments).namedValues e 0 e.body.entries = .ok fragments ∧
      (fragments.length = e.body.entries.length →
        selection.columns.map OutputColumn.kind = fragments.map Sql.Fragment.kind) := by
  obtain ⟨fragments, columns, ended⟩ := Except.bind_eq_ok_iff.1 selected
  obtain ⟨_, -, compiled⟩ := Except.bind_eq_ok_iff.1 columns
  obtain rfl := Except.ok.inj ended
  refine ⟨fragments, compiled, fun length => ?_⟩
  -- nothing is lost to either zip: there is a source and a name for each fragment
  have sourced : (fragments.zip (e.body.entries.map (sourceOf bindings))).map Prod.fst =
      fragments := List.map_fst_zip (by simp [length])
  generalize namesEq : outputNames _ = names
  have named : (fragments.zip (e.body.entries.map (sourceOf bindings))).length ≤ names.length := by
    simp [← namesEq, length_outputNames]
  calc
    _ = (((fragments.zip (e.body.entries.map (sourceOf bindings))).zip names).map Prod.fst).map
          (fun entry => entry.1.kind) := by
        rw [List.map_map, List.map_map]
        rfl
    _ = (fragments.zip (e.body.entries.map (sourceOf bindings))).map (fun entry => entry.1.kind) := by
        rw [List.map_fst_zip named]
    _ = ((fragments.zip (e.body.entries.map (sourceOf bindings))).map Prod.fst).map
          Sql.Fragment.kind := by
        rw [List.map_map]
        rfl
    _ = fragments.map Sql.Fragment.kind := by rw [sourced]

/-- Computed columns have the kinds of the values of their terms. -/
theorem fits_computedSelection {scope : Scope} (suits : scope.Suits (w.context bindings arguments))
    (sound : w.functions.Sound) {selection : Selection}
    (selected : w.computedSelection bindings e arguments = .ok selection) :
    List.Forall₂ (fun t (column : OutputColumn) => ∀ v, t.eval scope = .ok v → v.Fits column.kind)
      e.body.entries selection.columns := by
  obtain ⟨fragments, compiled, kinds⟩ := computedSelection_eq_ok selected
  have each := CompileContext.fits_namedValues suits sound compiled
  -- the relation reads no more of a fragment or a column than its kind
  have fragmentKinds : List.Forall₂
      (fun t kind => ∀ v, t.eval scope = .ok v → v.Fits kind) e.body.entries
      (fragments.map Sql.Fragment.kind) := List.forall₂_map_right_iff.2 each
  rw [← kinds each.length_eq.symm] at fragmentKinds
  exact List.forall₂_map_right_iff.1 fragmentKinds

end Workspace

namespace FunctionLibrary

/-- The standard functions, with or without a clock in process. -/
def IsStandard (l : FunctionLibrary) : Prop :=
  l = standard ∨ ∃ now today, l = standardAt now today

theorem IsStandard.sound {l : FunctionLibrary} (isStandard : l.IsStandard) : l.Sound := by
  rcases isStandard with rfl | ⟨now, today, rfl⟩
  · exact sound_standard
  · exact sound_standardAt now today

end FunctionLibrary

/-- On rows of the kinds of their columns a term that is compiled has NULL or a value of the kind
of its fragment, and that is also the kind by which a computed column is decoded. -/
theorem kinds_are_sound {d : Dialect} {functions : FunctionLibrary}
    (isStandard : functions.IsStandard) {bindings : List Binding} (arguments : Arguments)
    {rows : List Row} (fit : RowsFit bindings rows) :
    (∀ (t : Term) (params : List String) (p : Piece) (v : Value),
      t.compile ⟨d, functions, bindings, arguments⟩ params = .ok p →
        t.eval ⟨rows, arguments, functions⟩ = .ok v → v.Fits p.fragment.kind) ∧
    ∀ (e : Lambda) (selection : Selection),
      (⟨d, functions⟩ : Workspace).computedSelection bindings e arguments = .ok selection →
        List.Forall₂
          (fun t (column : OutputColumn) =>
            (∀ v, t.eval ⟨rows, arguments, functions⟩ = .ok v → v.Fits column.kind) ∧
              ∀ cell v, column.decode cell = .ok v → v.Fits column.kind)
          e.body.entries selection.columns := by
  have suits : Scope.Suits ⟨rows, arguments, functions⟩ ⟨d, functions, bindings, arguments⟩ :=
    ⟨rfl, rfl, fit⟩
  constructor
  · intro t params p v compiled evaluated
    exact (Term.compile_foretells suits isStandard.sound compiled evaluated).fits
  · intro e selection selected
    have evaluated := Workspace.fits_computedSelection suits isStandard.sound selected
    exact evaluated.imp fun t column fits => ⟨fits, fun cell v => OutputColumn.fits_decode⟩

section WordList

/-- Words and how often they occur. -/
def wordList : Binding :=
  .ofTable {
    name := "words", quotedName := "\"words\""
    columns := [
      { key := "word", name := "word", quotedName := "\"word\"", kind := .text,
        type := .varyingOf "VARCHAR" .varchar 40 },
      { key := "times", name := "times", quotedName := "\"times\"", kind := .int,
        type := .integerOf "INTEGER" 4 }] }

/-- A word in capitals, its length, how often it occurs again and whether it occurs just once. -/
def wordFacts : Lambda where
  params := ["w"]
  body := .tuple [
    .method (.field (.param 0) "word") "upper" [],
    .call "len" [.field (.param 0) "word"],
    .arithmetic (.field (.param 0) "times") .sub (.constant (.int 1)),
    .compare (.field (.param 0) "times") .eq (.constant (.int 1))]
  bound := by decide

/-- A word that was not counted. -/
def rose : Row :=
  [("times", .null), ("word", .text "rose")]

theorem rowsFit_rose : RowsFit [wordList] [rose] := by
  intro index binding row bound listed key column value found held
  cases index with
  | succ index => cases bound
  | zero =>
      obtain rfl := Option.some.inj bound
      obtain rfl := Option.some.inj listed
      have cell := Keyed.mem_of_get? held
      simp only [rose, List.mem_cons, List.not_mem_nil, or_false, Prod.mk.injEq] at cell
      rcases cell with ⟨rfl, rfl⟩ | ⟨rfl, rfl⟩
      · exact Value.fits_null _
      · obtain rfl := Option.some.inj found
        exact .inr rfl

theorem kinds_of_wordFacts :
    ∃ selection, (⟨.ansi, .standard⟩ : Workspace).computedSelection [wordList] wordFacts [] =
        .ok selection ∧
      selection.columns.map OutputColumn.kind = [.text, .int, .int, .bool] ∧
      wordFacts.body.eval ⟨[rose], [], .standard⟩ =
        .ok (.list [.text "ROSE", .int 4, .null, .null]) ∧
      List.Forall₂
        (fun t (column : OutputColumn) =>
          (∀ v, t.eval ⟨[rose], [], .standard⟩ = .ok v → v.Fits column.kind) ∧
            ∀ cell v, column.decode cell = .ok v → v.Fits column.kind)
        wordFacts.body.entries selection.columns := by
  have known : ((⟨.ansi, .standard⟩ : Workspace).computedSelection [wordList] wordFacts []).map
      (fun selection => selection.columns.map OutputColumn.kind) =
        .ok [.text, .int, .int, .bool] := by decide +kernel
  obtain ⟨selection, selected, kinds⟩ := Except.map_eq_ok_iff.1 known
  exact ⟨selection, selected, kinds, rfl,
    (kinds_are_sound (.inl rfl) [] rowsFit_rose).2 wordFacts selection selected⟩

end WordList

end RowQuery
