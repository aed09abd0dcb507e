import RowQuery.Proofs.Kind.Function
import RowQuery.Proofs.Reach.Literal

/-!
# What functions keep

The SQL form of a standard function keeps every law of its operands, or it is the call of an
aggregate on its operand.  So it reaches no further than its operands, and it calls an aggregate on
its own only if the function is one.
-/

namespace RowQuery

open RowQuery.Sql BuiltinDialect

/-- The SQL form of a function is an expression in the reach of its operands.  The function is an
aggregate if the expression calls one that the operands do not call. -/
def Function.KeepsReach (f : Function) : Prop :=
  ∀ (d : BuiltinDialect) (reach : Reach) (aggregates : Bool) (operands : List Fragment)
    (rendering : Rendering), (∀ operand ∈ operands, d.InReach reach aggregates operand.sql) →
    (f.aggregate = true → aggregates = true) → f.render? d.dialect operands = some rendering →
    d.InReach reach aggregates rendering.fragment.sql

/-- All functions keep their reach. -/
structure FunctionLibrary.KeepsReach (l : FunctionLibrary) : Prop where
  functions : ∀ name f, l.function? name = some f → f.KeepsReach
  methods : ∀ name f, l.method? name = some f → f.KeepsReach

/-- The SQL form of a function keeps a law of its operands, as an expression that calls aggregates
if the function is one. -/
def Function.Keeps {d : BuiltinDialect} (law : d.Law) (f : Function) : Prop :=
  ∀ (aggregates : Bool) (operands : List Fragment) (rendering : Rendering),
    (∀ operand ∈ operands, law.Holds aggregates operand.sql) →
    (f.aggregate = true → aggregates = true) → f.render? d.dialect operands = some rendering →
    law.Holds aggregates rendering.fragment.sql

namespace Sql

def aggregateNames : List String :=
  ["COUNT", "MIN", "MAX", "SUM", "AVG"]

/-- The call of an aggregate on its operand, or on the rows. -/
inductive AggregateCall : List Fragment → String → Prop
  | rows : AggregateCall [] "COUNT(*)"
  | operand {name : String} (known : name ∈ aggregateNames) (f : Fragment) :
      AggregateCall [f] (callText name [f.sql])

end Sql

namespace Function

/-- A function calls an aggregate or keeps every law. -/
structure Lawful (f : Function) : Prop where
  keeps : f.aggregate = false → ∀ {d : BuiltinDialect} (law : d.Law), f.Keeps law
  calls : f.aggregate = true → ∀ (d : BuiltinDialect) (operands : List Fragment)
    (rendering : Rendering), f.render? d.dialect operands = some rendering →
    AggregateCall operands rendering.fragment.sql

variable {d : BuiltinDialect} {law : d.Law} {aggregates : Bool} {rendering : Rendering}

theorem Lawful.of_keeps {f : Function} (plain : f.aggregate = false)
    (keeps : ∀ {d : BuiltinDialect} (law : d.Law), f.Keeps law) : f.Lawful :=
  ⟨fun _ => keeps, fun aggregate => absurd (plain.symm.trans aggregate) Bool.false_ne_true⟩

theorem Lawful.of_calls {f : Function} (aggregate : f.aggregate = true)
    (calls : ∀ (d : BuiltinDialect) (operands : List Fragment) (rendering : Rendering),
      f.render? d.dialect operands = some rendering →
      AggregateCall operands rendering.fragment.sql) : f.Lawful :=
  ⟨fun plain => absurd (plain.symm.trans aggregate) Bool.false_ne_true, fun _ => calls⟩

theorem inReach_aggregateCall {reach : Reach} {operands : List Fragment} {sql : String}
    (call : AggregateCall operands sql)
    (each : ∀ operand ∈ operands, d.InReach reach true operand.sql) : d.InReach reach true sql := by
  cases call with
  | rows =>
      have opened : d.opened? true 0 "COUNT(" = some 1 := by cases d <;> rfl
      have closed : d.Reads reach true 1 "*)" := .closing (by cases d <;> rfl)
      exact .opening_of opened id closed
  | @operand name known f =>
      have opened : d.opened? true 0 (name ++ "(") = some 1 := by
        simp only [aggregateNames, List.mem_cons, List.not_mem_nil, or_false] at known
        rcases known with rfl | rfl | rfl | rfl | rfl <;> cases d <;> rfl
      have closed : d.Reads reach true 1 ")" := .closing (by cases d <;> rfl)
      rw [callText, Text.join, String.append_assoc]
      exact .opening_of opened id (.operand (each f (by simp)) separated_bracket closed)

theorem Lawful.keepsReach {f : Function} (lawful : f.Lawful) : f.KeepsReach := by
  intro d reach aggregates operands rendering each allowed rendered
  cases aggregate : f.aggregate with
  | false =>
      exact lawful.keeps aggregate (d.reachLaw reach) aggregates operands rendering each allowed
        rendered
  | true =>
      obtain rfl := allowed aggregate
      exact inReach_aggregateCall (lawful.calls aggregate d operands rendering rendered) each

theorem Writes.holds {sql : String} {kind : Kind} (writes : Writes sql kind rendering)
    (holds : law.Holds aggregates sql) : law.Holds aggregates rendering.fragment.sql := by
  rwa [writes.sql]

theorem holds_pieceText {affix : Affix} {piece : Fragment} {pattern : String}
    (holds : law.Holds aggregates piece.sql)
    (written : affix.pieceText? d.dialect piece = some pattern) :
    law.Holds aggregates pattern := by
  have escaped := holds_escapePattern holds
  have wild : law.Holds aggregates (d.dialect.quoteText "%") := .quoteText _
  unfold Affix.pieceText? at written
  split at written
  · obtain rfl := Option.some.inj written
    exact .quoteText _
  · cases written
  · obtain rfl := Option.some.inj written
    cases affix with
    | front => exact holds_concat escaped wild
    | back => exact holds_concat wild escaped
    | within => exact holds_concat (holds_concat wild escaped) wild

theorem holds_affix {affix : Affix} {ignoreCase : Bool} {text piece : Fragment}
    (inText : law.Holds aggregates text.sql) (inPiece : law.Holds aggregates piece.sql)
    (rendered : affix.render? ignoreCase d.dialect text piece = some rendering) :
    law.Holds aggregates rendering.fragment.sql := by
  obtain ⟨-, -, pattern, written, writes⟩ := writes_affix rendered
  exact writes.holds (holds_like inText (holds_pieceText inPiece written) ignoreCase)

theorem lawful_ofAffix (affix : Affix) (ignoreCase : Bool) : (ofAffix affix ignoreCase).Lawful := by
  refine .of_keeps rfl fun law aggregates operands rendering each _ rendered => ?_
  obtain ⟨text, piece, rfl, rendered⟩ := writes_ofAffix rendered
  exact holds_affix (each text (by simp)) (each piece (by simp)) rendered

theorem lawful_ofCase {name : String} {sql : Dialect → String → String}
    {convert : String → String} (converts : ∀ (d : BuiltinDialect) (law : d.Law)
      (aggregates : Bool) (text : String), law.Holds aggregates text →
        law.Holds aggregates (sql d.dialect text)) :
    (ofCase name sql convert).Lawful := by
  refine .of_keeps rfl fun law aggregates operands rendering each _ rendered => ?_
  obtain ⟨f, rfl, -, writes⟩ := writes_ofCase rendered
  exact writes.holds (converts _ _ _ _ (each f (by simp)))

theorem lawful_equalIgnoringCase : equalIgnoringCase.Lawful := by
  refine .of_keeps rfl fun law aggregates operands rendering each _ rendered => ?_
  obtain ⟨a, b, rfl, -, -, writes⟩ := writes_equalIgnoringCase rendered
  have left := holds_lower (each a (by simp))
  have right := holds_lower (each b (by simp))
  exact writes.holds (holds_compare left .eq right)

theorem lawful_ofClock {sql : Dialect → String} {kind : Kind}
    (reads : ∀ (d : BuiltinDialect) (law : d.Law) (aggregates : Bool),
      law.Holds aggregates (sql d.dialect)) : (ofClock sql kind).Lawful := by
  refine .of_keeps rfl fun {d} law aggregates operands rendering _ _ rendered => ?_
  have writes : Writes (sql d.dialect) kind rendering := writes_clock rfl rendered
  exact writes.holds (reads d law aggregates)

theorem holds_extract? {part : DatePart} {f : Fragment}
    (holds : law.Holds aggregates f.sql)
    (rendered : extract? part d.dialect f = some rendering) :
    law.Holds aggregates rendering.fragment.sql :=
  (writes_extract? rendered).2.holds (holds_extract part holds)

theorem lawful_ofField (part : DatePart) : (ofField part).Lawful := by
  refine .of_keeps rfl fun law aggregates operands rendering each _ rendered => ?_
  obtain ⟨f, rfl, extracted⟩ := writes_ofField rendered
  exact holds_extract? (each f (by simp)) extracted

theorem lawful_length : length.Lawful := by
  refine .of_keeps rfl fun law aggregates operands rendering each _ rendered => ?_
  obtain ⟨f, rfl, -, writes⟩ := writes_length rendered
  exact writes.holds (holds_length (each f (by simp)))

theorem lawful_absolute : absolute.Lawful := by
  refine .of_keeps rfl fun {d} law aggregates operands rendering each _ rendered => ?_
  obtain ⟨f, rfl, -, writes⟩ := writes_absolute rendered
  have operand : law.Holds aggregates f.sql := each f (by simp)
  exact writes.holds (Law.Holds.call (by cases d <;> rfl) (by simpa using operand))

/-! ## Aggregates -/

theorem lawful_count : count.Lawful := by
  refine .of_calls rfl fun d operands rendering rendered => ?_
  rcases writes_count rendered with ⟨rfl, writes⟩ | ⟨f, rfl, writes⟩ <;> rw [writes.sql]
  · exact .rows
  · exact .operand (by simp [aggregateNames]) f

/-- The SQL of an aggregate is a call with its name, whatever the kind of its operand. -/
theorem Aggregates.lawful {f : Function} {name : String} (aggregates : f.Aggregates name)
    (known : name ∈ aggregateNames) : f.Lawful := by
  refine .of_calls aggregates.aggregate fun d operands rendering rendered => ?_
  obtain ⟨operand, kind, rfl, -, writes⟩ := aggregates.writes rendered
  rw [writes.sql]
  exact .operand known operand

end Function

namespace FunctionLibrary

open RowQuery.Function

/-- All functions are lawful. -/
structure Lawful (l : FunctionLibrary) : Prop where
  functions : ∀ name f, l.function? name = some f → f.Lawful
  methods : ∀ name f, l.method? name = some f → f.Lawful

theorem lawful_standardMethods : ∀ pair ∈ standardMethods, pair.2.Lawful := by
  have lower : (ofCase "lower" Dialect.lower Text.lower).Lawful :=
    lawful_ofCase fun _ _ _ _ => holds_lower
  have upper : (ofCase "upper" Dialect.upper Text.upper).Lawful :=
    lawful_ofCase fun _ _ _ _ => holds_upper
  exact forall_ofList (by simp [lawful_ofAffix, lower, upper])

theorem lawful_standardFunctions : ∀ pair ∈ standardFunctions, pair.2.Lawful := by
  have now : (ofClock Dialect.now .datetime).Lawful := lawful_ofClock fun _ _ _ => holds_now
  have today : (ofClock Dialect.today .date).Lawful := lawful_ofClock fun _ _ _ => holds_today
  have least := (aggregates_extremum "MIN").lawful (by simp [aggregateNames])
  have greatest := (aggregates_extremum "MAX").lawful (by simp [aggregateNames])
  have sum := aggregates_sum.lawful (by simp [aggregateNames])
  have mean := aggregates_mean.lawful (by simp [aggregateNames])
  exact forall_ofList (by
    simp [lawful_ofAffix, lawful_equalIgnoringCase, now, today, lawful_count, least, greatest,
      sum, mean, lawful_ofField, lawful_length, lawful_absolute])

theorem lawful_standard : standard.Lawful where
  functions := forall_function? lawful_standardFunctions nofun
  methods _ _ found := lawful_standardMethods _ (Keyed.mem_of_get? found)

/-- The standard functions keep their reach. -/
theorem keepsReach_standard : standard.KeepsReach where
  functions name f found := (lawful_standard.functions name f found).keepsReach
  methods name f found := (lawful_standard.methods name f found).keepsReach

end FunctionLibrary

end RowQuery
