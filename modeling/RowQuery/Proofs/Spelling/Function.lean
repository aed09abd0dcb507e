import RowQuery.Compile
import RowQuery.Proofs.Kind.Projection
import RowQuery.Proofs.Reach.Function
import RowQuery.Proofs.Spelling.Literal

/-!
# What functions spell

The SQL form of a standard function is an expression if its operands are.  A list has no text.  All
functions refuse it as an operand, except for one: COUNT takes whatever it is given.
-/

namespace RowQuery

open RowQuery.Sql BuiltinDialect CompileContext

variable {d : BuiltinDialect} {hollow openers : Prop} {rendering : Rendering}

/-- A fragment is an expression, unless it is a list and no operand may be missing. -/
structure Sql.Fragment.Spells (d : BuiltinDialect) (hollow openers : Prop) (f : Fragment) :
    Prop where
  kind : ∀ v, f.constant = some v → f.kind = v.kind
  blank : isList f = true → f.sql = ""
  spells : (isList f = true → hollow) → d.Spells hollow openers f.sql
  /-- What is computed can stand behind a minus sign. -/
  noMinus : f.constant = none → f.kind ≠ .bool → NoMinus f.sql
  /-- Known intervals have a minus sign if they are negative. -/
  negative : d = sqlite → ∀ i, f.constant = some (.interval i) →
    (f.sql.toList.head? = some '-' ↔ i.seconds.negative = true)

namespace Sql.Fragment

variable {f : Fragment}

theorem isList_eq_true_iff : isList f = true ↔ ∃ items, f.constant = some (.list items) := by
  unfold isList
  split
  · rename_i items listed
    exact ⟨fun _ => ⟨items, listed⟩, fun _ => rfl⟩
  · rename_i other
    exact ⟨nofun, fun ⟨items, listed⟩ => absurd listed (other items)⟩

theorem Spells.kind_of_isList (spells : f.Spells d hollow openers) (listed : isList f = true) :
    f.kind = .list := by
  obtain ⟨items, known⟩ := isList_eq_true_iff.1 listed
  exact spells.kind _ known

/-- Whatever is no list is an expression. -/
theorem Spells.of_kind (spells : f.Spells d hollow openers) (other : f.kind ≠ .list) :
    d.Spells hollow openers f.sql :=
  spells.spells fun listed => absurd (spells.kind_of_isList listed) other

theorem isList_of_open (open_ : f.constant = none) : isList f = false := by
  rw [isList, open_]

theorem Spells.computed (open_ : f.constant = none) (spells : d.Spells hollow openers f.sql)
    (noMinus : f.kind ≠ .bool → NoMinus f.sql) : f.Spells d hollow openers where
  kind v known := by
    rw [open_] at known
    cases known
  blank listed := by
    rw [isList_of_open open_] at listed
    cases listed
  spells _ := spells
  noMinus _ := noMinus
  negative _ i known := by
    rw [open_] at known
    cases known

/-- So is whatever is computed. -/
theorem Spells.of_open (spells : f.Spells d hollow openers) (open_ : f.constant = none) :
    d.Spells hollow openers f.sql := by
  refine spells.spells fun listed => ?_
  rw [isList_of_open open_] at listed
  cases listed

end Sql.Fragment

/-- The SQL form of a function is an expression, and begins with a minus sign only if it is a test.
There is none with a list as an operand; but COUNT has one, so operands may be missing then. -/
def Function.KeepsSpelling (f : Function) : Prop :=
  ∀ (d : BuiltinDialect) (hollow openers : Prop) (operands : List Fragment) (rendering : Rendering),
    (∀ operand ∈ operands, operand.Spells d hollow openers) →
    (f = count → ∀ operand ∈ operands, isList operand = true → hollow) →
    f.render? d.dialect operands = some rendering →
    d.Spells hollow openers rendering.fragment.sql ∧
      (rendering.fragment.kind ≠ .bool → NoMinus rendering.fragment.sql)

namespace Function

/-- The text of a rendering, which does not begin with a minus sign. -/
theorem Writes.spells {sql : String} {kind : Kind} (writes : Writes sql kind rendering)
    (spells : d.SpellsUnsigned hollow openers sql) :
    d.Spells hollow openers rendering.fragment.sql ∧
      (rendering.fragment.kind ≠ .bool → NoMinus rendering.fragment.sql) := by
  rw [writes.sql]
  exact ⟨spells.1, fun _ => spells.2⟩

/-- The text of a test. -/
theorem Writes.spells_test {sql : String} (writes : Writes sql .bool rendering)
    (spells : d.Spells hollow openers sql) :
    d.Spells hollow openers rendering.fragment.sql ∧
      (rendering.fragment.kind ≠ .bool → NoMinus rendering.fragment.sql) := by
  rw [writes.sql]
  exact ⟨spells, fun other => absurd writes.kind other⟩

theorem spells_pieceText {affix : Affix} {piece : Fragment} {pattern : String}
    (spells : d.Spells hollow openers piece.sql)
    (written : affix.pieceText? d.dialect piece = some pattern) :
    d.Spells hollow openers pattern := by
  have escaped := spells_escapePattern spells
  have wild : d.Spells hollow openers (d.dialect.quoteText "%") := .quoteText _
  unfold Affix.pieceText? at written
  split at written
  · obtain rfl := Option.some.inj written
    exact .quoteText _
  · cases written
  · obtain rfl := Option.some.inj written
    cases affix with
    | front => exact (spells_concat escaped wild).1
    | back => exact (spells_concat wild escaped).1
    | within => exact (spells_concat (spells_concat wild escaped).1 wild).1

theorem spells_affix {affix : Affix} {ignoreCase : Bool} {text piece : Fragment}
    (left : text.Spells d hollow openers) (right : piece.Spells d hollow openers)
    (rendered : affix.render? ignoreCase d.dialect text piece = some rendering) :
    d.Spells hollow openers rendering.fragment.sql ∧
      (rendering.fragment.kind ≠ .bool → NoMinus rendering.fragment.sql) := by
  obtain ⟨ofText, ofPiece, pattern, written, writes⟩ := writes_affix rendered
  have inText := left.of_kind (by simp [ofText])
  have inPattern := spells_pieceText (right.of_kind (by simp [ofPiece])) written
  exact writes.spells_test (spells_like inText inPattern ignoreCase)

theorem keepsSpelling_ofAffix (affix : Affix) (ignoreCase : Bool) :
    (ofAffix affix ignoreCase).KeepsSpelling := by
  rintro d hollow openers operands rendering each - rendered
  obtain ⟨text, piece, rfl, rendered⟩ := writes_ofAffix rendered
  exact spells_affix (each text (by simp)) (each piece (by simp)) rendered

theorem keepsSpelling_ofCase {name : String} {sql : Dialect → String → String}
    {convert : String → String} (converts : ∀ (d : BuiltinDialect) (hollow openers : Prop)
      (text : String), d.Spells hollow openers text →
        d.SpellsUnsigned hollow openers (sql d.dialect text)) :
    (ofCase name sql convert).KeepsSpelling := by
  rintro d hollow openers operands rendering each - rendered
  obtain ⟨f, rfl, text, writes⟩ := writes_ofCase rendered
  exact writes.spells (converts _ _ _ _ ((each f (by simp)).of_kind (by simp [text])))

theorem keepsSpelling_equalIgnoringCase : equalIgnoringCase.KeepsSpelling := by
  rintro d hollow openers operands rendering each - rendered
  obtain ⟨a, b, rfl, ofLeft, ofRight, writes⟩ := writes_equalIgnoringCase rendered
  have left := spells_lower ((each a (by simp)).of_kind (by simp [ofLeft]))
  have right := spells_lower ((each b (by simp)).of_kind (by simp [ofRight]))
  exact writes.spells_test (spells_compare left.1 .eq right.1)

/-- A reading of the clock, whether or not it can be made in process. -/
theorem keepsSpelling_of_clock {f : Function} {sql : Dialect → String} {kind : Kind}
    (clock : f.render = (ofClock sql kind).render)
    (reads : ∀ (d : BuiltinDialect) (hollow openers : Prop),
      d.SpellsUnsigned hollow openers (sql d.dialect)) : f.KeepsSpelling := by
  rintro d hollow openers operands rendering - - rendered
  exact (writes_clock clock rendered).spells (reads _ _ _)

theorem spells_extract? {part : DatePart} {f : Fragment} (spells : f.Spells d hollow openers)
    (rendered : extract? part d.dialect f = some rendering) :
    d.SpellsUnsigned hollow openers rendering.fragment.sql := by
  obtain ⟨field, writes⟩ := writes_extract? rendered
  have operand : f.kind ≠ .list := by
    intro listed
    rw [listed] at field
    cases field
  rw [writes.sql]
  exact spells_extract part (spells.of_kind operand)

theorem keepsSpelling_ofField (part : DatePart) : (ofField part).KeepsSpelling := by
  rintro d hollow openers operands rendering each - rendered
  obtain ⟨f, rfl, extracted⟩ := writes_ofField rendered
  have spells := spells_extract? (each f (by simp)) extracted
  exact ⟨spells.1, fun _ => spells.2⟩

theorem keepsSpelling_length : length.KeepsSpelling := by
  rintro d hollow openers operands rendering each - rendered
  obtain ⟨f, rfl, text, writes⟩ := writes_length rendered
  exact writes.spells (spells_length ((each f (by simp)).of_kind (by simp [text])))

theorem keepsSpelling_absolute : absolute.KeepsSpelling := by
  rintro d hollow openers operands rendering each - rendered
  obtain ⟨f, rfl, numeric, writes⟩ := writes_absolute rendered
  have operand : f.kind ≠ .list := by
    intro listed
    rw [listed] at numeric
    cases numeric
  refine writes.spells ?_
  exact ((each f (by simp)).of_kind operand).apply (by cases d <;> rfl) (by decide) rfl (by decide)

/-! ## Aggregates -/

theorem keepsSpelling_count : count.KeepsSpelling := by
  intro d hollow openers operands rendering each counted rendered
  rcases writes_count rendered with ⟨rfl, writes⟩ | ⟨f, rfl, writes⟩ <;> refine writes.spells ?_
  · refine ⟨⟨_, .closed (by cases d <;> rfl) (by cases d <;> rfl), .rows⟩, ?_⟩
    exact .of_head rfl (by decide)
  · have operand := (each f (by simp)).spells (counted rfl f (by simp))
    exact operand.apply (by cases d <;> rfl) (by decide) rfl (by decide)

/-- The SQL of an aggregate is a call with its name. -/
theorem Aggregates.keepsSpelling {f : Function} {name : String} {c : Char}
    (aggregates : f.Aggregates name)
    (known : ∀ d : BuiltinDialect, d.fixed? (name ++ "(") = some [.word name, .symbol '('])
    (among : name ∈ functionWords) (head : name.toList.head? = some c) (other : c ≠ '-') :
    f.KeepsSpelling := by
  rintro d hollow openers operands rendering each - rendered
  obtain ⟨operand, kind, rfl, noList, writes⟩ := aggregates.writes rendered
  exact writes.spells (((each operand (by simp)).of_kind noList).apply (known d) among head other)

end Function

namespace FunctionLibrary

open RowQuery.Function

theorem keepsSpelling_standardMethods : ∀ pair ∈ standardMethods, pair.2.KeepsSpelling := by
  have lower : (ofCase "lower" Dialect.lower Text.lower).KeepsSpelling :=
    keepsSpelling_ofCase fun _ _ _ _ => spells_lower
  have upper : (ofCase "upper" Dialect.upper Text.upper).KeepsSpelling :=
    keepsSpelling_ofCase fun _ _ _ _ => spells_upper
  exact forall_ofList (by simp [keepsSpelling_ofAffix, lower, upper])

theorem plain_standardMethods : ∀ pair ∈ standardMethods, pair.2.aggregate = false :=
  forall_ofList (P := fun f => f.aggregate = false) (by simp [ofAffix, ofCase])

theorem keepsSpelling_standardFunctions : ∀ pair ∈ standardFunctions, pair.2.KeepsSpelling := by
  have now : (ofClock Dialect.now .datetime).KeepsSpelling :=
    keepsSpelling_of_clock rfl fun _ _ _ => spells_now
  have today : (ofClock Dialect.today .date).KeepsSpelling :=
    keepsSpelling_of_clock rfl fun _ _ _ => spells_today
  have least := (aggregates_extremum "MIN").keepsSpelling (c := 'M') (fun d => by cases d <;> rfl)
    (by decide) rfl (by decide)
  have greatest := (aggregates_extremum "MAX").keepsSpelling (c := 'M')
    (fun d => by cases d <;> rfl) (by decide) rfl (by decide)
  have sum := aggregates_sum.keepsSpelling (c := 'S') (fun d => by cases d <;> rfl) (by decide) rfl
    (by decide)
  have mean := aggregates_mean.keepsSpelling (c := 'A') (fun d => by cases d <;> rfl) (by decide)
    rfl (by decide)
  exact forall_ofList (by
    simp [keepsSpelling_ofAffix, keepsSpelling_equalIgnoringCase, now, today, keepsSpelling_count,
      least, greatest, sum, mean, keepsSpelling_ofField, keepsSpelling_length,
      keepsSpelling_absolute])

/-- What is called is an expression. -/
structure KeepsSpelling (l : FunctionLibrary) : Prop where
  functions : ∀ name f, l.function? name = some f → f.KeepsSpelling
  methods : ∀ name f, l.method? name = some f → f.KeepsSpelling
  /-- No method is COUNT. -/
  plain : ∀ name f, l.method? name = some f → f.aggregate = false

theorem IsStandard.keepsSpelling {l : FunctionLibrary} (isStandard : l.IsStandard) :
    l.KeepsSpelling := by
  have builtins : ∀ pair ∈ l.builtins, pair.2.KeepsSpelling := by
    rcases isStandard with rfl | ⟨now, today, rfl⟩
    · exact keepsSpelling_standardFunctions
    · intro pair member
      rcases Keyed.mem_extend member with standard | clock
      · exact keepsSpelling_standardFunctions pair standard
      · simp only [List.mem_cons, List.not_mem_nil, or_false] at clock
        rcases clock with rfl | rfl
        · exact keepsSpelling_of_clock rfl fun _ _ _ => spells_now
        · exact keepsSpelling_of_clock rfl fun _ _ _ => spells_today
  have methods : ∀ name f, l.method? name = some f → (name, f) ∈ standardMethods := by
    intro name f found
    rcases isStandard with rfl | ⟨now, today, rfl⟩ <;> exact Keyed.mem_of_get? found
  refine ⟨forall_function? builtins ?_, fun name f found => ?_, fun name f found => ?_⟩
  · rcases isStandard with rfl | ⟨now, today, rfl⟩ <;> nofun
  · exact keepsSpelling_standardMethods _ (methods name f found)
  · exact plain_standardMethods _ (methods name f found)

end FunctionLibrary

end RowQuery
