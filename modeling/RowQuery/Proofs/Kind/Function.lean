import Mathlib.Data.Option.Basic
import RowQuery.Function.Standard
import RowQuery.Proofs.Keyed
import RowQuery.Proofs.Kind.Value

/-!
# Kinds of the results of functions

The SQL form of a function has a kind.  A function is sound if what it computes on values of the
kinds of its operands is of that kind, too, and if a call on constants tells what the call gives
on the values in their place.  All standard functions are sound: what each of them writes and
computes is said once, before anything is derived from it.
-/

namespace RowQuery

open RowQuery.Number

/-- What a function computes is of the kind of its SQL form. -/
structure Function.Sound (f : Function) : Prop where
  /-- A call that is computed beforehand has no NULL and no truth value among its operands. -/
  solid : ∀ name ks k, f.isFoldable = true → f.apply name ks = .ok k → ∀ operand ∈ ks,
    operand.Solid
  foresees : ∀ name ks vs k v, f.isFoldable = true → List.Forall₂ Value.Foresees ks vs →
    f.apply name ks = .ok k → f.apply name vs = .ok v → k.Foresees v
  unknown : ∀ d operands rendering, f.render? d operands = some rendering →
    rendering.fragment.constant = none
  fits : ∀ d operands rendering name vs v, f.render? d operands = some rendering →
    List.Forall₂ (fun operand value => value.Fits operand.kind) operands vs →
    f.apply name vs = .ok v → v.Fits rendering.fragment.kind

/-- All functions are sound. -/
structure FunctionLibrary.Sound (l : FunctionLibrary) : Prop where
  functions : ∀ name f, l.function? name = some f → f.Sound
  methods : ∀ name f, l.method? name = some f → f.Sound

namespace Function

open Value

theorem apply_eq_ok {f : Function} {name : String} {vs : List Value} {v : Value}
    (ended : f.apply name vs = .ok v) :
    f.aggregate = false ∧ ∃ compute, f.compute = some compute ∧ compute vs = .ok v := by
  unfold apply at ended
  split at ended
  · cases ended
  · rename_i plain
    split at ended
    · rename_i compute found
      exact ⟨by simpa using plain, compute, found, ended⟩
    · cases ended

theorem compute_eq_ok {f : Function} {compute : List Value → Outcome Value} {name : String}
    {vs : List Value} {v : Value} (computes : f.compute = some compute)
    (ended : f.apply name vs = .ok v) : compute vs = .ok v := by
  obtain ⟨-, compute, found, ended⟩ := apply_eq_ok ended
  obtain rfl := Option.some.inj (computes.symm.trans found)
  exact ended

/-- A function whose results are of one kind, in SQL and computed. -/
structure OfKind (f : Function) (kind : Kind) : Prop where
  renders : ∀ d operands rendering, f.render? d operands = some rendering →
    rendering.fragment.kind = kind ∧ rendering.fragment.constant = none
  computes : ∀ name vs v, f.apply name vs = .ok v → v.kind = kind

/-- A function of plain operands. -/
def TakesPlain (f : Function) : Prop :=
  ∀ name ks k, f.apply name ks = .ok k → ∀ operand ∈ ks, operand.Plain

theorem TakesPlain.foresees {f : Function} (takes : f.TakesPlain) {name : String}
    {ks vs : List Value} {k v : Value} (each : List.Forall₂ Foresees ks vs)
    (known : f.apply name ks = .ok k) (found : f.apply name vs = .ok v) : k.Foresees v := by
  obtain rfl := Foresees.eq_of_forall_plain each (takes name ks k known)
  exact .of_eq known found

theorem OfKind.sound {f : Function} {kind : Kind} (ofKind : f.OfKind kind)
    (takes : f.TakesPlain) : f.Sound where
  solid name ks k _ known operand member := (takes name ks k known operand member).toSolid
  foresees _ _ _ _ _ _ each known found := takes.foresees each known found
  unknown d operands rendering rendered := (ofKind.renders d operands rendering rendered).2
  fits d operands rendering name vs v rendered _ ended := by
    rw [(ofKind.renders d operands rendering rendered).1]
    exact .inr (ofKind.computes name vs v ended)

/-- A function that is never computed. -/
theorem sound_of_uncomputed {f : Function} (uncomputed : ∀ name vs v, f.apply name vs ≠ .ok v)
    (unknown : ∀ d operands rendering, f.render? d operands = some rendering →
      rendering.fragment.constant = none) : f.Sound where
  solid name ks k _ known := absurd known (uncomputed name ks k)
  foresees name ks _ k _ _ _ known := absurd known (uncomputed name ks k)
  unknown := unknown
  fits _ _ _ name vs v _ _ ended := absurd ended (uncomputed name vs v)

theorem plain_text (s : String) : (Value.text s).Plain :=
  ⟨⟨nofun, nofun⟩, nofun⟩

/-! ## What functions write -/

/-- The rendering is SQL of a kind whose value is not known. -/
structure Writes (sql : String) (kind : Kind) (r : Rendering) : Prop where
  sql : r.fragment.sql = sql
  kind : r.fragment.kind = kind
  unknown : r.fragment.constant = none

variable {d : Dialect} {operands : List Sql.Fragment} {r : Rendering} {name : String}
  {vs : List Value} {v : Value}

theorem writes_typed? {sql : String} {kind : Kind} (rendered : typed? d sql kind = some r) :
    Writes sql kind r := by
  obtain ⟨type, -, rfl⟩ := Option.map_eq_some_iff.1 rendered
  exact ⟨rfl, rfl, rfl⟩

theorem writes_typedLike {sql : String} {f : Sql.Fragment}
    (rendered : some (typedLike sql f) = some r) : Writes sql f.kind r := by
  rw [← Option.some.inj rendered]
  exact ⟨rfl, rfl, rfl⟩

theorem writes_affix {affix : Affix} {ignoreCase : Bool} {text piece : Sql.Fragment}
    (rendered : affix.render? ignoreCase d text piece = some r) :
    text.kind = .text ∧ piece.kind = .text ∧ ∃ pattern, affix.pieceText? d piece = some pattern ∧
      Writes (d.like text.sql pattern ignoreCase).1 .bool r := by
  unfold Affix.render? at rendered
  split at rendered
  · cases rendered
  · rename_i texts
    rw [not_or, not_not, not_not] at texts
    split at rendered
    · cases rendered
    · obtain ⟨pattern, written, rest⟩ := Option.bind_eq_some_iff.1 rendered
      obtain ⟨test, typed, ended⟩ := Option.bind_eq_some_iff.1 rest
      obtain rfl := Option.some.inj ended
      have writes : Writes (d.like text.sql pattern ignoreCase).1 .bool test := writes_typed? typed
      exact ⟨texts.1, texts.2, pattern, written, writes.sql, writes.kind, writes.unknown⟩

theorem writes_ofAffix {affix : Affix} {ignoreCase : Bool}
    (rendered : (ofAffix affix ignoreCase).render? d operands = some r) :
    ∃ text piece, operands = [text, piece] ∧ affix.render? ignoreCase d text piece = some r := by
  simp only [render?, ofAffix, Option.bind_some] at rendered
  split at rendered
  · exact ⟨_, _, rfl, rendered⟩
  · cases rendered

theorem writes_ofCase {name : String} {sql : Dialect → String → String}
    {convert : String → String}
    (rendered : (ofCase name sql convert).render? d operands = some r) :
    ∃ f, operands = [f] ∧ f.kind = .text ∧ Writes (sql d f.sql) .text r := by
  simp only [render?, ofCase, Option.bind_some] at rendered
  split at rendered
  · rename_i f
    split at rendered
    · cases rendered
    · rename_i ofText
      simp only [Bool.or_eq_true, decide_eq_true_eq, not_or, not_not] at ofText
      have writes := writes_typedLike rendered
      rw [ofText.1] at writes
      exact ⟨f, rfl, ofText.1, writes⟩
  · cases rendered

theorem writes_equalIgnoringCase (rendered : equalIgnoringCase.render? d operands = some r) :
    ∃ a b, operands = [a, b] ∧ a.kind = .text ∧ b.kind = .text ∧
      Writes (d.compare (d.lower a.sql) .eq (d.lower b.sql)) .bool r := by
  simp only [render?, equalIgnoringCase, Option.bind_some] at rendered
  split at rendered
  · split at rendered
    · cases rendered
    · rename_i texts
      rw [not_or, not_not, not_not] at texts
      exact ⟨_, _, rfl, texts.1, texts.2, writes_typed? rendered⟩
  · cases rendered

/-- A reading of the clock, whether or not it can be made in process. -/
theorem writes_clock {f : Function} {sql : Dialect → String} {kind : Kind}
    (clock : f.render = (ofClock sql kind).render) (rendered : f.render? d operands = some r) :
    Writes (sql d) kind r := by
  rw [render?, clock] at rendered
  simp only [ofClock, Option.bind_some] at rendered
  split at rendered
  · exact writes_typed? rendered
  · cases rendered

theorem writes_extract? {part : DatePart} {f : Sql.Fragment}
    (rendered : extract? part d f = some r) :
    hasField part f.kind = true ∧ Writes (d.extract part f.sql) .int r := by
  unfold extract? at rendered
  split at rendered
  · rename_i field
    exact ⟨field, writes_typed? rendered⟩
  · cases rendered

theorem writes_ofField {part : DatePart}
    (rendered : (ofField part).render? d operands = some r) :
    ∃ f, operands = [f] ∧ extract? part d f = some r := by
  simp only [render?, ofField, Option.bind_some] at rendered
  split at rendered
  · exact ⟨_, rfl, rendered⟩
  · cases rendered

theorem writes_length (rendered : length.render? d operands = some r) :
    ∃ f, operands = [f] ∧ f.kind = .text ∧ Writes (d.length f.sql) .int r := by
  simp only [render?, length, Option.bind_some] at rendered
  split at rendered
  · split at rendered
    · rename_i text
      exact ⟨_, rfl, text, writes_typed? rendered⟩
    · cases rendered
  · cases rendered

theorem writes_absolute (rendered : absolute.render? d operands = some r) :
    ∃ f, operands = [f] ∧ f.kind.isNumeric = true ∧
      Writes (callText "ABS" [f.sql]) f.kind r := by
  simp only [render?, absolute, Option.bind_some] at rendered
  split at rendered
  · split at rendered
    · rename_i numeric
      exact ⟨_, rfl, numeric, writes_typedLike rendered⟩
    · cases rendered
  · cases rendered

theorem writes_count (rendered : count.render? d operands = some r) :
    operands = [] ∧ Writes "COUNT(*)" .int r ∨
      ∃ f, operands = [f] ∧ Writes (callText "COUNT" [f.sql]) .int r := by
  simp only [render?, count, Option.bind_some] at rendered
  split at rendered
  · exact .inl ⟨rfl, writes_typed? rendered⟩
  · exact .inr ⟨_, rfl, writes_typed? rendered⟩
  · cases rendered

/-- The function is an aggregate of this name.  Lists are no operands of it. -/
structure Aggregates (f : Function) (name : String) : Prop where
  aggregate : f.aggregate = true
  writes : ∀ {d operands r}, f.render? d operands = some r → ∃ operand kind,
    operands = [operand] ∧ operand.kind ≠ .list ∧ Writes (callText name [operand.sql]) kind r

theorem aggregates_ofAggregate {name : String}
    {render : Dialect → String → Sql.Fragment → Option Rendering}
    (writes : ∀ d sql f r, render d sql f = some r → f.kind ≠ .list ∧ ∃ kind, Writes sql kind r) :
    (ofAggregate name render).Aggregates name where
  aggregate := rfl
  writes {d operands r} rendered := by
    simp only [render?, ofAggregate, Option.bind_some] at rendered
    split at rendered
    · rename_i operand
      obtain ⟨noList, kind, written⟩ := writes _ _ _ _ rendered
      exact ⟨operand, kind, rfl, noList, written⟩
    · cases rendered

theorem aggregates_extremum (name : String) : (extremum name).Aggregates name := by
  refine aggregates_ofAggregate fun d sql f r rendered => ?_
  split at rendered
  · cases rendered
  · cases rendered
  · cases rendered
  · rename_i noList _
    exact ⟨noList, _, writes_typedLike rendered⟩

theorem aggregates_sum : sum.Aggregates "SUM" := by
  refine aggregates_ofAggregate fun d sql f r rendered => ?_
  split at rendered <;> rename_i kind
  · exact ⟨by simp [kind], _, writes_typed? rendered⟩
  · exact ⟨by simp [kind], _, writes_typedLike rendered⟩
  · exact ⟨by simp [kind], _, writes_typedLike rendered⟩
  · cases rendered

theorem aggregates_mean : mean.Aggregates "AVG" := by
  refine aggregates_ofAggregate fun d sql f r rendered => ?_
  split at rendered <;> rename_i kind
  · exact ⟨by simp [kind], _, writes_typed? rendered⟩
  · exact ⟨by simp [kind], _, writes_typed? rendered⟩
  · exact ⟨by simp [kind], _, writes_typedLike rendered⟩
  · cases rendered

/-! ## What functions compute -/

theorem computes_ofAffix {affix : Affix} {ignoreCase : Bool}
    (ended : (ofAffix affix ignoreCase).apply name vs = .ok v) :
    ∃ s piece b, vs = [.text s, .text piece] ∧ v = .bool b := by
  have ended := compute_eq_ok rfl ended
  split at ended
  · exact ⟨_, _, _, rfl, (Except.ok.inj ended).symm⟩
  · cases ended

theorem computes_ofCase {called : String} {sql : Dialect → String → String}
    {convert : String → String} (ended : (ofCase called sql convert).apply name vs = .ok v) :
    ∃ s, vs = [.text s] ∧ v = .text (convert s) := by
  have ended := compute_eq_ok rfl ended
  split at ended
  · exact ⟨_, rfl, (Except.ok.inj ended).symm⟩
  · cases ended

theorem computes_equalIgnoringCase (ended : equalIgnoringCase.apply name vs = .ok v) :
    ∃ s t b, vs = [.text s, .text t] ∧ v = .bool b := by
  have ended := compute_eq_ok rfl ended
  split at ended
  · exact ⟨_, _, _, rfl, (Except.ok.inj ended).symm⟩
  · cases ended

theorem computes_ofField {part : DatePart} (ended : (ofField part).apply name vs = .ok v) :
    ∃ whole field, vs = [whole] ∧ whole.field field = .ok v := by
  have ended := compute_eq_ok rfl ended
  split at ended
  · exact ⟨_, _, rfl, ended⟩
  · cases ended

theorem computes_length (ended : length.apply name vs = .ok v) :
    ∃ operand n, vs = [operand] ∧ operand.Solid ∧ v = .int n := by
  have ended := compute_eq_ok rfl ended
  split at ended
  · exact ⟨_, _, rfl, ⟨nofun, nofun⟩, (Except.ok.inj ended).symm⟩
  · exact ⟨_, _, rfl, ⟨nofun, nofun⟩, (Except.ok.inj ended).symm⟩
  · exact ⟨_, _, rfl, ⟨nofun, nofun⟩, (Except.ok.inj ended).symm⟩
  · cases ended

theorem computes_absolute (ended : absolute.apply name vs = .ok v) :
    ∃ operand, vs = [operand] ∧ operand.Plain ∧ operand.kind ≠ .json ∧ v.kind = operand.kind := by
  have ended := compute_eq_ok rfl ended
  split at ended
  · split at ended
    · rw [← Except.ok.inj ended]
      exact ⟨_, rfl, ⟨⟨nofun, nofun⟩, nofun⟩, nofun, rfl⟩
    · cases ended
  · rw [← Except.ok.inj ended]
    exact ⟨_, rfl, ⟨⟨nofun, nofun⟩, nofun⟩, nofun, rfl⟩
  · rw [← Except.ok.inj ended]
    exact ⟨_, rfl, ⟨⟨nofun, nofun⟩, nofun⟩, nofun, rfl⟩
  · rw [← Except.ok.inj ended]
    exact ⟨_, rfl, ⟨⟨nofun, nofun⟩, nofun⟩, nofun, rfl⟩
  · cases ended

/-! ## Tests and conversions of texts -/

theorem sound_ofAffix (affix : Affix) (ignoreCase : Bool) : (ofAffix affix ignoreCase).Sound := by
  have ofKind : (ofAffix affix ignoreCase).OfKind .bool := by
    refine ⟨fun d operands rendering rendered => ?_, fun name vs v ended => ?_⟩
    · obtain ⟨text, piece, -, written⟩ := writes_ofAffix rendered
      obtain ⟨-, -, pattern, -, writes⟩ := writes_affix written
      exact ⟨writes.kind, writes.unknown⟩
    · obtain ⟨s, piece, b, -, rfl⟩ := computes_ofAffix ended
      rfl
  refine ofKind.sound fun name ks k known => ?_
  obtain ⟨s, piece, b, rfl, -⟩ := computes_ofAffix known
  simp [plain_text]

theorem sound_ofCase (name : String) (sql : Dialect → String → String)
    (convert : String → String) : (ofCase name sql convert).Sound := by
  have ofKind : (ofCase name sql convert).OfKind .text := by
    refine ⟨fun d operands rendering rendered => ?_, fun called vs v ended => ?_⟩
    · obtain ⟨f, -, -, writes⟩ := writes_ofCase rendered
      exact ⟨writes.kind, writes.unknown⟩
    · obtain ⟨s, -, rfl⟩ := computes_ofCase ended
      rfl
  refine ofKind.sound fun called ks k known => ?_
  obtain ⟨s, rfl, -⟩ := computes_ofCase known
  simp [plain_text]

theorem sound_equalIgnoringCase : equalIgnoringCase.Sound := by
  have ofKind : equalIgnoringCase.OfKind .bool := by
    refine ⟨fun d operands rendering rendered => ?_, fun name vs v ended => ?_⟩
    · obtain ⟨a, b, -, -, -, writes⟩ := writes_equalIgnoringCase rendered
      exact ⟨writes.kind, writes.unknown⟩
    · obtain ⟨s, t, b, -, rfl⟩ := computes_equalIgnoringCase ended
      rfl
  refine ofKind.sound fun name ks k known => ?_
  obtain ⟨s, t, b, rfl, -⟩ := computes_equalIgnoringCase known
  simp [plain_text]

/-! ## Parts, lengths and absolute values -/

theorem sound_ofField (part : DatePart) : (ofField part).Sound := by
  have ofKind : (ofField part).OfKind .int := by
    refine ⟨fun d operands rendering rendered => ?_, fun name vs v ended => ?_⟩
    · obtain ⟨f, -, extracted⟩ := writes_ofField rendered
      have writes := (writes_extract? extracted).2
      exact ⟨writes.kind, writes.unknown⟩
    · obtain ⟨whole, field, -, found⟩ := computes_ofField ended
      exact (kind_of_field found).1
  refine ofKind.sound fun name ks k known => ?_
  obtain ⟨whole, field, rfl, found⟩ := computes_ofField known
  simpa using (kind_of_field found).2

/-- A list may hold truth values, but their number is known. -/
theorem sound_length : length.Sound := by
  constructor
  · intro name ks k _ known
    obtain ⟨operand, n, rfl, solid, -⟩ := computes_length known
    simpa using solid
  · intro name ks vs k v _ each known found
    obtain ⟨operand, n, rfl, solid, -⟩ := computes_length known
    obtain ⟨value, _, foresees, empty, rfl⟩ := List.forall₂_cons_left_iff.1 each
    obtain rfl := List.forall₂_nil_left_iff.1 empty
    cases foresees with
    | same => exact .of_eq known found
    | truth => exact absurd rfl solid.notBool
    | list items =>
        refine .of_eq known (Eq.trans ?_ found)
        change Except.ok (Value.int (Int64.ofNat _)) = Except.ok (Value.int (Int64.ofNat _))
        rw [items.length_eq]
  · intro d operands rendering rendered
    obtain ⟨f, -, -, writes⟩ := writes_length rendered
    exact writes.unknown
  · intro d operands rendering name vs v rendered _ ended
    obtain ⟨f, -, -, writes⟩ := writes_length rendered
    obtain ⟨operand, n, -, -, rfl⟩ := computes_length ended
    rw [writes.kind]
    exact .inr rfl

theorem sound_absolute : absolute.Sound := by
  have takes : absolute.TakesPlain := by
    intro name ks k known
    obtain ⟨operand, rfl, plain, -, -⟩ := computes_absolute known
    simpa using plain
  constructor
  · exact fun name ks k _ known operand member => (takes name ks k known operand member).toSolid
  · exact fun name ks vs k v _ each known found => takes.foresees each known found
  · intro d operands rendering rendered
    obtain ⟨f, -, -, writes⟩ := writes_absolute rendered
    exact writes.unknown
  · intro d operands rendering name vs v rendered each ended
    obtain ⟨f, rfl, -, writes⟩ := writes_absolute rendered
    obtain ⟨operand, rfl, plain, -, same⟩ := computes_absolute ended
    have fits : operand.Fits f.kind := (List.forall₂_cons.1 each).1
    rw [writes.kind]
    exact .inr (same.trans (fits.kind_of_solid plain.toSolid))

/-! ## The clock and aggregates -/

/-- The clock as it is read in process at some time. -/
def ofClockAt (sql : Dialect → String) (kind : Kind) (reading : Value) : Function :=
  { ofClock sql kind with compute := some fun _ => .ok reading }

theorem sound_ofClock (sql : Dialect → String) (kind : Kind) : (ofClock sql kind).Sound :=
  sound_of_uncomputed (fun _ _ _ => nofun) fun _ _ _ rendered => (writes_clock rfl rendered).unknown

theorem sound_ofClockAt (sql : Dialect → String) (reading : Value) :
    (ofClockAt sql reading.kind reading).Sound where
  solid _ _ _ foldable := by cases foldable
  foresees _ _ _ _ _ foldable := by cases foldable
  unknown d operands rendering rendered := by
    have writes : Writes (sql d) reading.kind rendering := writes_clock rfl rendered
    exact writes.unknown
  fits d operands rendering name vs v rendered _ ended := by
    obtain rfl : reading = v := Except.ok.inj ended
    have writes : Writes (sql d) reading.kind rendering := writes_clock rfl rendered
    rw [writes.kind]
    exact fits_kind reading

theorem sound_of_aggregate {f : Function} (aggregate : f.aggregate = true)
    (unknown : ∀ d operands rendering, f.render? d operands = some rendering →
      rendering.fragment.constant = none) : f.Sound := by
  refine sound_of_uncomputed (fun name vs v ended => ?_) unknown
  rw [(apply_eq_ok ended).1] at aggregate
  cases aggregate

theorem sound_count : count.Sound := by
  refine sound_of_aggregate rfl fun d operands rendering rendered => ?_
  rcases writes_count rendered with ⟨-, writes⟩ | ⟨f, -, writes⟩
  · exact writes.unknown
  · exact writes.unknown

theorem Aggregates.sound {f : Function} {name : String} (aggregates : f.Aggregates name) :
    f.Sound := by
  refine sound_of_aggregate aggregates.aggregate fun d operands rendering rendered => ?_
  obtain ⟨operand, kind, -, -, writes⟩ := aggregates.writes rendered
  exact writes.unknown

end Function

namespace FunctionLibrary

open RowQuery.Function

/-- The standard functions with the clock read in process at some time. -/
def standardAt (now : Calendar.Moment) (today : Calendar.Date) : FunctionLibrary :=
  { standard with
    builtins := standardFunctions.extend [
      ("now", ofClockAt Dialect.now .datetime (.datetime now)),
      ("today", ofClockAt Dialect.today .date (.date today))] }

/-- Functions that are found are those that were put in. -/
theorem forall_function? {P : Function → Prop} {l : FunctionLibrary}
    (builtins : ∀ pair ∈ l.builtins, P pair.2) (custom : ∀ pair ∈ l.custom, P pair.2) :
    ∀ name f, l.function? name = some f → P f := by
  intro name f found
  unfold function? at found
  rcases (Option.orElse_eq_some _ _ _).1 found with asGiven | ⟨-, found⟩
  · exact builtins _ (Keyed.mem_of_get? asGiven)
  · rcases (Option.orElse_eq_some _ _ _).1 found with inLower | ⟨-, found⟩
    · exact builtins _ (Keyed.mem_of_get? inLower)
    · exact custom _ (Keyed.mem_of_get? found)

theorem sound_of_values {l : FunctionLibrary} (methods : ∀ pair ∈ l.methods, pair.2.Sound)
    (builtins : ∀ pair ∈ l.builtins, pair.2.Sound) (custom : ∀ pair ∈ l.custom, pair.2.Sound) :
    l.Sound where
  functions := forall_function? builtins custom
  methods _ _ found := methods _ (Keyed.mem_of_get? found)

theorem forall_ofList {P : Function → Prop} {pairs : List (String × Function)}
    (each : ∀ pair ∈ pairs, P pair.2) : ∀ pair ∈ Keyed.ofList pairs, P pair.2 :=
  fun pair member => each pair (Keyed.mem_ofList member)

theorem sound_standardMethods : ∀ pair ∈ standardMethods, pair.2.Sound :=
  forall_ofList (by simp [sound_ofAffix, sound_ofCase])

theorem sound_standardFunctions : ∀ pair ∈ standardFunctions, pair.2.Sound :=
  forall_ofList (by
    simp [sound_ofAffix, sound_equalIgnoringCase, sound_ofClock, sound_count,
      (aggregates_extremum _).sound, aggregates_sum.sound, aggregates_mean.sound, sound_ofField,
      sound_length, sound_absolute])

/-- The standard functions are sound. -/
theorem sound_standard : standard.Sound :=
  sound_of_values sound_standardMethods sound_standardFunctions nofun

/-- They still are when the clock can be read in process. -/
theorem sound_standardAt (now : Calendar.Moment) (today : Calendar.Date) :
    (standardAt now today).Sound := by
  refine sound_of_values sound_standardMethods (fun pair member => ?_) nofun
  rcases Keyed.mem_extend member with standard | clock
  · exact sound_standardFunctions pair standard
  · simp only [List.mem_cons, List.not_mem_nil, or_false] at clock
    rcases clock with rfl | rfl
    · exact sound_ofClockAt Dialect.now (.datetime now)
    · exact sound_ofClockAt Dialect.today (.date today)

end FunctionLibrary

end RowQuery
