import RowQuery.Proofs.Catalog.InStep
import RowQuery.Proofs.Spelling.Literal
import RowQuery.Proofs.Sql.TableText
import RowQuery.Proofs.Types.RoundTrip

/-!
# Declarations of primary keys

Whether the primary key is declared with its column is decided for the whole table in one place and
for one column in another.  What a CREATE TABLE statement says of keys and sequences is read from
its text and compared with the columns of its table.
-/

namespace RowQuery

open RowQuery.Number RowQuery.Sql

/-- One declaration of the key of a table, if it has one. -/
def Table.keyOnce (t : Table) : List (List String) :=
  if t.keyColumns.isEmpty then [] else [t.keyColumns.map Column.name]

namespace BuiltinDialect

variable {d : BuiltinDialect} {n m : Nat} {drawn more : List String} {text rest : String}

/-! ## Texts that declare -/

/-- The lexemes of a text declare so many keys and draw from these sequences. -/
def Adds (d : BuiltinDialect) (n : Nat) (drawn : List String) (text : String) : Prop :=
  ∃ lexemes, d.lexemes? text = some lexemes ∧ Declares n drawn lexemes

namespace Adds

theorem empty : d.Adds 0 [] "" :=
  ⟨[], by cases d <;> rfl, .nil⟩

/-- A text behind another one that it does not go on with. -/
theorem append (one : d.Adds n drawn text) (separated : Separated rest)
    (other : d.Adds m more rest) : d.Adds (n + m) (drawn ++ more) (text ++ rest) := by
  obtain ⟨first, found, declares⟩ := one
  obtain ⟨second, found', declares'⟩ := other
  exact ⟨first ++ second, lexemes?_append_of_separated found separated found',
    declares.append declares'⟩

theorem of_spells {hollow openers : Prop} (spells : d.Spells hollow openers text) :
    d.Adds 0 [] text := by
  obtain ⟨lexemes, scans, phrase⟩ := spells
  exact ⟨lexemes, scans.1, .of_phrase phrase⟩

/-- DEFAULT in front of what gives the value. -/
theorem behindDefault (value : d.Adds n drawn text) : d.Adds n drawn (" DEFAULT " ++ text) := by
  obtain ⟨lexemes, found, declares⟩ := value
  have keyword : Scanner.idle.run d " DEFAULT ".toList = some ([.word "DEFAULT"], .idle) := by
    cases d <;> rfl
  have silent : Declares 0 [] [.word "DEFAULT"] := .plain (by decide) rfl rfl
  have whole := silent.append declares
  rw [Nat.zero_add] at whole
  exact ⟨.word "DEFAULT" :: lexemes, lexemes?_append_of_idle keyword found, whole⟩

end Adds

theorem separated_default (text : String) : Separated (" DEFAULT " ++ text) :=
  separated_append (separated_of_head rfl rfl) (by decide)

theorem separated_bracketed (text : String) : Separated (" (" ++ text ++ ")") := by
  rw [String.append_assoc]
  exact separated_append (separated_of_head rfl rfl) (by decide)

theorem separated_empty : Separated "" :=
  fun _ head => nomatch head

/-- The default of a column declares nothing. -/
theorem adds_defaultClause {c : Column} (written : d.dialect.defaultClause c = .ok text) :
    Separated text ∧ d.Adds 0 [] text := by
  unfold Dialect.defaultClause at written
  split at written
  · obtain rfl := Except.ok.inj written
    exact ⟨separated_empty, .empty⟩
  · obtain ⟨literal, encoded, ended⟩ := Except.bind_eq_ok_iff.1 written
    obtain rfl := Except.ok.inj ended
    have spells : d.Spells False True literal := spells_encode encoded
    exact ⟨separated_default literal, (Adds.of_spells spells).behindDefault⟩

theorem adds_sequenceDefault (sequence : String) :
    d.Adds 0 [d.dialect.quoteName sequence] (d.dialect.sequenceDefault sequence) := by
  have call : Scanner.idle.run d "nextval(".toList =
      some ([.word "nextval", .symbol '('], .idle) := by cases d <;> rfl
  exact ⟨_, lexemes?_enclosed call (d.lexemes?_quoteText _), .nextValue _⟩

/-- What generates a column draws from its sequence. -/
theorem adds_generationClause (c : Column) : Separated (d.dialect.generationClause c) ∧
    d.Adds 0 (c.sequence.toList.map d.dialect.quoteName) (d.dialect.generationClause c) := by
  unfold Dialect.generationClause
  cases c.sequence with
  | some sequence =>
      exact ⟨separated_default _, (adds_sequenceDefault sequence).behindDefault⟩
  | none =>
      dsimp only
      split
      · cases d with
        | ansi =>
            exact ⟨separated_of_head rfl rfl,
              [.word "GENERATED", .word "BY", .word "DEFAULT", .word "AS", .word "IDENTITY"], rfl,
              .plain (by decide) rfl rfl⟩
        | mysql =>
            exact ⟨separated_of_head rfl rfl, [.word "AUTO_INCREMENT"], rfl,
              .plain (by decide) rfl rfl⟩
        | postgres | sqlite => exact ⟨separated_empty, .empty⟩
      · exact ⟨separated_empty, .empty⟩

/-! ## Columns and constraints -/

/-- The text is a part of a table. -/
def SpellsPart (d : BuiltinDialect) (text : String) (p : TablePart) : Prop :=
  ∃ part, d.lexemes? text = some part ∧ p.IsRead part

/-- A column declares itself as the key, or nothing. -/
def columnPart (d : BuiltinDialect) (c : Column) : TablePart where
  columns := [c.name]
  keys := if c.declaresKey d.dialect then 1 else 0
  drawn := if d.dialect.declaresKeyInline then [] else c.sequence.toList.map d.dialect.quoteName

/-- The part of a constraint. -/
def keyPart (keys : List String) : TablePart where
  columns := keys
  keys := 1
  drawn := []

theorem spellsPart_column (name : String) (behind : d.Adds n drawn rest) :
    d.SpellsPart (d.dialect.quoteName name ++ " " ++ rest) ⟨[name], n, drawn⟩ := by
  obtain ⟨clause, found, declares⟩ := behind
  have blank : Scanner.idle.run d " ".toList = some ([], .idle) := by cases d <;> rfl
  have whole := lexemes?_beside (d.lexemes?_quoteName name) (separated_of_head rfl rfl)
    (by decide) blank found
  rw [← String.append_assoc] at whole
  have named : Declares 0 [] [.name [name]] := .plain rfl rfl rfl
  have part := named.append declares
  rw [Nat.zero_add] at part
  exact ⟨.name [name] :: clause, whole, part, rfl⟩

/-- The definition of a column. -/
theorem spellsPart_definition {c : Column} (quoted : c.quotedName = d.dialect.quoteName c.name)
    (plain : d.Adds 0 [] c.type.declared) (defined : d.dialect.columnDefinition c = .ok text) :
    d.SpellsPart text (d.columnPart c) := by
  unfold Dialect.columnDefinition at defined
  unfold columnPart Column.declaresKey
  cases inlined : d.dialect.declaresKeyInline with
  | true =>
      cases key : c.isGenerated && c.isKey with
      | true =>
          simp only [inlined, key, if_true] at defined
          have words : d.Adds 1 [] "INTEGER PRIMARY KEY AUTOINCREMENT" := by
            have integer : Declares 0 [] [.word "INTEGER"] := .plain (by decide) rfl rfl
            have generated : Declares 0 [] [.word "AUTOINCREMENT"] := .plain (by decide) rfl rfl
            exact ⟨_, by cases d <;> rfl, integer.append (Declares.primaryKey.append generated)⟩
          have shown : " INTEGER PRIMARY KEY AUTOINCREMENT" =
            " " ++ "INTEGER PRIMARY KEY AUTOINCREMENT" := rfl
          rw [← Except.ok.inj defined, quoted, shown, ← String.append_assoc]
          exact spellsPart_column c.name words
      | false =>
          simp only [inlined, key, if_true, Bool.false_eq_true, if_false] at defined
          obtain ⟨default, written, ended⟩ := Except.bind_eq_ok_iff.1 defined
          obtain ⟨separated, adds⟩ := adds_defaultClause written
          have part := spellsPart_column c.name (plain.append separated adds)
          rw [← String.append_assoc] at part
          rw [← Except.ok.inj ended, Dialect.typedName, quoted]
          exact part
  | false =>
      simp only [inlined, Bool.false_eq_true, if_false] at defined
      split at defined
      · cases defined
      · obtain ⟨default, written, ended⟩ := Except.bind_eq_ok_iff.1 defined
        obtain ⟨separated, adds⟩ := adds_defaultClause written
        obtain ⟨separated', adds'⟩ := d.adds_generationClause c
        have part := spellsPart_column c.name
          ((plain.append separated' adds').append separated adds)
        rw [List.nil_append, List.append_nil, ← String.append_assoc, ← String.append_assoc] at part
        rw [← Except.ok.inj ended, Dialect.typedName, quoted]
        exact part

theorem lexemes?_join {texts : List String} {lists : List (List Lexeme)}
    (each : List.Forall₂ (fun text list => d.lexemes? text = some list) texts lists) :
    d.lexemes? (Text.join ", " texts) = some ([Lexeme.symbol ','].intercalate lists) := by
  induction each with
  | nil => cases d <;> rfl
  | cons found rest ih =>
      cases rest with
      | nil => rw [Text.join, List.intercalate_singleton, found]
      | cons next others =>
          have comma : Scanner.idle.run d ", ".toList = some ([.symbol ','], .idle) := by
            cases d <;> rfl
          have whole := lexemes?_beside found (separated_of_head rfl rfl) (by decide) comma ih
          rw [Text.join, String.append_assoc, List.intercalate_cons_cons, List.append_assoc]
          · exact whole
          · exact List.cons_ne_nil _ _

theorem lexemes?_enumeration {α : Type} (items : List α) {write : α → String}
    {lexeme : α → Lexeme} (each : ∀ item, d.lexemes? (write item) = some [lexeme item]) :
    d.lexemes? (Text.join ", " (items.map write)) = some (enumeration (items.map lexeme)) := by
  refine lexemes?_join ?_
  rw [List.map_map, List.forall₂_map_left_iff, List.forall₂_map_right_iff, List.forall₂_same]
  exact fun item _ => each item

/-- The primary key as a constraint. -/
theorem spellsPart_key (keys : List String) : d.SpellsPart
    ("PRIMARY KEY (" ++ Text.join ", " (keys.map d.dialect.quoteName) ++ ")") (keyPart keys) := by
  have opening : Scanner.idle.run d "PRIMARY KEY (".toList =
      some ([.word "PRIMARY", .word "KEY", .symbol '('], .idle) := by cases d <;> rfl
  have names := lexemes?_enumeration keys fun key => d.lexemes?_quoteName key
  refine ⟨_, lexemes?_enclosed opening names, ?_, ?_⟩
  · refine Declares.primaryKey.append (.enumerated ?_ ?_)
    · simp [Lexeme.isSilent, Lexeme.isWord]
    · simp [Lexeme.shift]
  · change (enumeration _ ++ [Lexeme.symbol ')']).flatMap Lexeme.path = keys
    rw [List.flatMap_append, flatMap_path_enumeration, List.flatMap_map]
    exact (List.append_nil _).trans (List.flatMap_singleton' keys)

/-! ## Tables -/

/-- The name of a table and its parts, as a CREATE TABLE statement has them. -/
def tableParts? (d : BuiltinDialect) (sql : String) : Option (String × List (List Lexeme)) :=
  match d.lexemes? sql with
  | some (.word "CREATE" :: .word "TABLE" :: .name [name] :: .symbol '(' :: rest) =>
      (parts? 0 [] rest).map (name, ·)
  | _ => none

/-- The parts are read from the text, with what they say. -/
theorem exists_tableParts (name : String) {texts : List String} {ps : List TablePart}
    (each : List.Forall₂ d.SpellsPart texts ps) :
    ∃ parts, d.tableParts? ("CREATE TABLE " ++ d.dialect.quoteName name ++ " " ++
        Text.bracketed (Text.join ", " texts)) = some (name, parts) ∧
      parts.flatMap keyDeclarations = ps.flatMap TablePart.declarations ∧
      parts.flatMap drawnSequences = ps.flatMap TablePart.drawn := by
  obtain ⟨lists, found, areRead⟩ : ∃ lists,
      List.Forall₂ (fun text list => d.lexemes? text = some list) texts lists ∧
        List.Forall₂ TablePart.IsRead ps lists := by
    induction each with
    | nil => exact ⟨[], .nil, .nil⟩
    | cons spells _ ih =>
        obtain ⟨list, found, isRead⟩ := spells
        obtain ⟨lists, found', areRead⟩ := ih
        exact ⟨list :: lists, .cons found found', .cons isRead areRead⟩
  have create : Scanner.idle.run d "CREATE TABLE ".toList =
      some ([.word "CREATE", .word "TABLE"], .idle) := by cases d <;> rfl
  have opening : Scanner.idle.run d " (".toList = some ([.symbol '('], .idle) := by
    cases d <;> rfl
  have behind := lexemes?_append_of_separated (d.lexemes?_quoteName name) (separated_bracketed _)
    (lexemes?_enclosed opening (lexemes?_join found))
  have whole := lexemes?_append_of_idle create behind
  have shown : "CREATE TABLE " ++ d.dialect.quoteName name ++ " " ++
      Text.bracketed (Text.join ", " texts) = "CREATE TABLE " ++
        (d.dialect.quoteName name ++ (" (" ++ Text.join ", " texts ++ ")")) := by
    have bracket : " (" = " " ++ "(" := rfl
    rw [Text.bracketed, bracket]
    simp only [String.append_assoc]
  have read : d.tableParts? ("CREATE TABLE " ++ d.dialect.quoteName name ++ " " ++
      Text.bracketed (Text.join ", " texts)) =
        (parts? 0 [] ([Lexeme.symbol ','].intercalate lists ++ [.symbol ')'])).map (name, ·) := by
    rw [tableParts?, shown, whole]
    rfl
  cases lists with
  | nil =>
      -- Brackets with nothing between them have one part, which is empty.
      cases areRead
      exact ⟨[[]], read, rfl, rfl⟩
  | cons part parts =>
      have together : ∀ other ∈ part :: parts, Together other := fun other member => by
        obtain ⟨p, -, isRead⟩ := areRead.flip.exists_of_mem member
        exact isRead.declares.together
      rw [parts?_intercalate together, List.nil_append] at read
      exact ⟨part :: parts, read,
        TablePart.flatMap_eq (fun _ _ => TablePart.IsRead.keyDeclarations_eq) areRead,
        TablePart.flatMap_eq (fun _ _ => TablePart.IsRead.drawnSequences_eq) areRead⟩

/-! ## Types -/

/-- Numbers in brackets declare nothing. -/
theorem adds_parameters (numbers : List Nat) :
    d.Adds 0 [] ("(" ++ Text.join ", " (numbers.map natText) ++ ")") := by
  have opening : Scanner.idle.run d "(".toList = some ([.symbol '('], .idle) := by cases d <;> rfl
  have written (number : Nat) : d.ScansTo True (natText number) [.word (natText number)] :=
    .wordy (.digits number)
  have listed := lexemes?_enumeration numbers fun number => (written number).1
  refine ⟨_, lexemes?_enclosed opening listed, .enumerated ?_ fun item member => ?_⟩
  · refine List.all_eq_true.2 fun item member => ?_
    obtain ⟨number, -, rfl⟩ := List.mem_map.1 member
    exact Lexeme.isSilent_of_isFigure (isFigure_of_isWordy (.digits number))
  · obtain ⟨number, -, rfl⟩ := List.mem_map.1 member
    rfl

/-- The names of the types of a dialect declare nothing. -/
theorem adds_typeName (d : BuiltinDialect) :
    ∀ type ∈ d.dialect.types.registered, d.Adds 0 [] type.name := by
  have named : ∀ type ∈ d.dialect.types.registered, (d.lexemes? type.name).any (fun lexemes =>
      lexemes.all Lexeme.isSilent && level 0 lexemes == some 0 &&
        lexemes.all (· != .symbol ',')) = true := by
    cases d <;> decide +kernel
  intro type known
  obtain ⟨lexemes, found, holds⟩ := (Option.any_eq_true ..).1 (named type known)
  rw [Bool.and_eq_true, Bool.and_eq_true, beq_iff_eq] at holds
  exact ⟨lexemes, found, .plain holds.1.1 holds.1.2 holds.2⟩

/-- A type that a dialect chooses declares nothing where its column does. -/
theorem adds_declared {kind : Kind} {request : TypeRequest} {type : ColumnType}
    (free : request.explicit = none) (resolved : d.dialect.types.resolve kind request = .ok type) :
    d.Adds 0 [] type.declared := by
  obtain ⟨u, known, setting⟩ := TypeCatalog.exists_setting_of_resolve free resolved
  have named : d.Adds 0 [] type.name := setting.name ▸ d.adds_typeName u known
  have bracket (text : String) : Separated ("(" ++ text ++ ")") := by
    rw [String.append_assoc]
    exact separated_append (separated_of_head rfl rfl) (by decide)
  have behind (numbers : List Nat) : d.Adds 0 []
      (type.name ++ ("(" ++ Text.join ", " (numbers.map natText) ++ ")")) :=
    named.append (bracket _) (adds_parameters numbers)
  unfold ColumnType.declared
  split
  · rename_i bytes _
    simpa only [Text.join, List.map_cons, List.map_nil, String.append_assoc] using behind [bytes]
  · rename_i digits places _ _
    simpa only [Text.join, List.map_cons, List.map_nil, String.append_assoc] using
      behind [digits, places]
  · exact named

/-! ## Tables with their keys -/

/-- The key, unless it is declared with its column. -/
def constraintParts (d : BuiltinDialect) (t : Table) : List TablePart :=
  if (t.separateKeys d.dialect).isEmpty then [] else [keyPart (t.separateKeys d.dialect)]

def partsOf (d : BuiltinDialect) (t : Table) : List TablePart :=
  t.columns.map d.columnPart ++ d.constraintParts t

variable {t : Table}

theorem spellsPart_keyClauses (wellFormed : t.WellFormed d.dialect) :
    List.Forall₂ d.SpellsPart (d.dialect.keyClauses t) (d.constraintParts t) := by
  rw [← Table.keyTexts_separateKeys wellFormed, Ddl.keyTexts, constraintParts]
  split
  · exact .nil
  · exact .cons (spellsPart_key _) .nil

/-- The keys that are declared with their columns. -/
theorem declarations_columns (columns : List Column) :
    (columns.map d.columnPart).flatMap TablePart.declarations =
      (columns.filter (Column.declaresKey d.dialect)).map fun c => [c.name] := by
  induction columns with
  | nil => rfl
  | cons c columns ih =>
      rw [List.map_cons, List.flatMap_cons, ih, List.filter_cons]
      unfold columnPart TablePart.declarations
      cases c.declaresKey d.dialect <;> rfl

theorem drawn_columns (columns : List Column) :
    (columns.map d.columnPart).flatMap TablePart.drawn =
      if d.dialect.declaresKeyInline then []
      else (columns.filterMap Column.sequence).map d.dialect.quoteName := by
  induction columns with
  | nil => cases d.dialect.declaresKeyInline <;> rfl
  | cons c columns ih =>
      rw [List.map_cons, List.flatMap_cons, ih, List.filterMap_cons, columnPart]
      cases d.dialect.declaresKeyInline with
      | true => rfl
      | false => cases c.sequence <;> rfl

/-- Columns draw from their sequences, where a dialect writes them at all. -/
theorem drawn_partsOf (d : BuiltinDialect) (t : Table) :
    (d.partsOf t).flatMap TablePart.drawn =
      if d.dialect.declaresKeyInline then [] else t.sequences.map d.dialect.quoteName := by
  have constraint : (d.constraintParts t).flatMap TablePart.drawn = [] := by
    unfold constraintParts
    split <;> rfl
  rw [partsOf, List.flatMap_append, drawn_columns, constraint, List.append_nil]
  rfl

/-- Generated keys are declared with their columns, and what is left in a constraint. -/
theorem declarations_partsOf (d : BuiltinDialect) (t : Table) :
    (d.partsOf t).flatMap TablePart.declarations =
      (if d.dialect.declaresKeyInline then t.keyColumns.filter Column.isGenerated else []).map
          (fun c => [c.name]) ++
        if (t.separateKeys d.dialect).isEmpty then [] else [t.separateKeys d.dialect] := by
  have constraint : (d.constraintParts t).flatMap TablePart.declarations =
      if (t.separateKeys d.dialect).isEmpty then [] else [t.separateKeys d.dialect] := by
    unfold constraintParts
    split <;> rfl
  rw [partsOf, List.flatMap_append, declarations_columns, Table.declaresKey_columns, constraint]

/-- The key is declared once unless it has several columns of which SQLite generates one. -/
theorem declarations_eq_keyOnce_iff (d : BuiltinDialect) (t : Table) :
    (d.partsOf t).flatMap TablePart.declarations = t.keyOnce ↔
      ¬(d = sqlite ∧ 2 ≤ t.keyColumns.length ∧ ∃ c ∈ t.keyColumns, c.isGenerated = true) := by
  rw [declarations_partsOf, Table.separateKeys, Dialect.keyIsInline, Table.keyOnce]
  cases inlined : d.dialect.declaresKeyInline with
  | false =>
      have other : d ≠ sqlite := by
        rintro rfl
        cases inlined
      match t.keyColumns with
      | [] | [key] | key :: next :: keys => simp [other]
  | true =>
      have same : d = sqlite := by
        cases d <;> first | rfl | cases inlined
      match t.keyColumns with
      | [] => simp
      | [key] => cases generated : key.isGenerated <;> simp [generated]
      | key :: next :: keys => simp [same]

/-- A CREATE TABLE statement declares the key of its table exactly once, with all of its columns,
unless SQLite generates one of several key columns, which then declares itself besides.  The
sequences that columns draw from are created before. -/
theorem key_declared_once_iff (wellFormed : t.WellFormed d.dialect)
    (plain : ∀ c ∈ t.columns, d.Adds 0 [] c.type.declared) {statements : List String}
    (written : d.dialect.createTable t = .ok statements) :
    ∃ sql parts,
      statements = t.sequences.map d.dialect.createSequence ++
        sql :: t.indices.map d.dialect.createIndex ∧
      d.tableParts? sql = some (t.name, parts) ∧
      parts.flatMap drawnSequences =
        (if d.dialect.declaresKeyInline then [] else t.sequences.map d.dialect.quoteName) ∧
      (∀ sequence ∈ parts.flatMap drawnSequences,
        "CREATE SEQUENCE " ++ sequence ∈ t.sequences.map d.dialect.createSequence) ∧
      (parts.flatMap keyDeclarations = t.keyOnce ↔
        ¬(d = sqlite ∧ 2 ≤ t.keyColumns.length ∧ ∃ c ∈ t.keyColumns, c.isGenerated = true)) := by
  obtain ⟨definitions, defined, ended⟩ := Except.bind_eq_ok_iff.1 written
  have columns : List.Forall₂ d.SpellsPart definitions (t.columns.map d.columnPart) := by
    rw [List.forall₂_map_right_iff]
    exact ((Except.mapM_eq_ok_iff.1 defined).imp_of_mem fun c member _ defined =>
      spellsPart_definition (wellFormed.quoted c member) (plain c member) defined).flip
  obtain ⟨parts, read, keys, drawn⟩ := exists_tableParts t.name
    (List.rel_append columns (spellsPart_keyClauses wellFormed))
  have sequences := drawn.trans (d.drawn_partsOf t)
  refine ⟨_, parts, ?_, read, sequences, fun sequence member => ?_, ?_⟩
  · rw [← Except.ok.inj ended, wellFormed.quotedTable, List.append_assoc]
    rfl
  · rw [sequences] at member
    split at member
    · cases member
    · obtain ⟨name, known, rfl⟩ := List.mem_map.1 member
      exact List.mem_map.2 ⟨name, known, rfl⟩
  · rw [keys]
    exact d.declarations_eq_keyOnce_iff t

section Pairs

/-- A number in the key of a table on SQLite. -/
def keyNumber (name : String) (isGenerated : Bool) : Column where
  key := name
  name
  quotedName := sqlite.dialect.quoteName name
  kind := .int
  type := (ColumnType.integerOf "INTEGER" 8).withSynonyms ["int", "bigint", "smallint", "tinyint"]
  isKey := true
  isGenerated

/-- Two numbers are the key, and the first one is generated. -/
def pairs : Table :=
  { Table.new sqlite.dialect "t" with columns := [keyNumber "a" true, keyNumber "b" false] }

def pairsText : String :=
  r#"CREATE TABLE "t" ("a" INTEGER PRIMARY KEY AUTOINCREMENT, "b" INTEGER, PRIMARY KEY ("a", "b"))"#

/-- The generated key is declared twice. -/
theorem pairs_declare_key_twice :
    sqlite.dialect.createTable pairs = .ok [pairsText] ∧
      ∃ parts, sqlite.tableParts? pairsText = some ("t", parts) ∧
        parts.flatMap keyDeclarations = [["a"], ["a", "b"]] ∧
        parts.flatMap keyDeclarations ≠ pairs.keyOnce := by
  have written : sqlite.dialect.createTable pairs = .ok [pairsText] := by decide +kernel
  have wellFormed : pairs.WellFormed sqlite.dialect :=
    { quoted := by simp [pairs, keyNumber]
      keys := by decide
      names := by decide
      indices := nofun
      references := nofun
      quotedTable := rfl
      quotedIndices := nofun
      ownIndices := nofun }
  have integer (name : String) (isGenerated : Bool) :
      sqlite.Adds 0 [] (keyNumber name isGenerated).type.declared := by
    have resolved : sqlite.dialect.types.resolve .int {} =
        .ok (keyNumber name isGenerated).type := rfl
    exact adds_declared rfl resolved
  have plain : ∀ c ∈ pairs.columns, sqlite.Adds 0 [] c.type.declared := by
    simp only [pairs, List.forall_mem_cons]
    exact ⟨integer "a" true, integer "b" false, List.forall_mem_nil _⟩
  have declared : (sqlite.tableParts? pairsText).map (fun table =>
      table.2.flatMap keyDeclarations) = some [["a"], ["a", "b"]] := by decide +kernel
  obtain ⟨sql, parts, statements, read, -, -, once⟩ :=
    key_declared_once_iff wellFormed plain written
  have sequences : pairs.sequences = [] := rfl
  have indices : pairs.indices = [] := rfl
  rw [sequences, indices, List.map_nil, List.nil_append, List.map_nil] at statements
  obtain ⟨rfl, -⟩ := List.cons.inj statements
  rw [read, Option.map_some] at declared
  refine ⟨written, parts, read, Option.some.inj declared, fun same => ?_⟩
  have generated : keyNumber "a" true ∈ pairs.keyColumns :=
    List.mem_filter.2 ⟨List.mem_cons_self, rfl⟩
  exact once.1 same ⟨rfl, by decide, _, generated, rfl⟩

end Pairs

end BuiltinDialect

end RowQuery
