import Mathlib.Data.List.TakeWhile
import RowQuery.Proofs.Number.Reading
import RowQuery.Proofs.Steps
import RowQuery.Settings

/-!
# Connection strings are read back

A connection string is read one character at a time.  It consists of keywords with their values, an
equals sign between the two and blanks around them.  A value in single quotes ends at the closing
quote, any other value at a blank; a backslash takes the meaning from the character behind it in
both.  What a profile writes is read as the fields of the profile, whatever characters these have.
-/

namespace RowQuery

open RowQuery.Number

namespace ConnectionString

/-- A blank between keywords and values. -/
def isBlank (c : Char) : Bool :=
  c == ' ' || (9 ≤ c.toNat && c.toNat ≤ 13)

/-- The character that ends a text. -/
def nul : Char :=
  Char.ofNat 0

/-- Where the reader stands, with what it has read of a keyword and of a value. -/
inductive Phase where
  /-- In front of a keyword, or at the end. -/
  | outside
  | keyword (name : List Char)
  /-- Behind a keyword, where the equals sign is missing. -/
  | named (name : List Char)
  /-- Behind the equals sign. -/
  | assigned (name : List Char)
  /-- In a value without quotes, perhaps behind a backslash. -/
  | bare (name value : List Char) (escaped : Bool)
  /-- In a value in quotes, perhaps behind a backslash. -/
  | quoted (name value : List Char) (escaped : Bool)

/-- A keyword and its value. -/
abbrev Setting := String × String

def setting (name value : List Char) : Setting :=
  (String.ofList name, String.ofList value)

namespace Phase

/-- The phase behind a character, with the setting that ends there, unless the character is out of
place. -/
def next : Phase → Char → Option (Option Setting × Phase)
  | outside, c =>
      if isBlank c then some (none, outside)
      else if c = '=' then some (none, assigned [])
      else some (none, keyword [c])
  | keyword name, c =>
      if c = '=' then some (none, assigned name)
      else if isBlank c then some (none, named name)
      else some (none, keyword (name ++ [c]))
  | named name, c =>
      if isBlank c then some (none, named name)
      else if c = '=' then some (none, assigned name)
      else none
  | assigned name, c =>
      if isBlank c then some (none, assigned name)
      else if c = '\'' then some (none, quoted name [] false)
      else if c = '\\' then some (none, bare name [] true)
      else some (none, bare name [c] false)
  | bare name value true, c => some (none, bare name (value ++ [c]) false)
  | bare name value false, c =>
      if isBlank c then some (some (setting name value), outside)
      else if c = '\\' then some (none, bare name value true)
      else some (none, bare name (value ++ [c]) false)
  | quoted name value true, c => some (none, quoted name (value ++ [c]) false)
  | quoted name value false, c =>
      if c = '\\' then some (none, quoted name value true)
      else if c = '\'' then some (some (setting name value), outside)
      else some (none, quoted name (value ++ [c]) false)

/-- The settings that end with the text, unless it must not end here. -/
def finish : Phase → Option (List Setting)
  | outside => some []
  | keyword _ | named _ | quoted _ _ _ => none
  | assigned name => some [setting name []]
  | bare name value _ => some [setting name value]

/-- The settings that are read from here on. -/
def read (phase : Phase) : List Char → Option (List Setting)
  | [] => phase.finish
  | c :: rest =>
      match phase.next c with
      | none => none
      | some (ended, phase) => (read phase rest).map (ended.toList ++ ·)

end Phase

/-- The settings of a connection string, which ends where a NUL stands. -/
def settings? (text : String) : Option (List Setting) :=
  Phase.outside.read (text.toList.takeWhile fun c => c ≠ nul)

/-! ## Keywords and values -/

open Phase

variable {phase later : Phase} {c : Char} {name text rest : List Char}

theorem read_of_next (moved : phase.next c = some (none, later)) (rest : List Char) :
    phase.read (c :: rest) = later.read rest := by
  rw [Phase.read, moved]
  exact congrFun Option.map_id _

theorem read_of_ended {ended : Setting} (moved : phase.next c = some (some ended, later))
    (rest : List Char) : phase.read (c :: rest) = (later.read rest).map (ended :: ·) := by
  rw [Phase.read, moved]
  rfl

/-- A character that ends neither a keyword nor a value. -/
def IsPlain (c : Char) : Prop :=
  isBlank c = false ∧ c ≠ '=' ∧ c ≠ '\'' ∧ c ≠ '\\'

instance (c : Char) : Decidable (IsPlain c) :=
  inferInstanceAs (Decidable (_ ∧ _))

/-- The characters of a fixed text are checked one after another. -/
theorem plain_of_all (all : text.all (fun c => decide (IsPlain c)) = true) :
    ∀ c ∈ text, IsPlain c :=
  fun c member => of_decide_eq_true (List.all_eq_true.1 all c member)

theorem read_keyword (plain : ∀ c ∈ text, IsPlain c) (rest : List Char) :
    (keyword name).read (text ++ '=' :: rest) = (assigned (name ++ text)).read rest := by
  induction text generalizing name with
  | nil =>
      rw [List.append_nil]
      exact read_of_next rfl rest
  | cons c text ih =>
      obtain ⟨⟨unblank, noSign, -⟩, others⟩ := List.forall_mem_cons.1 plain
      have moved : (keyword name).next c = some (none, keyword (name ++ [c])) := by
        simp [next, unblank, noSign]
      rw [List.cons_append, read_of_next moved, ih others, List.append_assoc]
      rfl

/-- A keyword up to the equals sign. -/
theorem read_name (plain : ∀ c ∈ name, IsPlain c) (rest : List Char) :
    outside.read (name ++ '=' :: rest) = (assigned name).read rest := by
  cases name with
  | nil => exact read_of_next rfl rest
  | cons c name =>
      obtain ⟨⟨unblank, noSign, -⟩, others⟩ := List.forall_mem_cons.1 plain
      have moved : outside.next c = some (none, keyword [c]) := by simp [next, unblank, noSign]
      rw [List.cons_append, read_of_next moved, read_keyword others]
      rfl

/-- Between the quotes every character is read as itself. -/
theorem read_escaped (value : List Char) :
    (quoted name text false).read (value.flatMap ConnectionProfile.escapeChar ++ rest) =
      (quoted name (text ++ value) false).read rest := by
  induction value generalizing text with
  | nil => rw [List.flatMap_nil, List.nil_append, List.append_nil]
  | cons c value ih =>
      rw [List.flatMap_cons, ConnectionProfile.escapeChar]
      split
      · rw [List.append_assoc, List.cons_append, read_of_next rfl, List.cons_append,
          read_of_next rfl, List.nil_append, ih, List.append_assoc]
        rfl
      · rename_i special
        rw [not_or] at special
        have moved : (quoted name text false).next c =
            some (none, quoted name (text ++ [c]) false) := by
          simp [next, special]
        rw [List.append_assoc, List.cons_append, read_of_next moved, List.nil_append, ih,
          List.append_assoc]
        rfl

theorem read_bare (plain : ∀ c ∈ text, IsPlain c) {value : List Char} (rest : List Char) :
    (bare name value false).read (text ++ rest) = (bare name (value ++ text) false).read rest := by
  induction text generalizing value with
  | nil => rw [List.nil_append, List.append_nil]
  | cons c text ih =>
      obtain ⟨⟨unblank, -, -, noEscape⟩, others⟩ := List.forall_mem_cons.1 plain
      have moved : (bare name value false).next c =
          some (none, bare name (value ++ [c]) false) := by
        simp [next, unblank, noEscape]
      rw [List.cons_append, read_of_next moved, ih others, List.append_assoc]
      rfl

/-! ## Items -/

/-- A text is read as one setting, at the end or with a blank behind it. -/
structure Assigns (item : String) (read : Setting) : Prop where
  last : outside.read item.toList = some [read]
  before : ∀ rest, outside.read (item.toList ++ ' ' :: rest) =
    (outside.read rest).map (read :: ·)

theorem assigns_quoted (keyword : String) (plain : ∀ c ∈ keyword.toList, IsPlain c)
    (value : String) :
    Assigns (keyword ++ "=" ++ ConnectionProfile.quotedValue value) (keyword, value) := by
  have inside (rest : List Char) : outside.read
      ((keyword ++ "=" ++ ConnectionProfile.quotedValue value).toList ++ rest) =
        (outside.read rest).map ((keyword, value) :: ·) := by
    have text : (keyword ++ "=" ++ ConnectionProfile.quotedValue value).toList ++ rest =
        keyword.toList ++ '=' :: '\'' ::
          (value.toList.flatMap ConnectionProfile.escapeChar ++ '\'' :: rest) := by
      simp [ConnectionProfile.quotedValue]
    rw [text, read_name plain, read_of_next rfl, read_escaped, read_of_ended rfl, List.nil_append,
      setting, String.ofList_toList, String.ofList_toList]
  constructor
  · have whole := inside []
    rwa [List.append_nil] at whole
  · exact fun rest => (inside (' ' :: rest)).trans (congrArg _ (read_of_next rfl rest))

theorem assigns_bare (keyword value : String) (plain : ∀ c ∈ keyword.toList, IsPlain c)
    (present : value.toList ≠ []) (plainValue : ∀ c ∈ value.toList, IsPlain c) :
    Assigns (keyword ++ "=" ++ value) (keyword, value) := by
  obtain ⟨c, more, text⟩ := List.exists_cons_of_ne_nil present
  rw [text] at plainValue
  obtain ⟨⟨unblank, -, noQuote, noEscape⟩, others⟩ := List.forall_mem_cons.1 plainValue
  have inside (rest : List Char) : outside.read ((keyword ++ "=" ++ value).toList ++ rest) =
      (bare keyword.toList value.toList false).read rest := by
    have moved : (assigned keyword.toList).next c =
        some (none, bare keyword.toList [c] false) := by
      simp [next, unblank, noQuote, noEscape]
    have shape : (keyword ++ "=" ++ value).toList ++ rest =
        keyword.toList ++ '=' :: c :: (more ++ rest) := by
      simp [text]
    rw [shape, read_name plain, read_of_next moved, read_bare others, text]
    rfl
  have read : setting keyword.toList value.toList = (keyword, value) := by
    rw [setting, String.ofList_toList, String.ofList_toList]
  constructor
  · have whole := inside []
    rw [List.append_nil] at whole
    rw [whole, Phase.read, finish, read]
  · intro rest
    rw [inside, read_of_ended rfl, read]

/-- Items with blanks between them are read one after the other. -/
theorem read_joined {items : List String} {settings : List Setting}
    (each : List.Forall₂ Assigns items settings) :
    outside.read (Text.join " " items).toList = some settings := by
  induction each with
  | nil => rfl
  | @cons item setting items settings head tail ih =>
      cases tail with
      | nil => exact head.last
      | @cons second secondSetting items settings next tail =>
          have text : (Text.join " " (item :: second :: items)).toList =
              item.toList ++ ' ' :: (Text.join " " (second :: items)).toList := by
            simp [Text.join]
          rw [text, head.before, ih]
          rfl

/-! ## Profiles -/

theorem not_mem_join {separator : String} (absent : c ∉ separator.toList) {items : List String}
    (each : ∀ item ∈ items, c ∉ item.toList) : c ∉ (Text.join separator items).toList := by
  induction items with
  | nil => simp [Text.join]
  | cons item items ih =>
      rw [List.forall_mem_cons] at each
      cases items with
      | nil => exact each.1
      | cons second items =>
          rw [Text.join, String.toList_append, String.toList_append, List.mem_append,
            List.mem_append, not_or, not_or]
          · exact ⟨⟨each.1, absent⟩, ih each.2⟩
          · exact List.cons_ne_nil _ _

theorem nul_not_mem_quotedValue {value : String} (absent : nul ∉ value.toList) :
    nul ∉ (ConnectionProfile.quotedValue value).toList := by
  have escaped : nul ∉ value.toList.flatMap ConnectionProfile.escapeChar := by
    intro member
    obtain ⟨c, among, inside⟩ := List.mem_flatMap.1 member
    have other : nul ≠ c := fun same => absent (same ▸ among)
    have backslash : nul ≠ '\\' := by decide
    unfold ConnectionProfile.escapeChar at inside
    split at inside <;> simp [other, backslash] at inside
  have quote : nul ≠ '\'' := by decide
  simp [ConnectionProfile.quotedValue, escaped, quote]

theorem isPlain_of_isDigit (digit : isDigit c = true) : IsPlain c := by
  have unlike {other : Char} (isOther : isDigit other = false) : c ≠ other := by
    rintro rfl
    rw [digit] at isOther
    cases isOther
  refine ⟨?_, unlike rfl, unlike rfl, unlike rfl⟩
  have space : c ≠ ' ' := unlike rfl
  simp only [isDigit, Bool.and_eq_true, decide_eq_true_eq] at digit
  simp [isBlank, space]
  omega

end ConnectionString

namespace ConnectionProfile

open ConnectionString

theorem plain_digits (n : Nat) : ∀ c ∈ (natText n).toList, IsPlain c := by
  rw [natText, String.toList_ofList]
  exact fun c member => isPlain_of_isDigit (isDigit_of_mem_digits n c member)

/-- The items of a connection string, each of which is read as one setting. -/
theorem read_connectionString (p : ConnectionProfile) :
    Phase.outside.read p.connectionString.toList =
      some [("host", p.host), ("port", natText p.port), ("dbname", p.database), ("user", p.user),
        ("password", p.password), ("sslmode", p.security.keyword), ("connect_timeout", "10")] := by
  have port : Assigns ("port=" ++ natText p.port) ("port", natText p.port) := by
    refine assigns_bare "port" _ (plain_of_all rfl) ?_ (plain_digits p.port)
    rw [natText, String.toList_ofList]
    exact digits_ne_nil p.port
  have security : Assigns ("sslmode=" ++ p.security.keyword) ("sslmode", p.security.keyword) := by
    refine assigns_bare "sslmode" _ (plain_of_all rfl) ?_ (plain_of_all ?_) <;>
      cases p.security <;> decide
  have timeout : Assigns "connect_timeout=10" ("connect_timeout", "10") :=
    assigns_bare "connect_timeout" "10" (plain_of_all rfl) (by decide) (plain_of_all rfl)
  refine read_joined ?_
  exact .cons (assigns_quoted "host" (plain_of_all rfl) _) <| .cons port <|
    .cons (assigns_quoted "dbname" (plain_of_all rfl) _) <|
    .cons (assigns_quoted "user" (plain_of_all rfl) _) <|
    .cons (assigns_quoted "password" (plain_of_all rfl) _) <|
    .cons security <| .cons timeout .nil

theorem nul_not_mem_connectionString {p : ConnectionProfile}
    (absent : ∀ field ∈ [p.host, p.database, p.user, p.password], nul ∉ field.toList) :
    nul ∉ p.connectionString.toList := by
  have digits : nul ∉ (natText p.port).toList := by
    rw [natText, String.toList_ofList]
    exact fun member => absurd (isDigit_of_mem_digits p.port nul member) (by decide)
  have keyword : nul ∉ p.security.keyword.toList := by cases p.security <;> decide
  have quoted : ∀ field ∈ [p.host, p.database, p.user, p.password],
      nul ∉ (quotedValue field).toList :=
    fun field member => nul_not_mem_quotedValue (absent field member)
  have item {front back : String} (first : nul ∉ front.toList) (second : nul ∉ back.toList) :
      nul ∉ (front ++ back).toList := by
    rw [String.toList_append, List.mem_append, not_or]
    exact ⟨first, second⟩
  refine not_mem_join (by decide) ?_
  simp only [List.forall_mem_cons, List.not_mem_nil, false_imp_iff, implies_true, and_true]
    at quoted ⊢
  exact ⟨item (by decide) quoted.1, item (by decide) digits, item (by decide) quoted.2.1,
    item (by decide) quoted.2.2.1, item (by decide) quoted.2.2.2, item (by decide) keyword,
    by decide⟩

/-- The fields of a profile are read back from its connection string, and nothing else is: whatever
characters the host, the database, the user and the password have, as long as these do not end the
text. -/
theorem connection_string_read_back (p : ConnectionProfile)
    (absent : ∀ field ∈ [p.host, p.database, p.user, p.password], nul ∉ field.toList) :
    settings? p.connectionString =
      some [("host", p.host), ("port", natText p.port), ("dbname", p.database), ("user", p.user),
        ("password", p.password), ("sslmode", p.security.keyword), ("connect_timeout", "10")] ∧
    readNat? (natText p.port).toList = some p.port ∧
    ∀ security : Security, security.keyword = p.security.keyword → security = p.security := by
  have whole : p.connectionString.toList.takeWhile (fun c => c ≠ nul) =
      p.connectionString.toList := by
    refine List.takeWhile_eq_self_iff.2 fun c member => decide_eq_true fun same => ?_
    exact nul_not_mem_connectionString absent (same ▸ member)
  refine ⟨?_, ?_, ?_⟩
  · rw [settings?, whole, read_connectionString]
  · rw [natText, String.toList_ofList, readNat?_digits]
  · intro security
    cases security <;> cases p.security <;> decide

section Hostile

/-- A profile that tries to set other fields from within its own. -/
def hostile : ConnectionProfile where
  name := "hostile"
  host := "' host='elsewhere"
  port := 5433
  database := "a = b"
  user := ""
  password := "it's\\' sslmode=disable \\"
  security := .verifyHost

/-- Quotes, backslashes, blanks and equals signs stay inside the fields. -/
theorem hostile_read_back :
    (∀ field ∈ [hostile.host, hostile.database, hostile.user, hostile.password],
      nul ∉ field.toList) ∧
    settings? hostile.connectionString =
      some [("host", "' host='elsewhere"), ("port", "5433"), ("dbname", "a = b"), ("user", ""),
        ("password", "it's\\' sslmode=disable \\"), ("sslmode", "verify-full"),
        ("connect_timeout", "10")] := by
  have absent : ∀ field ∈ [hostile.host, hostile.database, hostile.user, hostile.password],
      nul ∉ field.toList := by decide
  have port : natText hostile.port = "5433" := by decide +kernel
  obtain ⟨read, -⟩ := connection_string_read_back hostile absent
  rw [port] at read
  exact ⟨absent, read⟩

end Hostile

end ConnectionProfile

end RowQuery
