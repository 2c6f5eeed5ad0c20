import Mathlib.Logic.Relation
import SelectCompiler.Proofs.Join.Emission
import SelectCompiler.Proofs.Outcome
import SelectCompiler.Proofs.Text.Case

/-!
The ways to write a join descriptor. An entry is read to a descriptor in normal form, a descriptor
in normal form is read back from the entry that says what it holds, and the blanks and the case in
which an entry was written do not show in what is read from it.
-/

namespace SelectCompiler

namespace JoinKind

variable {first second : String}

theorem ofKeyword_eq_of_upper
    (same : (Text.squeeze first).toUpper = (Text.squeeze second).toUpper) :
    ofKeyword first = ofKeyword second := by
  rw [ofKeyword, ofKeyword, same]

theorem ofKeyword_eq_custom {keyword custom : String}
    (unknown : ofKeyword keyword = .custom custom) : custom = (Text.squeeze keyword).toUpper := by
  unfold ofKeyword at unknown
  split at unknown <;> cases unknown
  rfl

/-- The keyword that a kind of join is written with names it. -/
theorem ofKeyword_sql (keyword : String) :
    ofKeyword (ofKeyword keyword).sql = ofKeyword keyword := by
  cases kind : ofKeyword keyword with
  | custom custom =>
    obtain rfl := ofKeyword_eq_custom kind
    have canonical := Text.toUpper_squeeze_toUpper_squeeze keyword
    exact (ofKeyword_eq_of_upper canonical).trans kind
  | _ => decide +kernel

end JoinKind

open Text (Respaced Recased)

/-- A descriptor as it is read from an entry: its tables were read from texts, its kind is the one
that its own keyword names, and its condition has no blanks around it. -/
structure Join.IsNormal (join : Join) : Prop where
  tables : ∀ table ∈ join.tables, table.IsRead
  kind : JoinKind.ofKeyword join.kind.sql = join.kind
  condition : Text.trim join.condition = join.condition

/-- A text under a key replaced by another, and nothing under any other key. -/
structure Json.Members.Changes (members : Json.Members) (key first second : String)
    (other : Json.Members) : Prop where
  before : members.get? key = some (.string first)
  after : other.get? key = some (.string second)
  others : ∀ name, name ≠ key → other.get? name = members.get? name

/-- One change of how an entry is written: other blanks in a table or a keyword, a keyword in
another case, blanks around the condition, or the keyword under the other of its keys. -/
inductive JoinEntry.Respelled (members other : Json.Members) : Prop where
  | spaced {key first second : String} (placed : key ∈ ["right", "left", "join", "join_kind"])
      (respaced : Respaced first second) (changes : members.Changes key first second other)
  | recased {key first second : String} (placed : key ∈ ["join", "join_kind"])
      (recased : Recased first second) (changes : members.Changes key first second other)
  | padded {lead text trail : String} (leading : ∀ c ∈ lead.toList, Text.isBlank c = true)
      (trailing : ∀ c ∈ trail.toList, Text.isBlank c = true)
      (changes : members.Changes "on" text (lead ++ text ++ trail) other)
  | moved {keyword : String} (before : members.get? "join" = some (.string keyword))
      (gone : other.get? "join" = none) (after : other.get? "join_kind" = some (.string keyword))
      (others : ∀ name, name ≠ "join" → name ≠ "join_kind" → other.get? name = members.get? name)

/-- The members that say what a descriptor holds; a join of one table has no left one. -/
def Join.toMembers (join : Join) : Json.Members :=
  [("right", .string join.right.sql)]
    ++ (join.left.map fun left => ("left", .string left.sql)).toList
    ++ [("join", .string join.kind.sql), ("on", .string join.condition)]

namespace JoinEntry

/-- What the text under a key comes to; an entry need not have the text. -/
def said {α : Type} (reading : String → α) (members : Json.Members) (key : String) :
    Except Error (Option α) :=
  (textAt? members key).map (Option.map reading)

section Said

variable {α : Type} {reading : String → α} {members other : Json.Members} {key text : String}

theorem said_of_string (given : members.get? key = some (.string text)) :
    said reading members key = .ok (some (reading text)) := by
  rw [said, textAt?, given]
  rfl

theorem said_of_missing (absent : members.get? key = none) :
    said reading members key = .ok none := by
  rw [said, textAt?, absent]
  rfl

theorem said_congr (same : other.get? key = members.get? key) :
    said reading other key = said reading members key := by
  rw [said, textAt?, same, said, textAt?]

theorem said_eq_ok_iff {result : Option α} :
    said reading members key = .ok result ↔
      ∃ text?, textAt? members key = .ok text? ∧ result = text?.map reading :=
  map_eq_ok_iff

theorem said_eq_some_iff {value : α} :
    said reading members key = .ok (some value) ↔
      ∃ text, members.get? key = some (.string text) ∧ value = reading text := by
  constructor
  · intro found
    obtain ⟨text?, given, same⟩ := said_eq_ok_iff.mp found
    obtain ⟨text, rfl, named⟩ := Option.map_eq_some_iff.mp same.symm
    unfold textAt? at given
    split at given <;> cases given
    rename_i string
    exact ⟨text, string, named.symm⟩
  · rintro ⟨text, given, rfl⟩
    exact said_of_string given

end Said

variable {members other : Json.Members} {join : Join}

/-- An entry is read key by key: its tables, its keyword under one key or else under the other,
and its condition. -/
theorem read_object_eq_ok_iff :
    read (.object members) = .ok (.descriptor join) ↔
      said TableRef.ofText members "right" = .ok (some join.right) ∧
      said TableRef.ofText members "left" = .ok join.left ∧
      (∃ keyword alternative, said JoinKind.ofKeyword members "join" = .ok keyword ∧
        said JoinKind.ofKeyword members "join_kind" = .ok alternative ∧
        join.kind = (keyword <|> alternative).getD .inner) ∧
      ∃ condition, said Text.trim members "on" = .ok condition ∧
        join.condition = condition.getD "" := by
  rw [read]
  split
  · rename_i right given
    simp only [said_of_string given, said_eq_ok_iff, bind_eq_ok_iff, pure_eq_ok_iff]
    constructor
    · rintro ⟨keyword, first, alternative, second, left, third, condition, fourth, same⟩
      cases same
      refine ⟨rfl, ⟨left, third, rfl⟩,
        ⟨_, _, ⟨keyword, first, rfl⟩, ⟨alternative, second, rfl⟩, ?_⟩,
        _, ⟨condition, fourth, rfl⟩, ?_⟩
      · cases keyword <;> rfl
      · cases condition <;> rfl
    · rintro ⟨same, ⟨left, third, lefts⟩,
        ⟨_, _, ⟨keyword, first, rfl⟩, ⟨alternative, second, rfl⟩, kind⟩,
        _, ⟨condition, fourth, rfl⟩, trimmed⟩
      refine ⟨keyword, first, alternative, second, left, third, condition, fourth, ?_⟩
      have kinds : join.kind = ((keyword <|> alternative).map JoinKind.ofKeyword).getD .inner := by
        rw [kind]
        cases keyword <;> rfl
      have conditions : join.condition = Text.trim (condition.getD "") := by
        rw [trimmed]
        cases condition <;> rfl
      rw [← kinds, ← conditions, ← lefts, Option.some.inj (Except.ok.inj same)]
  · rename_i other
    constructor
    · exact nofun
    · rintro ⟨found, _⟩
      obtain ⟨text, given, _⟩ := said_eq_some_iff.mp found
      exact absurd given (other text)

theorem isNormal_of_read (accepted : read (.object members) = .ok (.descriptor join)) :
    join.IsNormal := by
  obtain ⟨right, left, ⟨keyword, alternative, first, second, kind⟩, condition, given, trimmed⟩ :=
    read_object_eq_ok_iff.mp accepted
  constructor
  · intro table member
    rcases List.mem_append.mp member with before | own
    · rw [Option.mem_toList.mp before] at left
      obtain ⟨text, _, same⟩ := said_eq_some_iff.mp left
      exact ⟨text, same⟩
    · rw [← List.mem_singleton.mp own] at right
      obtain ⟨text, _, same⟩ := said_eq_some_iff.mp right
      exact ⟨text, same⟩
  · have named : join.kind = .inner ∨ ∃ text, join.kind = JoinKind.ofKeyword text := by
      rw [kind]
      cases keyword with
      | some kind =>
        obtain ⟨text, _, same⟩ := said_eq_some_iff.mp first
        exact .inr ⟨text, same⟩
      | none =>
        cases alternative with
        | some kind =>
          obtain ⟨text, _, same⟩ := said_eq_some_iff.mp second
          exact .inr ⟨text, same⟩
        | none => exact .inl rfl
    rcases named with inner | ⟨text, same⟩
    · rw [inner]
      decide +kernel
    · rw [same, JoinKind.ofKeyword_sql]
  · rw [trimmed]
    cases condition with
    | none => decide +kernel
    | some condition =>
      obtain ⟨text, _, rfl⟩ := said_eq_some_iff.mp given
      exact Text.trim_trim text

theorem read_toMembers_iff :
    read (.object join.toMembers) = .ok (.descriptor join) ↔ join.IsNormal := by
  refine ⟨isNormal_of_read, ?_⟩
  intro normal
  have right : Json.Members.get? join.toMembers "right" = some (.string join.right.sql) := by
    simp [Join.toMembers, Json.Members.get?]
  have left : Json.Members.get? join.toMembers "left" =
      join.left.map fun left => .string left.sql := by
    cases given : join.left <;>
      simp [Join.toMembers, Json.Members.get?, List.lookup_cons, given]
  have keyword : Json.Members.get? join.toMembers "join" = some (.string join.kind.sql) := by
    cases given : join.left <;>
      simp [Join.toMembers, Json.Members.get?, List.lookup_cons, given]
  have alternative : Json.Members.get? join.toMembers "join_kind" = none := by
    cases given : join.left <;>
      simp [Join.toMembers, Json.Members.get?, List.lookup_cons, given]
  have condition : Json.Members.get? join.toMembers "on" = some (.string join.condition) := by
    cases given : join.left <;>
      simp [Join.toMembers, Json.Members.get?, List.lookup_cons, given]
  rw [read_object_eq_ok_iff, said_of_string right, said_of_string keyword,
    said_of_missing alternative, said_of_string condition]
  refine ⟨?_, ?_, ⟨_, _, rfl, rfl, normal.kind.symm⟩, _, rfl, normal.condition.symm⟩
  · rw [(normal.tables join.right (by simp [Join.tables])).ofText_sql]
  · cases given : join.left with
    | none =>
      rw [given] at left
      exact said_of_missing left
    | some table =>
      rw [given] at left
      rw [said_of_string left, (normal.tables table (by simp [Join.tables, given])).ofText_sql]

/-- A change under one key does not show in a reading that does not tell the two texts apart. -/
theorem said_eq_of_changes {α : Type} {reading : String → α} {key name first second : String}
    (changes : members.Changes key first second other)
    (same : name = key → reading first = reading second) :
    said reading other name = said reading members name := by
  by_cases here : name = key
  · subst here
    rw [said_of_string changes.before, said_of_string changes.after, same rfl]
  · exact said_congr (changes.others name here)

theorem read_congr
    (tables : ∀ key ∈ ["right", "left"],
      said TableRef.ofText other key = said TableRef.ofText members key)
    (keywords : ∀ key ∈ ["join", "join_kind"],
      said JoinKind.ofKeyword other key = said JoinKind.ofKeyword members key)
    (condition : said Text.trim other "on" = said Text.trim members "on") :
    read (.object other) = .ok (.descriptor join) ↔
      read (.object members) = .ok (.descriptor join) := by
  simp only [read_object_eq_ok_iff, tables "right" (by simp), tables "left" (by simp),
    keywords "join" (by simp), keywords "join_kind" (by simp), condition]

theorem read_of_respelled (respelled : Respelled members other)
    (accepted : read (.object members) = .ok (.descriptor join)) :
    read (.object other) = .ok (.descriptor join) := by
  cases respelled with
  | @spaced key first second placed respaced changes =>
    have words : Text.words first = Text.words second := respaced.words_eq
    refine (read_congr ?_ ?_ ?_).mpr accepted
    · intro name _
      apply said_eq_of_changes changes
      intro _
      rw [TableRef.ofText, words, TableRef.ofText]
    · intro name _
      apply said_eq_of_changes changes
      intro _
      apply JoinKind.ofKeyword_eq_of_upper
      rw [Text.squeeze, words, Text.squeeze]
    · apply said_eq_of_changes changes
      rintro rfl
      exact absurd placed (by decide)
  | @recased key first second placed recased changes =>
    have keywordOnly {name : String} (other : name ∉ ["join", "join_kind"]) : name ≠ key := by
      rintro rfl
      exact other placed
    refine (read_congr ?_ ?_ ?_).mpr accepted
    · intro name table
      apply said_congr
      apply changes.others name
      apply keywordOnly
      revert name
      decide
    · intro name _
      apply said_eq_of_changes changes
      intro _
      apply JoinKind.ofKeyword_eq_of_upper
      rw [Text.toUpper_squeeze, recased.toUpper_eq, Text.toUpper_squeeze]
    · exact said_congr (changes.others "on" (keywordOnly (by decide)))
  | @padded lead text trail leading trailing changes =>
    have elsewhere : ∀ name ∈ ["right", "left", "join", "join_kind"],
        other.get? name = members.get? name := by
      intro name known
      apply changes.others name
      revert name
      decide
    refine (read_congr ?_ ?_ ?_).mpr accepted
    · intro name table
      exact said_congr (elsewhere name (List.mem_append_left ["join", "join_kind"] table))
    · intro name keyword
      exact said_congr (elsewhere name (List.mem_append_right ["right", "left"] keyword))
    · apply said_eq_of_changes changes
      intro _
      rw [Text.trim_padded leading trailing]
  | @moved keyword before gone after others =>
    obtain ⟨right, left, ⟨_, _, first, second, kind⟩, condition⟩ :=
      read_object_eq_ok_iff.mp accepted
    have same (name : String) (join : name ≠ "join") (alternative : name ≠ "join_kind") :
        ∀ {α : Type} {reading : String → α},
          said reading other name = said reading members name :=
      said_congr (others name join alternative)
    rw [said_of_string before] at first
    cases first
    rw [read_object_eq_ok_iff, same "right" (by decide) (by decide),
      same "left" (by decide) (by decide), same "on" (by decide) (by decide)]
    exact ⟨right, left, ⟨_, _, said_of_missing gone, said_of_string after, kind⟩, condition⟩

/-- What is read from an entry is read again from the entry that says what it holds, and from the
entry in any other spelling. -/
theorem read_normalizes {value : Json} (accepted : read value = .ok (.descriptor join)) :
    read (.object join.toMembers) = .ok (.descriptor join) ∧
    ∀ members other, value = .object members → Relation.ReflTransGen Respelled members other →
      read (.object other) = .ok (.descriptor join) := by
  have described : ∃ members, value = .object members := by
    cases value with
    | object members => exact ⟨members, rfl⟩
    | _ => exact nomatch accepted
  obtain ⟨members, rfl⟩ := described
  refine ⟨read_toMembers_iff.mpr (isNormal_of_read accepted), ?_⟩
  intro own other same respelled
  obtain rfl := Json.object.inj same
  induction respelled with
  | refl => exact accepted
  | tail _ step ih => exact read_of_respelled step ih

/-- An outer join with a table after two spaces and a keyword in small letters, and the same with
other blanks there and the keyword in mixed case under its other key. -/
theorem read_normalizes_outerJoin :
    let written (right : String) (keyword : String × Json) : Json.Members :=
      [("left", .string "events e"), ("right", .string right), keyword,
        ("on", .string " e.org = orgs.id ")]
    let members := written "\tcontacts  AS orgs" ("join", .string "left outer join ")
    let other := written "\tcontacts\u3000AS orgs" ("join_kind", .string "Left OUTER join ")
    let join : Join :=
      ⟨.left, some ⟨["events", "e"]⟩, ⟨["contacts", "AS", "orgs"]⟩, "e.org = orgs.id"⟩
    read (.object members) = .ok (.descriptor join) ∧ join.right.key = "orgs" ∧
      read (.object join.toMembers) = .ok (.descriptor join) ∧
      read (.object other) = .ok (.descriptor join) := by
  intro written members other join
  let respaced := written "\tcontacts\u3000AS orgs" ("join", .string "left outer join ")
  let recased := written "\tcontacts\u3000AS orgs" ("join", .string "Left OUTER join ")
  have accepted : read (.object members) = .ok (.descriptor join) := by decide +kernel
  have first : Respelled members respaced := by
    have changes :
        members.Changes "right" "\tcontacts  AS orgs" "\tcontacts\u3000AS orgs" respaced := by
      refine ⟨rfl, rfl, ?_⟩
      intro name other
      simp [members, respaced, written, Json.Members.get?, List.lookup_cons, beq_false_of_ne other]
    have gap : Respaced "\tcontacts  AS orgs" "\tcontacts\u3000AS orgs" :=
      @Respaced.gap "\tcontacts" "AS orgs" "  " "\u3000" (by decide)
        (List.all_eq_true.mp (by decide)) (by decide) (List.all_eq_true.mp (by decide))
    exact .spaced (by decide) gap changes
  have second : Respelled respaced recased := by
    have changes : respaced.Changes "join" "left outer join " "Left OUTER join " recased := by
      refine ⟨rfl, rfl, ?_⟩
      intro name other
      simp [recased, respaced, written, Json.Members.get?, List.lookup_cons, beq_false_of_ne other]
    have letters : Recased "left outer join " "Left OUTER join " := by
      simp [Recased]
    exact .recased (by decide) letters changes
  have third : Respelled recased other := by
    refine .moved rfl rfl rfl ?_
    intro name own alternative
    simp [recased, other, written, Json.Members.get?, List.lookup_cons, beq_false_of_ne own,
      beq_false_of_ne alternative]
  have spelled : Relation.ReflTransGen Respelled members other :=
    .tail (.tail (.single first) second) third
  obtain ⟨again, respelled⟩ := read_normalizes accepted
  exact ⟨accepted, by decide +kernel, again, respelled members other rfl spelled⟩

end JoinEntry

end SelectCompiler
