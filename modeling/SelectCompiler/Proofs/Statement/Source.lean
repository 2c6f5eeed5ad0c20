import SelectCompiler.Proofs.Join.Emission
import SelectCompiler.Proofs.Join.Opening
import SelectCompiler.Proofs.Statement.JoinConditions

/-!
When the text of a FROM clause is blank. A table with a name always shows, and so does a raw text
that is not blank. If there are none of these, only the join that opens the chain can show.
-/

namespace SelectCompiler

namespace Text

/-- Two texts in a row are blank if both are. -/
theorem trim_append_eq_empty_iff {first second : String} :
    trim (first ++ second) = "" ↔ trim first = "" ∧ trim second = "" := by
  rw [← not_iff_not, not_and_or]
  simp only [← Ne.eq_def, trim_ne_empty_iff, String.toList_append, List.mem_append, or_and_right,
    exists_or]

theorem Within.trim_ne_empty {part text : String} (within : Within part text)
    (visible : trim part ≠ "") : trim text ≠ "" := by
  obtain ⟨before, after, rfl⟩ := within
  rw [Ne, trim_append_eq_empty_iff, trim_append_eq_empty_iff]
  exact fun blank => visible blank.1.2

theorem IsWord.trim_ne_empty {word : String} (single : IsWord word) : trim word ≠ "" := by
  rw [trim_of_visible single.2]
  exact single.1

end Text

open Text (trim Within)

namespace TableRef.IsRead

variable {table : TableRef}

theorem isWord (read : table.IsRead) : ∀ word ∈ table.words, Text.IsWord word := by
  obtain ⟨text, rfl⟩ := read
  exact fun _ => Text.isWord_of_mem_words

/-- The text of a table is blank only if it has no word. -/
theorem trim_sql_eq_empty_iff (read : table.IsRead) : trim table.sql = "" ↔ table.words = [] := by
  constructor
  · intro blank
    by_contra filled
    obtain ⟨word, rest, split⟩ := List.exists_cons_of_ne_nil filled
    have member : word ∈ table.words := by rw [split]; exact List.mem_cons_self
    exact (Within.intercalate member).trim_ne_empty (read.isWord word member).trim_ne_empty blank
  · intro empty
    rw [TableRef.sql, empty]
    rfl

/-- The key of a table is empty only if the table has no word. -/
theorem key_eq_empty_iff (read : table.IsRead) : table.key = "" ↔ table.words = [] := by
  have each := read.isWord
  constructor
  · intro empty
    by_contra filled
    have word : table.key ∈ table.words := by
      unfold TableRef.key TableRef.alias? TableRef.name
      match listed : table.words with
      | [] => exact absurd listed filled
      | [name] => simp
      | [name, second] => simp
      | name :: second :: third :: rest =>
        simp only [List.drop_succ_cons, List.drop_zero, Option.getD_some]
        split <;> simp
    exact (each _ word).1 empty
  · intro empty
    rw [TableRef.key, TableRef.alias?, TableRef.name, empty]
    rfl

end TableRef.IsRead

theorem trim_on_ne_empty (condition : String) : trim (" ON " ++ condition) ≠ "" :=
  Text.trim_append_ne_empty (by decide +kernel) condition

theorem Link.trim_conditionText_eq_empty_iff {conditions : List String} :
    trim (Link.conditionText conditions) = "" ↔ conditions = [] := by
  constructor
  · intro blank
    match conditions with
    | [] => rfl
    | [_] => exact absurd blank (trim_on_ne_empty _)
    | _ :: _ :: _ => exact absurd blank (trim_on_ne_empty _)
  · rintro rfl
    rfl

/-- A step is blank if its keyword and its table are and it has no condition. -/
theorem Link.trim_step_eq_empty_iff {kind : JoinKind} {joined : String}
    {conditions : List String} :
    trim (Link.step kind joined conditions).sql = "" ↔
      trim kind.sql = "" ∧ trim joined = "" ∧ conditions = [] := by
  rw [Link.sql, Text.trim_append_eq_empty_iff, Text.trim_append_eq_empty_iff,
    Text.trim_append_eq_empty_iff, trim_conditionText_eq_empty_iff, and_iff_left Text.trim_space,
    and_assoc]

theorem Join.trim_sql_eq_empty_iff {join : Join} (alone : join.left = none) :
    trim join.sql = "" ↔
      trim join.kind.sql = "" ∧ trim join.right.sql = "" ∧ join.condition = "" := by
  have condition : trim (if join.condition.isEmpty then "" else " ON " ++ join.condition) = "" ↔
      join.condition = "" := by
    split
    · rename_i empty
      exact iff_of_true Text.trim_empty (String.isEmpty_iff.mp empty)
    · rename_i filled
      exact iff_of_false (trim_on_ne_empty _) (mt String.isEmpty_iff.mpr filled)
  rw [Join.sql, alone, Option.elim_none, String.empty_append, Text.trim_append_eq_empty_iff,
    Text.trim_append_eq_empty_iff, Text.trim_append_eq_empty_iff, condition,
    and_iff_left Text.trim_space, and_assoc]

namespace Chain

variable {chain next : Chain} {link : Link} {table : TableRef} {join : Join} {event : Event}
  {known : List String} {key condition : String} {position : Nat}

/-- Some link of the chain is not blank. -/
def Shows (chain : Chain) : Prop :=
  ∃ link ∈ chain.links, trim link.sql ≠ ""

theorem Shows.trim_sql_ne_empty (shows : chain.Shows) : trim chain.sql ≠ "" := by
  obtain ⟨link, member, visible⟩ := shows
  exact (within_sql member).trim_ne_empty visible

theorem Shows.push (shows : chain.Shows) : (chain.push link key).Shows := by
  obtain ⟨other, member, visible⟩ := shows
  exact ⟨other, List.mem_append_left _ member, visible⟩

theorem shows_push (visible : trim link.sql ≠ "") : (chain.push link key).Shows :=
  ⟨link, List.mem_append_right _ (List.mem_singleton_self link), visible⟩

/-- A step with a further condition shows no less. -/
theorem Shows.attach (shows : chain.Shows) : (chain.attach position condition).Shows := by
  obtain same | ⟨kind, joined, conditions, found, same⟩ | same :=
    attach_cases chain position condition <;> rw [same]
  · exact shows
  · obtain ⟨inside, _⟩ := List.getElem?_eq_some_iff.mp found
    refine ⟨_, List.mem_set inside _, ?_⟩
    rw [Ne, Link.trim_step_eq_empty_iff]
    exact fun blank => List.append_ne_nil_of_right_ne_nil _ (List.cons_ne_nil _ _) blank.2.2
  · exact shows

/-- A key that is not empty is that of a table which shows. -/
def ShowsKeys (chain : Chain) : Prop :=
  (∀ key ∈ chain.keys, key = "") ∨ chain.Shows

namespace ShowsKeys

theorem push (shown : chain.ShowsKeys) (visible : key ≠ "" → trim link.sql ≠ "") :
    (chain.push link key).ShowsKeys := by
  rcases shown with blank | shows
  · by_cases empty : key = ""
    · refine .inl fun other member => ?_
      rcases mem_keys_push_iff.mp member with old | rfl
      · exact blank other old
      · exact empty
    · exact .inr (shows_push (visible empty))
  · exact .inr shows.push

theorem pushTable (shown : chain.ShowsKeys) (read : table.IsRead) :
    (chain.pushTable table).ShowsKeys := by
  unfold Chain.pushTable
  split
  · exact shown
  · refine shown.push fun filled => ?_
    rwa [Link.sql, Ne, read.trim_sql_eq_empty_iff, ← read.key_eq_empty_iff]

theorem pushStep (shown : chain.ShowsKeys) (read : table.IsRead) :
    (chain.pushStep join table).ShowsKeys := by
  refine shown.push fun filled => ?_
  rw [Ne, Link.trim_step_eq_empty_iff, read.trim_sql_eq_empty_iff, ← read.key_eq_empty_iff]
  exact fun blank => filled blank.2.1

theorem settles (shown : chain.ShowsKeys) (read : ∀ table ∈ join.tables, table.IsRead)
    (changed : chain.Settles known join event next) : next.ShowsKeys := by
  cases changed with
  | @pair left names _ _ =>
    have first : left ∈ join.tables := by simp [Join.tables, names]
    have second : join.right ∈ join.tables := by simp [Join.tables]
    exact (shown.pushTable (read left first)).pushStep (read join.right second)
  | step own _ _ => exact shown.pushStep (read _ own)
  | merge =>
    rcases shown with blank | shows
    · exact .inl (by rw [keys_attach]; exact blank)
    · exact .inr shows.attach
  | opening _ alone _ _ =>
    have right := read join.right (by simp [Join.tables])
    refine shown.push fun filled => ?_
    rw [Link.sql, Ne, Join.trim_sql_eq_empty_iff alone, right.trim_sql_eq_empty_iff,
      ← right.key_eq_empty_iff]
    exact fun blank => filled blank.2.1

end ShowsKeys

end Chain

namespace Progress

variable {rules : Rules} {first : Waiting} {others : List Waiting} {now next : Progress}
  {anchors : List TableRef} {joins : List Join}

/-- The account of a run whose chain shows the tables it has. -/
structure Shown (anchors : List TableRef) (joins : List Join) (now : Progress) : Prop where
  accounted : now.Accounted anchors joins
  chain : now.chain.ShowsKeys

theorem Shown.step (read : ∀ join ∈ joins, ∀ table ∈ join.tables, table.IsRead)
    (line : now.waiting = first :: others) (shown : now.Shown anchors joins)
    (stepped : step rules first others now = .ok next) : next.Shown anchors joins := by
  refine ⟨shown.accounted.step line stepped, ?_⟩
  obtain ⟨_, _, rfl⟩ | ⟨event, chain, _, changed, rfl⟩ :=
    step_cases shown.accounted.inRange stepped
  · exact shown.chain
  · exact shown.chain.settles (read _ (shown.accounted.listed line)) changed

theorem Shown.start (read : ∀ table ∈ anchors, table.IsRead) :
    (start anchors joins).Shown anchors joins where
  accounted := .start anchors joins
  chain := Chain.ofTables_preserves _ (.inl nofun) fun _ table member shown =>
    shown.pushTable (read table member)

end Progress

theorem Join.separator_of_mem_tail (join : Join) :
    ∀ link ∈ join.openingLinks.tail, link.separator = " " := by
  rw [openingLinks]
  cases join.left with
  | none => exact List.forall_mem_nil _
  | some left => exact List.forall_mem_singleton.mpr rfl

/-- The text of a chain in which only the first link may be a plain table is blank if all its links
are. -/
theorem Chain.trim_sql_eq_empty_iff {chain : Chain}
    (spaced : ∀ link ∈ chain.links.tail, link.separator = " ") :
    trim chain.sql = "" ↔ ∀ link ∈ chain.links, trim link.sql = "" := by
  constructor
  · intro blank link member
    by_contra visible
    exact Shows.trim_sql_ne_empty ⟨link, member, visible⟩ blank
  intro blank
  have behind (links : List Link) (text : String) (before : trim text = "")
      (each : ∀ link ∈ links, trim link.sql = "" ∧ link.separator = " ") :
      trim (links.foldl (fun text (link : Link) =>
        text ++ (if text.isEmpty then "" else link.separator) ++ link.sql) text) = "" := by
    induction links generalizing text with
    | nil => exact before
    | cons link rest ih =>
      obtain ⟨⟨here, gap⟩, later⟩ := List.forall_mem_cons.mp each
      refine ih _ ?_ later
      rw [Text.trim_append_eq_empty_iff, Text.trim_append_eq_empty_iff, gap]
      refine ⟨⟨before, ?_⟩, here⟩
      split
      · exact Text.trim_empty
      · exact Text.trim_space
  rw [Chain.sql]
  cases listed : chain.links with
  | nil => exact Text.trim_empty
  | cons first rest =>
    rw [listed] at spaced blank
    obtain ⟨here, later⟩ := List.forall_mem_cons.mp blank
    exact behind rest _ (by simpa using here) fun link member =>
      ⟨later link member, spaced link member⟩

/-- The links with which a join opens the chain are blank if its keyword is and it has no
condition, provided that its tables are. -/
theorem Join.trim_openingLinks_iff {join : Join} (nameless : Nameless join.tables) :
    (∀ link ∈ join.openingLinks, trim link.sql = "") ↔
      trim join.kind.sql = "" ∧ join.condition = "" := by
  have right : trim join.right.sql = "" := by
    rw [nameless.sql (by simp [Join.tables]), Text.trim_empty]
  rw [Join.openingLinks]
  cases names : join.left with
  | none =>
    simp only [List.forall_mem_singleton]
    rw [Link.sql, Join.trim_sql_eq_empty_iff names, and_iff_right right]
  | some left =>
    have first : trim left.sql = "" := by
      rw [nameless.sql (by simp [Join.tables, names]), Text.trim_empty]
    have condition : (if join.condition.isEmpty then [] else [join.condition]) = [] ↔
        join.condition = "" := by
      split
      · rename_i empty
        exact iff_of_true rfl (String.isEmpty_iff.mp empty)
      · rename_i filled
        exact iff_of_false (List.cons_ne_nil _ _) (mt String.isEmpty_iff.mpr filled)
    simp only [List.forall_mem_cons]
    rw [Link.trim_step_eq_empty_iff, condition, and_iff_right right, Link.sql, and_iff_right first]
    exact and_iff_left (List.forall_mem_nil _)

/-- What leaves nothing to see behind FROM: no table has a name, no raw text is visible, and if no
plain table opens the chain, the join that does has a blank keyword and no condition. -/
structure SourceBlank (anchors : List TableRef) (entries : List JoinEntry) : Prop where
  tables : Nameless (anchors ++ (entries.filterMap JoinEntry.descriptor?).flatMap Join.tables)
  raws : ∀ sql ∈ entries.filterMap JoinEntry.raw?, trim sql = ""
  opening : anchors = [] → ∀ join ∈ opening? (entries.filterMap JoinEntry.descriptor?),
    trim join.kind.sql = "" ∧ join.condition = ""

section Source

variable {strict : Bool} {anchors : List TableRef} {entries : List JoinEntry}
  {resolution : Resolution}

/-- A table with a name shows. -/
theorem shows_of_named
    (read : ∀ table ∈ anchors ++ (entries.filterMap JoinEntry.descriptor?).flatMap Join.tables,
      table.IsRead)
    (resolved : resolveJoins strict anchors entries = .ok resolution)
    (named : ¬Nameless (anchors ++ (entries.filterMap JoinEntry.descriptor?).flatMap Join.tables)) :
    resolution.chain.Shows := by
  obtain ⟨done, reached, _, _, chain⟩ := resolveJoins_cases resolved
  have shown := (reached.preserves (Progress.Shown.step fun join member table own =>
    read table (List.mem_append_right _ (List.mem_flatMap.mpr ⟨join, member, own⟩)))
    (.start fun table member => read table (List.mem_append_left _ member))).chain
  simp only [Nameless, not_forall] at named
  obtain ⟨table, member, words⟩ := named
  have filled : table.key ≠ "" := mt (read table member).key_eq_empty_iff.mp words
  have present : table.key ∈ resolution.tables := by
    rw [mem_tables_iff resolved, knownKeys]
    exact List.mem_map.mpr ⟨table, member, rfl⟩
  rw [Resolution.tables, chain] at present
  obtain ⟨link, linked, visible⟩ := shown.resolve_left fun blank => filled (blank _ present)
  rw [chain]
  exact ⟨link, List.mem_append_left _ linked, visible⟩

/-- If no table has a name the links in front of the raw texts are those of the first table or of
the join that opens the chain. -/
theorem exists_links_of_nameless
    (resolved : resolveJoins strict anchors entries = .ok resolution)
    (nameless : Nameless
      (anchors ++ (entries.filterMap JoinEntry.descriptor?).flatMap Join.tables)) :
    ∃ links, resolution.chain.links =
        links ++ ((entries.filterMap JoinEntry.raw?).map Text.trim).map Link.verbatim ∧
      (∀ link ∈ links.tail, link.separator = " ") ∧
      ((∀ link ∈ links, trim link.sql = "") ↔
        (anchors = [] → ∀ join ∈ opening? (entries.filterMap JoinEntry.descriptor?),
          trim join.kind.sql = "" ∧ join.condition = "")) := by
  obtain ⟨done, reached, ended, _, chain⟩ := resolveJoins_cases resolved
  generalize entries.filterMap JoinEntry.descriptor? = joins at reached nameless
  have links : resolution.chain.links =
      done.chain.links ++ ((entries.filterMap JoinEntry.raw?).map Text.trim).map Link.verbatim := by
    rw [chain]
  have tables : ∀ join ∈ joins, Nameless join.tables := fun join member table own =>
    nameless table (List.mem_append_right _ (List.mem_flatMap.mpr ⟨join, member, own⟩))
  have keys : ∀ key ∈ knownKeys anchors joins, key = "" := by
    intro key member
    obtain ⟨table, listed, rfl⟩ := List.mem_map.mp member
    exact nameless.key listed
  have free : ∀ join ∈ joins, join.dependencies (knownKeys anchors joins) = [] := fun join member =>
    Chain.dependencies_eq_nil keys (tables join member)
  refine ⟨done.chain.links, links, ?_⟩
  rcases eq_or_ne anchors [] with rfl | filled
  · have opening := reached.preserves (Progress.Opening.step free tables)
      (.start joins.length joins)
    cases opening.opens with
    | @turns earlier later _ _ inTurn =>
      have nobody : later = [] ∧ earlier = [] := by simpa [Progress.Turns.line] using ended
      have none : joins = [] := by rw [inTurn.split, nobody.1, nobody.2, List.append_nil]
      refine ⟨List.forall_mem_nil _, iff_of_true (List.forall_mem_nil _) ?_⟩
      rw [none]
      exact fun _ join found => absurd found (Option.not_mem_none join)
    | @opened _ join found rests =>
      have member : join ∈ joins := mem_of_opening? found
      rw [rests.same, found, Join.trim_openingLinks_iff (tables join member)]
      refine ⟨join.separator_of_mem_tail, ?_⟩
      simp
  · have first := Chain.rests_ofTables filled fun table member =>
      nameless table (List.mem_append_left _ member)
    have resting := reached.preserves (Progress.Resting.step tables)
      ⟨.start anchors joins, first⟩
    rw [resting.chain.same]
    refine ⟨List.forall_mem_nil _, iff_of_true ?_ fun none => absurd none filled⟩
    exact List.forall_mem_singleton.mpr Text.trim_empty

/-- The text behind FROM is blank only if there is nothing in it to see. -/
theorem trim_fromClause_eq_empty_iff
    (read : ∀ table ∈ anchors ++ (entries.filterMap JoinEntry.descriptor?).flatMap Join.tables,
      table.IsRead)
    (resolved : resolveJoins strict anchors entries = .ok resolution) :
    trim resolution.fromClause = "" ↔ SourceBlank anchors entries := by
  by_cases nameless :
      Nameless (anchors ++ (entries.filterMap JoinEntry.descriptor?).flatMap Join.tables)
  · obtain ⟨links, split, spaced, blank⟩ := exists_links_of_nameless resolved nameless
    have raws : (∀ link ∈ ((entries.filterMap JoinEntry.raw?).map Text.trim).map Link.verbatim,
        trim link.sql = "") ↔ ∀ sql ∈ entries.filterMap JoinEntry.raw?, trim sql = "" := by
      simp only [List.forall_mem_map, Link.sql, Text.trim_trim]
    have verbatim : ∀ link ∈ ((entries.filterMap JoinEntry.raw?).map Text.trim).map Link.verbatim,
        link.separator = " " := List.forall_mem_map.mpr fun _ _ => rfl
    have gaps : ∀ link ∈ resolution.chain.links.tail, link.separator = " " := by
      rw [split]
      cases links with
      | nil => exact fun link member => verbatim link (List.mem_of_mem_tail member)
      | cons first rest => exact List.forall_mem_append.mpr ⟨spaced, verbatim⟩
    rw [Resolution.fromClause, Chain.trim_sql_eq_empty_iff gaps, split, List.forall_mem_append,
      blank, raws]
    exact ⟨fun holds => ⟨nameless, holds.2, holds.1⟩, fun blank => ⟨blank.opening, blank.raws⟩⟩
  · refine iff_of_false ?_ fun blank => nameless blank.tables
    exact (shows_of_named read resolved nameless).trim_sql_ne_empty

end Source

end SelectCompiler
