import Mathlib.Data.List.Nodup
import SelectCompiler.Proofs.Join.Account
import SelectCompiler.Proofs.Text.Within
import SelectCompiler.Proofs.Text.Words

/-!
Which table each link of a chain brings in. Unless a join pairs a key with itself, the links of the
ordered chain bring in its tables one by one in the order of their arrival, none twice, and the text
behind FROM is that of these links and of the raw texts behind them.
-/

namespace SelectCompiler

/-- The reference was read from a text; all of them are. -/
def TableRef.IsRead (table : TableRef) : Prop :=
  ∃ text, table = .ofText text

theorem TableRef.IsRead.ofText_sql {table : TableRef} (read : table.IsRead) :
    TableRef.ofText table.sql = table := by
  obtain ⟨text, rfl⟩ := read
  exact congrArg TableRef.mk (Text.words_squeeze text)

theorem TableRef.isRead_map_ofText (texts : List String) :
    ∀ table ∈ texts.map TableRef.ofText, table.IsRead := by
  intro table member
  obtain ⟨text, _, same⟩ := List.mem_map.mp member
  exact ⟨text, same.symm⟩

/-- The key of the table that a link brings in, read off its text. Verbatim text brings in a table
only if it is that of the given join of one table. -/
def Link.key? (opening : Option Join) : Link → Option String
  | table sql => some (TableRef.ofText sql).key
  | step _ sql _ => some (TableRef.ofText sql).key
  | verbatim sql => ((verbatim sql).opening? opening).map fun join => join.right.key

/-- A join of one table has it in its text. -/
theorem Join.within_sql_right (join : Join) : Text.Within join.right.sql join.sql :=
  ((Text.Within.refl _).behind _).before _

/-- A link has the table that it brings in in its text. -/
theorem Link.exists_within_of_key? {opening : Option Join} {link : Link} {key : String}
    (read : ∀ join, opening = some join → join.right.IsRead)
    (brings : link.key? opening = some key) :
    ∃ text, (TableRef.ofText text).key = key ∧ Text.Within text link.sql := by
  cases link with
  | table sql => exact ⟨sql, Option.some.inj brings, .refl sql⟩
  | step kind sql conditions =>
    exact ⟨sql, Option.some.inj brings, ((Text.Within.refl sql).behind _).before _⟩
  | verbatim sql =>
    obtain ⟨join, opens, rfl⟩ := Option.map_eq_some_iff.mp brings
    obtain ⟨given, repeats⟩ := Option.filter_eq_some_iff.mp opens
    obtain ⟨_, same⟩ := Bool.and_eq_true_iff.mp repeats
    refine ⟨join.right.sql, by rw [(read join given).ofText_sql], ?_⟩
    rw [Link.sql, ← beq_iff_eq.mp same]
    exact join.within_sql_right

/-- The link has no text. -/
def Link.isSilent (link : Link) : Bool :=
  link.sql.isEmpty

/-- The texts of links one after the other, each but the first behind its separator. -/
def Link.listing : List Link → String
  | [] => ""
  | first :: others => first.sql ++ String.join (others.map fun link => link.separator ++ link.sql)

/-- Behind a text every link has its separator. -/
theorem foldl_sql_of_ne_empty (links : List Link) {text : String} (filled : text ≠ "") :
    links.foldl (fun text (link : Link) =>
      text ++ (if text.isEmpty then "" else link.separator) ++ link.sql) text =
        text ++ String.join (links.map fun link => link.separator ++ link.sql) := by
  induction links generalizing text with
  | nil => simp
  | cons link rest ih =>
    have longer : text ++ link.separator ++ link.sql ≠ "" := by simp [filled]
    rw [List.foldl_cons, if_neg (mt String.isEmpty_iff.mp filled), ih longer, List.map_cons,
      String.join_cons]
    simp only [String.append_assoc]

/-- The text of a chain is that of its links; those without text leave no separator at its front. -/
theorem Chain.sql_eq_listing (chain : Chain) :
    chain.sql = Link.listing (chain.links.dropWhile Link.isSilent) := by
  rw [Chain.sql]
  induction chain.links with
  | nil => rfl
  | cons link rest ih =>
    rw [List.foldl_cons, if_pos (String.isEmpty_iff.mpr rfl), String.append_empty,
      String.empty_append]
    by_cases silent : link.isSilent = true
    · rw [List.dropWhile_cons_of_pos silent, String.isEmpty_iff.mp silent, ih]
    · rw [List.dropWhile_cons_of_neg silent, Link.listing,
        foldl_sql_of_ne_empty rest (mt String.isEmpty_iff.mpr silent)]

/-- Each link brings in the table that arrived with it, and no table arrived twice. -/
structure Chain.Emits (opening : Option Join) (chain : Chain) : Prop where
  links : chain.links.map (Link.key? opening) = chain.keys.map some
  nodup : chain.keys.Nodup

namespace Chain.Emits

variable {opening : Option Join} {chain next : Chain} {known : List String} {event : Event}
  {join : Join} {table : TableRef} {link : Link} {key condition : String} {position : Nat}

theorem empty : Emits opening .empty := ⟨rfl, .nil⟩

theorem push (emits : chain.Emits opening) (absent : key ∉ chain.keys)
    (brings : link.key? opening = some key) : (chain.push link key).Emits opening := by
  have keys : (chain.push link key).keys = chain.keys ++ [key] := keys_push_of_not_mem absent
  refine ⟨?_, ?_⟩
  · rw [keys, links_push, List.map_append, List.map_append, emits.links, List.map_singleton, brings]
    rfl
  · rw [keys, List.nodup_append_comm, List.singleton_append, List.nodup_cons]
    exact ⟨absent, emits.nodup⟩

theorem pushTable (emits : chain.Emits opening) (read : table.IsRead) :
    (chain.pushTable table).Emits opening := by
  unfold Chain.pushTable
  split
  · exact emits
  · rename_i absent
    refine emits.push (not_contains_iff.mp (Bool.eq_false_iff.mpr absent)) ?_
    rw [Link.key?, read.ofText_sql]

theorem pushStep (emits : chain.Emits opening) (read : table.IsRead)
    (absent : table.key ∉ chain.keys) : (chain.pushStep join table).Emits opening := by
  refine emits.push absent ?_
  rw [Link.key?, read.ofText_sql]

theorem attach (emits : chain.Emits opening) : (chain.attach position condition).Emits opening := by
  refine ⟨?_, by rw [keys_attach]; exact emits.nodup⟩
  rw [keys_attach, ← emits.links]
  obtain same | ⟨kind, sql, conditions, found, same⟩ | same :=
    attach_cases chain position condition <;> rw [same]
  -- A further condition does not change which table the step at this position brings in.
  have kept : (chain.links.map (Link.key? opening))[position]? =
      some (some (TableRef.ofText sql).key) := by rw [List.getElem?_map, found]; rfl
  obtain ⟨inside, here⟩ := List.getElem?_eq_some_iff.mp kept
  rw [List.map_set, Link.key?, ← here]
  exact List.set_getElem_self inside

/-- Which join opens the chain matters only to a chain with verbatim text in it. -/
theorem congr {other : Option Join} (emits : chain.Emits opening)
    (same : ∀ sql, .verbatim sql ∈ chain.links → other = opening) : chain.Emits other := by
  refine ⟨?_, emits.nodup⟩
  rw [← emits.links]
  refine List.map_congr_left fun link member => ?_
  cases link with
  | table sql => rfl
  | step kind sql conditions => rfl
  | verbatim sql => rw [same sql member]

theorem settles (emits : chain.Emits opening) (changed : chain.Settles known join event next)
    (read : ∀ table ∈ join.tables, table.IsRead)
    (distinct : ∀ left, join.left = some left → left.key ≠ join.right.key)
    (first : event = .forced join → chain.isEmpty = true → opening = some join) :
    next.Emits opening := by
  cases changed with
  | @pair left names leftAbsent rightAbsent =>
    refine (emits.pushTable (read left (by simp [Join.tables, names]))).pushStep
      (read join.right (by simp [Join.tables])) ?_
    rw [mem_keys_pushTable_iff, not_or]
    exact ⟨rightAbsent, (distinct left names).symm⟩
  | step own absent _ => exact emits.pushStep (read _ own) absent
  | merge => exact emits.attach
  | opening forced alone empty absent =>
    have single : join.isBinary = false := by simp [Join.isBinary, alone]
    refine emits.push absent ?_
    rw [Link.key?, first forced empty, Link.opening?_verbatim single]
    rfl

/-- A key of the chain is brought in at one position and at no other. -/
theorem existsUnique (emits : chain.Emits opening) (present : key ∈ chain.keys) :
    ∃! position : Nat, chain.links[position]?.bind (Link.key? opening) = some key := by
  have brought (position : Nat) : chain.links[position]?.bind (Link.key? opening) = some key ↔
      chain.keys[position]? = some key := by
    have same := congrArg (·[position]?) emits.links
    simp only [List.getElem?_map] at same
    cases found : chain.links[position]? <;> cases listed : chain.keys[position]? <;>
      simp_all
  obtain ⟨position, inside, found⟩ := List.mem_iff_getElem.mp present
  refine ⟨position, ?_, ?_⟩
  · exact (brought position).mpr (List.getElem?_eq_some_iff.mpr ⟨inside, found⟩)
  · intro other brings
    obtain ⟨within, same⟩ := List.getElem?_eq_some_iff.mp ((brought other).mp brings)
    exact (emits.nodup.getElem_inj_iff).mp (same.trans found.symm)

end Chain.Emits

namespace Progress

variable {rules : Rules} {first : Waiting} {others : List Waiting} {now next : Progress}
  {anchors : List TableRef} {joins : List Join}

/-- The account of a run in which no join pairs a key with itself. -/
structure Emits (anchors : List TableRef) (joins : List Join) (now : Progress) : Prop where
  accounted : now.Accounted anchors joins
  chain : now.chain.Emits (firstForced? now.history)

theorem Emits.step (read : ∀ join ∈ joins, ∀ table ∈ join.tables, table.IsRead)
    (distinct : ∀ join ∈ joins, ∀ left, join.left = some left → left.key ≠ join.right.key)
    (line : now.waiting = first :: others) (emits : now.Emits anchors joins)
    (stepped : step rules first others now = .ok next) : next.Emits anchors joins := by
  have given := emits.accounted.listed line
  have unchanged (event : Event) : now.chain.Emits (firstForced? (now.history ++ [event])) :=
    emits.chain.congr fun _ member => emits.accounted.firstForced?_kept event member
  refine ⟨emits.accounted.step line stepped, ?_⟩
  obtain ⟨_, _, rfl⟩ | ⟨event, chain, settles, changed, rfl⟩ :=
    step_cases emits.accounted.inRange stepped
  · exact unchanged _
  · refine (unchanged event).settles changed (read _ given) (distinct _ given) ?_
    rintro rfl empty
    exact emits.accounted.firstForced?_opening empty first.join

theorem Emits.start (read : ∀ table ∈ anchors, table.IsRead) :
    (start anchors joins).Emits anchors joins where
  accounted := .start anchors joins
  chain := Chain.ofTables_preserves _ .empty fun _ table member emits =>
    emits.pushTable (read table member)

end Progress

/-- The chain holds the tables of all anchors and joins, each once, and one link alone brings each
of them in: a plain table, a step, or the text of a join of one table that was forced in before
there was anything to join it to. The links that do so have the table in their text and come in the
order of the tables, and only the raw texts stand behind them. What is written behind FROM is the
text of these links and raw texts, with nothing between them but their separators. -/
theorem resolveJoins_brings_each_once {strict : Bool} {anchors : List TableRef}
    {entries : List JoinEntry} {resolution : Resolution}
    (read : ∀ table ∈ anchors ++ (entries.filterMap JoinEntry.descriptor?).flatMap Join.tables,
      table.IsRead)
    (distinct : ∀ join ∈ entries.filterMap JoinEntry.descriptor?, ∀ left, join.left = some left →
      left.key ≠ join.right.key)
    (resolved : resolveJoins strict anchors entries = .ok resolution) :
    let raws := ((entries.filterMap JoinEntry.raw?).map Text.trim).map Link.verbatim
    resolution.tables.Nodup ∧
      (∀ key, key ∈ resolution.tables ↔
        (∃ table ∈ anchors, table.key = key) ∨
          ∃ join ∈ entries.filterMap JoinEntry.descriptor?, ∃ table ∈ join.tables,
            table.key = key) ∧
      ∃ ordered, resolution.chain.links = ordered ++ raws ∧
        resolution.fromClause = Link.listing ((ordered ++ raws).dropWhile Link.isSilent) ∧
        ordered.map (Link.key? (firstForced? resolution.history)) =
          resolution.tables.map some ∧
        (∀ link ∈ ordered, ∀ key, link.key? (firstForced? resolution.history) = some key →
          ∃ text, (TableRef.ofText text).key = key ∧ Text.Within text link.sql) ∧
        ∀ key ∈ resolution.tables, ∃! position : Nat,
          ordered[position]?.bind (Link.key? (firstForced? resolution.history)) = some key := by
  intro raws
  obtain ⟨done, reached, ended, history, chain⟩ := resolveJoins_cases resolved
  have emits := reached.preserves
    (Progress.Emits.step (fun join member table own => read table (List.mem_append_right _
      (List.mem_flatMap.mpr ⟨join, member, own⟩))) distinct)
    (.start fun table member => read table (List.mem_append_left _ member))
  have tables : resolution.tables = done.chain.keys := by rw [Resolution.tables, chain]; rfl
  have links : resolution.chain.links = done.chain.links ++ raws := by rw [chain]
  refine ⟨tables ▸ emits.chain.nodup, fun key => ?_, done.chain.links, links, ?_, ?_, ?_, ?_⟩
  · simp only [mem_tables_iff resolved, mem_knownKeys_iff, List.mem_map]
  · rw [← links]
    exact resolution.chain.sql_eq_listing
  · rw [history, tables, emits.chain.links]
  · rw [history]
    intro link _ key
    refine Link.exists_within_of_key? fun join forced => ?_
    have given := (emits.accounted.settled_perm ended).subset (firstForced?_mem_settled forced)
    exact read _ (List.mem_append_right _ (List.mem_flatMap.mpr
      ⟨join, given, List.mem_append_right _ (List.mem_singleton_self _)⟩))
  · rw [history, tables]
    exact fun key present => emits.chain.existsUnique present

namespace OpenedChain

def boards : Join := .unary .inner "boards b" "b.id = c.board"

def cards : Join := .unary .left "cards AS c" "c.name = b.name"

def decks : Join := (Join.unary .inner "cards c" "d.id = c.deck AND b.open = 1").fromTable "decks d"

/-- Without an anchor the first join waits in vain; a raw text repeats what is forced in then. -/
def entries : List JoinEntry :=
  [.descriptor boards, .raw " INNER JOIN boards b ON b.id = c.board", .descriptor cards,
    .descriptor decks]

def chain : Chain where
  links := [.verbatim "INNER JOIN boards b ON b.id = c.board",
    .step .left "cards AS c" ["c.name = b.name"],
    .step .inner "decks d" ["d.id = c.deck AND b.open = 1"],
    .verbatim "INNER JOIN boards b ON b.id = c.board"]
  introduced := [("b", 0), ("c", 1), ("d", 2)]
  residual := []

def history : List Event :=
  (List.replicate 4 [.postponed boards, .postponed cards, .postponed decks]).flatten
    ++ [.forced boards, .placed cards, .placed decks]

end OpenedChain

open OpenedChain in
theorem resolveJoins_brings_each_once_openedChain :
    resolveJoins false [] entries = .ok ⟨chain, history⟩ ∧
      Resolution.fromClause ⟨chain, history⟩ =
        "INNER JOIN boards b ON b.id = c.board LEFT JOIN cards AS c ON c.name = b.name " ++
          "INNER JOIN decks d ON d.id = c.deck AND b.open = 1 " ++
          "INNER JOIN boards b ON b.id = c.board" ∧
      ∃ ordered, chain.links = ordered ++ [.verbatim boards.sql] ∧
        ∀ key ∈ ["b", "c", "d"], ∃! position : Nat,
          ordered[position]?.bind (Link.key? (some boards)) = some key := by
  have resolved : resolveJoins false [] entries = .ok ⟨chain, history⟩ := by decide +kernel
  have all : [] ++ (entries.filterMap JoinEntry.descriptor?).flatMap Join.tables =
      ["boards b", "cards AS c", "decks d", "cards c"].map TableRef.ofText := rfl
  have distinct : ∀ join ∈ entries.filterMap JoinEntry.descriptor?, ∀ left,
      join.left = some left → left.key ≠ join.right.key := by decide +kernel
  obtain ⟨_, _, ordered, links, written, _, _, once⟩ :=
    resolveJoins_brings_each_once (all ▸ TableRef.isRead_map_ofText _) distinct resolved
  refine ⟨resolved, ?_, ordered, links, once⟩
  rw [written, ← links]
  decide +kernel

end SelectCompiler
