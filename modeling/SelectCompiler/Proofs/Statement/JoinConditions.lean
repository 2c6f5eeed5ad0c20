import Mathlib.Data.List.Perm.Basic
import SelectCompiler.Proofs.Join.Conditions
import SelectCompiler.Proofs.Statement.Moved
import SelectCompiler.Proofs.Text.Within

/-!
The conditions of joins in the text of a statement. None is lost and none is written twice: each is
in the FROM clause or, for want of a step to carry it, in front of the filter.
-/

namespace SelectCompiler

open Text (Within)

theorem Join.within_sql {join : Join} (filled : join.condition.isEmpty = false) :
    Within join.condition join.sql := by
  rw [Join.sql, filled]
  exact ((Within.refl _).behind _).behind _

theorem Link.within_conditionText {condition : String} {conditions : List String}
    (member : condition ∈ conditions) : Within condition (Link.conditionText conditions) := by
  match conditions with
  | [] => contradiction
  | [single] =>
    rw [List.mem_singleton.mp member]
    exact (Within.refl _).behind _
  | first :: second :: rest =>
    have inParens : "(" ++ condition ++ ")" ∈
        (first :: second :: rest).map fun text => "(" ++ text ++ ")" :=
      List.mem_map.mpr ⟨condition, member, rfl⟩
    exact (((Within.refl condition).behind "(").before ")").trans
      ((Within.intercalate inParens).behind _)

/-- What a link carries is in its text. -/
theorem Link.within_sql {opening : Option Join} {link : Link} {condition : String}
    (member : condition ∈ link.carried opening) : Within condition link.sql := by
  cases link with
  | table sql => contradiction
  | step kind joined conditions =>
    simp only [carried, Link.openingConditions, opening?, Option.elim_none, List.append_nil]
      at member
    exact (within_conditionText member).behind _
  | verbatim sql =>
    simp only [carried, Link.openingConditions, Link.conditions, List.nil_append] at member
    cases found : (Link.verbatim sql).opening? opening with
    | none =>
      rw [found] at member
      contradiction
    | some join =>
      have same := (Option.filter_eq_some_iff.mp found).2
      rw [Bool.and_eq_true, beq_iff_eq] at same
      rw [found, Option.elim_some, Join.conditions] at member
      split at member
      · contradiction
      · rename_i filled
        rw [List.mem_singleton.mp member, Link.sql, ← same.2]
        exact Join.within_sql (Bool.eq_false_iff.mpr filled)

/-- Every link is in the text of its chain. -/
theorem Chain.within_sql {chain : Chain} {link : Link} (member : link ∈ chain.links) :
    Within link.sql chain.sql := by
  suffices ∀ (links : List Link) (text : String), Within text
        (links.foldl (fun text (link : Link) =>
          text ++ (if text.isEmpty then "" else link.separator) ++ link.sql) text) ∧
      ∀ link ∈ links, Within link.sql
        (links.foldl (fun text (link : Link) =>
          text ++ (if text.isEmpty then "" else link.separator) ++ link.sql) text) from
    (this chain.links "").2 link member
  intro links
  induction links with
  | nil => exact fun text => ⟨.refl text, nofun⟩
  | cons first rest ih =>
    intro text
    obtain ⟨kept, each⟩ := ih
      (text ++ (if text.isEmpty then "" else first.separator) ++ first.sql)
    refine ⟨(((Within.refl text).before _).before _).trans kept, ?_⟩
    exact List.forall_mem_cons.mpr ⟨((Within.refl _).behind _).trans kept, each⟩

theorem Join.flatMap_conditions (joins : List Join) :
    joins.flatMap Join.conditions = (joins.map Join.condition).filter (· ≠ "") := by
  induction joins with
  | nil => rfl
  | cons join rest ih =>
    rw [List.flatMap_cons, ih, List.map_cons, List.filter_cons, Join.conditions]
    by_cases blank : join.condition = "" <;> simp [blank]

namespace Progress

variable {rules : Rules} {now next : Progress} {anchors : List TableRef} {joins : List Join}

/-- A turn settles a join and leaves its condition over, and the link to which the condition was to
go is a plain table or the text of the join that opened the chain. -/
def LeavesOver (rules : Rules) (now next : Progress) : Prop :=
  ∃ event join link, next.history = now.history ++ [event] ∧ event.settled? = some join ∧
    next.chain.residual = now.chain.residual ++ [join.condition] ∧
    now.chain.links[now.chain.latest (event.anchorKeys rules.known)]? = some link ∧
    ((∃ sql, link = .table sql) ∨
      ∃ opening, link.opening? (firstForced? now.history) = some opening)

theorem Accounted.leavesOver (accounted : now.Accounted anchors joins)
    (turn : Turn rules now next) (changed : next.chain.residual ≠ now.chain.residual) :
    LeavesOver rules now next := by
  obtain ⟨first, others, _, stepped⟩ := turn
  obtain ⟨_, _, rfl⟩ | ⟨event, chain, settled, settles, rfl⟩ :=
    step_cases accounted.inRange stepped
  · exact absurd rfl changed
  · obtain same | ⟨grown, link, found, plain⟩ := settles.residual_cases settled accounted.inRange
    · exact absurd same changed
    · refine ⟨event, first.join, link, rfl, settled, grown, found, ?_⟩
      cases link with
      | table sql => exact .inl ⟨sql, rfl⟩
      | step kind table conditions => exact absurd rfl (plain kind table conditions)
      | verbatim sql =>
        obtain ⟨join, forced, alone, rfl⟩ := accounted.verbatim sql (List.mem_of_getElem? found)
        exact .inr ⟨join, by rw [forced, Link.opening?_verbatim alone]⟩

end Progress

namespace Resolution

/-- The conditions of the joins that say anything are, each as often as it was given, those of the
steps, the one in the text of the join that opened the chain, and the left-over ones. The raw texts
at the end hold no condition of a join. -/
def Conserves (joins : List Join) (raws : List String) (resolution : Resolution) : Prop :=
  ∃ ordered, resolution.chain.links = ordered ++ (raws.map Text.trim).map Link.verbatim ∧
    ((joins.map Join.condition).filter (· ≠ "")).Perm
      (ordered.flatMap Link.conditions
        ++ ordered.flatMap (Link.openingConditions (firstForced? resolution.history))
        ++ resolution.residual)

/-- A query has a condition in its FROM clause or in front of the filter of its statement, there as
a raw predicate among those that were left over. -/
def Writes (resolution : Resolution) (filter : PredicateTree) (query : Query)
    (condition : String) : Prop :=
  (∃ before after,
    query.sql = before ++ " FROM " ++ resolution.fromClause ++ after ∧
      Within condition resolution.fromClause) ∨
  ∃ before operands after,
    query.sql = before ++ " FROM " ++ resolution.fromClause ++ " WHERE "
      ++ " AND ".intercalate (resolution.residual.map Text.trim ++ operands) ++ after ∧
    Statement.filterAfter resolution.residual filter =
      resolution.residual.map (Predicate.raw · .and) ++ Statement.conjunct filter ∧
    condition ∈ resolution.residual

variable {strict : Bool} {anchors : List TableRef} {entries : List JoinEntry}
  {resolution : Resolution}

theorem conserves_of_resolved (resolved : resolveJoins strict anchors entries = .ok resolution) :
    resolution.Conserves (entries.filterMap JoinEntry.descriptor?)
      (entries.filterMap JoinEntry.raw?) := by
  obtain ⟨ordered, links, conserved⟩ := carried_of_resolved resolved
  refine ⟨ordered, links, ?_⟩
  rw [← Join.flatMap_conditions]
  exact conserved.trans ((List.flatMap_append_perm _ _ _).symm.append_right _)

theorem Conserves.within_or_mem {joins : List Join} {raws : List String} {join : Join}
    (conserves : resolution.Conserves joins raws) (given : join ∈ joins)
    (filled : join.condition ≠ "") :
    Within join.condition resolution.fromClause ∨ join.condition ∈ resolution.residual := by
  obtain ⟨ordered, links, conserved⟩ := conserves
  have kept : join.condition ∈ (joins.map Join.condition).filter (· ≠ "") :=
    List.mem_filter.mpr ⟨List.mem_map.mpr ⟨join, given, rfl⟩, by simpa using filled⟩
  obtain linked | left := List.mem_append.mp (conserved.subset kept)
  · obtain ⟨link, member, carried⟩ :=
      List.mem_flatMap.mp ((List.flatMap_append_perm _ _ _).subset linked)
    refine .inl ((Link.within_sql carried).trans (Chain.within_sql ?_))
    rw [links]
    exact List.mem_append_left _ member
  · exact .inr left

theorem Conserves.writes {statement : Statement} {query : Query} {joins : List Join}
    {raws : List String} {join : Join} (conserves : resolution.Conserves joins raws)
    (resolved : resolveJoins statement.strictJoins statement.tables statement.joins =
      .ok resolution) (compiled : statement.compile = .ok query) (given : join ∈ joins)
    (filled : join.condition ≠ "") :
    resolution.Writes statement.filter query join.condition := by
  obtain ⟨columns, found, clause?, _, _, _, again, _, filtered, rfl⟩ :=
    Statement.compile_eq_ok_iff.mp compiled
  obtain rfl := Except.ok.inj (again.symm.trans resolved)
  obtain within | left := conserves.within_or_mem given filled
  · refine .inl ⟨"SELECT " ++ columns,
      (clause?.elim "" fun clause => " WHERE " ++ clause.sql) ++ statement.ending, ?_, within⟩
    rw [Statement.sql_assembled]
    simp only [String.append_assoc]
  · have moved := List.ne_nil_of_mem left
    obtain ⟨_, own, _, rfl⟩ := Where.compile_filterAfter moved filtered
    refine .inr ⟨"SELECT " ++ columns, Statement.conjunctTexts statement.filter own.sql,
      statement.ending, ?_, Statement.filterAfter_eq moved, left⟩
    rw [Statement.sql_assembled, Option.elim_some]
    simp only [String.append_assoc]

end Resolution

/-- No condition of a join is lost and none is used twice. One is left over only if the link to
which it was to go is a plain table or the text of the join that opened the chain. So a statement
that has a query has every condition in its FROM clause or in front of its filter. -/
theorem resolveJoins_keeps_conditions {strict : Bool} {anchors : List TableRef}
    {entries : List JoinEntry} {resolution : Resolution}
    (resolved : resolveJoins strict anchors entries = .ok resolution) :
    resolution.Conserves (entries.filterMap JoinEntry.descriptor?)
        (entries.filterMap JoinEntry.raw?) ∧
    (∀ now next,
      Progress.Reaches (.ofJoins strict anchors (entries.filterMap JoinEntry.descriptor?))
        (.start anchors (entries.filterMap JoinEntry.descriptor?)) now →
      Progress.Turn (.ofJoins strict anchors (entries.filterMap JoinEntry.descriptor?)) now next →
      next.chain.residual ≠ now.chain.residual →
      Progress.LeavesOver (.ofJoins strict anchors (entries.filterMap JoinEntry.descriptor?))
        now next) ∧
    ∀ (statement : Statement) (query : Query), statement.tables = anchors →
      statement.joins = entries → statement.strictJoins = strict → statement.compile = .ok query →
      ∀ join ∈ entries.filterMap JoinEntry.descriptor?, join.condition ≠ "" →
        resolution.Writes statement.filter query join.condition := by
  have conserves := Resolution.conserves_of_resolved resolved
  refine ⟨conserves, ?_, ?_⟩
  · intro now next earlier turn changed
    have accounted : now.Accounted anchors (entries.filterMap JoinEntry.descriptor?) :=
      Progress.Reaches.preserves Progress.Accounted.step (.start anchors _) earlier
    exact accounted.leavesOver turn changed
  · rintro statement query rfl rfl rfl compiled join given filled
    exact conserves.writes resolved compiled given filled

namespace DealtCards

def boards : TableRef := .ofText "boards b"

def cards : TableRef := .ofText "cards c"

def owned : Join :=
  (Join.unary .inner "cards c" "b.id = c.board OR c.free = 1").fromTable "boards b"

def dealt : Join := .unary .left "decks d" "d.id = c.deck"

def opened : Join := (Join.unary .inner "decks d" "d.open = b.open").fromTable "boards b"

/-- The first condition is between two plain tables, the third goes onto the step of the second. -/
def statement : Statement where
  selection := some (.raw "*")
  tables := [boards, cards]
  joins := [.descriptor owned, .descriptor dealt, .raw "CROSS JOIN d", .descriptor opened]
  filter := [.leaf (.eq "c.suit" (.string "hearts")), .raw "c.rank > 10" .or]
  orderBy := ["c.rank"]

def first : Progress where
  waiting := [⟨dealt, 0⟩, ⟨opened, 0⟩]
  chain :=
    { links := [.table "boards b", .table "cards c"], introduced := [("b", 0), ("c", 1)],
      residual := ["b.id = c.board OR c.free = 1"] }
  history := [.placed owned]

def resolution : Resolution where
  chain :=
    { links := [.table "boards b", .table "cards c",
        .step .left "decks d" ["d.id = c.deck", "d.open = b.open"], .verbatim "CROSS JOIN d"]
      introduced := [("b", 0), ("c", 1), ("d", 2)]
      residual := ["b.id = c.board OR c.free = 1"] }
  history := [.placed owned, .placed dealt, .placed opened]

def query : Query where
  sql := "SELECT * FROM boards b, cards c " ++
    "LEFT JOIN decks d ON (d.id = c.deck) AND (d.open = b.open) CROSS JOIN d " ++
    "WHERE b.id = c.board OR c.free = 1 AND (c.suit = %0 OR c.rank > 10) ORDER BY c.rank"
  parameters := [⟨0, .string "hearts", .string⟩]
  next := 1

end DealtCards

open DealtCards in
theorem resolveJoins_keeps_conditions_dealtCards :
    resolveJoins false [boards, cards] statement.joins = .ok resolution ∧
      statement.compile = .ok query ∧
      resolution.Conserves [owned, dealt, opened] ["CROSS JOIN d"] ∧
      Progress.LeavesOver (.ofJoins false [boards, cards] [owned, dealt, opened])
        (.start [boards, cards] [owned, dealt, opened]) first ∧
      ∀ join ∈ [owned, dealt, opened],
        resolution.Writes statement.filter query join.condition := by
  have resolved : resolveJoins false [boards, cards] statement.joins = .ok resolution := by
    decide +kernel
  have compiled : statement.compile = .ok query := by decide +kernel
  have turn : Progress.Turn (.ofJoins false [boards, cards] [owned, dealt, opened])
      (.start [boards, cards] [owned, dealt, opened]) first :=
    ⟨⟨owned, 0⟩, [⟨dealt, 0⟩, ⟨opened, 0⟩], rfl, by decide +kernel⟩
  have filled : ∀ join ∈ [owned, dealt, opened], join.condition ≠ "" := by decide +kernel
  obtain ⟨conserves, leaves, writes⟩ := resolveJoins_keeps_conditions resolved
  refine ⟨resolved, compiled, conserves, leaves _ _ .refl turn (by decide +kernel), ?_⟩
  exact fun join given => writes statement query rfl rfl rfl compiled join given (filled join given)

end SelectCompiler
