import SelectCompiler.Proofs.Join.Account
import SelectCompiler.Proofs.Where.Scan

/-!
Where the text of a FROM clause comes from. It is put together from the texts of the links, with
glue between them that no placeholder takes part in; and whatever holds of all texts of the anchors,
the joins and the raw entries holds of all texts of the chain.
-/

namespace SelectCompiler

open Placeholder (indices)

/-- The texts that a join is put together from. -/
def Join.texts (join : Join) : List String :=
  join.left.toList.map TableRef.sql ++ [join.kind.sql, join.right.sql, join.condition]

/-- The texts that a link is put together from. -/
def Link.texts : Link → List String
  | table sql => [sql]
  | step kind joined conditions => kind.sql :: joined :: conditions
  | verbatim sql => [sql]

section Scan

theorem Join.indices_sql (join : Join) : indices join.sql = join.texts.flatMap indices := by
  have trail : indices (if join.condition.isEmpty then "" else " ON " ++ join.condition) =
      indices join.condition := by
    split
    · rename_i blank
      rw [String.isEmpty_iff.mp blank]
    · exact Placeholder.indices_append_of_plain (by decide) _
  have apart : Placeholder.leadingDigits
      (if join.condition.isEmpty then "" else " ON " ++ join.condition).toList = [] := by
    split
    · rfl
    · exact Placeholder.leadingDigits_of_glue (by decide) _
  rw [sql, texts]
  cases join.left with
  | none =>
    rw [Option.elim_none, String.empty_append, Placeholder.indices_append _ apart,
      Placeholder.indices_glue (by decide), trail]
    simp
  | some left =>
    rw [Option.elim_some, Placeholder.indices_append _ apart, Placeholder.indices_glue (by decide),
      Placeholder.indices_glue (by decide), trail]
    simp

theorem Link.indices_conditionText (conditions : List String) :
    indices (conditionText conditions) = conditions.flatMap indices := by
  match conditions with
  | [] => rfl
  | [single] =>
    rw [conditionText, Placeholder.indices_append_of_plain (by decide), List.flatMap_singleton]
  | first :: second :: rest =>
    have inner (text : String) : indices ("(" ++ text ++ ")") = indices text := by
      have closing : indices ")" = [] := Placeholder.indices_eq_nil_of_plain (by decide)
      rw [String.append_assoc, Placeholder.indices_append_of_plain (by decide),
        Placeholder.indices_append _ (by decide), closing, List.append_nil]
    have several : conditionText (first :: second :: rest) = " ON " ++ " AND ".intercalate
        ((first :: second :: rest).map fun text => "(" ++ text ++ ")") := rfl
    rw [several, Placeholder.indices_append_of_plain (by decide),
      Placeholder.indices_intercalate (by decide), List.flatMap_map]
    exact congrArg (fun scan => (first :: second :: rest).flatMap scan) (funext inner)

theorem Link.leadingDigits_conditionText (conditions : List String) :
    Placeholder.leadingDigits (conditionText conditions).toList = [] := by
  match conditions with
  | [] => rfl
  | [_] => exact Placeholder.leadingDigits_of_glue (by decide) _
  | _ :: _ :: _ => exact Placeholder.leadingDigits_of_glue (by decide) _

theorem Link.indices_sql (link : Link) : indices link.sql = link.texts.flatMap indices := by
  cases link with
  | table sql => simp [Link.sql, texts]
  | verbatim sql => simp [Link.sql, texts]
  | step kind joined conditions =>
    rw [Link.sql, Placeholder.indices_append _ (leadingDigits_conditionText conditions),
      Placeholder.indices_glue (by decide), indices_conditionText, texts]
    simp

/-- The marks in a FROM clause are those in the texts of its links. -/
theorem Chain.indices_sql (chain : Chain) :
    indices chain.sql = chain.links.flatMap fun link => link.texts.flatMap indices := by
  suffices ∀ (links : List Link) (text : String),
      indices (links.foldl (fun text (link : Link) =>
          text ++ (if text.isEmpty then "" else link.separator) ++ link.sql) text) =
        indices text ++ links.flatMap fun link => link.texts.flatMap indices from
    this chain.links ""
  intro links
  induction links with
  | nil => simp
  | cons link rest ih =>
    intro text
    have apart : Placeholder.Glue link.separator := by
      have comma : Placeholder.Glue ", " := by decide
      have blank : Placeholder.Glue " " := by decide
      cases link with
      | table sql => exact comma
      | step kind joined conditions => exact blank
      | verbatim sql => exact blank
    rw [List.foldl_cons, ih, List.flatMap_cons, ← link.indices_sql, ← List.append_assoc]
    congr 1
    split
    · rename_i blank
      rw [String.isEmpty_iff.mp blank]
      rfl
    · exact Placeholder.indices_glue apart text link.sql

end Scan

/-- All texts of a chain have the property, those of the left-over conditions too. -/
structure Chain.Made (property : String → Prop) (chain : Chain) : Prop where
  links : ∀ link ∈ chain.links, ∀ text ∈ link.texts, property text
  residual : ∀ text ∈ chain.residual, property text

/-- The texts of a join have the property, and so has the join as it was written. -/
structure Join.Made (property : String → Prop) (join : Join) : Prop where
  whole : property join.sql
  texts : ∀ text ∈ join.texts, property text

variable {property : String → Prop} {join : Join} {table : TableRef}

theorem Join.Made.reference (made : join.Made property) (own : table ∈ join.tables) :
    property table.sql := by
  apply made.texts
  rw [Join.texts, List.mem_append]
  obtain left | right := List.mem_append.mp own
  · exact .inl (List.mem_map.mpr ⟨table, left, rfl⟩)
  · rw [List.mem_singleton.mp right]
    exact .inr (by simp)

theorem Join.Made.kind (made : join.Made property) : property join.kind.sql :=
  made.texts _ (by simp [Join.texts])

theorem Join.Made.condition (made : join.Made property) : property join.condition :=
  made.texts _ (by simp [Join.texts])

namespace Chain.Made

variable {chain next : Chain} {known : List String} {event : Event} {link : Link}
  {key condition : String} {position : Nat}

theorem empty : Made property .empty := ⟨nofun, nofun⟩

theorem push (made : chain.Made property) (texts : ∀ text ∈ link.texts, property text) :
    (chain.push link key).Made property := by
  refine ⟨?_, made.residual⟩
  rw [links_push, List.forall_mem_append]
  exact ⟨made.links, List.forall_mem_singleton.mpr texts⟩

theorem pushTable (made : chain.Made property) (given : property table.sql) :
    (chain.pushTable table).Made property := by
  unfold Chain.pushTable
  split
  · exact made
  · exact made.push (List.forall_mem_singleton.mpr given)

theorem pushStep (made : chain.Made property) (given : join.Made property)
    (own : table ∈ join.tables) : (chain.pushStep join table).Made property := by
  apply made.push
  rw [Link.texts, List.forall_mem_cons, List.forall_mem_cons]
  refine ⟨given.kind, given.reference own, ?_⟩
  split
  · exact nofun
  · exact List.forall_mem_singleton.mpr given.condition

theorem attach (made : chain.Made property) (given : property condition) :
    (chain.attach position condition).Made property := by
  obtain same | ⟨kind, table, conditions, found, same⟩ | same :=
    attach_cases chain position condition <;> rw [same]
  · exact made
  · refine ⟨?_, made.residual⟩
    intro link member
    obtain old | rfl := List.mem_or_eq_of_mem_set member
    · exact made.links link old
    · have before := made.links _ (List.mem_of_getElem? found)
      rw [Link.texts, List.forall_mem_cons, List.forall_mem_cons] at before ⊢
      obtain ⟨keyword, reference, carried⟩ := before
      refine ⟨keyword, reference, ?_⟩
      exact List.forall_mem_append.mpr ⟨carried, List.forall_mem_singleton.mpr given⟩
  · refine ⟨made.links, ?_⟩
    exact List.forall_mem_append.mpr ⟨made.residual, List.forall_mem_singleton.mpr given⟩

theorem settles (made : chain.Made property) (changed : chain.Settles known join event next)
    (given : join.Made property) : next.Made property := by
  cases changed with
  | @pair left names _ _ =>
    have first : left ∈ join.tables := by simp [Join.tables, names]
    have second : join.right ∈ join.tables := by simp [Join.tables]
    exact (made.pushTable (given.reference first)).pushStep given second
  | step own _ _ => exact made.pushStep given own
  | merge => exact made.attach given.condition
  | opening => exact made.push (List.forall_mem_singleton.mpr given.whole)

end Chain.Made

namespace Progress

variable {rules : Rules} {first : Waiting} {others : List Waiting} {now next : Progress}
  {anchors : List TableRef} {joins : List Join}

/-- The account of a run whose chain is made of texts with the property. -/
structure Made (property : String → Prop) (anchors : List TableRef) (joins : List Join)
    (now : Progress) : Prop where
  accounted : now.Accounted anchors joins
  chain : now.chain.Made property

theorem Made.step (given : ∀ join ∈ joins, join.Made property)
    (line : now.waiting = first :: others) (made : now.Made property anchors joins)
    (stepped : step rules first others now = .ok next) : next.Made property anchors joins := by
  have listed := made.accounted.listed line
  refine ⟨made.accounted.step line stepped, ?_⟩
  obtain ⟨_, _, rfl⟩ | ⟨event, chain, _, changed, rfl⟩ :=
    step_cases made.accounted.inRange stepped
  · exact made.chain
  · exact made.chain.settles changed (given _ listed)

theorem Made.start (given : ∀ table ∈ anchors, property table.sql) :
    (start anchors joins).Made property anchors joins where
  accounted := .start anchors joins
  chain := Chain.ofTables_preserves _ .empty fun _ table member made =>
    made.pushTable (given table member)

end Progress

/-- Whatever holds of the texts that were given for a FROM clause holds of all texts in it and of
the conditions that it leaves over. -/
theorem Resolution.made_of_resolved {strict : Bool} {anchors : List TableRef}
    {entries : List JoinEntry} {resolution : Resolution}
    (resolved : resolveJoins strict anchors entries = .ok resolution)
    (tables : ∀ table ∈ anchors, property table.sql)
    (joins : ∀ join ∈ entries.filterMap JoinEntry.descriptor?, join.Made property)
    (raws : ∀ sql ∈ entries.filterMap JoinEntry.raw?, property (Text.trim sql)) :
    resolution.chain.Made property := by
  obtain ⟨done, reached, _, _, chain⟩ := resolveJoins_cases resolved
  have made : done.Made property anchors (entries.filterMap JoinEntry.descriptor?) :=
    reached.preserves (Progress.Made.step joins) (.start tables)
  rw [chain]
  refine ⟨?_, made.chain.residual⟩
  refine List.forall_mem_append.mpr ⟨made.chain.links, ?_⟩
  intro link member
  obtain ⟨trimmed, listed, rfl⟩ := List.mem_map.mp member
  obtain ⟨sql, given, rfl⟩ := List.mem_map.mp listed
  exact List.forall_mem_singleton.mpr (raws sql given)

end SelectCompiler
