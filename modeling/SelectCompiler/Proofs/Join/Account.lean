import SelectCompiler.Proofs.Join.Run
import SelectCompiler.Proofs.Join.Settlement

/-!
The account of a run. Every join is settled or still in the line, the chain holds the tables of the
anchors and of the settled joins and no others, and verbatim text in it is that of the one join of
one table that was forced in at the very beginning.
-/

namespace SelectCompiler

/-- The joins that have been placed or forced, in order. -/
def settled (history : List Event) : List Join :=
  history.filterMap Event.settled?

/-- The first join that was forced. If there was nothing to join it to and it names one table, its
text opens the chain as it was written. -/
def firstForced? (history : List Event) : Option Join :=
  history.findSome? Event.forced?

/-- The given join, if it names one table and a link repeats its text. -/
def Link.opening? (first : Option Join) : Link → Option Join
  | verbatim sql => first.filter fun join => !join.isBinary && join.sql == sql
  | _ => none

variable {anchors : List TableRef} {joins : List Join} {history : List Event} {event : Event}
  {join : Join} {key : String}

theorem Link.opening?_verbatim (alone : join.isBinary = false) :
    (Link.verbatim join.sql).opening? (some join) = some join := by
  simp [Link.opening?, alone]

theorem mem_knownKeys_iff :
    key ∈ knownKeys anchors joins ↔
      key ∈ anchors.map TableRef.key ∨ ∃ join ∈ joins, key ∈ join.tables.map TableRef.key := by
  simp only [knownKeys, List.map_append, List.mem_append, List.mem_map, List.mem_flatMap]
  grind

theorem knownKeys_mono {others : List Join} (fewer : ∀ join ∈ joins, join ∈ others) :
    ∀ key ∈ knownKeys anchors joins, key ∈ knownKeys anchors others := by
  intro key
  rw [mem_knownKeys_iff, mem_knownKeys_iff]
  rintro (anchor | ⟨join, member, named⟩)
  · exact .inl anchor
  · exact .inr ⟨join, fewer join member, named⟩

theorem knownKeys_congr {others : List Join} (same : joins.Perm others) (key : String) :
    key ∈ knownKeys anchors joins ↔ key ∈ knownKeys anchors others :=
  ⟨knownKeys_mono (fun _ => same.mem_iff.mp) key, knownKeys_mono (fun _ => same.mem_iff.mpr) key⟩

theorem settled_concat_of_settled (settles : event.settled? = some join) :
    settled (history ++ [event]) = settled history ++ [join] := by
  simp [settled, settles]

theorem settled_concat_postponed (join : Join) :
    settled (history ++ [.postponed join]) = settled history := by
  simp [settled, Event.settled?]

theorem firstForced?_concat :
    firstForced? (history ++ [event]) = (firstForced? history).or event.forced? := by
  rw [firstForced?, List.findSome?_append, firstForced?]
  congr 1
  cases event <;> rfl

theorem firstForced?_concat_of_some {first : Join} (found : firstForced? history = some first) :
    firstForced? (history ++ [event]) = some first := by
  rw [firstForced?_concat, found, Option.some_or]

theorem firstForced?_mem_settled (forced : firstForced? history = some join) :
    join ∈ settled history := by
  obtain ⟨event, member, same⟩ := List.exists_of_findSome?_eq_some forced
  refine List.mem_filterMap.mpr ⟨event, member, ?_⟩
  cases event with
  | forced other => exact same
  | placed other => contradiction
  | postponed other => contradiction

namespace Chain

variable {chain next : Chain} {known : List String} {table : TableRef} {link : Link}
  {sql condition : String} {position : Nat}

theorem verbatim_mem_push (member : .verbatim sql ∈ (chain.push link key).links) :
    .verbatim sql ∈ chain.links ∨ link = .verbatim sql := by
  rw [links_push] at member
  obtain old | new := List.mem_append.mp member
  · exact .inl old
  · exact .inr (List.mem_singleton.mp new).symm

theorem verbatim_mem_pushTable (member : .verbatim sql ∈ (chain.pushTable table).links) :
    .verbatim sql ∈ chain.links := by
  unfold pushTable at member
  split at member
  · exact member
  · exact (verbatim_mem_push member).resolve_right nofun

theorem verbatim_mem_pushStep (member : .verbatim sql ∈ (chain.pushStep join table).links) :
    .verbatim sql ∈ chain.links :=
  (verbatim_mem_push member).resolve_right nofun

theorem verbatim_mem_attach
    (member : .verbatim sql ∈ (chain.attach position condition).links) :
    .verbatim sql ∈ chain.links := by
  obtain same | ⟨_, _, _, _, same⟩ | same := attach_cases chain position condition <;>
    rw [same] at member
  · exact member
  · exact (List.mem_or_eq_of_mem_set member).resolve_right nofun
  · exact member

/-- Verbatim text comes in only with a join of one table that is forced in first of all. -/
theorem Settles.verbatim_mem (settles : chain.Settles known join event next)
    (member : .verbatim sql ∈ next.links) :
    .verbatim sql ∈ chain.links ∨
      (event = .forced join ∧ chain.isEmpty = true ∧ join.isBinary = false ∧ sql = join.sql) := by
  cases settles with
  | pair => exact .inl (verbatim_mem_pushTable (verbatim_mem_pushStep member))
  | step => exact .inl (verbatim_mem_pushStep member)
  | merge => exact .inl (verbatim_mem_attach member)
  | opening forced alone empty _ =>
    obtain old | new := verbatim_mem_push member
    · exact .inl old
    · exact .inr ⟨forced, empty, by simp [Join.isBinary, alone], (Link.verbatim.inj new).symm⟩

theorem InRange.ofTables (anchors : List TableRef) : (Chain.ofTables anchors).InRange :=
  ofTables_preserves _ (fun _ member => nomatch member) fun _ _ _ inRange => inRange.pushTable

theorem mem_keys_ofTables_iff :
    key ∈ (Chain.ofTables anchors).keys ↔ key ∈ anchors.map TableRef.key := by
  suffices ∀ chain : Chain, key ∈ (anchors.foldl Chain.pushTable chain).keys ↔
      key ∈ chain.keys ∨ key ∈ anchors.map TableRef.key by
    rw [Chain.ofTables, this]
    simp [Chain.empty, Chain.keys]
  induction anchors with
  | nil => simp
  | cons table rest ih =>
    intro chain
    rw [List.foldl_cons, ih, mem_keys_pushTable_iff, List.map_cons, List.mem_cons, or_assoc]

theorem verbatim_not_mem_ofTables (anchors : List TableRef) (sql : String) :
    .verbatim sql ∉ (Chain.ofTables anchors).links :=
  ofTables_preserves (fun chain => .verbatim sql ∉ chain.links) nofun
    fun _ _ _ absent member => absent (verbatim_mem_pushTable member)

/-- Raw texts come behind all links and change nothing else. -/
theorem foldl_pushVerbatim_eq (chain : Chain) (raws : List String) :
    raws.foldl Chain.pushVerbatim chain =
      { chain with links := chain.links ++ raws.map Link.verbatim } := by
  induction raws generalizing chain with
  | nil => simp
  | cons sql rest ih => simp [ih, pushVerbatim]

/-- The text was written for the first join that was forced, a join of one table. -/
def OpenedBy (history : List Event) (sql : String) : Prop :=
  ∃ join, firstForced? history = some join ∧ join.isBinary = false ∧ sql = join.sql

end Chain

namespace Progress

variable {rules : Rules} {first : Waiting} {others : List Waiting} {now next : Progress}

/-- All that a turn can do: the first join goes back, or it is settled. -/
theorem step_cases (inRange : now.chain.InRange)
    (stepped : step rules first others now = .ok next) :
    (now.chain.place rules.known first.join = .wait ∧ first.postponed ≤ rules.budget ∧
      next = ⟨others ++ [⟨first.join, first.postponed + 1⟩], now.chain,
        now.history ++ [.postponed first.join]⟩) ∨
    ∃ event chain, event.settled? = some first.join ∧
      now.chain.Settles rules.known first.join event chain ∧
      next = ⟨others, chain, now.history ++ [event]⟩ := by
  obtain ⟨waits, early, rfl⟩ | ⟨_, _, _, rfl⟩ | ⟨placed, rfl⟩ := step_eq_ok_iff.mp stepped
  · exact .inl ⟨waits, early, rfl⟩
  · exact .inr ⟨.forced first.join, _, rfl, Chain.force_settles, rfl⟩
  · exact .inr ⟨.placed first.join, _, rfl, Chain.accept_settles inRange placed, rfl⟩

/-- What the chain and the line of a state tell of the joins that were given. -/
structure Accounted (anchors : List TableRef) (joins : List Join) (now : Progress) : Prop where
  inRange : now.chain.InRange
  divided : (settled now.history ++ now.waiting.map Waiting.join).Perm joins
  keys : ∀ key, key ∈ now.chain.keys ↔ key ∈ knownKeys anchors (settled now.history)
  verbatim : ∀ sql, .verbatim sql ∈ now.chain.links → Chain.OpenedBy now.history sql
  unforced : now.chain.isEmpty = true → firstForced? now.history = none

namespace Accounted

/-- Whoever is in the line is one of the joins that were given. -/
theorem listed (accounted : now.Accounted anchors joins) (line : now.waiting = first :: others) :
    first.join ∈ joins := by
  refine accounted.divided.subset (List.mem_append_right _ ?_)
  simp [line]

/-- Which join opened a chain with verbatim text in it has been decided. -/
theorem firstForced?_kept (accounted : now.Accounted anchors joins) (event : Event) {sql : String}
    (member : .verbatim sql ∈ now.chain.links) :
    firstForced? (now.history ++ [event]) = firstForced? now.history := by
  obtain ⟨join, found, _⟩ := accounted.verbatim sql member
  rw [firstForced?_concat_of_some found, found]

/-- A join that is forced in before there is a chain is the first that is forced. -/
theorem firstForced?_opening (accounted : now.Accounted anchors joins)
    (empty : now.chain.isEmpty = true) (join : Join) :
    firstForced? (now.history ++ [.forced join]) = some join := by
  rw [firstForced?_concat, accounted.unforced empty]
  rfl

theorem step (line : now.waiting = first :: others) (accounted : now.Accounted anchors joins)
    (stepped : step rules first others now = .ok next) : next.Accounted anchors joins := by
  have divided := accounted.divided
  rw [line, List.map_cons] at divided
  obtain ⟨_, _, rfl⟩ | ⟨event, chain, settles, changed, rfl⟩ :=
    step_cases accounted.inRange stepped
  · have same : firstForced? (now.history ++ [.postponed first.join]) =
        firstForced? now.history := by
      rw [firstForced?_concat]
      exact Option.or_none
    refine ⟨accounted.inRange, ?_, ?_, ?_, ?_⟩
    · rw [settled_concat_postponed, List.map_append]
      exact (List.perm_append_comm.append_left _).trans divided
    · rw [settled_concat_postponed]
      exact accounted.keys
    · intro sql member
      obtain ⟨join, found, rest⟩ := accounted.verbatim sql member
      exact ⟨join, same.trans found, rest⟩
    · rw [same]
      exact accounted.unforced
  · refine ⟨changed.inRange accounted.inRange, ?_, ?_, ?_, ?_⟩
    · rw [settled_concat_of_settled settles, List.append_assoc]
      exact divided
    · intro key
      rw [changed.mem_keys_iff, accounted.keys, mem_knownKeys_iff, mem_knownKeys_iff,
        settled_concat_of_settled settles]
      simp only [List.mem_append, List.mem_singleton]
      grind
    · intro sql member
      obtain old | ⟨rfl, empty, alone, same⟩ := changed.verbatim_mem member
      · obtain ⟨join, found, rest⟩ := accounted.verbatim sql old
        exact ⟨join, firstForced?_concat_of_some found, rest⟩
      · exact ⟨first.join, accounted.firstForced?_opening empty first.join, alone, same⟩
    · intro empty
      rw [changed.isEmpty_eq_false accounted.inRange] at empty
      contradiction

theorem start (anchors : List TableRef) (joins : List Join) :
    (start anchors joins).Accounted anchors joins where
  inRange := .ofTables anchors
  divided := by simp [Progress.start, settled, Function.comp_def]
  keys key := by
    rw [Progress.start, Chain.mem_keys_ofTables_iff, mem_knownKeys_iff]
    simp [settled]
  verbatim sql member := absurd member (Chain.verbatim_not_mem_ofTables anchors sql)
  unforced _ := rfl

/-- When nobody waits any more all joins are settled. -/
theorem settled_perm (accounted : now.Accounted anchors joins) (ended : now.waiting = []) :
    (settled now.history).Perm joins := by
  have divided := accounted.divided
  rwa [ended, List.map_nil, List.append_nil] at divided

end Accounted

end Progress

/-- The resolution of joins: the chain of the settled joins, and behind it the raw texts. -/
theorem resolveJoins_cases {strict : Bool} {entries : List JoinEntry} {resolution : Resolution}
    (resolved : resolveJoins strict anchors entries = .ok resolution) :
    ∃ done, Progress.Reaches (.ofJoins strict anchors (entries.filterMap JoinEntry.descriptor?))
        (.start anchors (entries.filterMap JoinEntry.descriptor?)) done ∧
      done.waiting = [] ∧ resolution.history = done.history ∧
      resolution.chain = { done.chain with
        links := done.chain.links ++
          ((entries.filterMap JoinEntry.raw?).map Text.trim).map Link.verbatim } := by
  obtain ⟨joins, done, rfl, finished, rfl⟩ := resolveJoins_eq_ok_iff.mp resolved
  obtain ⟨reached, ended⟩ := Progress.reaches_of_run finished
  exact ⟨done, reached, ended, rfl, Chain.foldl_pushVerbatim_eq _ _⟩

/-- The tables of a resolution are those of the anchors and of the joins. -/
theorem mem_tables_iff {strict : Bool} {entries : List JoinEntry} {resolution : Resolution}
    (resolved : resolveJoins strict anchors entries = .ok resolution) (key : String) :
    key ∈ resolution.tables ↔
      key ∈ knownKeys anchors (entries.filterMap JoinEntry.descriptor?) := by
  obtain ⟨done, reached, ended, _, chain⟩ := resolveJoins_cases resolved
  have accounted := reached.preserves Progress.Accounted.step (.start anchors _)
  have tables : resolution.tables = done.chain.keys := by rw [Resolution.tables, chain]; rfl
  rw [tables, accounted.keys, knownKeys_congr (accounted.settled_perm ended)]

end SelectCompiler
