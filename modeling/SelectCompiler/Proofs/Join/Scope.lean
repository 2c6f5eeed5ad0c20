import Mathlib.Control.Monad.Basic
import Mathlib.Data.List.Induction
import Mathlib.Data.List.Nodup
import SelectCompiler.Proofs.Join.Account
import SelectCompiler.Proofs.Join.Order

/-!
Scope of the conditions in a FROM clause. A comma stands before each plain table, and a join binds
tighter than a comma, so a condition sees the tables of its own entry of the list and no others. All
steps come behind the last anchor: what the anchors before it bring in is out of their sight.
-/

namespace SelectCompiler

namespace Chain

/-- What separates the link at a position from the text before it. -/
def separator? (chain : Chain) (position : Nat) : Option String :=
  chain.links[position]?.map Link.separator

/-- No comma comes between the links at two positions, so that the later one is in the entry of the
earlier one. -/
def SameEntry (chain : Chain) (earlier later : Nat) : Prop :=
  ∀ place, earlier < place → place ≤ later → chain.separator? place ≠ some ", "

/-- Every known table that the condition mentions was brought in at this position or before, and in
the same entry. -/
def Scopes (tables : List TableRef) (chain : Chain) (position : Nat) (condition : String) : Prop :=
  ∀ key ∈ Join.qualifiers (tables.map TableRef.key) condition,
    ∃ earlier ≤ position, chain.Introduces tables key earlier ∧ chain.SameEntry earlier position

/-- The outer tables come first, each as an entry of its own, and a comma divides the last of them
from the entry in which all else is. -/
structure Fences (outer : List String) (chain : Chain) : Prop where
  divided : outer ≠ [] → ∀ place ≤ outer.length, chain.separator? place = some ", "
  joined : ∀ place, outer.length < place → chain.separator? place ≠ some ", "
  outside : ∀ key position, chain.position? key = some position →
    (position < outer.length ↔ key ∈ outer)
  held : ∀ key ∈ outer, key ∈ chain.keys

variable {tables : List TableRef} {chain next : Chain} {link : Link} {join : Join}
  {table : TableRef} {outer known : List String} {key sql condition : String}
  {position earlier place : Nat}

theorem separator?_append (grown : next.links = chain.links ++ [link]) :
    next.separator? place =
      if place = chain.links.length then some link.separator else chain.separator? place := by
  rw [separator?, grown, getElem?_links_append]
  split <;> rfl

theorem separator?_length : chain.separator? chain.links.length = none := by
  rw [separator?, List.getElem?_eq_none (Nat.le_refl _)]
  rfl

theorem separator?_attach :
    (chain.attach position condition).separator? place = chain.separator? place := by
  rcases attach_cases chain position condition with
    same | ⟨kind, table, conditions, found, same⟩ | same
  · rw [same]
  · rw [same, separator?, List.getElem?_set', separator?]
    split
    · rename_i here
      rw [← here, found]
      rfl
    · rfl
  · rw [same]
    rfl

namespace Fences

/-- A position before the fence shows that there is one. -/
theorem divided_of_lt (fences : chain.Fences outer) (before : earlier < outer.length)
    (within : place ≤ outer.length) : chain.separator? place = some ", " :=
  fences.divided (List.length_pos_iff.mp (Nat.zero_lt_of_lt before)) place within

theorem length_le (fences : chain.Fences outer) : outer.length ≤ chain.links.length := by
  by_contra short
  have long := Nat.lt_of_not_le short
  have beyond := fences.divided_of_lt long (Nat.le_of_lt long)
  rw [separator?_length] at beyond
  contradiction

/-- There is nothing to fence off while the chain has no link. -/
theorem eq_nil_of_isEmpty (fences : chain.Fences outer) (empty : chain.isEmpty = true) :
    outer = [] := by
  by_contra nonempty
  have first := fences.divided nonempty 0 (Nat.zero_le _)
  rw [separator?, List.isEmpty_iff.mp empty] at first
  contradiction

/-- A link that no comma comes before stays in the last entry. -/
theorem divided_append (fences : chain.Fences outer) (grown : next.links = chain.links ++ [link])
    (nonempty : outer ≠ []) (before : place ≤ outer.length) :
    next.separator? place = some ", " := by
  have there := fences.divided nonempty place before
  rw [separator?_append grown, if_neg, there]
  rintro rfl
  rw [separator?_length] at there
  contradiction

theorem joined_append (fences : chain.Fences outer) (grown : next.links = chain.links ++ [link])
    (plain : link.separator ≠ ", ") (behind : outer.length < place) :
    next.separator? place ≠ some ", " := by
  rw [separator?_append grown]
  split
  · exact fun same => plain (Option.some.inj same)
  · exact fences.joined place behind

theorem push (fences : chain.Fences outer) (plain : link.separator ≠ ", ") :
    (chain.push link key).Fences outer where
  divided nonempty _ := fences.divided_append links_push nonempty
  joined _ := fences.joined_append links_push plain
  outside other position found := by
    rcases position?_push_cases found with old | ⟨_, absent, rfl⟩
    · exact fences.outside other position old
    · exact iff_of_false (Nat.not_lt.mpr fences.length_le) (mt (fences.held other) absent)
  held other member := mem_keys_push_iff.mpr (.inl (fences.held other member))

theorem pushStep (fences : chain.Fences outer) : (chain.pushStep join table).Fences outer :=
  fences.push (by decide : " " ≠ ", ")

theorem pushVerbatim (fences : chain.Fences outer) : (chain.pushVerbatim sql).Fences outer where
  divided nonempty _ := fences.divided_append rfl nonempty
  joined _ := fences.joined_append rfl (by decide : " " ≠ ", ")
  outside := fences.outside
  held := fences.held

theorem attach (fences : chain.Fences outer) :
    (chain.attach position condition).Fences outer where
  divided nonempty place before := by
    rw [separator?_attach]
    exact fences.divided nonempty place before
  joined place behind := by
    rw [separator?_attach]
    exact fences.joined place behind
  outside key place := by
    rw [position?_attach]
    exact fences.outside key place
  held := by
    rw [keys_attach]
    exact fences.held

theorem foldl_pushVerbatim (fences : chain.Fences outer) (raws : List String) :
    (raws.foldl Chain.pushVerbatim chain).Fences outer := by
  induction raws generalizing chain with
  | nil => exact fences
  | cons sql rest ih => exact ih fences.pushVerbatim

/-- A plain table in front of everything else is fenced off from nothing. -/
theorem pushFirst (empty : chain.isEmpty = true) : (chain.pushTable table).Fences [] := by
  have short : (chain.pushTable table).links.length ≤ 1 := by
    unfold Chain.pushTable
    split <;> simp [List.isEmpty_iff.mp empty]
  constructor
  · exact fun nonempty => absurd rfl nonempty
  · intro place behind
    rw [separator?, List.getElem?_eq_none (Nat.le_trans short behind)]
    exact nofun
  · simp
  · simp

/-- No join that is placed puts up a fence: a pair brings in a plain table only where there is
nothing yet. -/
theorem accept (fences : chain.Fences outer) :
    (chain.accept join (chain.place known join)).Fences outer := by
  cases found : chain.place known join with
  | seed =>
    obtain ⟨empty, pair, _⟩ := place_eq_seed_iff.mp found
    obtain ⟨left, names⟩ := Option.isSome_iff_exists.mp pair
    rw [fences.eq_nil_of_isEmpty empty, Chain.accept, names]
    exact (pushFirst empty).pushStep
  | introduce table => exact fences.pushStep
  | attach position => exact fences.attach
  | wait => exact fences

/-- Every step is behind the fence. -/
theorem length_le_of_step {kind : JoinKind} {conditions : List String}
    (fences : chain.Fences outer)
    (found : chain.links[position]? = some (.step kind sql conditions)) :
    outer.length ≤ position := by
  by_contra before
  have short := Nat.lt_of_not_le before
  have comma := fences.divided_of_lt short (Nat.le_of_lt short)
  rw [separator?, found] at comma
  exact absurd (Option.some.inj comma) (by decide : " " ≠ ", ")

/-- Behind the fence a table is in the same entry unless it is one of the outer ones. -/
theorem sameEntry_iff (fences : chain.Fences outer) (behind : outer.length ≤ position)
    (found : chain.position? key = some earlier) :
    chain.SameEntry earlier position ↔ key ∉ outer := by
  rw [← fences.outside key earlier found, Nat.not_lt]
  constructor
  · intro same
    by_contra before
    have short := Nat.lt_of_not_le before
    exact same outer.length short behind (fences.divided_of_lt short (Nat.le_refl _))
  · intro inside place after _
    exact fences.joined place (Nat.lt_of_le_of_lt inside after)

end Fences

/-- The chain is a list of plain tables, each recorded at its own place. -/
structure Plain (chain : Chain) : Prop where
  even : chain.keys.length = chain.links.length
  commas : ∀ place < chain.links.length, chain.separator? place = some ", "
  recorded : ∀ key position, chain.position? key = some position →
    chain.keys[position]? = some key
  nodup : chain.keys.Nodup

namespace Plain

theorem empty : Plain .empty where
  even := rfl
  commas _ short := absurd short (Nat.not_lt_zero _)
  recorded _ _ found := nomatch found
  nodup := .nil

theorem push (plain : chain.Plain) (absent : key ∉ chain.keys) (comma : link.separator = ", ") :
    (chain.push link key).Plain := by
  have keys : (chain.push link key).keys = chain.keys ++ [key] := keys_push_of_not_mem absent
  constructor
  · rw [keys, links_push, List.length_append, List.length_append, plain.even]
    rfl
  · intro place short
    rw [separator?_append links_push]
    split
    · rw [comma]
    · rename_i old
      rw [links_push, List.length_append, List.length_singleton] at short
      exact plain.commas place (by omega)
  · intro other position found
    rw [keys]
    rcases position?_push_cases found with old | ⟨rfl, _, rfl⟩
    · have there := plain.recorded other position old
      rwa [List.getElem?_append_left (List.getElem?_eq_some_iff.mp there).1]
    · rw [← plain.even, List.getElem?_concat_length]
  · rw [keys, List.nodup_append_comm, List.singleton_append, List.nodup_cons]
    exact ⟨absent, plain.nodup⟩

theorem ofTables (anchors : List TableRef) : (Chain.ofTables anchors).Plain := by
  refine ofTables_preserves Plain .empty fun chain table _ plain => ?_
  unfold Chain.pushTable
  split
  · exact plain
  · rename_i absent
    exact plain.push (not_contains_iff.mp (Bool.eq_false_iff.mpr absent)) rfl

/-- The last of some plain tables has all others outside its entry. -/
theorem fences (plain : chain.Plain) : chain.Fences chain.keys.dropLast where
  divided nonempty place before := by
    have many := List.length_pos_iff.mpr nonempty
    have even := plain.even
    rw [List.length_dropLast] at many before
    exact plain.commas place (by omega)
  joined place behind := by
    have even := plain.even
    rw [List.length_dropLast] at behind
    rw [separator?, List.getElem?_eq_none (by omega)]
    exact nofun
  outside key position found := by
    obtain ⟨inside, here⟩ := List.getElem?_eq_some_iff.mp (plain.recorded key position found)
    rw [List.mem_iff_getElem]
    constructor
    · intro before
      exact ⟨position, before, by rw [List.getElem_dropLast, here]⟩
    · rintro ⟨place, before, there⟩
      rw [List.getElem_dropLast] at there
      have same := (List.Nodup.getElem_inj_iff plain.nodup).mp (there.trans here.symm)
      exact same ▸ before
  held _ member := List.dropLast_subset _ member

end Plain

theorem keys_ofTables (anchors : List TableRef) :
    (Chain.ofTables anchors).keys = (anchors.map TableRef.key).eraseDups := by
  induction anchors using List.reverseRecOn with
  | nil => rfl
  | append_singleton earlier table ih =>
    have grown : Chain.ofTables (earlier ++ [table]) = (Chain.ofTables earlier).pushTable table :=
      List.foldl_concat ..
    rw [grown, List.map_append, List.eraseDups_append, ← ih, List.map_singleton]
    by_cases present : table.key ∈ (Chain.ofTables earlier).keys
    · have listed := mem_keys_ofTables_iff.mp present
      have gone : [table.key].removeAll (earlier.map TableRef.key) = [] := by
        simp [List.removeAll, listed, -List.mem_map]
      rw [pushTable, if_pos (contains_iff.mpr present), gone, List.eraseDups_nil, List.append_nil]
    · have unlisted := mt mem_keys_ofTables_iff.mpr present
      have kept : [table.key].removeAll (earlier.map TableRef.key) = [table.key] := by
        simp [List.removeAll, unlisted, -List.mem_map]
      rw [pushTable, if_neg (mt contains_iff.mp present), keys_push_of_not_mem present, kept]
      rfl

/-- In an ordered chain a condition of a step sees all that it mentions, unless it mentions a table
beyond the fence. -/
theorem Ordered.scopes_iff {kind : JoinKind} {conditions : List String}
    (ordered : chain.Ordered tables) (fences : chain.Fences outer)
    (found : chain.links[position]? = some (.step kind sql conditions))
    (carried : condition ∈ conditions) :
    chain.Scopes tables position condition ↔
      ∀ key ∈ Join.qualifiers (tables.map TableRef.key) condition, key ∉ outer := by
  have grounded : chain.Grounds tables position condition := by
    refine ordered.grounded position condition ?_
    rw [Chain.conditions, found]
    exact carried
  have behind := fences.length_le_of_step found
  refine forall₂_congr fun key mentioned => ?_
  constructor
  · rintro ⟨earlier, _, introduces, same⟩
    exact (fences.sameEntry_iff behind introduces.1).mp same
  · intro visible
    obtain ⟨earlier, before, introduces⟩ := grounded key mentioned
    exact ⟨earlier, before, introduces, (fences.sameEntry_iff behind introduces.1).mpr visible⟩

end Chain

namespace Progress

variable {rules : Rules} {first : Waiting} {others : List Waiting} {now next : Progress}
  {outer : List String}

/-- While nothing has been forced the same tables stay fenced off. -/
def Fenced (outer : List String) (now : Progress) : Prop :=
  now.history.countP Event.isForced = 0 → now.chain.Fences outer

theorem Fenced.start (anchors : List TableRef) (joins : List Join) :
    (start anchors joins).Fenced (anchors.map TableRef.key).eraseDups.dropLast := by
  intro _
  rw [← Chain.keys_ofTables]
  exact (Chain.Plain.ofTables anchors).fences

theorem Fenced.step (_ : now.waiting = first :: others) (fenced : now.Fenced outer)
    (stepped : step rules first others now = .ok next) : next.Fenced outer := by
  rcases step_eq_ok_iff.mp stepped with ⟨_, _, rfl⟩ | ⟨_, _, _, rfl⟩ | ⟨_, rfl⟩
  · exact fun unforced => fenced (by simpa [Event.isForced] using unforced)
  · intro unforced
    simp [Event.isForced] at unforced
  · exact fun unforced => (fenced (by simpa [Event.isForced] using unforced)).accept

end Progress

/-- Without a forced join, a condition of a step has in its scope all that it mentions exactly if it
mentions no anchor but the last. The anchors before that are entries of their own, which no
condition can see; with a single anchor, or with none, everything is in scope. -/
theorem resolveJoins_scopes_iff {strict : Bool} {anchors : List TableRef}
    {entries : List JoinEntry} {resolution : Resolution} {kind : JoinKind}
    {table condition : String} {conditions : List String} {position : Nat}
    (resolved : resolveJoins strict anchors entries = .ok resolution)
    (unforced : resolution.forced = 0)
    (found : resolution.chain.links[position]? = some (.step kind table conditions))
    (carried : condition ∈ conditions) :
    resolution.chain.Scopes
        (anchors ++ (entries.filterMap JoinEntry.descriptor?).flatMap Join.tables)
        position condition ↔
      ∀ key ∈ Join.qualifiers
          (knownKeys anchors (entries.filterMap JoinEntry.descriptor?)) condition,
        key ∉ (anchors.map TableRef.key).eraseDups.dropLast := by
  obtain ⟨joins, done, rfl, finished, rfl⟩ := resolveJoins_eq_ok_iff.mp resolved
  have ordered := Progress.run_preserves (Progress.Ordered.step rfl)
    (Progress.Ordered.start anchors _) finished
  have fenced := Progress.run_preserves Progress.Fenced.step
    (Progress.Fenced.start anchors _) finished
  exact ((ordered.chain unforced).foldl_pushVerbatim _).scopes_iff
    ((fenced unforced).foldl_pushVerbatim _) found carried

namespace PricedOrders

def orders : TableRef := .ofText "orders"

def prices : TableRef := .ofText "prices p"

def items : Join := .unary .inner "items i" "i.price = p.id"

/-- This one mentions the anchor before the comma. -/
def lines : Join := .unary .inner "lines" "lines.order = orders.id"

def pricedChain : Chain where
  links := [.table "orders", .table "prices p", .step .inner "items i" ["i.price = p.id"]]
  introduced := [("orders", 0), ("p", 1), ("i", 2)]
  residual := []

def orderedChain : Chain where
  links := [.table "orders", .table "prices p", .step .inner "lines" ["lines.order = orders.id"]]
  introduced := [("orders", 0), ("p", 1), ("lines", 2)]
  residual := []

end PricedOrders

open PricedOrders in
theorem resolveJoins_scopes_iff_pricedOrders :
    resolveJoins true [orders, prices] [.descriptor items] =
        .ok ⟨pricedChain, [.placed items]⟩ ∧
      pricedChain.Scopes [orders, prices, items.right] 2 "i.price = p.id" := by
  have resolved : resolveJoins true [orders, prices] [.descriptor items] =
      .ok ⟨pricedChain, [.placed items]⟩ := by decide +kernel
  have mentioned : Join.qualifiers (knownKeys [orders, prices] [items]) "i.price = p.id" =
      ["i", "p"] := by decide +kernel
  have carried : "i.price = p.id" ∈ ["i.price = p.id"] := List.mem_singleton_self _
  refine ⟨resolved, (resolveJoins_scopes_iff resolved rfl rfl carried).mpr ?_⟩
  change ∀ key ∈ Join.qualifiers (knownKeys [orders, prices] [items]) "i.price = p.id", _
  rw [mentioned]
  decide +kernel

open PricedOrders in
/-- A condition on the first of two anchors is placed all the same, where it cannot see it. -/
theorem first_anchor_out_of_scope :
    resolveJoins true [orders, prices] [.descriptor lines] =
        .ok ⟨orderedChain, [.placed lines]⟩ ∧
      Resolution.forced ⟨orderedChain, [.placed lines]⟩ = 0 ∧
      orderedChain.sql = "orders, prices p INNER JOIN lines ON lines.order = orders.id" ∧
      ¬orderedChain.Scopes [orders, prices, lines.right] 2 "lines.order = orders.id" := by
  refine ⟨by decide +kernel, rfl, by decide +kernel, ?_⟩
  intro scopes
  have mentioned : "orders" ∈
      Join.qualifiers (knownKeys [orders, prices] [lines]) "lines.order = orders.id" := by
    decide +kernel
  obtain ⟨earlier, _, introduces, same⟩ := scopes "orders" mentioned
  obtain rfl : 0 = earlier := Option.some.inj introduces.1
  exact same 1 Nat.zero_lt_one (Nat.le_succ 1) rfl

end SelectCompiler
