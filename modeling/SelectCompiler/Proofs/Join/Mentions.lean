import SelectCompiler.Proofs.Join.Conditions
import SelectCompiler.Proofs.Join.Order
import SelectCompiler.Proofs.Join.Strictness
import SelectCompiler.Proofs.Text.Trimming
import SelectCompiler.Proofs.Text.Words

/-!
What it takes for a condition to be seen to mention a table. The scan and the keys read the same
names in two ways: the scan takes what stands before the first point of a token and strips it of
quotes, a key is a whole word. So a plain key is found wherever it qualifies a column, and the join
waits for its table; a key in quotes, with a point or with any other character is never found.
-/

namespace SelectCompiler

namespace Join

variable {known : List String} {key text : String} {token chars : List Char}

/-- A name, perhaps in quotes, stands in a text before a point and at the start of a token. -/
def Mentions (key text : String) : Prop :=
  ∃ before opening closing after,
    text.toList = before ++ (opening ++ (key.toList ++ (closing ++ '.' :: after))) ∧
      before.getLast?.all (!isTokenChar ·) = true ∧
      opening.all isQuote = true ∧ closing.all isQuote = true

/-- A name of token characters without a point, and with no quote at either end. -/
def isPlain (key : String) : Bool :=
  key.toList.all (fun c => isTokenChar c && c != '.') && unquoted key.toList == key.toList

theorem isPlain_iff :
    isPlain key = true ↔
      (∀ c ∈ key.toList, isTokenChar c = true ∧ c ≠ '.') ∧ unquoted key.toList = key.toList := by
  simp only [isPlain, Bool.and_eq_true, List.all_eq_true, bne_iff_ne, beq_iff_eq]

theorem isTokenChar_of_isQuote {c : Char} (quote : isQuote c = true) : isTokenChar c = true := by
  rw [isQuote, Bool.or_eq_true, beq_iff_eq, beq_iff_eq] at quote
  obtain rfl | rfl := quote <;> decide

theorem ne_point_of_isQuote {c : Char} (quote : isQuote c = true) : c ≠ '.' := by
  rintro rfl
  contradiction

theorem exists_unquoted (chars : List Char) :
    ∃ opening closing, chars = opening ++ (unquoted chars ++ closing) ∧
      opening.all isQuote = true ∧ closing.all isQuote = true := by
  simp only [List.all_eq_true]
  exact Text.exists_ends isQuote chars

theorem unquoted_unquoted (chars : List Char) : unquoted (unquoted chars) = unquoted chars := by
  have front : (unquoted chars).dropWhile isQuote = unquoted chars :=
    Text.dropWhile_rdropWhile_dropWhile isQuote chars
  rw [unquoted, front]
  exact List.rdropWhile_idempotent isQuote _

theorem unquoted_quoted {opening closing : List Char} (opens : opening.all isQuote = true)
    (closes : closing.all isQuote = true) :
    unquoted (opening ++ (chars ++ closing)) = unquoted chars := by
  rw [List.all_eq_true] at opens closes
  rw [unquoted, List.dropWhile_append_of_pos opens, List.dropWhile_append, unquoted]
  split
  · rename_i nothing
    rw [List.isEmpty_iff.mp nothing, List.dropWhile_eq_nil_iff.mpr closes]
  · rw [List.reverse_append, List.dropWhile_append_of_pos fun c member =>
      closes c (List.mem_reverse.mp member)]

theorem unquoted_of_bare (bare : ∀ c ∈ chars, isQuote c = false) : unquoted chars = chars := by
  have kept {list : List Char} (bare : ∀ c ∈ list, isQuote c = false) :
      list.dropWhile isQuote = list := by
    cases list with
    | nil => rfl
    | cons c rest =>
      apply List.dropWhile_cons_of_neg
      rw [bare c List.mem_cons_self]
      exact Bool.false_ne_true
  rw [unquoted, kept bare, kept fun c member => bare c (List.mem_reverse.mp member),
    List.reverse_reverse]

theorem qualifier?_eq_some_iff :
    qualifier? token = some key ↔
      ∃ name rest, token = name ++ '.' :: rest ∧ '.' ∉ name ∧ key.toList = unquoted name := by
  have named {name rest : List Char} (pointless : '.' ∉ name) :
      qualifier? (name ++ '.' :: rest) = some (String.ofList (unquoted name)) := by
    have before : (name ++ '.' :: rest).takeWhile (· != '.') = name := by
      rw [List.takeWhile_append_of_pos, List.takeWhile_cons_of_neg (by decide), List.append_nil]
      intro c member
      rw [bne_iff_ne]
      exact fun same => pointless (same ▸ member)
    rw [qualifier?, if_pos (by simp), before]
  constructor
  · intro found
    by_cases point : '.' ∈ token
    · obtain ⟨name, rest, rfl, pointless⟩ := List.eq_append_cons_of_mem point
      rw [named pointless, Option.some.injEq] at found
      exact ⟨name, rest, rfl, pointless, by rw [← found, String.toList_ofList]⟩
    · simp [qualifier?, point] at found
  · rintro ⟨name, rest, rfl, pointless, same⟩
    rw [named pointless, ← same, String.ofList_toList]

theorem isPlain_and_mentions_of_part {name rest : List Char}
    (part : name ++ '.' :: rest ∈ text.toList.splitOnP (!isTokenChar ·)) (pointless : '.' ∉ name)
    (same : key.toList = unquoted name) : isPlain key = true ∧ Mentions key text := by
  obtain ⟨inside, before, after, split, starts, _⟩ := Text.mem_splitOnP_iff.mp part
  obtain ⟨opening, closing, quoted, opens, closes⟩ := exists_unquoted name
  rw [← same] at quoted
  refine ⟨isPlain_iff.mpr ⟨?_, by rw [same, unquoted_unquoted]⟩,
    before, opening, closing, rest ++ after, ?_, (Option.all_eq_true _ _).mpr starts, opens, closes⟩
  · intro c member
    have own : c ∈ name := by
      rw [quoted]
      exact List.mem_append_right _ (List.mem_append_left _ member)
    have joined := inside c (List.mem_append_left _ own)
    exact ⟨by simpa using joined, fun point => pointless (point ▸ own)⟩
  · rw [split, quoted]
    simp

theorem exists_part_of_mentions (plain : isPlain key = true) (mentions : Mentions key text) :
    ∃ name rest, name ++ '.' :: rest ∈ text.toList.splitOnP (!isTokenChar ·) ∧ '.' ∉ name ∧
      key.toList = unquoted name := by
  obtain ⟨before, opening, closing, after, split, starts, opens, closes⟩ := mentions
  obtain ⟨joined, bare⟩ := isPlain_iff.mp plain
  have quotes {list : List Char} (quoted : list.all isQuote = true) :
      ∀ c ∈ list, isTokenChar c = true ∧ c ≠ '.' := fun c member =>
    have quote := List.all_eq_true.mp quoted c member
    ⟨isTokenChar_of_isQuote quote, ne_point_of_isQuote quote⟩
  have name : ∀ c ∈ opening ++ (key.toList ++ closing), isTokenChar c = true ∧ c ≠ '.' := by
    intro c member
    simp only [List.mem_append] at member
    obtain quote | own | quote := member
    · exact quotes opens c quote
    · exact joined c own
    · exact quotes closes c quote
  -- The token goes on behind the point up to the next character that is not part of one.
  refine ⟨opening ++ (key.toList ++ closing), after.takeWhile isTokenChar,
    Text.mem_splitOnP_iff.mpr ⟨?_, before, after.dropWhile isTokenChar, ?_, ?_, ?_⟩,
    fun point => (name '.' point).2 rfl, ?_⟩
  · intro c member
    rw [Bool.not_eq_false']
    obtain front | rest := List.mem_append.mp member
    · exact (name c front).1
    · obtain rfl | behind := List.mem_cons.mp rest
      · decide
      · exact List.all_eq_true.mp List.all_takeWhile c behind
  · rw [split]
    simp [List.takeWhile_append_dropWhile]
  · exact (Option.all_eq_true _ _).mp starts
  · have stops := List.head?_dropWhile_not isTokenChar after
    intro c next
    rw [Option.mem_def.mp next] at stops
    simpa using stops
  · rw [unquoted_quoted opens closes, bare]

/-- The scan finds exactly the plain known keys that the text mentions. -/
theorem mem_qualifiers_iff :
    key ∈ qualifiers known text ↔ key ∈ known ∧ isPlain key = true ∧ Mentions key text := by
  rw [qualifiers, List.mem_eraseDups, List.mem_filter, List.mem_filterMap, List.contains_iff_mem,
    and_comm]
  refine and_congr_right fun _ => ?_
  constructor
  · rintro ⟨token, part, named⟩
    obtain ⟨name, rest, rfl, pointless, same⟩ := qualifier?_eq_some_iff.mp named
    exact isPlain_and_mentions_of_part part pointless same
  · rintro ⟨plain, mentions⟩
    obtain ⟨name, rest, part, pointless, same⟩ := exists_part_of_mentions plain mentions
    exact ⟨_, part, qualifier?_eq_some_iff.mpr ⟨name, rest, rfl, pointless, same⟩⟩

/-- What qualifies something in a text, whether or not a table goes by that name. -/
def named (chars : List Char) : List String :=
  (chars.splitOnP (!isTokenChar ·)).filterMap qualifier?

theorem mem_qualifiers_iff_named :
    key ∈ qualifiers known text ↔ key ∈ known ∧ key ∈ named text.toList := by
  rw [qualifiers, List.mem_eraseDups, List.mem_filter, List.contains_iff_mem, and_comm, named]

theorem named_append_cons {c : Char} (separates : isTokenChar c = false)
    (first second : List Char) : named (first ++ c :: second) = named first ++ named second := by
  rw [named, List.splitOnP_append_cons _ _ (by simp [separates]), List.filterMap_append, named,
    named]

theorem named_of_pointless (pointless : '.' ∉ chars) : named chars = [] := by
  rw [named, List.filterMap_eq_nil_iff]
  intro token member
  obtain ⟨_, before, after, rfl, _⟩ := Text.mem_splitOnP_iff.mp member
  have none : ¬token.contains '.' = true := by
    intro point
    apply pointless
    exact List.mem_append_right _ (List.mem_append_left _ (List.contains_iff_mem.mp point))
  rw [qualifier?, if_neg none]

/-- A column with the name of its table in front names the table. -/
theorem named_column (plain : isPlain key = true) {column : List Char}
    (whole : ∀ c ∈ column, isTokenChar c = true) : named (key.toList ++ '.' :: column) = [key] := by
  obtain ⟨joined, bare⟩ := isPlain_iff.mp plain
  have token : ∀ c ∈ key.toList ++ '.' :: column, (!isTokenChar c) = false := by
    intro c member
    rw [Bool.not_eq_false']
    rcases List.mem_append.mp member with own | rest
    · exact (joined c own).1
    · rcases List.mem_cons.mp rest with rfl | behind
      · decide
      · exact whole c behind
  have found : qualifier? (key.toList ++ '.' :: column) = some key :=
    qualifier?_eq_some_iff.mpr ⟨_, _, rfl, fun point => (joined '.' point).2 rfl, bare.symm⟩
  rw [named, List.splitOnP_eq_singleton token, List.filterMap_cons_some found, List.filterMap_nil]

theorem Mentions.ne_empty (mentions : Mentions key text) : text ≠ "" := by
  rintro rfl
  obtain ⟨before, opening, closing, after, split, _⟩ := mentions
  simp at split

end Join

/-- A text that is a condition of a step, or left over. No step that has it comes before the link
that brought in the table with this key. -/
def Resolution.Follows (tables : List TableRef) (resolution : Resolution)
    (condition key : String) : Prop :=
  (condition ∈ resolution.residual ∨
    ∃ position, condition ∈ resolution.chain.conditions position) ∧
  ∀ position, condition ∈ resolution.chain.conditions position →
    ∃ earlier ≤ position, resolution.chain.Introduces tables key earlier

variable {strict : Bool} {anchors : List TableRef} {entries : List JoinEntry}
  {resolution : Resolution} {join : Join} {key : String}

/-- Only verbatim text can carry a condition that is not its own. -/
theorem Link.carried_none (link : Link) : link.carried none = link.conditions := by
  cases link <;> exact List.append_nil _

/-- Only a join that is forced in can be written out as text, so without one the condition is with a
step or left over. -/
theorem Resolution.residual_or_attached
    (resolved : resolveJoins strict anchors entries = .ok resolution)
    (unforced : resolution.forced = 0) (given : .descriptor join ∈ entries)
    (filled : join.condition ≠ "") :
    join.condition ∈ resolution.residual ∨
      ∃ position, join.condition ∈ resolution.chain.conditions position := by
  obtain ⟨ordered, links, conserved⟩ := Resolution.carried_of_resolved resolved
  rw [countP_isForced_eq_zero_iff.mp unforced] at conserved
  have own : join.condition ∈ join.conditions := by simp [Join.conditions, filled]
  have kept : join.condition ∈ (entries.filterMap JoinEntry.descriptor?).flatMap Join.conditions :=
    List.mem_flatMap.mpr ⟨join, List.mem_filterMap.mpr ⟨_, given, rfl⟩, own⟩
  obtain linked | left := List.mem_append.mp (conserved.subset kept)
  · obtain ⟨link, member, inside⟩ := List.mem_flatMap.mp linked
    obtain ⟨position, found⟩ := List.getElem?_of_mem member
    have front := (List.getElem?_eq_some_iff.mp found).1
    refine .inr ⟨position, ?_⟩
    rw [Chain.conditions, links, List.getElem?_append_left front, found]
    rwa [Link.carried_none] at inside
  · exact .inl left

/-- Without a forced join, the condition of a join goes to no step before the table with a plain key
that it mentions. A key that is not plain makes no join wait, whatever the conditions say. -/
theorem resolveJoins_follows_mentions
    (resolved : resolveJoins strict anchors entries = .ok resolution)
    (unforced : resolution.forced = 0) (given : .descriptor join ∈ entries)
    (known : key ∈ knownKeys anchors (entries.filterMap JoinEntry.descriptor?))
    (mentions : Join.Mentions key join.condition) :
    (Join.isPlain key = true →
      resolution.Follows (anchors ++ (entries.filterMap JoinEntry.descriptor?).flatMap Join.tables)
        join.condition key) ∧
    (Join.isPlain key = false → ∀ other : Join,
      key ∉ other.dependencies
        (knownKeys anchors (entries.filterMap JoinEntry.descriptor?))) := by
  constructor
  · intro plain
    refine ⟨Resolution.residual_or_attached resolved unforced given mentions.ne_empty, ?_⟩
    obtain ⟨joins, done, rfl, finished, rfl⟩ := resolveJoins_eq_ok_iff.mp resolved
    have ordered := Progress.run_preserves (Progress.Ordered.step rfl)
      (Progress.Ordered.start anchors _) finished
    have final := (ordered.chain unforced).foldl_pushVerbatim
      ((entries.filterMap JoinEntry.raw?).map Text.trim)
    intro position attached
    exact final.grounded position join.condition attached key
      (Join.mem_qualifiers_iff.mpr ⟨known, plain, mentions⟩)
  · intro quoted other depends
    have plain := (Join.mem_qualifiers_iff.mp (List.mem_of_mem_filter depends)).2.1
    rw [quoted] at plain
    contradiction

namespace OrderLines

def orders : TableRef := .ofText "orders"

def lines : Join := .unary .inner "lines l" "l.order = orders.id AND l.item = i.id"

def items : Join := .unary .left "items AS i" "i.order = orders.id"

def chain : Chain where
  links := [.table "orders", .step .left "items AS i" ["i.order = orders.id"],
    .step .inner "lines l" ["l.order = orders.id AND l.item = i.id"]]
  introduced := [("orders", 0), ("i", 1), ("l", 2)]
  residual := []

def history : List Event := [.postponed lines, .placed items, .placed lines]

end OrderLines

open OrderLines in
theorem resolveJoins_follows_mentions_orderLines :
    resolveJoins true [orders] [.descriptor lines, .descriptor items] = .ok ⟨chain, history⟩ ∧
      Resolution.Follows [orders, lines.right, items.right] ⟨chain, history⟩
        lines.condition "i" := by
  have resolved : resolveJoins true [orders] [.descriptor lines, .descriptor items] =
      .ok ⟨chain, history⟩ := by decide +kernel
  have mentions : Join.Mentions "i" lines.condition :=
    ⟨"l.order = orders.id AND l.item = ".toList, [], [], "id".toList, by decide +kernel,
      by decide +kernel, rfl, rfl⟩
  exact ⟨resolved, (resolveJoins_follows_mentions resolved rfl (by simp) (by decide +kernel)
    mentions).1 (by decide +kernel)⟩

namespace QuotedOrderLines

open OrderLines (orders)

/-- It mentions one table by a quoted alias and one by the schema that it is in. -/
def lines : Join := .unary .inner "lines l" "l.item = \"i\".id AND l.price = shop.prices.id"

def items : Join := .unary .left "items AS \"i\"" "\"i\".order = orders.id"

def prices : Join := .unary .left "shop.prices" "shop.prices.order = orders.id"

def chain : Chain where
  links := [.table "orders",
    .step .inner "lines l" ["l.item = \"i\".id AND l.price = shop.prices.id"],
    .step .left "items AS \"i\"" ["\"i\".order = orders.id"],
    .step .left "shop.prices" ["shop.prices.order = orders.id"]]
  introduced := [("orders", 0), ("l", 1), ("\"i\"", 2), ("shop.prices", 3)]
  residual := []

def history : List Event := [.placed lines, .placed items, .placed prices]

end QuotedOrderLines

open OrderLines (orders) in
open QuotedOrderLines in
/-- A condition on a quoted alias and on a table of a schema is placed before both tables. -/
theorem quoted_and_schema_keys_missed :
    resolveJoins true [orders] [.descriptor lines, .descriptor items, .descriptor prices] =
        .ok ⟨chain, history⟩ ∧
      Resolution.forced ⟨chain, history⟩ = 0 ∧
      ∀ key ∈ ["\"i\"", "shop.prices"], key ∈ knownKeys [orders] [lines, items, prices] ∧
        Join.Mentions key lines.condition ∧
        ¬Resolution.Follows ([orders] ++ [lines, items, prices].flatMap Join.tables)
          ⟨chain, history⟩ lines.condition key := by
  refine ⟨by decide +kernel, rfl, ?_⟩
  have attached : lines.condition ∈ chain.conditions 1 := by decide +kernel
  have late : ∀ key ∈ ["\"i\"", "shop.prices"], ∀ earlier ≤ 1,
      chain.position? key ≠ some earlier := by decide +kernel
  have mentioned : ∀ key ∈ ["\"i\"", "shop.prices"], Join.Mentions key lines.condition := by
    rw [List.forall_mem_cons, List.forall_mem_singleton]
    exact ⟨⟨"l.item = ".toList, [], [], "id AND l.price = shop.prices.id".toList,
        by decide +kernel, by decide +kernel, rfl, rfl⟩,
      ⟨"l.item = \"i\".id AND l.price = ".toList, [], [], "id".toList,
        by decide +kernel, by decide +kernel, rfl, rfl⟩⟩
  intro key member
  refine ⟨?_, mentioned key member, ?_⟩
  · revert key
    decide +kernel
  · rintro ⟨_, after⟩
    obtain ⟨earlier, before, introduces, _⟩ := after 1 attached
    exact late key member earlier before introduces

end SelectCompiler
