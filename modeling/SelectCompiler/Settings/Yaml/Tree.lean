import SelectCompiler.Settings.Yaml.Node
import SelectCompiler.Settings.Yaml.Token
import SelectCompiler.Text.Taken

/-!
The nodes of a YAML document, read from its tokens. A node may have a tag and an anchor, under which
it can be repeated.
-/

namespace SelectCompiler.Yaml

/-- What names stand for. An anchor has no node until the end of what it stands before. -/
structure Names where
  /-- What the handles of tags stand for. -/
  handles : List (String × String) := []
  /-- Names with the numbers of their anchors, the latest first. -/
  anchors : List (String × Nat) := []
  /-- The nodes behind anchors. -/
  nodes : List (Nat × Node) := []

namespace Names

def anchor (names : Names) (name : String) : Names :=
  { names with anchors := (name, names.anchors.length) :: names.anchors }

def repeated? (names : Names) (name : String) : Option Node :=
  (names.anchors.lookup name).map fun number => (names.nodes.lookup number).getD .misfit

/-- Put a node behind the anchor before it. -/
def keep (names : Names) (anchor? : Option Nat) (node : Node) : Names :=
  match anchor? with
  | some number => { names with nodes := (number, node) :: names.nodes }
  | none => names

end Names

/-- The tag and the anchor before a node, and the tokens behind them. -/
structure Properties (tokens : List Token) where
  tag? : Option Tag
  anchor? : Option Nat
  names : Names
  rest : List Token
  notLonger : rest.length ≤ tokens.length

/-- What stands before a node, in either order. -/
def properties? (names : Names) (tokens : List Token) : Option (Properties tokens) :=
  match tokens with
  | .anchor name :: .tag tag :: rest =>
    (tag.resolve? names.handles).map fun tag =>
      ⟨some tag, some names.anchors.length, names.anchor name, rest, by
        simp only [List.length_cons]
        omega⟩
  | .tag tag :: .anchor name :: rest =>
    (tag.resolve? names.handles).map fun tag =>
      ⟨some tag, some names.anchors.length, names.anchor name, rest, by
        simp only [List.length_cons]
        omega⟩
  | .anchor name :: rest =>
    some ⟨none, some names.anchors.length, names.anchor name, rest, by simp⟩
  | .tag tag :: rest =>
    (tag.resolve? names.handles).map fun tag => ⟨some tag, none, names, rest, by simp⟩
  | tokens => some ⟨none, none, names, tokens, Nat.le_refl _⟩

/-- Whether a key or a value has been left out before a token. -/
def Token.isBehindNothing (inPair : Bool) : Token → Bool
  | key | value | blockEnd | comma | flowSequenceEnd | flowMappingEnd => true
  | entry => !inPair
  | _ => false

/-- What has been read, perhaps nothing, with the names as they are behind it. -/
structure Left (α : Type) (tokens : List Token) where
  value : α
  names : Names
  rest : List Token
  notLonger : rest.length ≤ tokens.length

mutual
/-- A node. Only in a block may it be one, and only in a pair may it be items without a block. -/
def node? (inBlock inPair : Bool) (names : Names) (tokens : List Token) :
    Option (Taken (Node × Names) tokens) :=
  match tokens with
  | .alias name :: rest => (names.repeated? name).map fun node => ⟨(node, names), rest, by simp⟩
  | tokens =>
    (properties? names tokens).bind fun ⟨tag?, anchor?, names, rest, notLonger⟩ =>
      let nothing? : Option (Taken (Node × Names) tokens) :=
        if shorter : rest.length < tokens.length then
          some ⟨(Node.ofNothing tag?, names), rest, shorter⟩
        else none
      let content? : Option (Taken (Node × Names) tokens) :=
        match rest, inBlock, inPair with
        | .text isPlain content :: behind, _, _ =>
          some ⟨(Node.ofScalar isPlain tag? content, names), behind, notLonger⟩
        | .flowSequence :: behind, _, _ =>
          (flowItems? .flowSequenceEnd names behind).map fun ⟨(items, names), last, _⟩ =>
            ⟨(Node.ofItems (items.map Prod.fst), names), last, by simp at notLonger; omega⟩
        | .flowMapping :: behind, _, _ =>
          (flowItems? .flowMappingEnd names behind).map fun ⟨(items, names), last, _⟩ =>
            ⟨(Node.ofKeysAndValues (items.flatMap Prod.snd), names), last, by
              simp at notLonger
              omega⟩
        | .blockSequence :: behind, true, _ =>
          (blockItems? names behind).map fun ⟨(items, names), last, _⟩ =>
            ⟨(Node.ofItems items, names), last, by simp at notLonger; omega⟩
        | .blockMapping :: behind, true, _ =>
          (blockPairs? names behind).map fun ⟨(nodes, names), last, _⟩ =>
            ⟨(Node.ofKeysAndValues nodes, names), last, by simp at notLonger; omega⟩
        | .entry :: behind, _, true =>
          (looseItems? names (.entry :: behind)).bind fun ⟨items, names, last, _⟩ =>
            if shorter : last.length < tokens.length then
              some ⟨(Node.ofItems items, names), last, shorter⟩
            else none
        | _, _, _ => nothing?
      content?.map fun content =>
        content.map fun (node, names) => (node, names.keep anchor? node)
termination_by 5 * tokens.length + 1
decreasing_by
  all_goals
    simp only [List.length_cons] at notLonger ⊢
    omega

/-- A node, or nothing where one has been left out. -/
def slot? (inBlock inPair : Bool) (names : Names) (tokens : List Token) :
    Option (Left Node tokens) :=
  if tokens.head?.any (·.isBehindNothing inPair) then
    some ⟨.null, names, tokens, Nat.le_refl _⟩
  else
    (node? inBlock inPair names tokens).map fun ⟨(node, names), rest, shorter⟩ =>
      ⟨node, names, rest, Nat.le_of_lt shorter⟩
termination_by 5 * tokens.length + 2

/-- A key with its value, each of which may be left out. -/
def pair? (inBlock : Bool) (names : Names) (tokens : List Token) :
    Option (Taken (Node × Node × Names) tokens) :=
  match tokens with
  | .value :: rest =>
    (slot? inBlock inBlock names rest).map fun ⟨value, names, last, _⟩ =>
      ⟨(.null, value, names), last, by simp; omega⟩
  | .key :: rest =>
    (slot? inBlock inBlock names rest).bind fun ⟨key, names, behind, _⟩ =>
      match behind with
      | .value :: behind =>
        (slot? inBlock inBlock names behind).map fun ⟨value, names, last, _⟩ =>
          ⟨(key, value, names), last, by simp at *; omega⟩
      | behind => some ⟨(key, .null, names), behind, by simp; omega⟩
  | _ => none
termination_by 5 * tokens.length + 3
decreasing_by
  all_goals
    simp only [List.length_cons] at *
    omega

/-- The items of a sequence in a block of its own. -/
def blockItems? (names : Names) (tokens : List Token) :
    Option (Taken (List Node × Names) tokens) :=
  match tokens with
  | .blockEnd :: rest => some ⟨([], names), rest, by simp⟩
  | .entry :: rest =>
    (slot? true false names rest).bind fun ⟨item, names, behind, _⟩ =>
      (blockItems? names behind).map fun ⟨(items, names), last, _⟩ =>
        ⟨(item :: items, names), last, by simp; omega⟩
  | _ => none
termination_by 5 * tokens.length

/-- The items of a sequence at the column of the key before it. -/
def looseItems? (names : Names) (tokens : List Token) : Option (Left (List Node) tokens) :=
  match tokens with
  | .entry :: rest =>
    (slot? true false names rest).bind fun ⟨item, names, behind, _⟩ =>
      (looseItems? names behind).map fun ⟨items, names, last, _⟩ =>
        ⟨item :: items, names, last, by simp; omega⟩
  | tokens => some ⟨[], names, tokens, Nat.le_refl _⟩
termination_by 5 * tokens.length

/-- The keys and values of a mapping in a block. -/
def blockPairs? (names : Names) (tokens : List Token) :
    Option (Taken (List Node × Names) tokens) :=
  match tokens with
  | .blockEnd :: rest => some ⟨([], names), rest, by simp⟩
  | tokens =>
    (pair? true names tokens).bind fun ⟨(key, value, names), behind, _⟩ =>
      (blockPairs? names behind).map fun ⟨(nodes, names), last, _⟩ =>
        ⟨(key :: value :: nodes, names), last, by omega⟩
termination_by 5 * tokens.length + 4

/-- What stands in a flow collection up to its end: every item as one of a sequence, and as a key
with its value. A comma may stand behind the last. -/
def flowItems? (closing : Token) (names : Names) (tokens : List Token) :
    Option (Taken (List (Node × List Node) × Names) tokens) :=
  match tokens with
  | [] => none
  | token :: rest =>
    if token = closing then some ⟨([], names), rest, by simp⟩
    else
      let item? : Option (Taken ((Node × List Node) × Names) (token :: rest)) :=
        if token = .key ∨ token = .value then
          (pair? false names (token :: rest)).map fun taken =>
            taken.map fun (key, value, names) =>
              ((Node.ofKeysAndValues [key, value], [key, value]), names)
        else
          (node? false false names (token :: rest)).map fun taken =>
            taken.map fun (node, names) => ((node, [node, .null]), names)
      item?.bind fun ⟨(item, names), behind, _⟩ =>
        match behind with
        | .comma :: behind =>
          (flowItems? closing names behind).map fun ⟨(items, names), last, _⟩ =>
            ⟨(item :: items, names), last, by simp at *; omega⟩
        | mark :: behind =>
          if mark = closing then some ⟨([item], names), behind, by simp at *; omega⟩ else none
        | [] => none
termination_by 5 * tokens.length + 4
decreasing_by
  all_goals
    simp only [List.length_cons] at *
    omega
end

/-- The directives at the front, the latest first, and the tokens behind them. -/
def directives (before : List Directive) : List Token → List Directive × List Token
  | .directive directive :: rest => directives (directive :: before) rest
  | tokens => (before, tokens)

def Directive.handle? : Directive → Option (String × String)
  | handle name meaning => some (name, meaning)
  | _ => none

/-- The node of the only document, if there is one. Its start has to be marked behind directives,
which say at most once what version they are for. -/
def document? (tokens : List Token) : Option (Option Node) :=
  match tokens.dropWhile (· == .documentEnd) with
  | [] => some none
  | tokens =>
    let (given, rest) := directives [] tokens
    let body? : Option (List Token) :=
      match rest with
      | .documentStart :: body => some body
      | body => if given.isEmpty then some body else none
    if 1 < given.count .version then none
    else
      body?.bind fun body =>
        (node? true false { handles := given.filterMap Directive.handle? } body).bind fun root =>
          if root.rest.all (· == .documentEnd) then some (some root.value.1) else none

end SelectCompiler.Yaml
