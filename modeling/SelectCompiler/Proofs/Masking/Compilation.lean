import SelectCompiler.Proofs.Masking.Reading
import SelectCompiler.Proofs.Statement.Revision
import SelectCompiler.Statement.Document

/-!
Bound values never reach the text of a statement. Compiling a statement with a masked filter gives
the same query with masked parameters, and so a document shows the same text, indices and types, or
the same kind of fault, whatever scalars its filter binds.
-/

namespace SelectCompiler

/-- What shows of a query beside the values it binds. -/
def Query.outline (query : Query) : String × List (Nat × TypeHint) × Nat :=
  (query.sql, query.parameters.map fun parameter => (parameter.index, parameter.hint), query.next)

namespace Statement

def mask (statement : Statement) : Statement :=
  { statement with filter := PredicateTree.mask statement.filter }

theorem mask_eq_revise (statement : Statement) : statement.mask = statement.revise .masked := by
  rw [mask, revise, PredicateTree.mask_eq_revise]

theorem compile_mask (statement : Statement) :
    seen Query.outline statement.mask.compile = seen Query.outline statement.compile := by
  rw [mask_eq_revise, Revision.masked, statement.compile_revise fun _ =>
    Where.rewrites_pointwise (fun _ => Json.mask_eq_null_iff) fun _ => Json.isStructured_mask]
  cases statement.compile with
  | error fault => rfl
  | ok query =>
    refine congrArg Except.ok ?_
    simp only [Query.outline, Query.mapParameters, List.map_map]
    rfl

theorem compile_seen {first second : Statement} (same : first.mask = second.mask) :
    seen Query.outline first.compile = seen Query.outline second.compile := by
  rw [← first.compile_mask, same, second.compile_mask]

end Statement

/-- What masking the filter of a document makes of the value under a key. -/
def Json.maskSection (key : String) (value : Json) : Json :=
  if key = filterKey then value.maskBound else value

/-- A statement document with the bound values of its filter masked. -/
def Json.maskFilter : Json → Json
  | .object members => .object (members.map fun member => (member.1, maskSection member.1 member.2))
  | value => value

namespace Document

def mask (document : Document) : Document :=
  { document with filter := document.filter.maskBound }

theorem get?_maskSection {members : Json.Members} {key : String} (other : key ≠ filterKey) :
    Json.Members.get?
        (members.map fun member => (member.1, Json.maskSection member.1 member.2)) key =
      members.get? key := by
  rw [Json.Members.get?_map, show Json.maskSection key = id from funext fun _ => if_neg other,
    Option.map_id_fun, id]

/-- Masking changes nothing that is read but the filter. -/
theorem read_maskFilter (value : Json) : read value.maskFilter = mask <$> read value := by
  cases value with
  | object members =>
    have filter : (Json.Members.get? (members.map fun member =>
        (member.1, Json.maskSection member.1 member.2)) filterKey).getD .null =
          ((Json.Members.get? members filterKey).getD .null).maskBound := by
      rw [Json.Members.get?_map]
      cases Json.Members.get? members filterKey <;> rfl
    -- Each section but the filter stands under a key of its own.
    simp (disch := decide) only [Json.maskFilter, read, sectionAt, map_bind, filter,
      get?_maskSection]
    rfl
  | _ => rfl

theorem toStatement_seen (document : Document) (settings : Settings) :
    seen Statement.mask (document.mask.toStatement settings) =
      seen Statement.mask (document.toStatement settings) := by
  unfold toStatement
  cases given : document.selects with
  | none => simp only [mask, given]
  | some selects =>
    simp only [mask, given]
    split
    · rfl
    · refine seen_bind_of_same rfl fun statement => ?_
      refine seen_bind_of_same rfl fun joins => ?_
      refine seen_bind (PredicateTree.read_seen _ _) fun filter other same => ?_
      simp only [seen, pure, Except.pure, Statement.mask, same]

theorem compile_seen (document : Document) (settings : Settings) :
    seen Query.outline (document.mask.compile settings) =
      seen Query.outline (document.compile settings) :=
  seen_bind (document.toStatement_seen settings) fun _ _ same => Statement.compile_seen same

end Document

theorem compileDocument_seen (settings : Settings) (value : Json) :
    seen Query.outline (compileDocument settings value.maskFilter) =
      seen Query.outline (compileDocument settings value) := by
  rw [compileDocument, Document.read_maskFilter, bind_map_left, compileDocument]
  exact seen_bind_of_same rfl fun document => document.compile_seen settings

/-- Two documents whose filters differ in bound scalars alone both fail with the same kind of
fault, or both have a query, with the same text and the same indices and types of parameters. -/
theorem compileDocument_blind (settings : Settings) {first second : Json}
    (same : first.maskFilter = second.maskFilter) :
    (∃ fault other, compileDocument settings first = .error fault ∧
        compileDocument settings second = .error other ∧ fault.kind = other.kind) ∨
      ∃ query other, compileDocument settings first = .ok query ∧
        compileDocument settings second = .ok other ∧ query.sql = other.sql ∧
        query.next = other.next ∧
        query.parameters.map (fun parameter => (parameter.index, parameter.hint)) =
          other.parameters.map fun parameter => (parameter.index, parameter.hint) := by
  have shown : seen Query.outline (compileDocument settings first) =
      seen Query.outline (compileDocument settings second) := by
    rw [← compileDocument_seen, same, compileDocument_seen]
  refine (seen_eq_seen_iff.mp shown).imp_right ?_
  rintro ⟨query, other, found, foundOther, outline⟩
  simp only [Query.outline, Prod.mk.injEq] at outline
  obtain ⟨sql, parameters, next⟩ := outline
  exact ⟨query, other, found, foundOther, sql, next, parameters⟩

/-- A search by name in a label map, and by age in a group with a text of its own. -/
def searchDocument (name age : Json) : Json :=
  .object
    [("SELECTS", .string "c.id"), ("TABLES", .string "contacts c"),
      ("WHERES", .object
        [("0", .object [("field", .string "c.name"), ("value", name)]),
          ("or", .array
            [.object [("field", .string "c.age"), ("comp", .string ">"), ("value", age),
              ("type", .string "Integer")], .string "c.vip"])])]

theorem compileDocument_blind_searchDocument :
    ∃ query,
      compileDocument {} (searchDocument (.ofNat 7) (.string "0; DROP TABLE c")) = .ok query ∧
      query.sql = "SELECT c.id FROM contacts c WHERE c.name = %0 OR (c.age > %1 AND c.vip)" ∧
      query.parameters.map (fun parameter => (parameter.index, parameter.hint)) =
        [(0, .string), (1, .integer)] := by
  have same : (searchDocument (.string "Ann") (.ofNat 30)).maskFilter =
      (searchDocument (.ofNat 7) (.string "0; DROP TABLE c")).maskFilter := rfl
  have compiled : compileDocument {} (searchDocument (.string "Ann") (.ofNat 30)) = .ok
      ⟨"SELECT c.id FROM contacts c WHERE c.name = %0 OR (c.age > %1 AND c.vip)",
        [⟨0, .string "Ann", .string⟩, ⟨1, .ofNat 30, .integer⟩], 2⟩ := by decide +kernel
  obtain ⟨_, _, failed, _⟩ | ⟨query, other, found, foundOther, sql, _, parameters⟩ :=
    compileDocument_blind {} same
  · rw [compiled] at failed
    contradiction
  · rw [compiled] at found
    cases found
    exact ⟨other, foundOther, sql.symm, parameters.symm⟩

end SelectCompiler
