import SelectCompiler.Proofs.Postgres.Renumbering
import SelectCompiler.Proofs.Where.Rendering

/-!
The text of a filter with its placeholders rewritten. If the caller's texts hold no mark that has a
position, it is the text of the filter with its placeholders written the other way.
-/

namespace SelectCompiler

open Placeholder (indices renumber rewritten)

/-- No mark in the text has a position. -/
def Placeholder.Free (position? : Nat → Option Nat) (text : String) : Prop :=
  ∀ index ∈ indices text, position? index = none

variable {position? : Nat → Option Nat} {index : Nat}

theorem Placeholder.renumber_trim {text : String} (free : Free position? text) :
    renumber position? (Text.trim text) = Text.trim text := by
  apply renumber_eq_self
  rw [indices_trim]
  exact free

theorem Condition.renumber_rendered {condition : Condition}
    (field : Placeholder.Free position? condition.field)
    (comparator : Placeholder.Free position? condition.comparator)
    (fits : condition.isBound = true → index < Text.wordSize) :
    renumber position? (condition.rendered (Placeholder.write index)) =
      condition.rendered (rewritten position? index) := by
  have kept : renumber position? (Text.trim condition.field) = Text.trim condition.field :=
    Placeholder.renumber_trim field
  unfold Condition.rendered
  by_cases isBound : condition.isBound = true
  · have compared : renumber position? (Where.comparison condition.comparator) =
        Where.comparison condition.comparator := by
      apply Placeholder.renumber_eq_self
      rw [Where.indices_comparison]
      exact comparator
    rw [if_pos isBound, if_pos isBound, Placeholder.renumber_glue (by decide),
      Placeholder.renumber_glue (by decide), kept, compared,
      Placeholder.renumber_write (fits isBound)]
  · rw [if_neg isBound, if_neg isBound, Placeholder.renumber_glue (by decide), kept,
      Placeholder.renumber_trim comparator]

mutual
theorem Predicate.renumber_rendered {index : Nat} : ∀ node : Predicate,
    (∀ text ∈ node.texts, Placeholder.Free position? text) →
    index + node.boundLeaves.length ≤ Text.wordSize →
      renumber position? (node.rendered Placeholder.write index) =
        node.rendered (rewritten position?) index
  | .leaf condition, free, fits => by
    rw [Predicate.boundLeaves_leaf] at fits
    rw [Predicate.rendered, Predicate.rendered]
    apply Condition.renumber_rendered
    · exact free condition.field (by simp [Predicate.texts])
    · exact free condition.comparator (by simp [Predicate.texts])
    · intro isBound
      rw [if_pos isBound] at fits
      exact fits
  | .raw sql _, free, _ => by
    rw [Predicate.rendered, Predicate.rendered]
    exact Placeholder.renumber_trim (free sql (by simp [Predicate.texts]))
  | .group _ children, free, fits => by
    have closing : Placeholder.Free position? ")" := by
      rw [Placeholder.Free, Placeholder.indices_eq_nil_of_plain (by decide)]
      exact fun _ member => nomatch member
    rw [Predicate.rendered, Predicate.rendered, String.append_assoc,
      Placeholder.renumber_append_of_plain (by decide),
      Placeholder.renumber_append _ (by decide), Placeholder.renumber_eq_self closing,
      PredicateTree.renumber_rendered children free fits, String.append_assoc]

/-- Rewriting the placeholders of a filter leaves the rest of its text alone if the caller's texts
hold no mark that has a position. -/
theorem PredicateTree.renumber_rendered {index : Nat} : ∀ nodes : List Predicate,
    (∀ text ∈ PredicateTree.texts nodes, Placeholder.Free position? text) →
    index + (PredicateTree.boundLeaves nodes).length ≤ Text.wordSize →
      renumber position? (PredicateTree.rendered Placeholder.write index nodes) =
        PredicateTree.rendered (rewritten position?) index nodes
  | [], _, _ => by
    rw [PredicateTree.rendered, PredicateTree.rendered]
    exact Placeholder.renumber_eq_self nofun
  | node :: rest, free, fits => by
    rw [PredicateTree.texts, List.forall_mem_append] at free
    rw [PredicateTree.boundLeaves_cons, List.length_append] at fits
    rw [PredicateTree.rendered, PredicateTree.rendered,
      Placeholder.renumber_append _ (PredicateTree.leadingDigits_renderedBehind _ _ _),
      node.renumber_rendered free.1 (by omega),
      PredicateTree.renumber_renderedBehind rest free.2 (by omega)]

theorem PredicateTree.renumber_renderedBehind {index : Nat} : ∀ nodes : List Predicate,
    (∀ text ∈ PredicateTree.texts nodes, Placeholder.Free position? text) →
    index + (PredicateTree.boundLeaves nodes).length ≤ Text.wordSize →
      renumber position? (PredicateTree.renderedBehind Placeholder.write index nodes) =
        PredicateTree.renderedBehind (rewritten position?) index nodes
  | [], _, _ => by
    rw [PredicateTree.renderedBehind, PredicateTree.renderedBehind]
    exact Placeholder.renumber_eq_self nofun
  | node :: rest, free, fits => by
    rw [PredicateTree.texts, List.forall_mem_append] at free
    rw [PredicateTree.boundLeaves_cons, List.length_append] at fits
    rw [PredicateTree.renderedBehind, PredicateTree.renderedBehind,
      Placeholder.renumber_append _ (PredicateTree.leadingDigits_renderedBehind _ _ _),
      Placeholder.renumber_append_of_plain (Where.percent_not_mem_lead _),
      node.renumber_rendered free.1 (by omega),
      PredicateTree.renumber_renderedBehind rest free.2 (by omega)]
end

end SelectCompiler
