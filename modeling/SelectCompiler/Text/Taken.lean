/-!
Reading from the front of a list, for the most part of characters. Every reading step hands on what
stands behind it together with the fact that this is shorter, so reading ends.
-/

namespace SelectCompiler

/-- What was read from the front of `items`, and what stands behind it. -/
structure Taken {σ : Type} (α : Type) (items : List σ) where
  value : α
  rest : List σ
  shorter : rest.length < items.length

namespace Taken

/-- The same items taken for another value. -/
def map {σ α β : Type} {items : List σ} (f : α → β) (taken : Taken α items) : Taken β items :=
  ⟨f taken.value, taken.rest, taken.shorter⟩

/-- What was taken from items that are no more than others, as taken from those. -/
def within {σ α : Type} {items more : List σ} (taken : Taken α items)
    (fewer : items.length ≤ more.length) : Taken α more :=
  ⟨taken.value, taken.rest, Nat.lt_of_lt_of_le taken.shorter fewer⟩

/-- A value read from a single item. -/
def one {σ α : Type} (value : α) (item : σ) (rest : List σ) : Taken α (item :: rest) :=
  ⟨value, rest, Nat.lt_succ_self _⟩

/-- What was taken when some more items stand in front, which are skipped. -/
def behind {σ α : Type} {items : List σ} (front : List σ) (taken : Taken α items) :
    Taken α (front ++ items) :=
  taken.within (by rw [List.length_append]; exact Nat.le_add_left _ _)

/-- What was taken from items that are fewer than others, as taken from those. -/
def beyond {σ α : Type} {items more : List σ} (taken : Taken α items)
    (fewer : items.length < more.length) : Taken α more :=
  taken.within (Nat.le_of_lt fewer)

/-- What was taken behind something else, as taken from all items. -/
def followed {σ α β : Type} {items : List σ} (first : Taken α items) (more : Taken β first.rest) :
    Taken β items :=
  more.beyond first.shorter

/-- A reading step that may take nothing, as one that may not. -/
def ofRead? {σ α : Type} {items : List σ} (read : Option (α × List σ)) :
    Option (Taken α items) :=
  read.bind fun (value, rest) =>
    if shorter : rest.length < items.length then some ⟨value, rest, shorter⟩ else none

/-- The first of the items behind a gap, when the gap is closed and not all there is. -/
def head? {σ : Type} {items : List σ} (behind : Option (List σ)) : Option (Taken σ items) :=
  ofRead? (behind.bind fun
    | first :: rest => some (first, rest)
    | [] => none)

end Taken

end SelectCompiler
