import SelectCompiler.Error

/-!
Results that may be faults: when a chain of them succeeds, and when two of them agree.
-/

namespace SelectCompiler

theorem bind_eq_ok_iff {ε α β : Type} {first : Except ε α} {next : α → Except ε β} {result : β} :
    (first >>= next) = .ok result ↔ ∃ value, first = .ok value ∧ next value = .ok result := by
  cases first with
  | error fault => simp [bind, Except.bind]
  | ok value => simp [bind, Except.bind]

theorem bind_eq_error_iff {ε α β : Type} {first : Except ε α} {next : α → Except ε β} {fault : ε} :
    (first >>= next) = .error fault ↔
      first = .error fault ∨ ∃ value, first = .ok value ∧ next value = .error fault := by
  cases first with
  | error other => simp [bind, Except.bind]
  | ok value => simp [bind, Except.bind]

theorem pure_ne_error {ε α : Type} {value : α} {fault : ε} :
    (pure value : Except ε α) ≠ .error fault := nofun

/-- Something is returned if there is no fault. -/
theorem exists_ok_iff {ε α : Type} {result : Except ε α} :
    (∃ value, result = .ok value) ↔ ∀ fault, result ≠ .error fault := by
  cases result <;> simp

theorem ok_eq_ok_iff {ε α : Type} {value result : α} :
    (.ok value : Except ε α) = .ok result ↔ result = value := by
  rw [Except.ok.injEq, eq_comm]

theorem pure_eq_ok_iff {ε α : Type} {value result : α} :
    (pure value : Except ε α) = .ok result ↔ result = value :=
  ok_eq_ok_iff

theorem map_eq_ok_iff {ε α β : Type} {first : Except ε α} {next : α → β} {result : β} :
    next <$> first = .ok result ↔ ∃ value, first = .ok value ∧ result = next value := by
  rw [← bind_pure_comp, bind_eq_ok_iff]
  simp only [pure_eq_ok_iff]

theorem map_eq_error_iff {ε α β : Type} {first : Except ε α} {next : α → β} {fault : ε} :
    next <$> first = .error fault ↔ first = .error fault := by
  cases first <;> simp [Functor.map, Except.map]

/-- What is returned has the property, if anything is returned. -/
def Yields {α : Type} (property : α → Prop) (result : Except Error α) : Prop :=
  ∀ value, result = .ok value → property value

namespace Yields

variable {α β : Type} {property : α → Prop} {other : β → Prop}

theorem ok {value : α} (holds : property value) : Yields property (.ok value) := by
  intro result returned
  rw [ok_eq_ok_iff.mp returned]
  exact holds

theorem error (fault : Error) : Yields property (.error fault) := by
  intro result returned
  contradiction

theorem any (result : Except Error α) : Yields (fun _ => True) result := fun _ _ => trivial

theorem bind {first : Except Error α} {next : α → Except Error β} (before : Yields property first)
    (after : ∀ value, property value → Yields other (next value)) :
    Yields other (first >>= next) := by
  intro result returned
  obtain ⟨value, succeeded, continued⟩ := bind_eq_ok_iff.mp returned
  exact after value (before value succeeded) result continued

end Yields

/-- What shows of a result: a view of what is returned, or the kind of the fault. -/
def seen {α β : Type} (view : α → β) : Except Error α → Except Error.Kind β
  | .ok value => .ok (view value)
  | .error fault => .error fault.kind

section Seen

variable {α β γ δ : Type} {view : α → γ} {outer : β → δ} {first second : Except Error α}

theorem seen_bind {next after : α → Except Error β} (same : seen view first = seen view second)
    (continued : ∀ value other, view value = view other →
      seen outer (next value) = seen outer (after other)) :
    seen outer (first >>= next) = seen outer (second >>= after) := by
  cases first with
  | error fault =>
    cases second with
    | error other => exact congrArg Except.error (Except.error.inj same)
    | ok other => contradiction
  | ok value =>
    cases second with
    | error other => contradiction
    | ok other => exact continued value other (Except.ok.inj same)

theorem seen_bind_of_same {next after : α → Except Error β} (same : seen id first = seen id second)
    (continued : ∀ value, seen outer (next value) = seen outer (after value)) :
    seen outer (first >>= next) = seen outer (second >>= after) := by
  refine seen_bind same fun value other equal => ?_
  cases equal
  exact continued value

/-- Two results that show the same are faults of one kind or are both returned. -/
theorem seen_eq_seen_iff :
    seen view first = seen view second ↔
      (∃ fault other, first = .error fault ∧ second = .error other ∧ fault.kind = other.kind) ∨
        ∃ value other, first = .ok value ∧ second = .ok other ∧ view value = view other := by
  cases first <;> cases second <;> simp [seen]

end Seen

end SelectCompiler
