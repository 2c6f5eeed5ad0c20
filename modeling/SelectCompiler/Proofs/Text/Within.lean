import SelectCompiler.Text.Blank

/-!
Texts that stand within others, word for word.
-/

namespace SelectCompiler.Text

/-- The text has the part in it, word for word. -/
def Within (part text : String) : Prop :=
  ∃ before after, text = before ++ part ++ after

namespace Within

variable {part text whole : String}

theorem refl (text : String) : Within text text :=
  ⟨"", "", by simp⟩

theorem trans (inner : Within part text) (outer : Within text whole) : Within part whole := by
  obtain ⟨before, after, rfl⟩ := inner
  obtain ⟨front, back, rfl⟩ := outer
  exact ⟨front ++ before, after ++ back, by simp only [String.append_assoc]⟩

theorem behind (lead : String) (within : Within part text) : Within part (lead ++ text) := by
  obtain ⟨before, after, rfl⟩ := within
  exact ⟨lead ++ before, after, by simp only [String.append_assoc]⟩

theorem before (trail : String) (within : Within part text) : Within part (text ++ trail) := by
  obtain ⟨front, after, rfl⟩ := within
  exact ⟨front, after ++ trail, by simp only [String.append_assoc]⟩

theorem intercalate {separator : String} {list : List String} (member : part ∈ list) :
    Within part (separator.intercalate list) := by
  induction list with
  | nil => contradiction
  | cons first rest ih =>
    by_cases last : rest = []
    · rw [last, List.mem_singleton] at member
      rw [last, member, String.intercalate_singleton]
      exact refl first
    · rw [String.intercalate_cons_of_ne_nil last]
      obtain rfl | later := List.mem_cons.mp member
      · exact ((refl part).before separator).before _
      · exact (ih later).behind _

end Within

end SelectCompiler.Text
