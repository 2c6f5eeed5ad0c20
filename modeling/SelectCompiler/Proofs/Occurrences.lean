import Mathlib.Data.List.Induction
import Mathlib.Data.List.Nodup

/-!
The values of a list, each where it occurs first.
-/

namespace SelectCompiler

variable {α : Type} [DecidableEq α]

/-- A value at the end of a list is a first occurrence if it is not there yet. -/
theorem eraseDups_concat (list : List α) (last : α) :
    (list ++ [last]).eraseDups =
      if last ∈ list.eraseDups then list.eraseDups else list.eraseDups ++ [last] := by
  rw [List.eraseDups_append]
  by_cases known : last ∈ list
  · have gone : [last].removeAll list = [] := by simp [List.removeAll, known]
    rw [gone, if_pos (List.mem_eraseDups.mpr known), List.eraseDups_nil, List.append_nil]
  · have kept : [last].removeAll list = [last] := by simp [List.removeAll, known]
    rw [kept, if_neg (mt List.mem_eraseDups.mp known)]
    rfl

theorem nodup_eraseDups (list : List α) : list.eraseDups.Nodup := by
  induction list using List.reverseRecOn with
  | nil => exact List.nodup_nil
  | append_singleton earlier last ih =>
    rw [eraseDups_concat]
    by_cases known : last ∈ earlier.eraseDups
    · rwa [if_pos known]
    · rw [if_neg known, List.nodup_append_comm, List.singleton_append, List.nodup_cons]
      exact ⟨known, ih⟩

end SelectCompiler
