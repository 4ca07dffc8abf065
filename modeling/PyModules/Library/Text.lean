import Mathlib.Data.List.Basic
import Mathlib.Tactic.Common

/-!
# Lines

In a text one symbol ends a line, and another may stand between its items. Lines that are
printed one after the other are read back as they were, and so are items that are joined.
-/

namespace Text

variable {α : Type}

/-- Every line with its end. -/
def unlines (newline : α) (ls : List (List α)) : List α := ls.flatMap (· ++ [newline])

variable [DecidableEq α] {newline : α} {ls : List (List α)}

/-- A printed text falls apart at the ends of its lines, with nothing behind the last one. -/
theorem splitOn_unlines (h : ∀ l ∈ ls, newline ∉ l) :
    (unlines newline ls).splitOn newline = ls ++ [[]] := by
  induction ls with
  | nil => rfl
  | cons l ls ih =>
    have hl : newline ∉ l := h l List.mem_cons_self
    have hls := ih fun l' hl' => h l' (List.mem_cons_of_mem l hl')
    have hsplit : unlines newline (l :: ls) = l ++ newline :: unlines newline ls := by
      simp [unlines]
    rw [hsplit, List.splitOn_append_cons_self_of_not_mem hl, hls, List.cons_append]

/-- Texts that are joined behind a symbol that none of them contains can be told apart. -/
theorem intercalate_inj {a : α} {gap : List α} {ls ls' : List (List α)}
    (hlength : ls.length = ls'.length) (hls : ∀ l ∈ ls, a ∉ l) (hls' : ∀ l ∈ ls', a ∉ l)
    (h : (a :: gap).intercalate ls = (a :: gap).intercalate ls') : ls = ls' := by
  induction ls generalizing ls' with
  | nil => exact (List.length_eq_zero_iff.mp hlength.symm).symm
  | cons l rest ih =>
    obtain ⟨l', rest', rfl⟩ := List.exists_cons_of_length_eq_add_one hlength.symm
    have hrest : rest.length = rest'.length := Nat.succ.inj hlength
    have hl : a ∉ l := hls l List.mem_cons_self
    have hl' : a ∉ l' := hls' l' List.mem_cons_self
    by_cases hne : rest = []
    · have hne' : rest' = [] := List.length_eq_zero_iff.mp (by rw [← hrest, hne, List.length_nil])
      subst hne
      subst hne'
      simpa using h
    · have hne' : rest' ≠ [] := by
        rintro rfl
        exact hne (List.length_eq_zero_iff.mp hrest)
      rw [List.intercalate_cons_of_ne_nil hne, List.intercalate_cons_of_ne_nil hne',
        List.append_assoc, List.append_assoc, List.cons_append, List.cons_append] at h
      have hsplit := congrArg (List.splitOn a) h
      rw [List.splitOn_append_cons_self_of_not_mem hl,
        List.splitOn_append_cons_self_of_not_mem hl'] at hsplit
      obtain ⟨rfl, _⟩ := List.cons.inj hsplit
      have htail := (List.cons.inj (List.append_cancel_left h)).2
      have heq := ih hrest (fun l hl => hls l (List.mem_cons_of_mem _ hl))
        (fun l hl => hls' l (List.mem_cons_of_mem _ hl)) (List.append_cancel_left htail)
      rw [heq]

end Text
