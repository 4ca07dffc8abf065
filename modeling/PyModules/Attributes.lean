import Mathlib.Logic.Function.Basic
import PyModules.Stdio

/-!
# What attribute files hold

The log of a host says what was flushed to which file and whether the file took it. The last
data that a file took is what it holds.
-/

namespace PyModules

/-- What files hold, by their names; nothing was written to the others. -/
abbrev Contents := String → Option (List UInt8)

/-- The files after one write, which changes nothing if it is refused. -/
def Contents.take (c : Contents) (w : Write) : Contents :=
  if w.accepted then Function.update c w.path (some w.data) else c

/-- The files after a list of writes. -/
def Contents.after (c : Contents) (ws : List Write) : Contents := ws.foldl Contents.take c

/-- Files to which nothing was written. -/
def Contents.untouched : Contents := fun _ => none

@[simp] theorem after_nil (c : Contents) : c.after [] = c := rfl

@[simp] theorem after_append (c : Contents) (ws ws' : List Write) :
    c.after (ws ++ ws') = (c.after ws).after ws' := List.foldl_append

/-- A file holds the data of a write that it took, and nothing else changes. -/
theorem take_apply (c : Contents) (w : Write) (path : String) :
    c.take w path = if w.accepted ∧ path = w.path then some w.data else c path := by
  by_cases haccepted : w.accepted
  · by_cases hpath : path = w.path
    · simp [Contents.take, haccepted, hpath]
    · simp [Contents.take, haccepted, hpath]
  · simp [Contents.take, haccepted]

/-- A file holds what it held after writes to other files. -/
theorem after_of_notMem {ws : List Write} {path : String} (h : ∀ w ∈ ws, w.path ≠ path)
    (c : Contents) : c.after ws path = c path := by
  induction ws generalizing c with
  | nil => rfl
  | cons w ws ih =>
    have hne : path ≠ w.path := (h w List.mem_cons_self).symm
    have hrest := ih (fun w' hw' => h w' (List.mem_cons_of_mem w hw')) (c.take w)
    rw [take_apply, if_neg fun hboth => hne hboth.2] at hrest
    exact hrest

end PyModules
