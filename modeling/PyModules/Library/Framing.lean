import PyModules.Library.Text
import Mathlib.Data.List.Forall2

/-!
# Frames on a stream

A sender writes lines that a symbol ends, one after the other, and a link accepts a part of
each from its start on. The receiver cuts the stream at the symbol and does not know where a
write began. It reads the lines as they were meant precisely if every line was accepted
completely and the symbol stands at its end and nowhere else.
-/

namespace Framing

variable {α : Type}

/-- Parts of texts that are as long together as the texts are the texts. -/
theorem eq_of_flatten_eq {parts texts : List (List α)}
    (hparts : List.Forall₂ (· <+: ·) parts texts) (h : parts.flatten = texts.flatten) :
    parts = texts := by
  have hle : ∀ {as bs : List (List α)}, List.Forall₂ (· <+: ·) as bs →
      as.flatten.length ≤ bs.flatten.length := by
    intro as bs hprefix
    induction hprefix with
    | nil => exact Nat.le_refl _
    | cons hab _ ih =>
      have hlength := hab.length_le
      simp only [List.flatten_cons, List.length_append]
      omega
  induction hparts with
  | nil => rfl
  | cons hab hrest ih =>
    have hlength := congrArg List.length h
    have hfirst := hab.length_le
    have htail := hle hrest
    simp only [List.flatten_cons, List.length_append] at hlength
    have heq := hab.eq_of_length (by omega)
    rw [heq, List.flatten_cons, List.flatten_cons] at h
    rw [heq, ih (List.append_cancel_left h)]

/-- The symbol stands at the end of the line and nowhere else. -/
def Framed (stop : α) (line : List α) : Prop := ∃ body, stop ∉ body ∧ line = body ++ [stop]

/-- A frame that was accepted up to its end was accepted. -/
theorem Framed.accepted_iff {stop : α} {line part : List α} (h : Framed stop line)
    (hpart : part <+: line) : part = line ↔ stop ∈ part := by
  obtain ⟨body, hbody, rfl⟩ := h
  constructor
  · rintro rfl
    simp
  · intro hmem
    rcases List.prefix_concat_iff.mp hpart with heq | hshort
    · exact heq
    · exact absurd (hshort.subset hmem) hbody

/-- Printed lines are lines and an empty rest with the symbol in between. -/
theorem unlines_eq_intercalate (stop : α) (ls : List (List α)) :
    Text.unlines stop ls = [stop].intercalate (ls ++ [[]]) := by
  induction ls with
  | nil => rfl
  | cons l ls ih =>
    rw [List.cons_append, List.intercalate_cons_of_ne_nil (by simp), ← ih]
    simp [Text.unlines]

variable [DecidableEq α]

/-- A line without the symbol that ends it. -/
def unframe (stop : α) (line : List α) : List α :=
  if line.getLast? = some stop then line.dropLast else line

/-- A line is a part of the frame of what it means. -/
theorem prefix_frame (stop : α) (line : List α) : line <+: unframe stop line ++ [stop] := by
  unfold unframe
  split
  · rename_i hlast
    have hne : line ≠ [] := by
      rintro rfl
      cases hlast
    rw [List.getLast?_eq_some_getLast hne, Option.some.injEq] at hlast
    have hline : line.dropLast ++ [stop] = line := by
      rw [← hlast, List.dropLast_concat_getLast hne]
    exact ⟨[], by rw [List.append_nil, hline]⟩
  · exact List.prefix_append _ _

/-- A frame without its end is the body. -/
theorem unframe_framed (stop : α) (body : List α) : unframe stop (body ++ [stop]) = body := by
  simp [unframe]

/-- A line is a frame precisely if it is the frame of what it means. -/
theorem framed_iff {stop : α} {line : List α} :
    Framed stop line ↔ stop ∉ unframe stop line ∧ line = unframe stop line ++ [stop] := by
  constructor
  · rintro ⟨body, hbody, rfl⟩
    rw [unframe_framed]
    exact ⟨hbody, rfl⟩
  · rintro ⟨hbody, hline⟩
    exact ⟨_, hbody, hline⟩

/-- The parts of a stream are cut at the symbol, so they do not contain it. -/
theorem not_mem_of_mem_splitOn {stop : α} {stream part : List α}
    (h : part ∈ stream.splitOn stop) : stop ∉ part := by
  induction stream generalizing part with
  | nil =>
    rw [List.splitOn_nil, List.mem_singleton] at h
    simp [h]
  | cons a stream ih =>
    rw [List.splitOn_cons_eq_if_modifyHead] at h
    by_cases ha : a = stop
    · rw [if_pos (beq_iff_eq.mpr ha), List.mem_cons] at h
      rcases h with rfl | hpart
      · simp
      · exact ih hpart
    · rw [if_neg (by simpa using ha)] at h
      cases hparts : stream.splitOn stop with
      | nil => exact absurd hparts (List.splitOn_ne_nil _ _)
      | cons first rest =>
        rw [hparts] at h ih
        rcases List.mem_cons.mp h with rfl | hpart
        · have hfirst := ih List.mem_cons_self
          simp [Ne.symm ha, hfirst]
        · exact ih (List.mem_cons_of_mem first hpart)

/-- A stream falls apart into given lines, with nothing behind them, precisely if it is what
these lines print. -/
theorem splitOn_eq_iff {stop : α} {stream : List α} {ls : List (List α)} :
    stream.splitOn stop = ls ++ [[]] ↔ (∀ l ∈ ls, stop ∉ l) ∧ stream = Text.unlines stop ls := by
  constructor
  · intro h
    constructor
    · intro l hl
      have hmem : l ∈ stream.splitOn stop := by
        rw [h]
        exact List.mem_append_left _ hl
      exact not_mem_of_mem_splitOn hmem
    · rw [unlines_eq_intercalate, ← h, List.intercalate_splitOn]
  · rintro ⟨hls, rfl⟩
    exact Text.splitOn_unlines hls

/-- The receiver reads the lines as they were meant precisely if each was accepted completely
and is a frame. Each write is a line with the part of it that was accepted. -/
theorem splitOn_flatten_eq_iff {stop : α} {writes : List (List α × List α)}
    (hparts : ∀ w ∈ writes, w.2 <+: w.1) :
    (writes.map Prod.snd).flatten.splitOn stop =
        (writes.map fun w => unframe stop w.1) ++ [[]] ↔
      ∀ w ∈ writes, Framed stop w.1 ∧ w.2 = w.1 := by
  rw [splitOn_eq_iff, List.forall_mem_map]
  constructor
  · rintro ⟨hbodies, hstream⟩
    have hprefix : List.Forall₂ (· <+: ·) (writes.map Prod.snd)
        (writes.map fun w => unframe stop w.1 ++ [stop]) := by
      rw [List.forall₂_map_left_iff, List.forall₂_map_right_iff, List.forall₂_same]
      exact fun w hw => (hparts w hw).trans (prefix_frame stop w.1)
    have heq := eq_of_flatten_eq hprefix (hstream.trans (by
      rw [Text.unlines, List.flatMap_map, ← List.flatMap_def]))
    intro w hw
    have hw2 : w.2 = unframe stop w.1 ++ [stop] := List.map_inj_left.mp heq w hw
    have hline : w.1 = unframe stop w.1 ++ [stop] := by
      refine (prefix_frame stop w.1).eq_of_length_le ?_
      rw [← hw2]
      exact (hparts w hw).length_le
    exact ⟨framed_iff.mpr ⟨hbodies w hw, hline⟩, hw2.trans hline.symm⟩
  · intro h
    refine ⟨fun w hw => (framed_iff.mp (h w hw).1).1, ?_⟩
    rw [Text.unlines, List.flatMap_map, ← List.flatMap_def]
    refine List.flatMap_congr fun w hw => ?_
    rw [(h w hw).2]
    exact (framed_iff.mp (h w hw).1).2

end Framing
