import Mathlib.Data.Set.Lattice
import Mathlib.Logic.Function.Basic

/-!
# Heaps with unique identities

A heap hands out each identity once and forgets the contents of a freed one, so
using an object after it was freed is visible: its cell is empty. That no cell
beyond the allocation frontier is occupied is part of the structure.
-/

/-- Cells of allocated objects; identities at and above `next` were never used. -/
@[ext]
structure Heap (α : Type*) where
  /-- The next identity to hand out. -/
  next : ℕ
  /-- The object with an identity, if it is allocated and not freed. -/
  cell : ℕ → Option α
  /-- Nothing lives at an identity that was never handed out. -/
  fresh : ∀ a, next ≤ a → cell a = none

namespace Heap

variable {α : Type*}

/-- The heap before any allocation. -/
def empty : Heap α := ⟨0, fun _ => none, fun _ _ => rfl⟩

/-- The heap after storing a new object at identity `h.next`. -/
def alloc (h : Heap α) (v : α) : Heap α where
  next := h.next + 1
  cell := Function.update h.cell h.next (some v)
  fresh a ha := by
    rw [Function.update_of_ne (by omega)]
    exact h.fresh a (by omega)

/-- The heap after changing the object at `a`, if there is one. -/
def modify (h : Heap α) (a : ℕ) (f : α → α) : Heap α where
  next := h.next
  cell := Function.update h.cell a ((h.cell a).map f)
  fresh b hb := by
    by_cases hab : b = a
    · subst hab
      simp [h.fresh b hb]
    · rw [Function.update_of_ne hab]
      exact h.fresh b hb

/-- The heap after freeing the object at `a`. -/
def free (h : Heap α) (a : ℕ) : Heap α where
  next := h.next
  cell := Function.update h.cell a none
  fresh b hb := by
    by_cases hab : b = a
    · subst hab
      simp
    · rw [Function.update_of_ne hab]
      exact h.fresh b hb

/-- The heap after using up one identity. -/
def skip (h : Heap α) : Heap α := ⟨h.next + 1, h.cell, fun a ha => h.fresh a (by omega)⟩

/-- The identities of the objects allocated and not freed. -/
def live (h : Heap α) : Set ℕ := {a | (h.cell a).isSome}

@[simp] theorem empty_cell (a : ℕ) : (empty : Heap α).cell a = none := rfl

@[simp] theorem alloc_next (h : Heap α) (v : α) : (h.alloc v).next = h.next + 1 := by
  simp only [alloc]

@[simp] theorem alloc_cell_self (h : Heap α) (v : α) : (h.alloc v).cell h.next = some v := by
  simp [alloc]

theorem alloc_cell_of_ne (h : Heap α) (v : α) {a : ℕ} (ha : a ≠ h.next) :
    (h.alloc v).cell a = h.cell a := by
  simp [alloc, Function.update_of_ne ha]

theorem alloc_cell_of_eq (h : Heap α) (v : α) {a : ℕ} (ha : a = h.next) :
    (h.alloc v).cell a = some v := by
  rw [ha, alloc_cell_self]

@[simp] theorem modify_next (h : Heap α) (a : ℕ) (f : α → α) : (h.modify a f).next = h.next := rfl

@[simp] theorem modify_cell_self (h : Heap α) (a : ℕ) (f : α → α) :
    (h.modify a f).cell a = (h.cell a).map f := by
  simp [modify]

theorem modify_cell_of_ne (h : Heap α) {a b : ℕ} (f : α → α) (hb : b ≠ a) :
    (h.modify a f).cell b = h.cell b := by
  simp [modify, Function.update_of_ne hb]

@[simp] theorem free_next (h : Heap α) (a : ℕ) : (h.free a).next = h.next := rfl

@[simp] theorem free_cell_self (h : Heap α) (a : ℕ) : (h.free a).cell a = none := by
  simp [free]

theorem free_cell_of_ne (h : Heap α) {a b : ℕ} (hb : b ≠ a) :
    (h.free a).cell b = h.cell b := by
  simp [free, Function.update_of_ne hb]

@[simp] theorem skip_next (h : Heap α) : h.skip.next = h.next + 1 := by
  simp only [skip]

@[simp] theorem skip_cell (h : Heap α) : h.skip.cell = h.cell := rfl

/-- Changing a new object is storing the changed object. -/
@[simp] theorem modify_alloc (h : Heap α) (v : α) (f : α → α) :
    (h.alloc v).modify h.next f = h.alloc (f v) := by
  ext1
  · rfl
  · simp [modify, alloc]

/-- An object that was there before is changed the same before or after an allocation. -/
theorem modify_alloc_of_lt (h : Heap α) (v : α) (f : α → α) {a : ℕ} (ha : a < h.next) :
    (h.alloc v).modify a f = (h.modify a f).alloc v := by
  ext1
  · rfl
  · simp [modify, alloc, Function.update_of_ne ha.ne, Function.update_comm ha.ne]

/-- An object that was there before is freed the same before or after an allocation. -/
theorem free_alloc_of_lt (h : Heap α) (v : α) {a : ℕ} (ha : a < h.next) :
    (h.alloc v).free a = (h.free a).alloc v := by
  ext1
  · rfl
  · simp [free, alloc, Function.update_comm ha.ne]

/-- Freeing a new object leaves its identity used up. -/
@[simp] theorem free_alloc (h : Heap α) (v : α) : (h.alloc v).free h.next = h.skip := by
  ext1
  · rfl
  · simp [free, alloc, ← h.fresh h.next le_rfl]

theorem free_alloc_of_eq (h : Heap α) (v : α) {a : ℕ} (ha : a = h.next) :
    (h.alloc v).free a = h.skip := by
  rw [ha, free_alloc]

/-- A live identity has been handed out. -/
theorem lt_next_of_mem_live {h : Heap α} {a : ℕ} (ha : a ∈ h.live) : a < h.next := by
  by_contra hge
  simp [live, h.fresh a (by omega)] at ha

/-- Membership in the live set names the object. -/
theorem mem_live {h : Heap α} {a : ℕ} : a ∈ h.live ↔ ∃ v, h.cell a = some v := by
  simp [live, Option.isSome_iff_exists]

@[simp] theorem live_empty : (empty : Heap α).live = ∅ := by
  ext a
  simp [live]

@[simp] theorem live_alloc (h : Heap α) (v : α) : (h.alloc v).live = insert h.next h.live := by
  ext a
  by_cases ha : a = h.next
  · simp [live, ha]
  · simp [live, alloc_cell_of_ne h v ha, ha]

/-- Allocation makes one more object live. -/
theorem live_alloc_ne (h : Heap α) (v : α) : (h.alloc v).live ≠ h.live := by
  intro heq
  have hnew : h.next ∈ h.live := by
    rw [← heq, live_alloc]
    exact Set.mem_insert _ _
  exact absurd (lt_next_of_mem_live hnew) (lt_irrefl _)

@[simp] theorem live_modify (h : Heap α) (a : ℕ) (f : α → α) : (h.modify a f).live = h.live := by
  ext b
  by_cases hb : b = a
  · simp [live, hb]
  · simp [live, modify_cell_of_ne h f hb]

@[simp] theorem live_free (h : Heap α) (a : ℕ) : (h.free a).live = h.live \ {a} := by
  ext b
  by_cases hb : b = a
  · simp [live, hb]
  · simp [live, free_cell_of_ne h hb, hb]

@[simp] theorem live_skip (h : Heap α) : h.skip.live = h.live := rfl

end Heap
