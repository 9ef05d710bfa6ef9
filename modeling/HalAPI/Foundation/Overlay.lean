import Mathlib

/-!
# Overlays of a memory

Memories with cells at natural addresses.  `overlay f mem addr data` combines the cells from
`addr` on with the given data, cell by cell, and leaves all others as they are: with
`fun _ d => d` this is a copy, and with a bitwise operation it is what memories do that
only clear or only set bits.

Overlaying a concatenation is overlaying its parts, one after the other and each from where the
one before it ends (`overlay_append`), which is what a transfer in several pieces comes
down to.
-/

namespace Foundation

variable {α β : Type}

/-- The memory with its cells from `addr` on combined with the data. -/
def overlay (f : α → β → α) (mem : ℕ → α) (addr : ℕ) (data : List β) : ℕ → α :=
  fun a => if addr ≤ a then (data[a - addr]?).elim (mem a) (f (mem a)) else mem a

/-- The first `n` elements of a sequence. -/
def firstElements (buff : ℕ → β) (n : ℕ) : List β := (List.range n).map buff

section FirstElements

variable (buff : ℕ → β) (n : ℕ)

/-- The first `n` elements are `n`. -/
@[simp] lemma length_firstElements : (firstElements buff n).length = n := by
  simp [firstElements]

/-- The elements below `n` are those of the sequence. -/
lemma getElem?_firstElements {i : ℕ} (hi : i < n) : (firstElements buff n)[i]? = some (buff i) := by
  simp [firstElements, hi]

/-- There are no elements yet at the start. -/
@[simp] lemma firstElements_zero : firstElements buff 0 = [] := rfl

/-- The first elements come in pieces. -/
lemma firstElements_add (m : ℕ) :
    firstElements buff (n + m) = firstElements buff n ++ firstElements (fun i => buff (n + i)) m := by
  simp only [firstElements, List.range_add, List.map_append, List.map_map]
  rfl

end FirstElements

section Overlay

variable (f : α → β → α) (mem : ℕ → α) (addr : ℕ)

/-- Without data the memory stays as it is. -/
@[simp] lemma overlay_nil : overlay f mem addr [] = mem := by
  funext a
  simp [overlay]

/-- A cell of the range is combined with its element. -/
lemma overlay_add {data : List β} {i : ℕ} {d : β} (hd : data[i]? = some d) :
    overlay f mem addr data (addr + i) = f (mem (addr + i)) d := by
  simp [overlay, hd]

/-- A cell outside the range stays as it is. -/
lemma overlay_of_not {data : List β} {a : ℕ} (ha : a < addr ∨ addr + data.length ≤ a) :
    overlay f mem addr data a = mem a := by
  unfold overlay
  rcases ha with hbelow | habove
  · rw [if_neg (by omega)]
  · rw [if_pos (by omega), List.getElem?_eq_none (by omega)]
    rfl

/-- Overlaying a concatenation is overlaying its parts one after the other. -/
lemma overlay_append (data data' : List β) :
    overlay f mem addr (data ++ data') =
      overlay f (overlay f mem addr data) (addr + data.length) data' := by
  funext a
  rcases lt_or_ge a (addr + data.length) with hfirst | hfirst
  · rw [overlay_of_not f _ _ (Or.inl hfirst)]
    unfold overlay
    by_cases haddr : addr ≤ a
    · rw [if_pos haddr, if_pos haddr, List.getElem?_append_left (by omega)]
    · rw [if_neg haddr, if_neg haddr]
  · have hsecond : a - addr - data.length = a - (addr + data.length) := by omega
    have hkept : overlay f mem addr data a = mem a :=
      overlay_of_not f mem addr (Or.inr hfirst)
    unfold overlay at hkept ⊢
    rw [if_pos (by omega), if_pos (by omega), hkept, List.getElem?_append_right (by omega), hsecond]

/-- Overlaying data cell by cell. -/
lemma overlay_cons (d : β) (data : List β) :
    overlay f mem addr (d :: data) =
      overlay f (Function.update mem addr (f (mem addr) d)) (addr + 1) data := by
  have hfirst : overlay f mem addr [d] = Function.update mem addr (f (mem addr) d) := by
    funext a
    rcases eq_or_ne a addr with rfl | ha
    · simp [overlay]
    · have houtside : a < addr ∨ addr + [d].length ≤ a := by
        rw [List.length_singleton]
        omega
      rw [Function.update_of_ne ha, overlay_of_not f mem addr houtside]
  rw [← hfirst]
  exact overlay_append f mem addr [d] data

end Overlay

end Foundation
