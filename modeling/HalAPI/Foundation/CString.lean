import Mathlib

/-!
# Strings in buffers

A buffer is the list of its bytes, and the string in it ends at its first `\0`.  `overwrite` writes
bytes from an index on, and a byte that is written past the end of the buffer is added to the list.
So the list outgrows the buffer exactly if something was written past its end.

The lemmas are about a buffer that is given as a string and what is after it, which is the form in
which `strcpy` and `strcat` leave it.
-/

namespace Foundation

/-- Write the bytes from the index `i` on. -/
def overwrite (buffer : List Char) (i : ℕ) (bytes : List Char) : List Char :=
  buffer.take i ++ bytes ++ buffer.drop (i + bytes.length)

/-- The string in a buffer: its bytes before the first `\0`. -/
def stringOf (buffer : List Char) : List Char := buffer.takeWhile fun c => c ≠ '\x00'

/-- `strcpy` -/
def strcpy (buffer s : List Char) : List Char := overwrite buffer 0 (s ++ ['\x00'])

/-- `strlen` -/
def strlen (buffer : List Char) : ℕ := (stringOf buffer).length

/-- `strcat` -/
def strcat (buffer s : List Char) : List Char := overwrite buffer (strlen buffer) (s ++ ['\x00'])

variable {s : List Char}

/-- Writing where a prefix of the buffer ends keeps the prefix. -/
lemma overwrite_append {i : ℕ} (h : s.length = i) (rest bytes : List Char) :
    overwrite (s ++ rest) i bytes = s ++ bytes ++ rest.drop bytes.length := by
  subst h
  simp [overwrite, List.drop_append]

/-- A string without a `\0` at the start of a buffer is a prefix of the string in it. -/
lemma stringOf_append (h : '\x00' ∉ s) (rest : List Char) :
    stringOf (s ++ rest) = s ++ stringOf rest := by
  refine List.takeWhile_append_of_pos fun c hc => ?_
  have hne : c ≠ '\x00' := fun heq => h (heq ▸ hc)
  simpa using hne

/-- Nothing is before a `\0` at the start. -/
@[simp] lemma stringOf_zero_cons (rest : List Char) : stringOf ('\x00' :: rest) = [] := rfl

/-- The length of the string before a `\0`. -/
lemma strlen_append (h : '\x00' ∉ s) (rest : List Char) :
    strlen (s ++ '\x00' :: rest) = s.length := by
  rw [strlen, stringOf_append h, stringOf_zero_cons, List.append_nil]

/-- `strcpy` writes the string and a `\0` at the start of the buffer. -/
lemma strcpy_eq (buffer s : List Char) :
    strcpy buffer s = s ++ '\x00' :: buffer.drop (s.length + 1) := by
  simp [strcpy, overwrite]

/-- `strcat` writes after the string in the buffer. -/
lemma strcat_append (h : '\x00' ∉ s) (rest name : List Char) :
    strcat (s ++ '\x00' :: rest) name = s ++ name ++ '\x00' :: rest.drop name.length := by
  rw [strcat, strlen_append h, overwrite_append rfl]
  simp

end Foundation
