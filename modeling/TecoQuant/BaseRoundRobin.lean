import Mathlib.Data.Nat.ModEq
import Mathlib.Data.List.Basic

/-! Taking turns: a cursor that walks a list over and over. The turns until an index is due drop by one with
each turn, whatever the cursor the walk starts at. -/

namespace RoundRobin

variable {α : Type*}

/-- Whose turn it is. -/
def due (l : List α) (hne : l ≠ []) (cursor : Nat) : α :=
  l.get ⟨cursor % l.length, Nat.mod_lt _ (List.length_pos_iff.mpr hne)⟩

/-- The turns before an index is due. -/
def wait (length cursor index : Nat) : Nat :=
  if cursor % length ≤ index then index - cursor % length else index + length - cursor % length

variable {l : List α} {cursor index : Nat}

theorem due_mem (hne : l ≠ []) (cursor : Nat) : due l hne cursor ∈ l := List.get_mem _ _

theorem wait_lt {length : Nat} (cursor : Nat) (hindex : index < length) : wait length cursor index < length := by
  have hmod : cursor % length < length := Nat.mod_lt _ (by omega)
  unfold wait
  split <;> omega

/-- When nothing is left to wait for, the index is due. -/
theorem due_of_wait (hne : l ≠ []) (hindex : index < l.length) (h : wait l.length cursor index = 0) :
    due l hne cursor = l.get ⟨index, hindex⟩ := by
  have hmod : cursor % l.length < l.length := Nat.mod_lt _ (by omega)
  have hsame : cursor % l.length = index := by
    unfold wait at h
    split at h <;> omega
  unfold due
  congr 1
  exact Fin.ext hsame

theorem succ_mod {length : Nat} (cursor : Nat) (hlength : 0 < length) :
    (cursor + 1) % length = if cursor % length + 1 = length then 0 else cursor % length + 1 := by
  rw [← Nat.mod_add_mod]
  have hmod := Nat.mod_lt cursor hlength
  split
  · rename_i heq
    rw [heq, Nat.mod_self]
  · exact Nat.mod_eq_of_lt (by omega)

/-- A turn that is not the index's own brings it one turn closer. -/
theorem wait_next {length : Nat} (hindex : index < length) (h : wait length cursor index ≠ 0) :
    wait length ((cursor + 1) % length) index + 1 = wait length cursor index := by
  have hmod : cursor % length < length := Nat.mod_lt _ (by omega)
  have hnext := succ_mod cursor (Nat.zero_lt_of_lt hindex)
  unfold wait at h ⊢
  rw [Nat.mod_mod, hnext]
  split at h <;> split <;> split <;> omega

end RoundRobin
