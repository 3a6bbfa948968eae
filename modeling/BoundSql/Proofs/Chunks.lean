import Mathlib.Algebra.Order.Floor.Div
import BoundSql.Proofs.Execution

/-!
# Chunks of a list

A list is cut into runs of one size, of which only the last may be shorter. They are as many as were
counted before (`length_chunks`), each begins where the one before it ends (`chunks_eq`), no run is
empty or too long, and all but the last are full.
-/

namespace BoundSql

variable {α : Type} (size : Nat) (pos : 0 < size) (xs : List α)

include pos in
/-- The number of runs is the quotient rounded up. -/
theorem chunkCount_eq_ceilDiv (n : Nat) : chunkCount size n = n ⌈/⌉ size := by
  have whole : size * (n / size) + n % size = n := Nat.div_add_mod n size
  have short : n % size < size := Nat.mod_lt n pos
  rw [Nat.ceilDiv_eq_add_pred_div, chunkCount]
  generalize n / size = full at *
  generalize n % size = left at *
  have shifted : n + size - 1 = size * full + (left + size - 1) := by omega
  rw [shifted, Nat.mul_add_div pos]
  split
  · rw [Nat.div_eq_of_lt (show left + size - 1 < size by omega), Nat.add_zero]
  · rw [Nat.div_eq_of_lt_le (k := 1) (by omega) (by omega)]

theorem length_chunks : (chunks size pos xs).length = xs.length ⌈/⌉ size := by
  rw [length_chunks_eq_count, chunkCount_eq_ceilDiv size pos]

/-- The chunks of a list: each begins where the one before it ends, and they are as many as it takes
to hold all elements. -/
theorem chunks_eq :
    chunks size pos xs =
      (List.range (xs.length ⌈/⌉ size)).map fun j => (xs.drop (j * size)).take size := by
  rw [← chunkCount_eq_ceilDiv size pos]
  fun_induction chunks size pos xs with
  | case1 => rw [List.length_nil, chunkCount_eq_ceilDiv size pos, zero_ceilDiv]; rfl
  | case2 x xs ih =>
    rw [List.length_cons, chunkCount_eq_succ size pos (Nat.succ_pos xs.length),
      List.range_succ_eq_map, List.map_cons, Nat.zero_mul, List.drop_zero, ih,
      List.length_drop, List.map_map]
    refine congrArg _ (List.map_congr_left fun j _ => ?_)
    rw [Function.comp_apply, List.drop_drop, Nat.succ_mul, Nat.add_comm size]

/-- No run is empty, and none is too long. -/
theorem length_of_mem_chunks {part : List α} (mem : part ∈ chunks size pos xs) :
    0 < part.length ∧ part.length ≤ size := by
  fun_induction chunks size pos xs with
  | case1 => cases mem
  | case2 x xs ih =>
    rcases List.mem_cons.1 mem with rfl | later
    · rw [List.length_take, List.length_cons]
      omega
    · exact ih later

/-- A run that is not the last is full. -/
theorem length_of_mem_dropLast_chunks {part : List α}
    (mem : part ∈ (chunks size pos xs).dropLast) : part.length = size := by
  fun_induction chunks size pos xs with
  | case1 => cases mem
  | case2 x xs ih =>
    cases behind : chunks size pos ((x :: xs).drop size) with
    | nil =>
      rw [behind] at mem
      cases mem
    | cons next rest =>
      rw [behind] at ih mem
      rw [List.dropLast_cons_of_ne_nil (List.cons_ne_nil next rest)] at mem
      rcases List.mem_cons.1 mem with rfl | later
      · -- something is left behind a run, so the run has taken as much as it may
        have left : (x :: xs).drop size ≠ [] := by
          intro none
          rw [none, chunks] at behind
          cases behind
        rw [ne_eq, List.drop_eq_nil_iff] at left
        rw [List.length_take]
        omega
      · exact ih later

end BoundSql
