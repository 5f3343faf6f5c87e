/-
# `MagnetX.Lib.Partition` — lists of parts that partition a set

An algorithm that refines a partition keeps its parts in a list: it takes a part out, puts
the pieces it splits into back in, and reorders the list.  `IsPartition` says of such a
list, part by part, that the elements of the set are in exactly one part and other elements
in none.  It is stated by counting, so that reordering (`perm`) and splitting (`split`) keep
it for reasons of arithmetic alone, and so that a count taken part by part is the count
taken at once (`sum_countP`).
-/
import Mathlib.Algebra.BigOperators.Group.List.Basic
import Mathlib.Algebra.GroupWithZero.Nat
import Mathlib.Data.List.Perm.Basic

namespace MagnetX.Lib

universe u v

variable {ι : Type u} {γ : Type v} {mem : ι → γ → Bool} {parts pieces : List ι} {U : γ → Bool}

/-- Every element of `U` is in exactly one of the parts, and no other element is in any. -/
def IsPartition (mem : ι → γ → Bool) (parts : List ι) (U : γ → Bool) : Prop :=
  ∀ c, parts.countP (fun p => mem p c) = if U c then 1 else 0

theorem isPartition_singleton (mem : ι → γ → Bool) (p : ι) : IsPartition mem [p] (mem p) := by
  intro c
  rw [List.countP_singleton]

/-- Two parts, neither of which overlaps the other. -/
theorem isPartition_pair {p q : ι} (hunion : ∀ c, U c = (mem p c || mem q c))
    (hdisjoint : ∀ c, (mem p c && mem q c) = false) : IsPartition mem [p, q] U := by
  intro c
  have hd := hdisjoint c
  rw [List.countP_cons, List.countP_singleton, hunion c]
  cases hp : mem p c with
  | false => simp
  | true =>
      rw [hp, Bool.true_and] at hd
      simp [hd]

/-- A list without repetitions partitions its members. -/
theorem isPartition_of_nodup [DecidableEq ι] (hnodup : parts.Nodup) :
    IsPartition (fun p c => decide (c = p)) parts fun c => parts.any fun p => decide (c = p) := by
  intro c
  have hcount : parts.countP (fun p => decide (c = p)) = parts.count c := by
    rw [List.count_eq_countP]
    refine List.countP_congr fun p _ => ?_
    rw [decide_eq_true_eq, beq_iff_eq]
    exact eq_comm
  rw [hcount, hnodup.count]
  simp

/-- Summing an indicator counts. -/
theorem sum_map_indicator (mem : ι → Bool) (parts : List ι) :
    (parts.map fun p => if mem p then 1 else 0).sum = parts.countP mem := by
  induction parts with
  | nil => rfl
  | cons p parts ih =>
      rw [List.map_cons, List.sum_cons, ih, List.countP_cons, Nat.add_comm]

namespace IsPartition

theorem perm (h : IsPartition mem parts U) (hperm : pieces.Perm parts) :
    IsPartition mem pieces U := by
  intro c
  rw [hperm.countP_eq]
  exact h c

/-- Putting the pieces of a part in its place. -/
theorem split {p : ι} (h : IsPartition mem (parts ++ [p]) U)
    (hpieces : IsPartition mem pieces (mem p)) : IsPartition mem (parts ++ pieces) U := by
  intro c
  have hc := h c
  rw [List.countP_append, List.countP_singleton] at hc
  rw [List.countP_append, hpieces c]
  exact hc

/-- Counting part by part is counting at once. -/
theorem sum_countP (h : IsPartition mem parts U) (points : List γ) :
    (parts.map fun p => points.countP (mem p)).sum = points.countP U := by
  induction points with
  | nil => simp
  | cons c points ih =>
      have hc : (parts.map fun p => if mem p c then 1 else 0).sum = if U c then 1 else 0 := by
        rw [sum_map_indicator (fun p => mem p c) parts, h c]
      simp only [List.countP_cons, List.sum_map_add, ih, hc]

/-- An element of a part is one of the set. -/
theorem of_mem (h : IsPartition mem parts U) {p : ι} {c : γ} (hp : p ∈ parts)
    (hc : mem p c = true) : U c = true := by
  have hpos : 0 < parts.countP fun p => mem p c := List.countP_pos_iff.mpr ⟨p, hp, hc⟩
  rw [h c] at hpos
  by_contra hU
  rw [if_neg hU] at hpos
  exact absurd hpos (Nat.lt_irrefl 0)

/-- An element of the set is in some part. -/
theorem exists_mem (h : IsPartition mem parts U) {c : γ} (hc : U c = true) :
    ∃ p ∈ parts, mem p c = true := by
  have hpos : 0 < parts.countP fun p => mem p c := by
    rw [h c, if_pos hc]
    exact Nat.one_pos
  exact List.countP_pos_iff.mp hpos

end IsPartition

end MagnetX.Lib
