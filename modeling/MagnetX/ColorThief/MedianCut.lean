/-
# `MagnetX.ColorThief.MedianCut` — cutting a box in two

`applyMedianCut` and `cut` of `MMCQ`.  A box with two pixels or more is cut across its
widest channel: the partial sums of the slices say where half of the pixels are passed, the
larger side is cut in its middle, and two loops then move the cut away from empty halves.

The cut always succeeds (`applyMedianCut_spec`): the `fatalError` is not reached, no index
is out of range, and the two boxes partition the box.  The first has pixels in it.  The
second is without any exactly when all the pixels of the box have one component on the
channel, which boxes are not shrunk to prevent; a box of a single colour is cut into itself
and nothing.

The arithmetic is about a nondecreasing `S`, the number of pixels up to a component
(`Sums`); nothing in it depends on what is counted.
-/
import MagnetX.ColorThief.VBox
import Mathlib.Algebra.Order.Group.Int
import Mathlib.Order.Monotone.Basic

namespace MagnetX.MMCQ

open Lib

/-! ## The algorithm -/

namespace VBox

/-- The colours of a slice across a channel, in the order of the two inner loops. -/
def sliceCells (vbox : VBox) : ColorChannel → Nat → List (Nat × Nat × Nat)
  | .r, i => (vbox.gRange ×ˢ vbox.bRange).map fun (j, k) => (i, j, k)
  | .g, i => (vbox.rRange ×ˢ vbox.bRange).map fun (j, k) => (j, i, k)
  | .b, i => (vbox.rRange ×ˢ vbox.gRange).map fun (j, k) => (j, k, i)

def sliceSum (histogram : Histogram) (vbox : VBox) (axis : ColorChannel) (i : Nat) : Nat :=
  ((vbox.sliceCells axis i).map fun (i, j, k) => histogram (makeColorIndexOf i j k)).sum

/-- A copy with another maximum on a channel. -/
def setMax (vbox : VBox) (axis : ColorChannel) (d2 : Nat) (h : d2 < VBoxLength) : VBox :=
  match axis with
  | .r => { vbox with rMax := d2, bounded := ⟨h, vbox.bounded.2.1, vbox.bounded.2.2⟩ }
  | .g => { vbox with gMax := d2, bounded := ⟨vbox.bounded.1, h, vbox.bounded.2.2⟩ }
  | .b => { vbox with bMax := d2, bounded := ⟨vbox.bounded.1, vbox.bounded.2.1, h⟩ }

/-- A copy with another minimum on a channel. -/
def setMin (vbox : VBox) (axis : ColorChannel) (d2 : Nat) : VBox :=
  match axis with
  | .r => { vbox with rMin := d2 }
  | .g => { vbox with gMin := d2 }
  | .b => { vbox with bMin := d2 }

end VBox

/-- The partial sums along a channel, -1 where there is none, and the total. -/
def accumulate (histogram : Histogram) (vbox : VBox) (axis : ColorChannel) : Int × List Int :=
  (makeRange (vbox.vboxMin axis) (vbox.vboxMax axis)).foldl
    (fun (total, partialSum) i =>
      let total := total + vbox.sliceSum histogram axis i
      (total, partialSum.set i total))
    (0, List.replicate VBoxLength (-1))

/-- The index the cut is first put at, when half of the pixels are passed at `i`: the middle
of the larger side.  The second branch truncates a half towards zero. -/
def startOf (vboxMin vboxMax i : Nat) : Int :=
  let left : Int := i - vboxMin
  let right : Int := vboxMax - i
  if left ≤ right then min ((vboxMax : Int) - 1) (i + right / 2)
  else max (vboxMin : Int) ((2 * ((i : Int) - 1) - left).tdiv 2)

/-- `while d2 < 0 || partialSum[d2] <= 0 { d2 += 1 }`. -/
def avoidZeroCount (partialSum : List Int) (d2 : Int) : Except Trap Nat :=
  if d2 < 0 then avoidZeroCount partialSum (d2 + 1)
  else
    match h : partialSum[d2.toNat]? with
    | none => .error .indexOutOfRange
    | some sum => if sum ≤ 0 then avoidZeroCount partialSum (d2 + 1) else .ok d2.toNat
termination_by (partialSum.length - d2).toNat
decreasing_by
  · omega
  · have hlt := (List.getElem?_eq_some_iff.mp h).1
    omega

/-- `while count2 == 0 && d2 > 0 && partialSum[d2 - 1] > 0 { d2 -= 1; .. }`, where `count2`
is `lookAheadSum[d2]`. -/
def backOff (partialSum lookAheadSum : List Int) : Nat → Nat
  | 0 => 0
  | d2 + 1 =>
      if lookAheadSum.getD (d2 + 1) 0 = 0 ∧ 0 < partialSum.getD d2 0 then
        backOff partialSum lookAheadSum d2
      else d2 + 1

def cut (axis : ColorChannel) (vbox : VBox) (partialSum lookAheadSum : List Int) (total : Int) :
    Except Trap (List VBox) :=
  let vboxMin := vbox.vboxMin axis
  let vboxMax := vbox.vboxMax axis
  match (makeRange vboxMin vboxMax).find? fun i => decide (partialSum.getD i 0 > total / 2) with
  | none => .error (.fatalError "VBox can't be cut")
  | some i => do
      let d2 ← avoidZeroCount partialSum (startOf vboxMin vboxMax i)
      let d2 := backOff partialSum lookAheadSum d2
      -- `partialSum` has been read at `d2`
      if h : d2 < VBoxLength then
        return [vbox.setMax axis d2 h, vbox.setMin axis (d2 + 1)]
      else throw .indexOutOfRange

def applyMedianCut (histogram : Histogram) (vbox : VBox) : Except Trap (List VBox) :=
  if vbox.getCount histogram = 0 then return []
  else if vbox.getCount histogram = 1 then return [vbox]
  else do
    let axis ← vbox.widestColorChannel
    let (total, partialSum) := accumulate histogram vbox axis
    let lookAheadSum := partialSum.map fun sum => if sum ≠ -1 then total - sum else -1
    cut axis vbox partialSum lookAheadSum total

/-! ## The arithmetic of a cut -/

/-- The two arrays of a cut between `low` and `high`, where `S i` pixels are at `i` or
below. -/
structure Sums (partialSum lookAheadSum : List Int) (low high : Nat) (S : Nat → Nat) : Prop where
  length : partialSum.length = VBoxLength
  partialSum : ∀ i, i < VBoxLength →
    partialSum[i]? = some (if low ≤ i ∧ i ≤ high then (S i : Int) else -1)
  lookAheadSum : ∀ i, i < VBoxLength →
    lookAheadSum[i]? = some (if low ≤ i ∧ i ≤ high then (S high : Int) - S i else -1)
  mono : Monotone S
  le : low ≤ high
  lt : high < VBoxLength

namespace Sums

variable {partialSum lookAheadSum : List Int} {low high : Nat} {S : Nat → Nat}
  (h : Sums partialSum lookAheadSum low high S)

include h

theorem getD_partialSum {i : Nat} (hi : i ≤ high) :
    partialSum.getD i 0 = if low ≤ i then (S i : Int) else -1 := by
  rw [List.getD_eq_getElem?_getD, h.partialSum i (Nat.lt_of_le_of_lt hi h.lt)]
  simp [hi]

theorem getD_lookAheadSum {i : Nat} (hlow : low ≤ i) (hi : i ≤ high) :
    lookAheadSum.getD i 0 = (S high : Int) - S i := by
  rw [List.getD_eq_getElem?_getD, h.lookAheadSum i (Nat.lt_of_le_of_lt hi h.lt),
    if_pos ⟨hlow, hi⟩]
  rfl

/-- Half of the pixels are passed somewhere. -/
theorem find?_isSome (hpos : 0 < S high) :
    ∃ i, (makeRange low high).find? (fun i => decide (partialSum.getD i 0 > (S high : Int) / 2)) =
      some i ∧ low ≤ i ∧ i ≤ high := by
  have hsome : ((makeRange low high).find? fun i =>
      decide (partialSum.getD i 0 > (S high : Int) / 2)).isSome := by
    rw [List.find?_isSome]
    refine ⟨high, mem_makeRange.mpr ⟨h.le, Nat.le_refl high⟩, ?_⟩
    rw [h.getD_partialSum (Nat.le_refl high), if_pos h.le, decide_eq_true_eq]
    omega
  obtain ⟨i, hi⟩ := Option.isSome_iff_exists.mp hsome
  exact ⟨i, hi, mem_makeRange.mp (List.mem_of_find?_eq_some hi)⟩

omit h in
theorem startOf_le {i : Nat} (_hlow : low ≤ i) (hhigh : i ≤ high) : startOf low high i ≤ high := by
  unfold startOf
  dsimp only
  split
  · exact (min_le_left _ _).trans (by omega)
  · rename_i hlt
    refine max_le (by omega) ?_
    rcases lt_or_ge (2 * ((i : Int) - 1) - (i - low)) 0 with hneg | hnonneg
    · -- half of the pixels are passed at 1, and minus a half is truncated to zero
      have hhalf : 2 * ((i : Int) - 1) - (i - low) = -1 := by omega
      rw [hhalf]
      exact Int.natCast_nonneg high
    · rw [Int.tdiv_eq_ediv_of_nonneg hnonneg]
      omega

/-- The first loop ends at a component with pixels at it or below. -/
theorem avoidZeroCount_eq (hpos : 0 < S high) :
    ∀ (n : Nat) (d2 : Int), (high - d2).toNat = n → d2 ≤ high →
      ∃ d, avoidZeroCount partialSum d2 = .ok d ∧ low ≤ d ∧ d ≤ high ∧ 0 < S d := by
  intro n
  induction n with
  | zero =>
      intro d2 hn hle
      -- the cut is at the far end, where the partial sum is the total
      obtain rfl : d2 = high := by omega
      refine ⟨high, ?_, h.le, Nat.le_refl high, hpos⟩
      rw [avoidZeroCount, if_neg (by omega)]
      have hget := h.partialSum high h.lt
      rw [if_pos ⟨h.le, Nat.le_refl high⟩] at hget
      split
      · rename_i hnone
        rw [Int.toNat_natCast, hget] at hnone
        cases hnone
      · rename_i sum hsum
        rw [Int.toNat_natCast, hget] at hsum
        cases hsum
        rw [if_neg (by omega), Int.toNat_natCast]
  | succ n ih =>
      intro d2 hn hle
      have hnext := ih (d2 + 1) (by omega) (by omega)
      rw [avoidZeroCount]
      by_cases hneg : d2 < 0
      · rwa [if_pos hneg]
      · rw [if_neg hneg]
        obtain ⟨d, rfl⟩ := Int.eq_ofNat_of_zero_le (Int.not_lt.mp hneg)
        have hd : d ≤ high := by omega
        have hget := h.partialSum d (Nat.lt_of_le_of_lt hd h.lt)
        split
        · rename_i hnone
          rw [Int.toNat_natCast, hget] at hnone
          cases hnone
        · rename_i sum hsum
          rw [Int.toNat_natCast, hget] at hsum
          cases hsum
          by_cases hzero : (if low ≤ d ∧ d ≤ high then (S d : Int) else -1) ≤ 0
          · rwa [if_pos hzero]
          · rw [if_neg hzero, Int.toNat_natCast]
            by_cases hlow : low ≤ d
            · rw [if_pos ⟨hlow, hd⟩] at hzero
              exact ⟨d, rfl, hlow, hd, by omega⟩
            · rw [if_neg fun hc => hlow hc.1] at hzero
              omega

/-- The second loop ends at a component with pixels at it or below, and above it too unless
there are none below. -/
theorem backOff_spec : ∀ {d2 : Nat}, low ≤ d2 → d2 ≤ high → 0 < S d2 →
    low ≤ backOff partialSum lookAheadSum d2 ∧ backOff partialSum lookAheadSum d2 ≤ high ∧
    0 < S (backOff partialSum lookAheadSum d2) ∧
    (S (backOff partialSum lookAheadSum d2) = S high →
      ∀ i, low ≤ i → i < backOff partialSum lookAheadSum d2 → S i = 0) := by
  intro d2
  induction d2 with
  | zero =>
      intro hlow hhigh hpos
      exact ⟨hlow, hhigh, hpos, fun _ i _ hi => absurd hi (Nat.not_lt_zero i)⟩
  | succ d2 ih =>
      intro hlow hhigh hpos
      rw [backOff]
      split
      · rename_i hback
        rw [h.getD_partialSum (Nat.le_of_succ_le hhigh)] at hback
        by_cases hlow' : low ≤ d2
        · rw [if_pos hlow'] at hback
          exact ih hlow' (Nat.le_of_succ_le hhigh) (by omega)
        · rw [if_neg hlow'] at hback
          omega
      · rename_i hstay
        rw [h.getD_lookAheadSum hlow hhigh, h.getD_partialSum (Nat.le_of_succ_le hhigh)] at hstay
        refine ⟨hlow, hhigh, hpos, fun hall i hi hlt => ?_⟩
        have hzero : ¬ (0 : Int) < if low ≤ d2 then (S d2 : Int) else -1 :=
          fun hp => hstay ⟨by omega, hp⟩
        rw [if_pos (by omega)] at hzero
        have hmono : S i ≤ S d2 := h.mono (by omega)
        omega

/-- **Where a cut is made.** -/
theorem cut_eq (hpos : 0 < S high) {axis : ColorChannel} {vbox : VBox}
    (hlow : vbox.vboxMin axis = low) (hhigh : vbox.vboxMax axis = high) :
    ∃ d, ∃ hd : d < VBoxLength,
      cut axis vbox partialSum lookAheadSum (S high) =
        .ok [vbox.setMax axis d hd, vbox.setMin axis (d + 1)] ∧
      low ≤ d ∧ d ≤ high ∧ 0 < S d ∧ (S d = S high → ∀ i, low ≤ i → i < d → S i = 0) := by
  obtain ⟨i, hfind, hi, hi'⟩ := h.find?_isSome hpos
  obtain ⟨d₀, hd₀, hlow₀, hhigh₀, hpos₀⟩ := h.avoidZeroCount_eq hpos _ (startOf low high i) rfl
    (startOf_le hi hi')
  obtain ⟨hlow', hhigh', hpos', hall⟩ := h.backOff_spec hlow₀ hhigh₀ hpos₀
  have hlt := Nat.lt_of_le_of_lt hhigh' h.lt
  refine ⟨backOff partialSum lookAheadSum d₀, hlt, ?_, hlow', hhigh', hpos', hall⟩
  rw [cut, hlow, hhigh]
  simp only [hfind, hd₀, bind, Except.bind]
  rw [dif_pos hlt]
  rfl

end Sums

/-! ## What is summed -/

section Slices

variable (points : List Cell) (vbox : VBox) (axis : ColorChannel)

/-- The number of pixels in the box whose component is below `i`. -/
def below (i : Nat) : Nat := points.countP fun c => vbox.contains c && decide (c.on axis < i)

variable {points vbox axis}

theorem triple_mem_sliceCells {i : Nat} (hlow : vbox.vboxMin axis ≤ i)
    (hhigh : i ≤ vbox.vboxMax axis) (c : Cell) :
    c.triple ∈ vbox.sliceCells axis i ↔ vbox.contains c = true ∧ c.on axis = i := by
  cases axis with
  | r =>
      change vbox.rMin ≤ i at hlow
      change i ≤ vbox.rMax at hhigh
      simp only [VBox.sliceCells, List.mem_map, List.mem_product, VBox.gRange, VBox.bRange,
        mem_makeRange, Cell.triple, Prod.mk.injEq, Prod.exists, VBox.contains, Bool.and_eq_true,
        decide_eq_true_eq, Cell.on]
      constructor
      · rintro ⟨j, k, hjk, rfl, rfl, rfl⟩
        exact ⟨⟨⟨hlow, hhigh⟩, hjk⟩, rfl⟩
      · rintro ⟨⟨-, hgb⟩, rfl⟩
        exact ⟨_, _, hgb, rfl, rfl, rfl⟩
  | g =>
      change vbox.gMin ≤ i at hlow
      change i ≤ vbox.gMax at hhigh
      simp only [VBox.sliceCells, List.mem_map, List.mem_product, VBox.rRange, VBox.bRange,
        mem_makeRange, Cell.triple, Prod.mk.injEq, Prod.exists, VBox.contains, Bool.and_eq_true,
        decide_eq_true_eq, Cell.on]
      constructor
      · rintro ⟨j, k, ⟨hj, hk⟩, rfl, rfl, rfl⟩
        exact ⟨⟨hj, ⟨hlow, hhigh⟩, hk⟩, rfl⟩
      · rintro ⟨⟨hr, -, hb⟩, rfl⟩
        exact ⟨_, _, ⟨hr, hb⟩, rfl, rfl, rfl⟩
  | b =>
      change vbox.bMin ≤ i at hlow
      change i ≤ vbox.bMax at hhigh
      simp only [VBox.sliceCells, List.mem_map, List.mem_product, VBox.rRange, VBox.gRange,
        mem_makeRange, Cell.triple, Prod.mk.injEq, Prod.exists, VBox.contains, Bool.and_eq_true,
        decide_eq_true_eq, Cell.on]
      constructor
      · rintro ⟨j, k, ⟨hj, hk⟩, rfl, rfl, rfl⟩
        exact ⟨⟨hj, hk, hlow, hhigh⟩, rfl⟩
      · rintro ⟨⟨hr, hg, -⟩, rfl⟩
        exact ⟨_, _, ⟨hr, hg⟩, rfl, rfl, rfl⟩

theorem nodup_sliceCells (i : Nat) : (vbox.sliceCells axis i).Nodup := by
  cases axis with
  | r =>
      refine ((nodup_makeRange ..).product (nodup_makeRange ..)).map ?_
      rintro ⟨j, k⟩ ⟨j', k'⟩ h
      cases h
      rfl
  | g =>
      refine ((nodup_makeRange ..).product (nodup_makeRange ..)).map ?_
      rintro ⟨j, k⟩ ⟨j', k'⟩ h
      cases h
      rfl
  | b =>
      refine ((nodup_makeRange ..).product (nodup_makeRange ..)).map ?_
      rintro ⟨j, k⟩ ⟨j', k'⟩ h
      cases h
      rfl

/-- A slice is part of the box. -/
theorem sliceCells_subset {i : Nat} (hlow : vbox.vboxMin axis ≤ i)
    (hhigh : i ≤ vbox.vboxMax axis) {t : Nat × Nat × Nat} (ht : t ∈ vbox.sliceCells axis i) :
    t ∈ vbox.cells := by
  rw [VBox.mem_cells]
  cases axis with
  | r =>
      obtain ⟨⟨j, k⟩, hjk, rfl⟩ := List.mem_map.mp ht
      exact ⟨mem_makeRange.mpr ⟨hlow, hhigh⟩, List.mem_product.mp hjk⟩
  | g =>
      obtain ⟨⟨j, k⟩, hjk, rfl⟩ := List.mem_map.mp ht
      obtain ⟨hj, hk⟩ := List.mem_product.mp hjk
      exact ⟨hj, mem_makeRange.mpr ⟨hlow, hhigh⟩, hk⟩
  | b =>
      obtain ⟨⟨j, k⟩, hjk, rfl⟩ := List.mem_map.mp ht
      obtain ⟨hj, hk⟩ := List.mem_product.mp hjk
      exact ⟨hj, hk, mem_makeRange.mpr ⟨hlow, hhigh⟩⟩

/-- The sum of a slice is the number of pixels in it. -/
theorem sliceSum_tally {i : Nat} (hlow : vbox.vboxMin axis ≤ i) (hhigh : i ≤ vbox.vboxMax axis) :
    vbox.sliceSum (tally points) axis i =
      points.countP fun c => vbox.contains c && decide (c.on axis = i) := by
  rw [VBox.sliceSum]
  refine (sum_tally points (nodup_sliceCells i) fun t ht =>
    VBox.cells_lt (sliceCells_subset hlow hhigh ht)).trans ?_
  refine List.countP_congr fun c _ => ?_
  rw [decide_eq_true_eq, triple_mem_sliceCells hlow hhigh, Bool.and_eq_true, decide_eq_true_eq]

/-- The pixels below a component and those at it are the pixels below the next. -/
theorem below_succ (i : Nat) :
    below points vbox axis (i + 1) = below points vbox axis i +
      points.countP fun c => vbox.contains c && decide (c.on axis = i) := by
  let part : Bool → Cell → Bool := fun
    | false => fun c => vbox.contains c && decide (c.on axis < i)
    | true => fun c => vbox.contains c && decide (c.on axis = i)
  have hpair : IsPartition part [false, true]
      fun c => vbox.contains c && decide (c.on axis < i + 1) := by
    refine isPartition_pair (fun c => ?_) fun c => ?_
    · rw [← Bool.and_or_distrib_left, ← Bool.decide_or]
      congr 2
      rw [Nat.lt_succ_iff_lt_or_eq]
    · rw [Bool.eq_false_iff]
      simp only [part, ne_eq, Bool.and_eq_true, decide_eq_true_eq]
      omega
  exact (hpair.sum_countP points).symm

theorem below_mono : Monotone (below points vbox axis) := by
  refine monotone_nat_of_le_succ fun i => ?_
  rw [below_succ]
  exact Nat.le_add_right _ _

theorem below_vboxMin : below points vbox axis (vbox.vboxMin axis) = 0 := by
  rw [below, List.countP_eq_zero]
  intro c _
  rw [Bool.and_eq_true, decide_eq_true_eq, VBox.contains_iff]
  rintro ⟨hc, hlt⟩
  exact absurd (hc axis).1 (by omega)

/-- All the pixels of the box are below the end of its range. -/
theorem below_vboxMax :
    below points vbox axis (vbox.vboxMax axis + 1) = vbox.getCount (tally points) := by
  rw [VBox.getCount_tally, below]
  refine List.countP_congr fun c _ => ?_
  rw [Bool.and_eq_true, decide_eq_true_eq, and_iff_left_iff_imp, VBox.contains_iff]
  intro hc
  have h := (hc axis).2
  omega

/-- The loop over the slices, after `n` of them. -/
theorem foldl_accumulate : ∀ n, vbox.vboxMin axis + n ≤ vbox.vboxMax axis + 1 →
    (List.range' (vbox.vboxMin axis) n).foldl
        (fun (total, partialSum) i =>
          let total := total + vbox.sliceSum (tally points) axis i
          (total, partialSum.set i total))
        ((0 : Int), List.replicate VBoxLength (-1)) =
      ((below points vbox axis (vbox.vboxMin axis + n) : Int),
        (List.range VBoxLength).map fun i =>
          if vbox.vboxMin axis ≤ i ∧ i < vbox.vboxMin axis + n then
            (below points vbox axis (i + 1) : Int)
          else -1) := by
  intro n
  induction n with
  | zero =>
      intro _
      rw [List.range'_zero, List.foldl_nil, Nat.add_zero, below_vboxMin]
      refine Prod.ext rfl ?_
      refine (List.eq_replicate_iff.mpr ⟨by simp, fun b hb => ?_⟩).symm
      obtain ⟨i, -, rfl⟩ := List.mem_map.mp hb
      exact if_neg (by omega)
  | succ n ih =>
      intro hn
      rw [List.range'_concat, List.foldl_append, ih (by omega), List.foldl_cons, List.foldl_nil,
        Nat.one_mul]
      dsimp only
      rw [sliceSum_tally (Nat.le_add_right ..) (by omega), ← Int.natCast_add, ← below_succ,
        ← Nat.add_assoc]
      refine Prod.ext rfl ?_
      refine List.ext_getElem (by simp) fun i hi hi' => ?_
      rw [List.getElem_set, List.getElem_map, List.getElem_map, List.getElem_range]
      by_cases heq : vbox.vboxMin axis + n = i
      · subst heq
        rw [if_pos rfl, if_pos (by omega)]
      · rw [if_neg heq]
        by_cases hin : vbox.vboxMin axis ≤ i ∧ i < vbox.vboxMin axis + n
        · rw [if_pos hin, if_pos (by omega)]
        · rw [if_neg hin, if_neg (by omega)]

/-- **The arrays of a cut** count the pixels of the box by their component. -/
theorem accumulate_sums (points : List Cell) (hle : vbox.vboxMin axis ≤ vbox.vboxMax axis)
    (hlt : vbox.vboxMax axis < VBoxLength) :
    (accumulate (tally points) vbox axis).1 = vbox.getCount (tally points) ∧
    Sums (accumulate (tally points) vbox axis).2
      ((accumulate (tally points) vbox axis).2.map fun sum =>
        if sum ≠ -1 then (accumulate (tally points) vbox axis).1 - sum else -1)
      (vbox.vboxMin axis) (vbox.vboxMax axis) fun i => below points vbox axis (i + 1) := by
  have hrange : vbox.vboxMin axis + (vbox.vboxMax axis + 1 - vbox.vboxMin axis) =
      vbox.vboxMax axis + 1 := by omega
  have hacc : accumulate (tally points) vbox axis =
      ((below points vbox axis (vbox.vboxMax axis + 1) : Int),
        (List.range VBoxLength).map fun i =>
          if vbox.vboxMin axis ≤ i ∧ i < vbox.vboxMax axis + 1 then
            (below points vbox axis (i + 1) : Int)
          else -1) := by
    rw [accumulate, makeRange, if_pos hle, foldl_accumulate _ (by omega), hrange]
  have hget : ∀ i, i < VBoxLength → (accumulate (tally points) vbox axis).2[i]? =
      some (if vbox.vboxMin axis ≤ i ∧ i ≤ vbox.vboxMax axis then
        (below points vbox axis (i + 1) : Int) else -1) := by
    intro i hi
    simp only [hacc, List.getElem?_map, List.getElem?_range hi, Option.map_some, Nat.lt_succ_iff]
  refine ⟨?_, ?_⟩
  · rw [hacc, below_vboxMax]
  · exact {
      length := by simp [hacc]
      partialSum := hget
      lookAheadSum := by
        intro i hi
        rw [List.getElem?_map, hget i hi, Option.map_some]
        by_cases hin : vbox.vboxMin axis ≤ i ∧ i ≤ vbox.vboxMax axis
        · rw [if_pos hin, if_pos hin, if_pos (by omega), hacc]
        · rw [if_neg hin, if_neg hin, if_neg (by omega)]
      mono := fun i j hij => below_mono (Nat.succ_le_succ hij)
      le := hle
      lt := hlt }

end Slices

/-! ## The two halves -/

section Halves

variable {vbox : VBox} {axis : ColorChannel}

theorem contains_setMax {d : Nat} (hd : d < VBoxLength) (hle : d ≤ vbox.vboxMax axis) (c : Cell) :
    (vbox.setMax axis d hd).contains c = (vbox.contains c && decide (c.on axis ≤ d)) := by
  rw [Bool.eq_iff_iff, Bool.and_eq_true, decide_eq_true_eq, VBox.contains_iff, VBox.contains_iff]
  constructor
  · intro h
    refine ⟨fun channel => ?_, ?_⟩
    · have hc := h channel
      cases axis <;> cases channel <;> first | exact hc | exact ⟨hc.1, hc.2.trans hle⟩
    · have hc := (h axis).2
      cases axis <;> exact hc
  · rintro ⟨h, hon⟩ channel
    have hc := h channel
    cases axis <;> cases channel <;> first | exact hc | exact ⟨hc.1, hon⟩

theorem contains_setMin {d : Nat} (hle : vbox.vboxMin axis ≤ d) (c : Cell) :
    (vbox.setMin axis (d + 1)).contains c = (vbox.contains c && decide (d < c.on axis)) := by
  rw [Bool.eq_iff_iff, Bool.and_eq_true, decide_eq_true_eq, VBox.contains_iff, VBox.contains_iff]
  constructor
  · intro h
    have hon : d < c.on axis := by
      have hc := (h axis).1
      cases axis <;> exact hc
    refine ⟨fun channel => ?_, hon⟩
    have hc := h channel
    cases axis <;> cases channel <;> first | exact hc | exact ⟨hle.trans (Nat.le_of_lt hon), hc.2⟩
  · rintro ⟨h, hon⟩ channel
    have hc := h channel
    cases axis <;> cases channel <;> first | exact hc | exact ⟨hon, hc.2⟩

/-- The halves of a box partition it. -/
theorem isPartition_halves {d : Nat} (hd : d < VBoxLength) (hlow : vbox.vboxMin axis ≤ d)
    (hhigh : d ≤ vbox.vboxMax axis) :
    IsPartition VBox.contains [vbox.setMax axis d hd, vbox.setMin axis (d + 1)] vbox.contains := by
  refine isPartition_pair (fun c => ?_) fun c => ?_
  · rw [contains_setMax hd hhigh, contains_setMin hlow, ← Bool.and_or_distrib_left,
      ← Bool.decide_or, decide_eq_true (Nat.lt_or_ge d (c.on axis)).symm, Bool.and_true]
  · rw [contains_setMax hd hhigh, contains_setMin hlow, Bool.eq_false_iff]
    simp only [ne_eq, Bool.and_eq_true, decide_eq_true_eq]
    omega

/-- A box with pixels in it has a widest channel. -/
theorem widestColorChannel_ok {c : Cell} (hc : vbox.contains c = true) :
    ∃ axis, vbox.widestColorChannel = .ok axis := by
  have hwidth : ∀ channel, vbox.width channel =
      .ok (vbox.vboxMax channel - vbox.vboxMin channel) := by
    intro channel
    have h := VBox.contains_iff.mp hc channel
    exact if_pos (h.1.trans h.2)
  rw [VBox.widestColorChannel, hwidth, hwidth, hwidth]
  exact ⟨_, rfl⟩

variable {points : List Cell}

/-- The second half is without pixels exactly when they all have one component. -/
theorem getCount_setMin_eq_zero {d : Nat} (hd : d < VBoxLength) (hlow : vbox.vboxMin axis ≤ d)
    (hhigh : d ≤ vbox.vboxMax axis)
    (hpos : 0 < (vbox.setMax axis d hd).getCount (tally points))
    (hbelow : below points vbox axis (d + 1) = below points vbox axis (vbox.vboxMax axis + 1) →
      below points vbox axis d = 0) :
    (vbox.setMin axis (d + 1)).getCount (tally points) = 0 ↔
      ∃ i, ∀ c ∈ points, vbox.contains c = true → c.on axis = i := by
  constructor
  · intro hzero
    refine ⟨d, fun c hc hin => ?_⟩
    rw [VBox.getCount_tally, List.countP_eq_zero] at hzero
    have hle : ∀ c ∈ points, vbox.contains c = true → c.on axis ≤ d := by
      intro c hc hin
      by_contra hlt
      refine hzero c hc ?_
      rw [contains_setMin hlow, hin, Bool.true_and, decide_eq_true_eq]
      omega
    have hall : below points vbox axis (d + 1) =
        below points vbox axis (vbox.vboxMax axis + 1) := by
      rw [below, below]
      refine List.countP_congr fun c hc => ?_
      rw [Bool.and_eq_true, Bool.and_eq_true, decide_eq_true_eq, decide_eq_true_eq]
      refine and_congr_right fun hin => ?_
      have h := hle c hc hin
      omega
    have hnone := hbelow hall
    rw [below, List.countP_eq_zero] at hnone
    refine Nat.le_antisymm (hle c hc hin) (Nat.le_of_not_lt fun hlt => hnone c hc ?_)
    rw [hin, Bool.true_and, decide_eq_true_eq]
    exact hlt
  · rintro ⟨i, hi⟩
    obtain ⟨c, hc, hin⟩ := VBox.exists_contains_of_getCount hpos
    rw [contains_setMax hd hhigh, Bool.and_eq_true, decide_eq_true_eq] at hin
    have hid := hi c hc hin.1
    rw [VBox.getCount_tally, List.countP_eq_zero]
    intro c' hc' hin'
    rw [contains_setMin hlow, Bool.and_eq_true, decide_eq_true_eq] at hin'
    have hid' := hi c' hc' hin'.1
    omega

end Halves

/-- **A cut of a box with two pixels or more.**  It gives two boxes that partition the box;
there are pixels in the first, and none in the second exactly when all the pixels of the box
have one component on the channel that is cut. -/
theorem applyMedianCut_spec {points : List Cell} {vbox : VBox}
    (h : 2 ≤ vbox.getCount (tally points)) :
    ∃ axis first second, vbox.widestColorChannel = .ok axis ∧
      applyMedianCut (tally points) vbox = .ok [first, second] ∧
      IsPartition VBox.contains [first, second] vbox.contains ∧
      0 < first.getCount (tally points) ∧
      (second.getCount (tally points) = 0 ↔
        ∃ i, ∀ c ∈ points, vbox.contains c = true → c.on axis = i) := by
  obtain ⟨c, -, hc⟩ :=
    VBox.exists_contains_of_getCount (by omega : 0 < vbox.getCount (tally points))
  obtain ⟨axis, haxis⟩ := widestColorChannel_ok hc
  have hin := VBox.contains_iff.mp hc axis
  have hbounded : vbox.vboxMax axis < VBoxLength := by
    cases axis with
    | r => exact vbox.bounded.1
    | g => exact vbox.bounded.2.1
    | b => exact vbox.bounded.2.2
  obtain ⟨htotal, hsums⟩ := accumulate_sums points (hin.1.trans hin.2) hbounded
  obtain ⟨d, hd, hcut, hlow, hhigh, hpos, hall⟩ := hsums.cut_eq
    (by rw [below_vboxMax]; omega) rfl rfl
  have hfirst : 0 < (vbox.setMax axis d hd).getCount (tally points) := by
    have hcount : (vbox.setMax axis d hd).getCount (tally points) =
        below points vbox axis (d + 1) := by
      rw [VBox.getCount_tally]
      refine List.countP_congr fun c _ => ?_
      rw [contains_setMax hd hhigh, Bool.and_eq_true, Bool.and_eq_true, decide_eq_true_eq,
        decide_eq_true_eq, Nat.lt_succ_iff]
    rwa [hcount]
  refine ⟨axis, _, _, haxis, ?_, isPartition_halves hd hlow hhigh, hfirst,
    getCount_setMin_eq_zero hd hlow hhigh hfirst fun heq => ?_⟩
  · rw [applyMedianCut, if_neg (by omega), if_neg (by omega), haxis, ← hcut, below_vboxMax,
      ← htotal]
    rfl
  · -- the components below the cut have no pixels, one after the other
    rcases Nat.eq_or_lt_of_le hlow with hmin | hlt
    · rw [← hmin]
      exact below_vboxMin
    · have hprev := hall heq (d - 1) (by omega) (by omega)
      rwa [Nat.sub_add_cancel (by omega : 1 ≤ d)] at hprev

end MagnetX.MMCQ
