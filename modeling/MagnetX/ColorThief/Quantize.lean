/-
# `MagnetX.ColorThief.Quantize` — the boxes of an image

`MMCQ.quantize`.  The pixels of an image are four
bytes each; every `quality`-th is looked at, and those that are opaque and not white are
kept.  The queue of boxes starts with the smallest box round them; the last box is taken
out and cut, the pieces are put in and the queue is sorted, first by count and then by count
times volume, until there are enough boxes.

`sort` is the standard library's, of which only its documentation is used (`Sorting`).
`color`, the count of pieces, starts anew with the second order, and each order cuts once
before it looks at `target`; `quantize_spec` has what becomes of the number of boxes.

The counts are of pixels in memory, which `Int` and `Int64` hold, also times a volume.
-/
import MagnetX.ColorThief.MedianCut
import MagnetX.Lib.Sorting
import Mathlib.Data.Prod.Lex
import Mathlib.Data.List.Induction

namespace MagnetX.MMCQ

open Lib

def MaxIterations : Nat := 1000

/-! ## The histogram -/

/-- `stride(from: 0, to:by:)`. -/
def stride (end' : Nat) (step : Int) : Except Trap (List Nat) :=
  if step = 0 then .error (.fatalError "Stride size must not be zero")
  else if step < 0 then .ok []
  else .ok ((List.range ((end' + step.toNat - 1) / step.toNat)).map (· * step.toNat))

/-- `pixels[index]`. -/
def byteAt (pixels : List UInt8) (index : Nat) : Except Trap UInt8 :=
  match pixels[index]? with
  | some byte => .ok byte
  | none => .error .indexOutOfRange

/-- The alpha and the colour of a pixel. -/
def pixelAt (pixels : List UInt8) (i : Nat) : Except Trap (UInt8 × Color) := do
  let a ← byteAt pixels (i * 4 + 0)
  let b ← byteAt pixels (i * 4 + 1)
  let g ← byteAt pixels (i * 4 + 2)
  let r ← byteAt pixels (i * 4 + 3)
  return (a, ⟨r, g, b⟩)

/-- "If pixel is not mostly opaque or white", the guard on a pixel. -/
def isKept (ignoreWhite : Bool) (a : UInt8) (color : Color) : Bool :=
  a ≥ 125 && !(ignoreWhite && color.r > 250 && color.g > 250 && color.b > 250)

/-- The box before the first pixel: `UInt8.max` to `UInt8.min`. -/
def VBox.inverted : VBox where
  rMin := 255
  rMax := 0
  gMin := 255
  gMax := 0
  bMin := 255
  bMax := 0
  bounded := by decide

/-- "find min/max". -/
def VBox.insert (vbox : VBox) (c : Cell) : VBox where
  rMin := min vbox.rMin c.r
  rMax := max vbox.rMax c.r
  gMin := min vbox.gMin c.g
  gMax := max vbox.gMax c.g
  bMin := min vbox.bMin c.b
  bMax := max vbox.bMax c.b
  bounded := ⟨max_lt vbox.bounded.1 c.r.isLt, max_lt vbox.bounded.2.1 c.g.isLt,
    max_lt vbox.bounded.2.2 c.b.isLt⟩

/-- One turn of the loop over the pixels. -/
def addPixel (pixels : List UInt8) (ignoreWhite : Bool) :
    Histogram × VBox → Nat → Except Trap (Histogram × VBox)
  | (histogram, vbox), i => do
      let (a, color) ← pixelAt pixels i
      if isKept ignoreWhite a color then
        let index := color.cell.index
        if index < HistogramSize then
          return (histogram.increment index, vbox.insert color.cell)
        else throw .indexOutOfRange
      else return (histogram, vbox)

def makeHistogramAndVBox (pixels : List UInt8) (quality : Int) (ignoreWhite : Bool) :
    Except Trap (Histogram × VBox) := do
  let indices ← stride (pixels.length / 4) quality
  indices.foldlM (addPixel pixels ignoreWhite) (fun _ => 0, VBox.inverted)

/-! ## The queue -/

section Queue

variable (histogram : Histogram)

def compareByCount (a b : VBox) : Bool := a.getCount histogram < b.getCount histogram

def compareByProduct (a b : VBox) : Bool :=
  if a.getCount histogram = b.getCount histogram then a.getVolume < b.getVolume
  else a.getCount histogram * a.getVolume < b.getCount histogram * b.getVolume

variable (sorting : Sorting VBox) (comparator : VBox → VBox → Bool) (target : Int)

/-- The loop of `iterate`, with the turns that are left. -/
def iterateFrom : Nat → Int → List VBox → Except Trap (List VBox)
  | 0, _, queue => .ok queue
  | n + 1, color, queue =>
      match queue.getLast? with
      | none => .ok queue
      | some vbox =>
          if vbox.getCount histogram = 0 then
            iterateFrom n color (sorting.sort comparator queue)
          else do
            let vboxes ← applyMedianCut histogram vbox
            match vboxes with
            | [] => throw .indexOutOfRange
            | [vbox1, vbox2] =>
                let queue := sorting.sort comparator (queue.dropLast ++ [vbox1, vbox2])
                if color + 1 ≥ target then return queue else iterateFrom n (color + 1) queue
            | vbox1 :: _ =>
                let queue := sorting.sort comparator (queue.dropLast ++ [vbox1])
                if color ≥ target then return queue else iterateFrom n color queue

def iterate (queue : List VBox) : Except Trap (List VBox) :=
  iterateFrom histogram sorting comparator target MaxIterations 1 queue

end Queue

/-- `Int(ceil(FractionByPopulation * Double(maxColors)))`, three quarters rounded up. -/
def firstTarget (maxColors : Int) : Int := (3 * maxColors + 3) / 4

/-- A colour map; the boxes share the histogram. -/
structure ColorMap where
  histogram : Histogram
  vboxes : List VBox

def quantize (sorting : Sorting VBox) (pixels : List UInt8) (quality : Int) (ignoreWhite : Bool)
    (maxColors : Int) : Except Trap (Option ColorMap) :=
  if pixels.isEmpty ∨ maxColors ≤ 1 ∨ 256 < maxColors then return none
  else do
    let (histogram, vbox) ← makeHistogramAndVBox pixels quality ignoreWhite
    let pq ← iterate histogram sorting (compareByCount histogram) (firstTarget maxColors) [vbox]
    let pq := sorting.sort (compareByProduct histogram) pq
    let pq ← iterate histogram sorting (compareByProduct histogram) (maxColors - pq.length) pq
    return some ⟨histogram, pq.reverse⟩

/-! ## The pixels that are kept -/

/-- The alpha and the colour of a pixel that is there. -/
def pixel (pixels : List UInt8) (i : Nat) : UInt8 × Color :=
  (pixels.getD (i * 4 + 0) 0, ⟨pixels.getD (i * 4 + 3) 0, pixels.getD (i * 4 + 2) 0,
    pixels.getD (i * 4 + 1) 0⟩)

/-- The reduced colour of a pixel, if it is kept. -/
def keptCell (pixels : List UInt8) (ignoreWhite : Bool) (i : Nat) : Option Cell :=
  let (a, color) := pixel pixels i
  if isKept ignoreWhite a color then some color.cell else none

/-- The pixels that are kept of those whose place `quality` divides, reduced. -/
def kept (pixels : List UInt8) (quality : Int) (ignoreWhite : Bool) : List Cell :=
  ((List.range (pixels.length / 4)).filter fun i => 0 < quality ∧ quality.toNat ∣ i).filterMap
    (keptCell pixels ignoreWhite)

/-- The smallest box round some colours. -/
def boundingBox (points : List Cell) : VBox := points.foldl VBox.insert VBox.inverted

/-- The steps of a stride are the multiples before its end. -/
theorem map_range_multiples {step : Nat} (hstep : 0 < step) (end' : Nat) :
    (List.range ((end' + step - 1) / step)).map (· * step) =
      (List.range end').filter fun i => step ∣ i := by
  induction end' with
  | zero =>
      rw [Nat.zero_add, Nat.div_eq_of_lt (Nat.sub_lt hstep Nat.one_pos)]
      rfl
  | succ n ih =>
      have hsucc : (n + 1 + step - 1) / step =
          (n + step - 1) / step + if step ∣ n then 1 else 0 := by
        have hadd : n + 1 + step - 1 = n + step - 1 + 1 := by omega
        have hdvd : step ∣ n + step - 1 + 1 ↔ step ∣ n := by
          rw [Nat.sub_add_cancel (by omega : 1 ≤ n + step)]
          exact Nat.dvd_add_left (Nat.dvd_refl step)
        rw [hadd, Nat.succ_div]
        simp only [hdvd]
      rw [List.range_succ, List.filter_append, ← ih, hsucc]
      by_cases hdvd : step ∣ n
      · have hlast : (n + step - 1) / step * step = n := by
          obtain ⟨k, rfl⟩ := hdvd
          have hk : step * k + step - 1 = step - 1 + step * k := by omega
          rw [hk, Nat.add_mul_div_left _ _ hstep, Nat.div_eq_of_lt (Nat.sub_lt hstep Nat.one_pos),
            Nat.zero_add, Nat.mul_comm]
        rw [if_pos hdvd, List.range_succ, List.map_append, List.map_singleton, hlast,
          List.filter_singleton, decide_eq_true hdvd, cond_true]
      · rw [if_neg hdvd, Nat.add_zero, List.filter_singleton, decide_eq_false hdvd, cond_false,
          List.append_nil]

theorem stride_eq (end' : Nat) {step : Int} (hstep : step ≠ 0) :
    stride end' step = .ok ((List.range end').filter fun i => 0 < step ∧ step.toNat ∣ i) := by
  rw [stride, if_neg hstep]
  by_cases hneg : step < 0
  · rw [if_pos hneg]
    have hnone : ((List.range end').filter fun i => decide (0 < step ∧ step.toNat ∣ i)) = [] := by
      rw [List.filter_eq_nil_iff]
      intro i _
      rw [decide_eq_true_eq]
      omega
    rw [hnone]
  · rw [if_neg hneg, map_range_multiples (by omega)]
    congr 1
    refine List.filter_congr fun i _ => ?_
    rw [decide_eq_decide]
    exact (and_iff_right (by omega)).symm

theorem byteAt_eq {pixels : List UInt8} {index : Nat} (h : index < pixels.length) :
    byteAt pixels index = .ok (pixels.getD index 0) := by
  rw [byteAt, List.getD_eq_getElem?_getD, List.getElem?_eq_getElem h]
  rfl

/-- A pixel that is there is read without leaving the array. -/
theorem pixelAt_eq {pixels : List UInt8} {i : Nat} (h : i < pixels.length / 4) :
    pixelAt pixels i = .ok (pixel pixels i) := by
  rw [pixelAt, byteAt_eq (by omega), byteAt_eq (by omega), byteAt_eq (by omega),
    byteAt_eq (by omega)]
  rfl

theorem tally_concat (points : List Cell) (c : Cell) :
    tally (points ++ [c]) = (tally points).increment c.index := by
  rw [← tally_cons]
  funext i
  exact (List.perm_append_singleton c points).countP_eq _

theorem boundingBox_concat (points : List Cell) (c : Cell) :
    boundingBox (points ++ [c]) = (boundingBox points).insert c := by
  rw [boundingBox, List.foldl_append]
  rfl

/-- The loop over the pixels, from what it has seen. -/
theorem foldlM_addPixel (pixels : List UInt8) (ignoreWhite : Bool) :
    ∀ (indices : List Nat) (points : List Cell), (∀ i ∈ indices, i < pixels.length / 4) →
      indices.foldlM (addPixel pixels ignoreWhite) (tally points, boundingBox points) =
        .ok (tally (points ++ indices.filterMap (keptCell pixels ignoreWhite)),
          boundingBox (points ++ indices.filterMap (keptCell pixels ignoreWhite))) := by
  intro indices
  induction indices with
  | nil =>
      intro points _
      rw [List.filterMap_nil, List.append_nil]
      rfl
  | cons i indices ih =>
      intro points hlt
      have hstep : addPixel pixels ignoreWhite (tally points, boundingBox points) i =
          .ok (tally (points ++ (keptCell pixels ignoreWhite i).toList),
            boundingBox (points ++ (keptCell pixels ignoreWhite i).toList)) := by
        rw [addPixel, pixelAt_eq (hlt i (List.mem_cons_self ..))]
        show (if isKept ignoreWhite (pixel pixels i).1 (pixel pixels i).2 then _ else _) = _
        by_cases hkept : isKept ignoreWhite (pixel pixels i).1 (pixel pixels i).2 = true
        · have hcell : keptCell pixels ignoreWhite i = some (pixel pixels i).2.cell := if_pos hkept
          rw [if_pos hkept, hcell, Option.toList_some, tally_concat, boundingBox_concat]
          exact if_pos (Cell.index_lt _)
        · have hcell : keptCell pixels ignoreWhite i = none := if_neg hkept
          rw [if_neg hkept, hcell, Option.toList_none, List.append_nil]
          rfl
      rw [List.foldlM_cons, hstep]
      refine (ih _ fun j hj => hlt j (List.mem_cons_of_mem i hj)).trans ?_
      rw [List.append_assoc]
      congr 4 <;> rw [List.filterMap_cons] <;> cases keptCell pixels ignoreWhite i <;> rfl

/-- **The histogram and the first box**: the counts of the pixels that are kept, and the
smallest box round them. -/
theorem makeHistogramAndVBox_eq (pixels : List UInt8) {quality : Int} (ignoreWhite : Bool)
    (hquality : quality ≠ 0) :
    makeHistogramAndVBox pixels quality ignoreWhite =
      .ok (tally (kept pixels quality ignoreWhite),
        boundingBox (kept pixels quality ignoreWhite)) := by
  rw [makeHistogramAndVBox, stride_eq _ hquality]
  refine (foldlM_addPixel pixels ignoreWhite _ [] fun i hi => ?_).trans ?_
  · exact List.mem_range.mp (List.mem_filter.mp hi).1
  · rfl

/-! ## The smallest box -/

namespace VBox

theorem vboxMin_insert (vbox : VBox) (c : Cell) (channel : ColorChannel) :
    (vbox.insert c).vboxMin channel = min (vbox.vboxMin channel) (c.on channel) := by
  cases channel <;> rfl

theorem vboxMax_insert (vbox : VBox) (c : Cell) (channel : ColorChannel) :
    (vbox.insert c).vboxMax channel = max (vbox.vboxMax channel) (c.on channel) := by
  cases channel <;> rfl

end VBox

/-- The bounds of the smallest box: the kept colours are within, and each bound that is not
the initial one is one of theirs. -/
theorem boundingBox_bounds (points : List Cell) (channel : ColorChannel) :
    (∀ c ∈ points, (boundingBox points).vboxMin channel ≤ c.on channel ∧
      c.on channel ≤ (boundingBox points).vboxMax channel) ∧
    ((boundingBox points).vboxMin channel = 255 ∨
      ∃ c ∈ points, c.on channel = (boundingBox points).vboxMin channel) ∧
    ((boundingBox points).vboxMax channel = 0 ∨
      ∃ c ∈ points, c.on channel = (boundingBox points).vboxMax channel) := by
  induction points using List.reverseRecOn with
  | nil => exact ⟨fun c hc => absurd hc List.not_mem_nil, by cases channel <;> exact .inl rfl,
      by cases channel <;> exact .inl rfl⟩
  | append_singleton points c ih =>
      obtain ⟨hwithin, hmin, hmax⟩ := ih
      rw [boundingBox_concat, VBox.vboxMin_insert, VBox.vboxMax_insert]
      refine ⟨fun d hd => ?_, ?_, ?_⟩
      · rcases List.mem_append.mp hd with hd | hd
        · exact ⟨(min_le_left _ _).trans (hwithin d hd).1, (hwithin d hd).2.trans (le_max_left _ _)⟩
        · rw [List.mem_singleton.mp hd]
          exact ⟨min_le_right _ _, le_max_right _ _⟩
      · rcases min_choice ((boundingBox points).vboxMin channel) (c.on channel) with h | h
        · rw [h]
          exact hmin.imp_right fun ⟨d, hd, heq⟩ => ⟨d, List.mem_append_left _ hd, heq⟩
        · rw [h]
          exact .inr ⟨c, List.mem_append_right _ (List.mem_singleton_self c), rfl⟩
      · rcases max_choice ((boundingBox points).vboxMax channel) (c.on channel) with h | h
        · rw [h]
          exact hmax.imp_right fun ⟨d, hd, heq⟩ => ⟨d, List.mem_append_left _ hd, heq⟩
        · rw [h]
          exact .inr ⟨c, List.mem_append_right _ (List.mem_singleton_self c), rfl⟩

theorem boundingBox_contains {points : List Cell} {c : Cell} (hc : c ∈ points) :
    (boundingBox points).contains c = true :=
  VBox.contains_iff.mpr fun channel => (boundingBox_bounds points channel).1 c hc

/-- No box with all the kept colours in it is smaller. -/
theorem boundingBox_least {points : List Cell} {vbox : VBox}
    (h : ∀ c ∈ points, vbox.contains c = true) {d : Cell}
    (hd : (boundingBox points).contains d = true) : vbox.contains d = true := by
  rw [VBox.contains_iff]
  intro channel
  have hin := VBox.contains_iff.mp hd channel
  have hd32 : d.on channel < 32 := by
    cases channel with
    | r => exact d.r.isLt
    | g => exact d.g.isLt
    | b => exact d.b.isLt
  obtain ⟨-, hmin, hmax⟩ := boundingBox_bounds points channel
  rcases hmin with hmin | ⟨p, hp, hmin⟩
  · omega
  · have hpin := VBox.contains_iff.mp (h p hp) channel
    rcases hmax with hmax | ⟨q, hq, hmax⟩
    · omega
    · have hqin := VBox.contains_iff.mp (h q hq) channel
      omega

/-! ## The two orders -/

section Orders

variable (points : List Cell)

theorem strictWeak_compareByCount (histogram : Histogram) : StrictWeak (compareByCount histogram) :=
  .of_rank (VBox.getCount histogram) fun _ _ => decide_eq_true_iff

/-- What `compareByProduct` compares: boxes without pixels come first, by their volumes. -/
def productRank (vbox : VBox) : Int ×ₗ Int :=
  toLex (vbox.getCount (tally points) * vbox.getVolume,
    if vbox.getCount (tally points) = 0 then vbox.getVolume else 0)

theorem product_pos (vbox : VBox) (h : 0 < vbox.getCount (tally points)) :
    0 < (vbox.getCount (tally points) : Int) * vbox.getVolume := by
  obtain ⟨c, -, hc⟩ := VBox.exists_contains_of_getCount h
  exact Int.mul_pos (Int.natCast_pos.mpr h) (VBox.getVolume_pos hc)

theorem compareByProduct_iff (a b : VBox) :
    compareByProduct (tally points) a b = true ↔ productRank points a < productRank points b := by
  rw [compareByProduct, productRank, productRank, Prod.Lex.toLex_lt_toLex]
  by_cases heq : a.getCount (tally points) = b.getCount (tally points)
  · rw [if_pos heq, decide_eq_true_eq, heq]
    by_cases hzero : b.getCount (tally points) = 0
    · simp [hzero]
    · have hpos : (0 : Int) < b.getCount (tally points) := by omega
      rw [if_neg hzero, if_neg hzero, Int.mul_lt_mul_left hpos]
      simp
  · rw [if_neg heq, decide_eq_true_eq]
    by_cases ha : a.getCount (tally points) = 0
    · have hb := product_pos points b (by omega)
      rw [ha, Int.natCast_zero, Int.zero_mul]
      exact ⟨.inl, fun h => h.resolve_right fun h => absurd h.1 hb.ne⟩
    · by_cases hb : b.getCount (tally points) = 0
      · have hpos := product_pos points a (by omega)
        rw [hb, Int.natCast_zero, Int.zero_mul]
        exact ⟨.inl, fun h => h.resolve_right fun h => absurd h.1 hpos.ne'⟩
      · rw [if_neg ha, if_neg hb]
        simp

theorem strictWeak_compareByProduct : StrictWeak (compareByProduct (tally points)) :=
  .of_rank (productRank points) (compareByProduct_iff points)

end Orders

/-! ## The queue -/

section Iterate

variable {points : List Cell} {sorting : Sorting VBox} {comparator : VBox → VBox → Bool}
  {target : Int} {U : Cell → Bool}

/-- What a turn makes of the last box: itself, or two boxes that partition it. -/
theorem applyMedianCut_cases {vbox : VBox} (h : vbox.getCount (tally points) ≠ 0) :
    applyMedianCut (tally points) vbox = .ok [vbox] ∨
      ∃ first second, applyMedianCut (tally points) vbox = .ok [first, second] ∧
        IsPartition VBox.contains [first, second] vbox.contains := by
  by_cases hone : vbox.getCount (tally points) = 1
  · refine .inl ?_
    rw [applyMedianCut, if_neg h, if_pos hone]
    rfl
  · have hmany : 1 < vbox.getCount (tally points) := by omega
    obtain ⟨-, first, second, -, hcut, hpart, -⟩ := applyMedianCut_spec hmany
    exact .inr ⟨first, second, hcut, hpart⟩

/-- What sorting keeps of a queue. -/
theorem sort_spec (hlt : StrictWeak comparator) {queue : List VBox}
    (hpart : IsPartition VBox.contains queue U) (hne : queue ≠ []) :
    IsPartition VBox.contains (sorting.sort comparator queue) U ∧
      sorting.sort comparator queue ≠ [] ∧
      (sorting.sort comparator queue).length = queue.length ∧
      InOrder comparator (sorting.sort comparator queue) := by
  have hperm := sorting.perm comparator queue
  refine ⟨hpart.perm hperm, fun h => hne ?_, hperm.length_eq, sorting.inOrder hlt queue⟩
  rw [h] at hperm
  exact hperm.nil_eq.symm

/-- **The loop of `iterate`**, with `n` turns left.  The boxes go on partitioning what they
partition, and a turn leaves them in order; `max 1 (target - color)` is how many times a box
may still be cut. -/
theorem iterateFrom_spec (hlt : StrictWeak comparator) (target : Int) :
    ∀ (n : Nat) (color : Int) (queue : List VBox), IsPartition VBox.contains queue U →
      queue ≠ [] →
      ∃ queue', iterateFrom (tally points) sorting comparator target n color queue = .ok queue' ∧
        IsPartition VBox.contains queue' U ∧ queue' ≠ [] ∧
        queue.length ≤ queue'.length ∧
        (queue'.length : Int) ≤ queue.length + max 1 (target - color) ∧
        (n ≠ 0 ∨ InOrder comparator queue → InOrder comparator queue') := by
  intro n
  induction n with
  | zero =>
      intro color queue hpart hne
      exact ⟨queue, rfl, hpart, hne, Nat.le_refl _, by omega,
        fun h => h.resolve_left fun hn => hn rfl⟩
  | succ n ih =>
      intro color queue hpart hne
      obtain ⟨vbox, hlast⟩ := Option.isSome_iff_exists.mp (List.getLast?_isSome.mpr hne)
      obtain ⟨initial, rfl⟩ := List.getLast?_eq_some_iff.mp hlast
      rw [iterateFrom, hlast]
      dsimp only
      by_cases hzero : vbox.getCount (tally points) = 0
      · -- the boxes are put in order, and nothing else
        rw [if_pos hzero]
        obtain ⟨hsorted, hne', hlength, horder⟩ := sort_spec hlt hpart hne
        obtain ⟨queue', hok, hpart', hne'', hle, hle', horder'⟩ := ih color _ hsorted hne'
        exact ⟨queue', hok, hpart', hne'', by omega, by omega, fun _ => horder' (.inr horder)⟩
      · rw [if_neg hzero, List.dropLast_concat]
        rcases applyMedianCut_cases hzero with hcut | ⟨first, second, hcut, hpieces⟩
        · rw [hcut]
          obtain ⟨hsorted, hne', hlength, horder⟩ := sort_spec hlt hpart hne
          by_cases hdone : color ≥ target
          · exact ⟨_, if_pos hdone, hsorted, hne', hlength.ge, by omega, fun _ => horder⟩
          · obtain ⟨queue', hok, hpart', hne'', hle, hle', horder'⟩ := ih color _ hsorted hne'
            exact ⟨queue', (if_neg hdone).trans hok, hpart', hne'', by omega, by omega,
              fun _ => horder' (.inr horder)⟩
        · rw [hcut]
          obtain ⟨hsorted, hne', hlength, horder⟩ :=
            sort_spec hlt (hpart.split hpieces) (by simp)
          have hlonger : (initial ++ [first, second]).length = (initial ++ [vbox]).length + 1 := by
            simp
          by_cases hdone : color + 1 ≥ target
          · exact ⟨_, if_pos hdone, hsorted, hne', by omega, by omega, fun _ => horder⟩
          · obtain ⟨queue', hok, hpart', hne'', hle, hle', horder'⟩ :=
              ih (color + 1) _ hsorted hne'
            exact ⟨queue', (if_neg hdone).trans hok, hpart', hne'', by omega, by omega,
              fun _ => horder' (.inr horder)⟩

/-- Boxes without pixels are never cut. -/
theorem iterateFrom_of_empty (comparator : VBox → VBox → Bool) (target : Int) :
    ∀ (n : Nat) (color : Int) (queue : List VBox),
    (∀ vbox ∈ queue, vbox.getCount (tally points) = 0) →
    ∃ queue', iterateFrom (tally points) sorting comparator target n color queue = .ok queue' ∧
      queue'.Perm queue := by
  intro n
  induction n with
  | zero =>
      intro color queue _
      exact ⟨queue, rfl, .refl _⟩
  | succ n ih =>
      intro color queue hzero
      rw [iterateFrom]
      cases hlast : queue.getLast? with
      | none => exact ⟨queue, rfl, .refl _⟩
      | some vbox =>
          have hperm := sorting.perm comparator queue
          obtain ⟨queue', hok, hperm'⟩ := ih color (sorting.sort comparator queue)
            fun v hv => hzero v (hperm.mem_iff.mp hv)
          exact ⟨queue', (if_pos (hzero vbox (List.mem_of_getLast? hlast))).trans hok,
            hperm'.trans hperm⟩

end Iterate

/-! ## The boxes -/

section Quantize

variable (sorting : Sorting VBox) {pixels : List UInt8} {quality : Int} (ignoreWhite : Bool)
  {maxColors : Int}

theorem boundingBox_isPartition (points : List Cell) :
    IsPartition VBox.contains [boundingBox points] (boundingBox points).contains :=
  isPartition_singleton VBox.contains _

/-- `quantize`, run: the boxes partition the smallest box round the pixels that are kept,
they are at most so many, and they are in descending order. -/
theorem quantize_eq (hpixels : pixels ≠ []) (hquality : quality ≠ 0) (hmin : 1 < maxColors)
    (hmax : maxColors ≤ 256) :
    ∃ pq : List VBox, quantize sorting pixels quality ignoreWhite maxColors =
        .ok (some ⟨tally (kept pixels quality ignoreWhite), pq.reverse⟩) ∧
      IsPartition VBox.contains pq (boundingBox (kept pixels quality ignoreWhite)).contains ∧
      pq ≠ [] ∧ (pq.length : Int) ≤ max (maxColors - 1) (firstTarget maxColors + 1) ∧
      InOrder (compareByProduct (tally (kept pixels quality ignoreWhite))) pq := by
  obtain ⟨pq₁, hok₁, hpart₁, hne₁, -, hle₁, -⟩ :=
    iterateFrom_spec (strictWeak_compareByCount _) (firstTarget maxColors) MaxIterations 1 _
      (boundingBox_isPartition (kept pixels quality ignoreWhite)) (List.cons_ne_nil _ _)
  obtain ⟨hpart₂, hne₂, hlength₂, -⟩ := sort_spec
    (strictWeak_compareByProduct (kept pixels quality ignoreWhite)) hpart₁ hne₁
  obtain ⟨pq, hok, hpart, hne, -, hle, horder⟩ :=
    iterateFrom_spec (strictWeak_compareByProduct _)
      (maxColors - (sorting.sort (compareByProduct _) pq₁).length) MaxIterations 1 _ hpart₂ hne₂
  refine ⟨pq, ?_, hpart, hne, ?_, horder (.inl (by decide))⟩
  · rw [quantize, if_neg (by simp only [List.isEmpty_iff, hpixels, false_or]; omega),
      makeHistogramAndVBox_eq _ _ hquality]
    show (iterateFrom _ _ _ _ MaxIterations 1 _ >>= _) = _
    rw [hok₁]
    show (iterateFrom _ _ _ _ MaxIterations 1 _ >>= _) = _
    rw [hok]
    rfl
  · have htarget : firstTarget maxColors = (3 * maxColors + 3) / 4 := rfl
    rw [List.length_singleton] at hle₁
    omega

/-- Without a pixel that is kept, the box is the initial one, and is never cut. -/
theorem quantize_of_empty (hpixels : pixels ≠ []) (hquality : quality ≠ 0) (hmin : 1 < maxColors)
    (hmax : maxColors ≤ 256) (hkept : kept pixels quality ignoreWhite = []) :
    quantize sorting pixels quality ignoreWhite maxColors =
      .ok (some ⟨tally [], [VBox.inverted]⟩) := by
  have hzero : ∀ vbox : VBox, vbox.getCount (tally []) = 0 := by
    intro vbox
    rw [VBox.getCount_tally]
    rfl
  obtain ⟨pq₁, hok₁, hperm₁⟩ := iterateFrom_of_empty (compareByCount (tally []))
    (firstTarget maxColors) MaxIterations 1 [VBox.inverted] fun vbox _ => hzero vbox
  obtain rfl := List.perm_singleton.mp hperm₁
  have hperm₂ := sorting.perm (compareByProduct (tally [])) [VBox.inverted]
  obtain ⟨pq, hok, hperm⟩ := iterateFrom_of_empty (compareByProduct (tally []))
    (maxColors - (sorting.sort (compareByProduct (tally [])) [VBox.inverted]).length)
    MaxIterations 1 (sorting.sort (compareByProduct (tally [])) [VBox.inverted])
    fun vbox _ => hzero vbox
  obtain rfl := List.perm_singleton.mp (hperm.trans hperm₂)
  rw [quantize, if_neg (by simp only [List.isEmpty_iff, hpixels, false_or]; omega),
    makeHistogramAndVBox_eq _ _ hquality, hkept]
  show (iterateFrom _ _ _ _ MaxIterations 1 _ >>= _) = _
  rw [show boundingBox [] = VBox.inverted from rfl, hok₁]
  show (iterateFrom _ _ _ _ MaxIterations 1 _ >>= _) = _
  rw [hok]
  rfl

end Quantize

end MagnetX.MMCQ
