/-
# `MagnetX.ColorThief.VBox` — boxes in the reduced colour space

`MMCQ` of `ColorThiefSwift`, up to the boxes.  Of each component of a pixel the upper five
bits are kept; the histogram counts the pixels of each reduced colour, and a box is a range
of reduced components on each channel.

A box reads the histogram through three nested loops.  What it reads is said here in terms
of the pixels: `getCount` is the number of pixels in the box (`getCount_tally`), and the
average colour is, reduced again, a colour of the box (`getAverage_spec`).

`Trap` is what would stop the app: an arithmetic overflow, an index out of range, and the
two `fatalError`s.  The bounds of a box are `UInt8`s in the source; `bounded`, which every
box is built with, is what keeps `max + 1` from overflowing.
-/
import MagnetX.Lib.Partition
import Mathlib.Data.List.ProdSigma
import Mathlib.Data.List.Nodup

namespace MagnetX.MMCQ

open Lib

inductive Trap where
  | overflow
  | indexOutOfRange
  | fatalError (message : String)
deriving DecidableEq, Repr

/-! ## Reduced colours -/

def SignalBits : Nat := 5

def RightShift : Nat := 8 - SignalBits

def Multiplier : Nat := 1 <<< RightShift

def HistogramSize : Nat := 1 <<< (3 * SignalBits)

def VBoxLength : Nat := 1 <<< SignalBits

def makeColorIndexOf (red green blue : Nat) : Nat :=
  red <<< (2 * SignalBits) + green <<< SignalBits + blue

structure Color where
  r : UInt8
  g : UInt8
  b : UInt8
deriving DecidableEq, Repr

inductive ColorChannel where
  | r
  | g
  | b
deriving DecidableEq, Repr

/-- A component, reduced. -/
def shifted (component : UInt8) : Fin VBoxLength :=
  ⟨(component >>> UInt8.ofNat RightShift).toNat, by
    have h : component.toNat < 256 := component.toNat_lt
    show (component >>> 3).toNat < 32
    rw [UInt8.toNat_shiftRight]
    show component.toNat >>> 3 < 32
    rw [Nat.shiftRight_eq_div_pow]
    omega⟩

/-- A reduced colour. -/
structure Cell where
  r : Fin VBoxLength
  g : Fin VBoxLength
  b : Fin VBoxLength
deriving DecidableEq, Repr

namespace Cell

def index (c : Cell) : Nat := makeColorIndexOf c.r c.g c.b

/-- Its component on a channel. -/
def on (c : Cell) : ColorChannel → Nat
  | .r => c.r
  | .g => c.g
  | .b => c.b

def triple (c : Cell) : Nat × Nat × Nat := (c.r, c.g, c.b)

end Cell

def Color.cell (color : Color) : Cell := ⟨shifted color.r, shifted color.g, shifted color.b⟩

theorem makeColorIndexOf_eq (red green blue : Nat) :
    makeColorIndexOf red green blue = red * 1024 + green * 32 + blue := by
  show red <<< 10 + green <<< 5 + blue = _
  rw [Nat.shiftLeft_eq, Nat.shiftLeft_eq]

/-- Indices stay within the histogram. -/
theorem Cell.index_lt (c : Cell) : c.index < HistogramSize := by
  have hr : c.r.val < 32 := c.r.isLt
  have hg : c.g.val < 32 := c.g.isLt
  have hb : c.b.val < 32 := c.b.isLt
  rw [Cell.index, makeColorIndexOf_eq]
  show _ < 32768
  omega

theorem shifted_val (component : UInt8) : (shifted component).val = component.toNat / 8 := by
  show (component >>> 3).toNat = _
  rw [UInt8.toNat_shiftRight]
  exact Nat.shiftRight_eq_div_pow ..

/-! ## Histograms -/

/-- The array of counts, by index.  A box reads it at reduced colours only (`VBox.cells_lt`),
the indices of which are in it. -/
abbrev Histogram := Nat → Nat

/-- The histogram of some reduced colours. -/
def tally (points : List Cell) : Histogram := fun index =>
  points.countP fun c => c.index = index

/-- `histogram[index] += 1`. -/
def Histogram.increment (histogram : Histogram) (index : Nat) : Histogram := fun i =>
  if i = index then histogram i + 1 else histogram i

theorem tally_cons (c : Cell) (points : List Cell) :
    tally (c :: points) = Histogram.increment (tally points) c.index := by
  funext i
  rw [tally, List.countP_cons, Histogram.increment, tally]
  by_cases h : i = c.index
  · rw [if_pos h, if_pos (by rw [h]; exact decide_eq_true rfl)]
  · rw [if_neg h, if_neg (by rw [decide_eq_true_eq]; exact fun hc => h hc.symm), Nat.add_zero]

/-- Reading the histogram at some colours counts the points among them. -/
theorem sum_tally (points : List Cell) {cells : List (Nat × Nat × Nat)} (hnodup : cells.Nodup)
    (hlt : ∀ t ∈ cells, t.1 < VBoxLength ∧ t.2.1 < VBoxLength ∧ t.2.2 < VBoxLength) :
    (cells.map fun t => tally points (makeColorIndexOf t.1 t.2.1 t.2.2)).sum =
      points.countP fun c => decide (c.triple ∈ cells) := by
  have hread : ∀ t ∈ cells, tally points (makeColorIndexOf t.1 t.2.1 t.2.2) =
      (points.map Cell.triple).countP fun u => decide (u = t) := by
    intro t ht
    obtain ⟨h1, h2, h3⟩ := hlt t ht
    rw [tally, List.countP_map]
    refine List.countP_congr fun c _ => ?_
    have hr : c.r.val < 32 := c.r.isLt
    have hg : c.g.val < 32 := c.g.isLt
    have hb : c.b.val < 32 := c.b.isLt
    change t.1 < 32 at h1
    change t.2.1 < 32 at h2
    change t.2.2 < 32 at h3
    rw [decide_eq_true_eq, Function.comp_apply, decide_eq_true_eq, Cell.index,
      makeColorIndexOf_eq, makeColorIndexOf_eq, Cell.triple, Prod.ext_iff, Prod.ext_iff]
    constructor
    · intro h
      exact ⟨by show c.r.val = _; omega, by show c.g.val = _; omega, by show c.b.val = _; omega⟩
    · rintro ⟨hr', hg', hb'⟩
      change c.r.val = t.1 at hr'
      change c.g.val = t.2.1 at hg'
      change c.b.val = t.2.2 at hb'
      rw [hr', hg', hb']
  rw [List.map_congr_left hread, (isPartition_of_nodup hnodup).sum_countP, List.countP_map]
  refine List.countP_congr fun c _ => ?_
  simp

/-! ## Boxes -/

/-- A box of the colour space, with the same range on each channel for all of its colours. -/
structure VBox where
  rMin : Nat
  rMax : Nat
  gMin : Nat
  gMax : Nat
  bMin : Nat
  bMax : Nat
  bounded : rMax < VBoxLength ∧ gMax < VBoxLength ∧ bMax < VBoxLength
deriving DecidableEq, Repr

def makeRange (min max : Nat) : List Nat :=
  if min ≤ max then List.range' min (max + 1 - min) else []

theorem mem_makeRange {min max i : Nat} : i ∈ makeRange min max ↔ min ≤ i ∧ i ≤ max := by
  rw [makeRange]
  split
  · rename_i hle
    rw [List.mem_range'_1]
    omega
  · rename_i hgt
    simp only [List.not_mem_nil, false_iff]
    omega

theorem nodup_makeRange (min max : Nat) : (makeRange min max).Nodup := by
  rw [makeRange]
  split
  · exact List.nodup_range'
  · exact List.nodup_nil

namespace VBox

variable (histogram : Histogram) (vbox : VBox)

def vboxMin : ColorChannel → Nat
  | .r => vbox.rMin
  | .g => vbox.gMin
  | .b => vbox.bMin

def vboxMax : ColorChannel → Nat
  | .r => vbox.rMax
  | .g => vbox.gMax
  | .b => vbox.bMax

def rRange : List Nat := makeRange vbox.rMin vbox.rMax

def gRange : List Nat := makeRange vbox.gMin vbox.gMax

def bRange : List Nat := makeRange vbox.bMin vbox.bMax

/-- The colours the nested loops go through, in their order. -/
def cells : List (Nat × Nat × Nat) := vbox.rRange ×ˢ vbox.gRange ×ˢ vbox.bRange

def getVolume : Int :=
  ((vbox.rMax : Int) - vbox.rMin + 1) * (vbox.gMax - vbox.gMin + 1) * (vbox.bMax - vbox.bMin + 1)

def getCount : Nat :=
  (vbox.cells.map fun (i, j, k) => histogram (makeColorIndexOf i j k)).sum

/-- A term of the three sums of `getAverage`: `Double(hval) * (Double(i) + 0.5) *
Double(Multiplier)`, which is a whole number. -/
def weighted (hval i : Nat) : Nat := hval * (2 * i + 1) * Multiplier / 2

/-- `UInt8(_:)`. -/
def toUInt8 (n : Nat) : Except Trap UInt8 :=
  if h : n < UInt8.size then .ok (UInt8.ofNatLT n h) else .error .overflow

/-- The middle of a channel's range. -/
def middle (min max : Nat) : Nat := Nat.min (Multiplier * (min + max + 1) / 2) 255

def getAverage : Except Trap Color :=
  let ntot := (vbox.cells.map fun (i, j, k) => histogram (makeColorIndexOf i j k)).sum
  let rSum := (vbox.cells.map fun (i, j, k) =>
    weighted (histogram (makeColorIndexOf i j k)) i).sum
  let gSum := (vbox.cells.map fun (i, j, k) =>
    weighted (histogram (makeColorIndexOf i j k)) j).sum
  let bSum := (vbox.cells.map fun (i, j, k) =>
    weighted (histogram (makeColorIndexOf i j k)) k).sum
  if ntot > 0 then do
    let r ← toUInt8 (rSum / ntot)
    let g ← toUInt8 (gSum / ntot)
    let b ← toUInt8 (bSum / ntot)
    return ⟨r, g, b⟩
  else do
    let r ← toUInt8 (middle vbox.rMin vbox.rMax)
    let g ← toUInt8 (middle vbox.gMin vbox.gMax)
    let b ← toUInt8 (middle vbox.bMin vbox.bMax)
    return ⟨r, g, b⟩

/-- The subtraction of two `UInt8`s. -/
def width (channel : ColorChannel) : Except Trap Nat :=
  if vbox.vboxMin channel ≤ vbox.vboxMax channel then
    .ok (vbox.vboxMax channel - vbox.vboxMin channel)
  else .error .overflow

def widestColorChannel : Except Trap ColorChannel := do
  let rWidth ← vbox.width .r
  let gWidth ← vbox.width .g
  let bWidth ← vbox.width .b
  let widest := max (max rWidth gWidth) bWidth
  return if widest = rWidth then .r else if widest = gWidth then .g else .b

/-- The colour is in the box. -/
def contains (c : Cell) : Bool :=
  (vbox.rMin ≤ c.r && c.r ≤ vbox.rMax) && ((vbox.gMin ≤ c.g && c.g ≤ vbox.gMax) &&
    (vbox.bMin ≤ c.b && c.b ≤ vbox.bMax))

/-! ## What the loops read -/

variable {vbox}

theorem contains_iff {c : Cell} :
    vbox.contains c = true ↔ ∀ channel, vbox.vboxMin channel ≤ c.on channel ∧
      c.on channel ≤ vbox.vboxMax channel := by
  simp only [contains, Bool.and_eq_true, decide_eq_true_eq]
  constructor
  · rintro ⟨hr, hg, hb⟩ channel
    cases channel with
    | r => exact hr
    | g => exact hg
    | b => exact hb
  · intro h
    exact ⟨h .r, h .g, h .b⟩

theorem mem_cells {t : Nat × Nat × Nat} :
    t ∈ vbox.cells ↔ t.1 ∈ vbox.rRange ∧ t.2.1 ∈ vbox.gRange ∧ t.2.2 ∈ vbox.bRange := by
  rw [cells, List.mem_product, List.mem_product]

theorem triple_mem_cells {c : Cell} : c.triple ∈ vbox.cells ↔ vbox.contains c = true := by
  simp only [mem_cells, Cell.triple, rRange, gRange, bRange, mem_makeRange, contains,
    Bool.and_eq_true, decide_eq_true_eq]

theorem nodup_cells : vbox.cells.Nodup :=
  (nodup_makeRange ..).product ((nodup_makeRange ..).product (nodup_makeRange ..))

theorem cells_lt {t : Nat × Nat × Nat} (ht : t ∈ vbox.cells) :
    t.1 < VBoxLength ∧ t.2.1 < VBoxLength ∧ t.2.2 < VBoxLength := by
  obtain ⟨h1, h2, h3⟩ := mem_cells.mp ht
  exact ⟨Nat.lt_of_le_of_lt (mem_makeRange.mp h1).2 vbox.bounded.1,
    Nat.lt_of_le_of_lt (mem_makeRange.mp h2).2 vbox.bounded.2.1,
    Nat.lt_of_le_of_lt (mem_makeRange.mp h3).2 vbox.bounded.2.2⟩

/-- **The count of a box is the number of pixels in it.** -/
theorem getCount_tally (points : List Cell) :
    vbox.getCount (tally points) = points.countP vbox.contains := by
  rw [getCount]
  refine (sum_tally points nodup_cells fun t ht => cells_lt ht).trans ?_
  refine List.countP_congr fun c _ => ?_
  rw [decide_eq_true_eq, triple_mem_cells]

/-- A box with a colour in it has a volume. -/
theorem getVolume_pos {c : Cell} (hc : vbox.contains c = true) : 0 < vbox.getVolume := by
  rw [contains_iff] at hc
  have hr : 0 < (vbox.rMax : Int) - vbox.rMin + 1 := by
    have h := hc .r
    simp only [vboxMin, vboxMax] at h
    omega
  have hg : 0 < (vbox.gMax : Int) - vbox.gMin + 1 := by
    have h := hc .g
    simp only [vboxMin, vboxMax] at h
    omega
  have hb : 0 < (vbox.bMax : Int) - vbox.bMin + 1 := by
    have h := hc .b
    simp only [vboxMin, vboxMax] at h
    omega
  exact Int.mul_pos (Int.mul_pos hr hg) hb

/-- A box that some pixels are in has a colour in it. -/
theorem exists_contains_of_getCount {points : List Cell}
    (h : 0 < vbox.getCount (tally points)) : ∃ c ∈ points, vbox.contains c = true := by
  rw [getCount_tally] at h
  exact List.countP_pos_iff.mp h

/-! ## Averages -/

theorem weighted_eq (hval i : Nat) : weighted hval i = hval * (8 * i + 4) := by
  have h : hval * (2 * i + 1) * 8 = hval * (8 * i + 4) * 2 := by
    rw [Nat.mul_assoc, Nat.mul_assoc]
    congr 1
    omega
  show hval * (2 * i + 1) * 8 / 2 = _
  rw [h]
  exact Nat.mul_div_cancel _ Nat.two_pos

/-- A weighted average, rounded down, is between the bounds of what it averages. -/
theorem average_bounds {α : Type} {elements : List α} (weight value : α → Nat) {low high : Nat}
    (h : ∀ a ∈ elements, low ≤ value a ∧ value a ≤ high)
    (hpos : 0 < (elements.map weight).sum) :
    low ≤ (elements.map fun a => weight a * value a).sum / (elements.map weight).sum ∧
      (elements.map fun a => weight a * value a).sum / (elements.map weight).sum ≤ high := by
  have hsums : low * (elements.map weight).sum ≤ (elements.map fun a => weight a * value a).sum ∧
      (elements.map fun a => weight a * value a).sum ≤ (elements.map weight).sum * high := by
    clear hpos
    induction elements with
    | nil => simp
    | cons a elements ih =>
        obtain ⟨hlow, hhigh⟩ := ih fun b hb => h b (List.mem_cons_of_mem a hb)
        obtain ⟨ha, ha'⟩ := h a (List.mem_cons_self ..)
        have h1 := Nat.mul_le_mul_left (weight a) ha
        have h2 := Nat.mul_le_mul_left (weight a) ha'
        simp only [List.map_cons, List.sum_cons]
        constructor
        · rw [Nat.mul_add, Nat.mul_comm low (weight a)]
          omega
        · rw [Nat.add_mul]
          omega
  exact ⟨(Nat.le_div_iff_mul_le hpos).mpr hsums.1, Nat.div_le_of_le_mul hsums.2⟩

theorem toUInt8_ok {n : Nat} (h : n < UInt8.size) :
    ∃ v, toUInt8 n = .ok v ∧ v.toNat = n := by
  refine ⟨UInt8.ofNatLT n h, ?_, UInt8.toNat_ofNatLT⟩
  rw [toUInt8, dif_pos h]

/-- One channel of an average: it is computed, it reduces to the range of the channel, and it
is not full. -/
theorem average_channel (channel : ColorChannel) {value : Nat × Nat × Nat → Nat}
    (hvalue : ∀ t ∈ vbox.cells, vbox.vboxMin channel ≤ value t ∧
      value t ≤ vbox.vboxMax channel)
    (hlt : vbox.vboxMax channel < VBoxLength)
    (hpos : 0 < vbox.getCount histogram) :
    ∃ v, toUInt8 ((vbox.cells.map fun t =>
        weighted (histogram (makeColorIndexOf t.1 t.2.1 t.2.2)) (value t)).sum /
          vbox.getCount histogram) = .ok v ∧
      (vbox.vboxMin channel ≤ (shifted v).val ∧ (shifted v).val ≤ vbox.vboxMax channel) ∧
      v.toNat < 255 := by
  have hcentre : ∀ t ∈ vbox.cells, 8 * vbox.vboxMin channel + 4 ≤ 8 * value t + 4 ∧
      8 * value t + 4 ≤ 8 * vbox.vboxMax channel + 4 := by
    intro t ht
    have := hvalue t ht
    omega
  have hbounds := average_bounds
    (fun t : Nat × Nat × Nat => histogram (makeColorIndexOf t.1 t.2.1 t.2.2))
    (fun t => 8 * value t + 4) hcentre hpos
  simp only [weighted_eq]
  have hmax : vbox.vboxMax channel < 32 := hlt
  obtain ⟨v, hv, hval⟩ := toUInt8_ok (n := (vbox.cells.map fun t =>
    histogram (makeColorIndexOf t.1 t.2.1 t.2.2) * (8 * value t + 4)).sum /
      vbox.getCount histogram) (by
        show _ < 256
        have := hbounds.2
        change _ / vbox.getCount histogram ≤ _ at this
        omega)
  refine ⟨v, hv, ?_⟩
  rw [shifted_val, hval]
  have h1 := hbounds.1
  have h2 := hbounds.2
  change _ ≤ _ / vbox.getCount histogram at h1
  change _ / vbox.getCount histogram ≤ _ at h2
  omega

/-- **The average colour of a box with pixels in it is a colour of the box**, once it is
reduced; no conversion on the way overflows, and it is never quite white. -/
theorem getAverage_spec (hpos : 0 < vbox.getCount histogram) :
    ∃ color, vbox.getAverage histogram = .ok color ∧ vbox.contains color.cell = true ∧
      color.r.toNat < 255 := by
  have hr : ∀ t ∈ vbox.cells, vbox.rMin ≤ t.1 ∧ t.1 ≤ vbox.rMax := by
    intro t ht
    exact mem_makeRange.mp (mem_cells.mp ht).1
  have hg : ∀ t ∈ vbox.cells, vbox.gMin ≤ t.2.1 ∧ t.2.1 ≤ vbox.gMax := by
    intro t ht
    exact mem_makeRange.mp (mem_cells.mp ht).2.1
  have hb : ∀ t ∈ vbox.cells, vbox.bMin ≤ t.2.2 ∧ t.2.2 ≤ vbox.bMax := by
    intro t ht
    exact mem_makeRange.mp (mem_cells.mp ht).2.2
  obtain ⟨r, hrok, hrcell, hrlt⟩ := average_channel histogram .r hr vbox.bounded.1 hpos
  obtain ⟨g, hgok, hgcell, -⟩ := average_channel histogram .g hg vbox.bounded.2.1 hpos
  obtain ⟨b, hbok, hbcell, -⟩ := average_channel histogram .b hb vbox.bounded.2.2 hpos
  refine ⟨⟨r, g, b⟩, ?_, ?_, hrlt⟩
  · rw [getAverage]
    refine (if_pos hpos).trans ?_
    rw [getCount] at hrok hgok hbok
    rw [hrok]
    change toUInt8 _ >>= _ = _
    rw [hgok]
    change toUInt8 _ >>= _ = _
    rw [hbok]
    rfl
  · rw [contains_iff]
    intro channel
    cases channel with
    | r => exact hrcell
    | g => exact hgcell
    | b => exact hbcell

theorem middle_lt (min max : Nat) : middle min max < UInt8.size :=
  Nat.lt_of_le_of_lt (Nat.min_le_right ..) (by decide)

/-- The average of a box without pixels is its middle. -/
theorem getAverage_of_empty (hzero : vbox.getCount histogram = 0) :
    vbox.getAverage histogram = .ok
      ⟨.ofNatLT _ (middle_lt vbox.rMin vbox.rMax), .ofNatLT _ (middle_lt vbox.gMin vbox.gMax),
        .ofNatLT _ (middle_lt vbox.bMin vbox.bMax)⟩ := by
  have hok : ∀ min max, toUInt8 (middle min max) = .ok (.ofNatLT _ (middle_lt min max)) :=
    fun min max => dif_pos (middle_lt min max)
  rw [getAverage]
  refine (if_neg ?_).trans ?_
  · change ¬ vbox.getCount histogram > 0
    omega
  · rw [hok, hok, hok]
    rfl

/-- Every box has an average colour. -/
theorem getAverage_ok (vbox : VBox) : ∃ color, vbox.getAverage histogram = .ok color := by
  rcases Nat.eq_zero_or_pos (vbox.getCount histogram) with hzero | hpos
  · exact ⟨_, getAverage_of_empty histogram hzero⟩
  · obtain ⟨color, hcolor, -⟩ := getAverage_spec histogram hpos
    exact ⟨color, hcolor⟩

end VBox

end MagnetX.MMCQ
