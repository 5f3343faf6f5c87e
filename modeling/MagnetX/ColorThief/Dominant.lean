/-
# `MagnetX.ColorThief.Dominant` — the dominant colour of an image

`ColorThief`.  The palette of an image is the average colour of each of its boxes, and the
dominant colour is the first of a palette of five.

For any image with bytes, `quality` other than zero and any sort, nothing traps.  The boxes
partition the smallest box round the pixels that are kept (`getColorMap_isPartition`); the
palette has at least one colour and, if four were asked for or more, no more than were asked
for (`length_getPalette`); the dominant colour is that of a box no other box outweighs, in
which there are pixels, and it is in that box (`getColor_spec`).  It is white when every
pixel is dropped, and then only.
-/
import MagnetX.ColorThief.Quantize

namespace MagnetX.MMCQ

def ColorMap.makePalette (colorMap : ColorMap) : Except Trap (List Color) :=
  colorMap.vboxes.mapM fun vbox => vbox.getAverage colorMap.histogram

end MagnetX.MMCQ

namespace MagnetX.ColorThief

open Lib MMCQ

def DefaultQuality : Int := 10

def DefaultIgnoreWhite : Bool := true

variable (sorting : Sorting VBox)

/-- `image` is the bytes that `makeBytes` gets out of it, if any. -/
def getColorMap (image : Option (List UInt8)) (colorCount quality : Int) (ignoreWhite : Bool) :
    Except Trap (Option ColorMap) :=
  match image with
  | none => return none
  | some pixels => quantize sorting pixels quality ignoreWhite colorCount

def getPalette (image : Option (List UInt8)) (colorCount quality : Int) (ignoreWhite : Bool) :
    Except Trap (Option (List Color)) := do
  match ← getColorMap sorting image colorCount quality ignoreWhite with
  | none => return none
  | some colorMap => return some (← colorMap.makePalette)

def getColor (image : Option (List UInt8)) (quality : Int) (ignoreWhite : Bool) :
    Except Trap (Option Color) := do
  match ← getPalette sorting image 5 quality ignoreWhite with
  | none => return none
  | some [] => throw .indexOutOfRange
  | some (dominantColor :: _) => return some dominantColor

/-! ## The palette -/

/-- Every box has its colour. -/
theorem makePalette_ok (histogram : Histogram) : ∀ vboxes : List VBox,
    ∃ palette, ColorMap.makePalette ⟨histogram, vboxes⟩ = .ok palette ∧
      List.Forall₂ (fun vbox color => VBox.getAverage histogram vbox = .ok color) vboxes
        palette := by
  intro vboxes
  induction vboxes with
  | nil => exact ⟨[], rfl, .nil⟩
  | cons vbox vboxes ih =>
      obtain ⟨palette, hok, hcolors⟩ := ih
      obtain ⟨color, hcolor⟩ := VBox.getAverage_ok histogram vbox
      refine ⟨color :: palette, ?_, .cons hcolor hcolors⟩
      rw [ColorMap.makePalette, List.mapM_cons, hcolor]
      show (ColorMap.makePalette ⟨histogram, vboxes⟩ >>= fun colors => pure (color :: colors)) = _
      rw [hok]
      rfl

variable {pixels : List UInt8} {colorCount quality : Int} (ignoreWhite : Bool)

/-- **The boxes of an image.**  No pixel that is kept is lost or counted twice, and no box
reaches out of a box that all of them are in.  Each order cuts a box before it looks at how
many there are, so that two or three boxes may become one more; no box weighs more than one
before it. -/
theorem getColorMap_isPartition (hpixels : pixels ≠ []) (hquality : quality ≠ 0)
    (hmin : 1 < colorCount) (hmax : colorCount ≤ 256) :
    ∃ colorMap, getColorMap sorting (some pixels) colorCount quality ignoreWhite =
        .ok (some colorMap) ∧
      colorMap.histogram = tally (kept pixels quality ignoreWhite) ∧
      IsPartition VBox.contains colorMap.vboxes
        (boundingBox (kept pixels quality ignoreWhite)).contains ∧
      (∀ c ∈ kept pixels quality ignoreWhite,
        colorMap.vboxes.countP (fun vbox => vbox.contains c) = 1) ∧
      (∀ round : VBox, (∀ c ∈ kept pixels quality ignoreWhite, round.contains c = true) →
        ∀ vbox ∈ colorMap.vboxes, ∀ c, vbox.contains c = true → round.contains c = true) ∧
      (colorMap.vboxes.map fun vbox => vbox.getCount colorMap.histogram).sum =
        (kept pixels quality ignoreWhite).length ∧
      1 ≤ colorMap.vboxes.length ∧
      (colorMap.vboxes.length : Int) ≤ max (colorCount - 1) (firstTarget colorCount + 1) ∧
      colorMap.vboxes.Pairwise fun vbox next =>
        compareByProduct colorMap.histogram vbox next = false := by
  obtain ⟨pq, hok, hpart, hne, hlength, horder⟩ :=
    quantize_eq sorting ignoreWhite hpixels hquality hmin hmax
  have hpart' := hpart.perm (List.reverse_perm pq)
  refine ⟨_, hok, rfl, hpart', fun c hc => ?_, fun round hround vbox hvbox c hc => ?_, ?_, ?_, ?_,
    List.pairwise_reverse.mpr horder⟩
  · rw [hpart' c, if_pos (boundingBox_contains hc)]
  · exact boundingBox_least hround (hpart'.of_mem hvbox hc)
  · simp only [VBox.getCount_tally]
    rw [hpart'.sum_countP, List.countP_eq_length]
    exact fun c hc => boundingBox_contains hc
  · rw [List.length_reverse]
    exact List.length_pos_iff.mpr hne
  · rw [List.length_reverse]
    exact hlength

/-- Eight reds, from black on, that the reduced colours tell apart. -/
def sampleReds : List UInt8 :=
  [255, 0, 0, 0, 255, 0, 0, 8, 255, 0, 0, 16, 255, 0, 0, 24, 255, 0, 0, 32, 255, 0, 0, 40,
    255, 0, 0, 48, 255, 0, 0, 56]

theorem getColorMap_isPartition_sampleReds : ∃ colorMap,
    getColorMap stableSort (some sampleReds) 5 1 true = .ok (some colorMap) ∧
      colorMap.histogram = tally (kept sampleReds 1 true) ∧
      IsPartition VBox.contains colorMap.vboxes (boundingBox (kept sampleReds 1 true)).contains ∧
      (∀ c ∈ kept sampleReds 1 true,
        colorMap.vboxes.countP (fun vbox => vbox.contains c) = 1) ∧
      (∀ round : VBox, (∀ c ∈ kept sampleReds 1 true, round.contains c = true) →
        ∀ vbox ∈ colorMap.vboxes, ∀ c, vbox.contains c = true → round.contains c = true) ∧
      (colorMap.vboxes.map fun vbox => vbox.getCount colorMap.histogram).sum =
        (kept sampleReds 1 true).length ∧
      1 ≤ colorMap.vboxes.length ∧
      (colorMap.vboxes.length : Int) ≤ max (5 - 1) (firstTarget 5 + 1) ∧
      colorMap.vboxes.Pairwise fun vbox next =>
        compareByProduct colorMap.histogram vbox next = false :=
  getColorMap_isPartition stableSort true (by decide) (by decide) (by decide) (by decide)

/-- The eight reds are cut into five boxes; asked for two colours, into three. -/
example : (getColorMap stableSort (some sampleReds) 5 1 true).toOption.join.map
      (fun colorMap => colorMap.vboxes.length) = some 5 ∧
    (getColorMap stableSort (some sampleReds) 2 1 true).toOption.join.map
      (fun colorMap => colorMap.vboxes.length) = some 3 := by decide +kernel

/-- **The size of a palette.**  Three quarters of the colours, rounded up, are found in the
first order; each order cuts a box before it looks at how many there are, so that two or
three colours may become one more. -/
theorem length_getPalette (hpixels : pixels ≠ []) (hquality : quality ≠ 0)
    (hmin : 1 < colorCount) (hmax : colorCount ≤ 256) :
    ∃ palette, getPalette sorting (some pixels) colorCount quality ignoreWhite =
        .ok (some palette) ∧
      1 ≤ palette.length ∧
      (palette.length : Int) ≤ max (colorCount - 1) (firstTarget colorCount + 1) ∧
      (4 ≤ colorCount → (palette.length : Int) ≤ colorCount) := by
  obtain ⟨pq, hok, -, hne, hle, -⟩ := quantize_eq sorting ignoreWhite hpixels hquality hmin hmax
  obtain ⟨palette, hpalette, hcolors⟩ :=
    makePalette_ok (tally (kept pixels quality ignoreWhite)) pq.reverse
  have hlength : palette.length = pq.length := by
    rw [← hcolors.length_eq, List.length_reverse]
  refine ⟨palette, ?_, ?_, ?_, fun hfour => ?_⟩
  · rw [getPalette]
    show (quantize sorting pixels quality ignoreWhite colorCount >>= _) = _
    rw [hok]
    show (ColorMap.makePalette _ >>= _) = _
    rw [hpalette]
    rfl
  · rw [hlength]
    exact List.length_pos_iff.mpr hne
  · rw [hlength]
    exact hle
  · have htarget : firstTarget colorCount = (3 * colorCount + 3) / 4 := rfl
    omega

theorem length_getPalette_sampleReds : ∃ palette,
    getPalette stableSort (some sampleReds) 5 1 true = .ok (some palette) ∧
      1 ≤ palette.length ∧ (palette.length : Int) ≤ max (5 - 1) (firstTarget 5 + 1) ∧
      (palette.length : Int) ≤ 5 :=
  have ⟨palette, hok, hpos, hle, hfour⟩ := length_getPalette stableSort true
    (by decide : sampleReds ≠ []) (by decide) (by decide) (by decide)
  ⟨palette, hok, hpos, hle, hfour (by decide)⟩

/-! ## The dominant colour -/

def white : Color := ⟨255, 255, 255⟩

/-- The last box of a queue in order has pixels, if any box has, and none outweighs it. -/
theorem getLast_spec {points : List Cell} {pq : List VBox} {vbox : VBox}
    (hpart : IsPartition VBox.contains pq (boundingBox points).contains)
    (horder : InOrder (compareByProduct (tally points)) pq) (hlast : pq.getLast? = some vbox)
    (hne : points ≠ []) :
    0 < vbox.getCount (tally points) ∧
      ∀ other ∈ pq, (other.getCount (tally points) : Int) * other.getVolume ≤
        vbox.getCount (tally points) * vbox.getVolume := by
  have hmax : ∀ other ∈ pq, (other.getCount (tally points) : Int) * other.getVolume ≤
      vbox.getCount (tally points) * vbox.getVolume := by
    intro other hother
    have h := horder.not_lt_getLast (strictWeak_compareByProduct points) hlast other hother
    rw [Bool.eq_false_iff, ne_eq, compareByProduct_iff, productRank, productRank,
      Prod.Lex.toLex_lt_toLex] at h
    exact le_of_not_gt fun hlt => h (.inl hlt)
  refine ⟨?_, hmax⟩
  obtain ⟨c, points', rfl⟩ := List.exists_cons_of_ne_nil hne
  obtain ⟨other, hother, hc⟩ := hpart.exists_mem (boundingBox_contains (List.mem_cons_self ..))
  have hpos := product_pos (c :: points') other (by
    rw [VBox.getCount_tally]
    exact List.countP_pos_iff.mpr ⟨c, List.mem_cons_self .., hc⟩)
  have hle := hmax other hother
  by_contra hzero
  rw [Nat.eq_zero_of_not_pos hzero, Int.natCast_zero, Int.zero_mul] at hle
  exact absurd hpos (not_lt.mpr hle)

/-- `getColor`, from the boxes. -/
theorem getColor_eq {histogram : Histogram} {vbox : VBox} {vboxes : List VBox} {color : Color}
    (hok : quantize sorting pixels quality ignoreWhite 5 = .ok (some ⟨histogram, vbox :: vboxes⟩))
    (hcolor : vbox.getAverage histogram = .ok color) :
    getColor sorting (some pixels) quality ignoreWhite = .ok (some color) := by
  obtain ⟨palette, hpalette, hcolors⟩ := makePalette_ok histogram (vbox :: vboxes)
  cases hcolors with
  | cons hhead htail =>
      rename_i dominantColor _
      obtain rfl : color = dominantColor := Except.ok.inj (hcolor.symm.trans hhead)
      rw [getColor, getPalette]
      show ((quantize sorting pixels quality ignoreWhite 5 >>= _) >>= _) = _
      rw [hok]
      show ((ColorMap.makePalette _ >>= _) >>= _) = _
      rw [hpalette]
      rfl

/-- **The dominant colour.** -/
theorem getColor_spec (hpixels : pixels ≠ []) (hquality : quality ≠ 0) :
    ∃ color, getColor sorting (some pixels) quality ignoreWhite = .ok (some color) ∧
      (color = white ↔ kept pixels quality ignoreWhite = []) ∧
      (kept pixels quality ignoreWhite ≠ [] → ∃ colorMap vbox,
        getColorMap sorting (some pixels) 5 quality ignoreWhite = .ok (some colorMap) ∧
        vbox ∈ colorMap.vboxes ∧ vbox.getAverage colorMap.histogram = .ok color ∧
        vbox.contains color.cell = true ∧
        (∃ c ∈ kept pixels quality ignoreWhite, vbox.contains c = true) ∧
        ∀ other ∈ colorMap.vboxes,
          (other.getCount colorMap.histogram : Int) * other.getVolume ≤
            vbox.getCount colorMap.histogram * vbox.getVolume) := by
  by_cases hkept : kept pixels quality ignoreWhite = []
  · have hok := quantize_of_empty sorting ignoreWhite hpixels hquality (by decide : (1 : Int) < 5)
      (by decide) hkept
    refine ⟨white, getColor_eq sorting ignoreWhite hok ?_, iff_of_true rfl hkept,
      fun h => absurd hkept h⟩
    refine (VBox.getAverage_of_empty _ ?_).trans rfl
    rw [VBox.getCount_tally]
    rfl
  · obtain ⟨pq, hok, hpart, hne, -, horder⟩ :=
      quantize_eq sorting ignoreWhite hpixels hquality (by decide : (1 : Int) < 5) (by decide)
    obtain ⟨vbox, hlast⟩ := Option.isSome_iff_exists.mp (List.getLast?_isSome.mpr hne)
    obtain ⟨hpos, hmax⟩ := getLast_spec hpart horder hlast hkept
    obtain ⟨color, hcolor, hcell, hlt⟩ := VBox.getAverage_spec _ hpos
    obtain ⟨initial, rfl⟩ := List.getLast?_eq_some_iff.mp hlast
    have hfirst : (initial ++ [vbox]).reverse = vbox :: initial.reverse := by simp
    rw [hfirst] at hok
    refine ⟨color, getColor_eq sorting ignoreWhite hok hcolor,
      iff_of_false (fun hwhite => ?_) hkept, fun _ => ⟨_, vbox, hok, ?_, hcolor, hcell,
        VBox.exists_contains_of_getCount hpos, fun other hother => ?_⟩⟩
    · rw [hwhite] at hlt
      exact absurd hlt (by decide)
    · exact List.mem_cons_self ..
    · rw [← hfirst] at hother
      exact hmax other (List.mem_reverse.mp hother)

theorem getColor_spec_sampleReds : ∃ color,
    getColor stableSort (some sampleReds) 1 DefaultIgnoreWhite = .ok (some color) ∧
      color ≠ white ∧ ∃ colorMap vbox,
        getColorMap stableSort (some sampleReds) 5 1 DefaultIgnoreWhite = .ok (some colorMap) ∧
        vbox ∈ colorMap.vboxes ∧ vbox.getAverage colorMap.histogram = .ok color ∧
        vbox.contains color.cell = true ∧
        (∃ c ∈ kept sampleReds 1 DefaultIgnoreWhite, vbox.contains c = true) ∧
        ∀ other ∈ colorMap.vboxes,
          (other.getCount colorMap.histogram : Int) * other.getVolume ≤
            vbox.getCount colorMap.histogram * vbox.getVolume := by
  obtain ⟨color, hok, hwhite, hbox⟩ := getColor_spec stableSort DefaultIgnoreWhite
    (by decide : sampleReds ≠ []) (by decide : (1 : Int) ≠ 0)
  have hkept : kept sampleReds 1 DefaultIgnoreWhite ≠ [] := by decide
  exact ⟨color, hok, fun h => hkept (hwhite.mp h), hbox hkept⟩

/-- Of white pixels alone none is kept. -/
example : getColor stableSort (some [255, 255, 255, 255]) DefaultQuality DefaultIgnoreWhite =
    .ok (some white) := by decide +kernel

end MagnetX.ColorThief
