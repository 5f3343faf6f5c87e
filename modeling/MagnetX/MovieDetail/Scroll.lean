/-
# `MagnetX.MovieDetail.Scroll` — the effects of scrolling

`scrollHandler` of `MovieDetailViewController`.  It is called with one content offset
after the other, as the system samples them, and writes three things: the alpha of the
navigation bar, the title view, and the frame of the stretched header.

Which of them it writes depends on the side of zero the offset is on: the frame below,
the alpha and the title from zero up.  Each side is a register (`MagnetX.Lib.Register`),
and a flick that jumps over zero leaves the other side's as it was:

* after an offset below zero the header stays stretched when the next sample is above it;
* an opaque bar stays opaque, with the other title, when the next sample is below it.

What is on screen is what the last offset alone gives, with an unstretched header above
zero and a transparent bar below, exactly for the sequences that cross zero at zero
(`scrollHandler_last_iff`).
-/
import MagnetX.Screen
import MagnetX.Lib.Register

namespace MagnetX

open Lib

structure CGRect where
  x : ℚ
  y : ℚ
  width : ℚ
  height : ℚ
deriving DecidableEq, Repr

inductive TitleView where
  | iconAndTextView
  | onlyTextView
deriving DecidableEq, Repr

/-- What `scrollHandler` writes. -/
structure DetailHeader where
  alpha : ℚ
  titleView : TitleView
  frame : CGRect
deriving DecidableEq, Repr

namespace DetailHeader

variable (screen : UIScreen)

/-- The frame of `tableHeaderView`, and of `scaleHeaderView` when it is made. -/
def originalRect : CGRect := ⟨0, 0, screen.width, screen.width + screen.statusBarHeight⟩

/-- After `viewDidLoad`, before the first offset. -/
def initial : DetailHeader := ⟨0, .iconAndTextView, originalRect screen⟩

/-- `alpha` in the handler. -/
def alphaAt (offsetY : ℚ) : ℚ :=
  if offsetY ≥ screen.width - yl_navHeight then 1 else offsetY / (screen.width - yl_navHeight)

/-- The frame of a header stretched by an offset. -/
def stretched (offsetY : ℚ) : CGRect :=
  ⟨(originalRect screen).x, offsetY, screen.width,
    screen.width + screen.statusBarHeight - offsetY⟩

def scrollHandler (header : DetailHeader) (offsetY : ℚ) : DetailHeader :=
  let alpha := alphaAt screen offsetY
  if offsetY < 0 then { header with frame := stretched screen offsetY }
  else
    { header with
      alpha := alpha
      titleView := if offsetY > 365 then .onlyTextView else .iconAndTextView }

/-- The handler, called with one offset after the other. -/
def scroll (offsets : List ℚ) : DetailHeader := offsets.foldl (scrollHandler screen) (initial screen)

theorem scroll_snoc (offsets : List ℚ) (offsetY : ℚ) :
    scroll screen (offsets ++ [offsetY]) =
      scrollHandler screen (scroll screen offsets) offsetY := by
  rw [scroll, List.foldl_append]
  rfl

/-! ## Two registers -/

/-- What an offset does to the frame. -/
def writeFrame (offsetY : ℚ) : Option CGRect :=
  if offsetY < 0 then some (stretched screen offsetY) else none

/-- What an offset does to the bar: its alpha and its title. -/
def writeBar (offsetY : ℚ) : Option (ℚ × TitleView) :=
  if offsetY < 0 then none
  else some (alphaAt screen offsetY, if offsetY > 365 then .onlyTextView else .iconAndTextView)

theorem scrollHandler_eq (header : DetailHeader) (offsetY : ℚ) :
    (scrollHandler screen header offsetY).frame = (writeFrame screen offsetY).getD header.frame ∧
      ((scrollHandler screen header offsetY).alpha, (scrollHandler screen header offsetY).titleView) =
        (writeBar screen offsetY).getD (header.alpha, header.titleView) := by
  by_cases h : offsetY < 0
  · simp [scrollHandler, writeFrame, writeBar, h]
  · simp [scrollHandler, writeFrame, writeBar, h]

/-- The state after any offsets, register by register. -/
theorem scroll_eq (offsets : List ℚ) :
    (scroll screen offsets).frame = latest (writeFrame screen) (originalRect screen) offsets ∧
      ((scroll screen offsets).alpha, (scroll screen offsets).titleView) =
        latest (writeBar screen) (0, .iconAndTextView) offsets := by
  induction offsets using List.reverseRecOn with
  | nil => exact ⟨rfl, rfl⟩
  | append_singleton offsets offsetY ih =>
      obtain ⟨hframe, hbar⟩ := scrollHandler_eq screen (scroll screen offsets) offsetY
      rw [scroll_snoc, hframe, hbar, latest_snoc, latest_snoc, ih.1, ih.2]
      exact ⟨rfl, rfl⟩

/-! ## The alpha -/

variable {screen}

theorem alphaAt_bounds (hwidth : 44 < screen.width) {offsetY : ℚ} (h : 0 ≤ offsetY) :
    0 ≤ alphaAt screen offsetY ∧ alphaAt screen offsetY ≤ 1 := by
  have hpos : 0 < screen.width - yl_navHeight := sub_pos.mpr hwidth
  unfold alphaAt
  split
  · exact ⟨zero_le_one, le_refl 1⟩
  · rename_i hlt
    exact ⟨div_nonneg h hpos.le, (div_le_one hpos).mpr (not_le.mp hlt).le⟩

/-- The bar is transparent at zero only. -/
theorem alphaAt_eq_zero_iff (hwidth : 44 < screen.width) (offsetY : ℚ) :
    alphaAt screen offsetY = 0 ↔ offsetY = 0 := by
  have hpos : 0 < screen.width - yl_navHeight := sub_pos.mpr hwidth
  unfold alphaAt
  split
  · rename_i hge
    exact iff_of_false one_ne_zero (hpos.trans_le hge).ne'
  · exact div_eq_zero_iff.trans (or_iff_left hpos.ne')

/-- The alpha stays within its bounds, whatever the sequence. -/
theorem alpha_bounds (hwidth : 44 < screen.width) (offsets : List ℚ) :
    0 ≤ (scroll screen offsets).alpha ∧ (scroll screen offsets).alpha ≤ 1 := by
  induction offsets using List.reverseRecOn with
  | nil => exact ⟨le_refl 0, zero_le_one⟩
  | append_singleton offsets offsetY ih =>
      rw [scroll_snoc]
      by_cases h : offsetY < 0
      · simpa [scrollHandler, h] using ih
      · simpa [scrollHandler, h] using alphaAt_bounds hwidth (not_lt.mp h)

/-! ## The last offset -/

/-- The header is unstretched again only if no offset was below zero. -/
theorem frame_eq_originalRect_iff (offsets : List ℚ) :
    (scroll screen offsets).frame = originalRect screen ↔ ∀ p ∈ offsets, 0 ≤ p := by
  have hne : ∀ p, writeFrame screen p ≠ some (originalRect screen) := by
    intro p hp
    rw [writeFrame] at hp
    split at hp
    · rename_i hlt
      have hy := congrArg CGRect.y (Option.some.inj hp)
      exact hlt.ne hy
    · cases hp
  rw [(scroll_eq screen offsets).1, latest_eq_init_iff_of_ne hne]
  refine forall₂_congr fun p _ => ?_
  simp [writeFrame]

/-- The bar is as at the start only if the latest offset from zero up, if any, is zero. -/
theorem bar_eq_initial_iff (hwidth : 44 < screen.width) (offsets : List ℚ) :
    ((scroll screen offsets).alpha, (scroll screen offsets).titleView) =
        (0, .iconAndTextView) ↔
      ∀ p ∈ (offsets.filter fun o => 0 ≤ o).getLast?, p = 0 := by
  have hwrites : (fun o => (writeBar screen o).isSome) = fun o => decide (0 ≤ o) := by
    funext o
    by_cases h : o < 0
    · simp [writeBar, h]
    · simp [writeBar, h, not_lt.mp h]
  rw [(scroll_eq screen offsets).2, latest_eq_init_iff, hwrites]
  refine forall₂_congr fun p hp => ?_
  have hp : 0 ≤ p := of_decide_eq_true (List.mem_filter.mp (List.mem_of_getLast? hp)).2
  rw [writeBar, if_neg (not_lt.mpr hp), Option.some.injEq, Prod.mk.injEq,
    alphaAt_eq_zero_iff hwidth]
  constructor
  · exact fun h => h.1
  · rintro rfl
    exact ⟨rfl, if_neg (by norm_num)⟩

/-- What is on screen after some offsets is what the last of them alone gives: in
particular no stretched header above zero, no visible bar below, and an alpha. -/
structure LastOffsetOnly (screen : UIScreen) (offsets : List ℚ) (last : ℚ) : Prop where
  same : scroll screen (offsets ++ [last]) = scroll screen [last]
  unstretched : 0 ≤ last → (scroll screen (offsets ++ [last])).frame = originalRect screen
  transparent : last < 0 → (scroll screen (offsets ++ [last])).alpha = 0
  alpha_nonneg : 0 ≤ (scroll screen (offsets ++ [last])).alpha
  alpha_le_one : (scroll screen (offsets ++ [last])).alpha ≤ 1

/-- Whether the last offset alone decides, register by register. -/
theorem scroll_snoc_eq_iff (offsets : List ℚ) (last : ℚ) :
    scroll screen (offsets ++ [last]) = scroll screen [last] ↔
      (0 ≤ last → (scroll screen offsets).frame = originalRect screen) ∧
      (last < 0 → ((scroll screen offsets).alpha, (scroll screen offsets).titleView) =
        (0, .iconAndTextView)) := by
  have hext : ∀ h h' : DetailHeader, h = h' ↔
      h.frame = h'.frame ∧ (h.alpha, h.titleView) = (h'.alpha, h'.titleView) := by
    rintro ⟨a, t, f⟩ ⟨a', t', f'⟩
    simp only [mk.injEq, Prod.mk.injEq]
    exact ⟨fun ⟨ha, ht, hf⟩ => ⟨hf, ha, ht⟩, fun ⟨hf, ha, ht⟩ => ⟨ha, ht, hf⟩⟩
  rw [hext, (scroll_eq screen _).1, (scroll_eq screen _).2, (scroll_eq screen [last]).1,
    (scroll_eq screen [last]).2, latest_snoc_eq_iff, latest_snoc_eq_iff, (scroll_eq screen _).1,
    (scroll_eq screen _).2]
  by_cases h : last < 0
  · simp [writeFrame, writeBar, h, not_le.mpr h]
  · simp [writeFrame, writeBar, h, not_lt.mp h]

/-- **The last offset alone decides exactly when zero is crossed at zero**: above zero, no
offset was below it; below zero, the latest offset from zero up, if any, was zero. -/
theorem scrollHandler_last_iff (hwidth : 44 < screen.width) (offsets : List ℚ) (last : ℚ) :
    LastOffsetOnly screen offsets last ↔
      (0 ≤ last → ∀ p ∈ offsets, 0 ≤ p) ∧
      (last < 0 → ∀ p ∈ (offsets.filter fun o => 0 ≤ o).getLast?, p = 0) := by
  rw [← frame_eq_originalRect_iff, ← bar_eq_initial_iff hwidth,
    ← scroll_snoc_eq_iff]
  constructor
  · exact fun h => h.same
  · intro hsame
    refine ⟨hsame, ?_, ?_, (alpha_bounds hwidth _).1, (alpha_bounds hwidth _).2⟩
    · intro hlast
      rw [hsame]
      simp [scroll, scrollHandler, not_lt.mpr hlast, initial]
    · intro hlast
      rw [hsame]
      simp [scroll, scrollHandler, hlast, initial]

theorem scrollHandler_last_iff_down_and_up :
    44 < sampleScreen.width ∧ LastOffsetOnly sampleScreen [120, 40, 0] (-10) :=
  ⟨by decide +kernel,
    (scrollHandler_last_iff (by decide +kernel) [120, 40, 0] (-10)).mpr (by decide +kernel)⟩

/-- A pull that is let go with a flick: the header stays stretched above zero.  A flick to
the top: the bar stays opaque below it. -/
theorem flicks_across_zero :
    ¬ LastOffsetOnly sampleScreen [-10] 50 ∧ ¬ LastOffsetOnly sampleScreen [400] (-10) := by
  refine ⟨fun h => ?_, fun h => ?_⟩
  · exact absurd h.same (by decide +kernel)
  · exact absurd h.same (by decide +kernel)

end DetailHeader

end MagnetX
