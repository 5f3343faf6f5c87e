/-
# `MagnetX.LTPageView` — the pages of the hot screen

`HotViewController` has its two lists on the pages of an `LTPageView`, managed by an
`LTAdvancedManager`.  The user drags from page to page or taps a title, and a tap scrolls to
the page with an animation.  A list is created when its page is first shown
(`createViewController`), and the manager is told which page it is
(`didSelectIndexBlock`).  Both happen while the user drags, as soon as more than half of
another page is visible, but after a tap only when the animation is over.

`Machine.step` is one call of the scroll view's delegate, or a tap.  Nothing in it reaches
past the pages, in whatever order the calls come, and no list is created twice
(`pages_created_once`).  When the scroll view is at rest, it shows one page, and that page
has been created and is the one the manager knows of (`selected_at_rest`), provided that no
drag began while a tapped title was being scrolled to.  A drag that does leaves
`glt_isClickScrollAnimation` on, and the pages it leads to stay empty until a title is
tapped again (the example after the theorem).

The colours and sizes of the titles and the line under them are left out.
-/
import MagnetX.Lib.Machine
import Mathlib

namespace MagnetX

open Lib

/-- What the scroll view of the pages is doing. -/
inductive LTPageView.Motion where
  | rest
  | dragging
  | decelerating
  | animating (index : Nat)
deriving DecidableEq, Repr

/-- What a page view is set up with. -/
structure LTPageView.Setup where
  width : ℚ
  count : Nat
  isClickScrollAnimation : Bool
  one_lt_width : 1 < width
  two_le_count : 2 ≤ count

/-- A page view, and the index its manager knows (`currentSelectIndex`).  `buttonsLayout`
creates the first page. -/
structure LTPageView where
  contentOffsetX : ℚ := 0
  motion : LTPageView.Motion := .rest
  glt_currentIndex : Nat := 0
  glt_startOffsetX : ℚ := 0
  isClick : Bool := false
  glt_isClickScrollAnimation : Bool := false
  childViewControllers : List Nat := [0]
  currentSelectIndex : Nat := 0
deriving DecidableEq

namespace LTPageView

inductive Output where
  | addChild (index : Nat)
  | didSelect (index : Nat)
  | trap
deriving DecidableEq, Repr

inductive Action where
  | titleSelectIndex (index : Nat)
  | willBeginDragging
  | didScroll (offsetX : ℚ)
  | didEndDragging (willDecelerate : Bool)
  | didEndDecelerating
  | didEndScrollingAnimation
deriving DecidableEq

variable (setup : Setup)

/-- `scrollView.contentSize.width`. -/
def Setup.contentWidth : ℚ := setup.width * setup.count

/-- `currentIndex()`, for an offset. -/
def Setup.indexAt (offsetX : ℚ) : Nat :=
  ⌊(offsetX + setup.width * (1 / 2)) / setup.width⌋.toNat

/-- The offset `setupLineViewX` works with, short of either end. -/
def Setup.lineOffset (offsetX : ℚ) : ℚ :=
  let offsetX := if offsetX + setup.width ≥ setup.contentWidth
    then setup.contentWidth - setup.width - 1 / 2 else offsetX
  if offsetX ≤ 0 then 1 / 2 else offsetX

/-- The buttons `setupLineViewX` works on: `nextIndex` and `sourceIndex`. -/
def Setup.lineIndices (startOffsetX offsetX : ℚ) : Nat × Nat :=
  let index := ⌊setup.lineOffset offsetX / setup.width⌋.toNat
  if setup.lineOffset offsetX > startOffsetX then (index + 1, index) else (index, index + 1)

section Functions

variable (v : LTPageView)

/-- A title was tapped, and the animation to its page is not over. -/
def animated : Bool := setup.isClickScrollAnimation && v.glt_isClickScrollAnimation

/-- `createViewController(_:)`; `viewControllers[index]` may trap. -/
def createViewController (index : Nat) : Option (LTPageView × List Output) :=
  if index < setup.count then
    if index ∈ v.childViewControllers then some (v, [])
    else some ({ v with childViewControllers := v.childViewControllers ++ [index] },
      [.addChild index])
  else none

/-- `didSelectIndexBlock`, as the manager sets it. -/
def didSelectIndex (index : Nat) : LTPageView × List Output :=
  ({ v with currentSelectIndex := index }, [.didSelect index])

/-- `createViewController(index)`, then `didSelectIndexBlock?(self, index)`. -/
def createAndSelect (index : Nat) : Option (LTPageView × List Output) :=
  (v.createViewController setup index).map fun (v, outputs) =>
    let (v, outputs') := v.didSelectIndex index
    (v, outputs ++ outputs')

/-- `scrollViewDidScroll(_:)`, with `scrollViewDidScrollOffsetX`. -/
def scrollViewDidScroll (offsetX : ℚ) : Option (LTPageView × List Output) :=
  let v := { v with contentOffsetX := offsetX }
  let line := setup.lineIndices v.glt_startOffsetX offsetX
  let index := setup.indexAt offsetX
  if v.isClick = false ∧ ¬ (line.1 < setup.count ∧ line.2 < setup.count) then none
  else if v.glt_currentIndex = index then some ({ v with isClick := false }, [])
  else if v.isClick = true ∧ ¬ (v.glt_currentIndex < setup.count ∧ index < setup.count) then none
  else if v.animated setup then some ({ v with glt_currentIndex := index, isClick := false }, [])
  else
    (v.createAndSelect setup index).map fun (v, outputs) =>
      ({ v with glt_currentIndex := index, isClick := false }, outputs)

/-- `setupTitleSelectIndex(_:)`.  Without an animation the offset is there at once. -/
def setupTitleSelectIndex (index : Nat) : Option (LTPageView × List Output) :=
  if v.glt_currentIndex = index ∨ v.motion = .dragging ∨ v.motion = .decelerating then
    some (v, [])
  else
    let v := { v with isClick := true, glt_isClickScrollAnimation := true }
    if setup.isClickScrollAnimation then some ({ v with motion := .animating index }, [])
    else
      (v.scrollViewDidScroll setup (setup.width * index)).bind fun (v, outputs) =>
        if index < setup.count then some ({ v with glt_currentIndex := index }, outputs) else none

/-- `scrollViewDidEndScrollingAnimation(_:)`.  The callback of an animation that another took
the place of may come before the offset is reached. -/
def scrollViewDidEndScrollingAnimation (index : Nat) : Option (LTPageView × List Output) :=
  let v := if v.contentOffsetX = setup.width * index then { v with motion := .rest } else v
  if v.glt_isClickScrollAnimation then
    (v.createAndSelect setup (setup.indexAt v.contentOffsetX)).map fun (v, outputs) =>
      (if setup.isClickScrollAnimation then { v with glt_isClickScrollAnimation := false } else v,
        outputs)
  else some (v, [])

end Functions

/-! ## The machine -/

/-- The offset is that of a page. -/
def Setup.OnPage (offsetX : ℚ) : Prop := offsetX = setup.width * setup.indexAt offsetX

instance (offsetX : ℚ) : Decidable (setup.OnPage offsetX) :=
  inferInstanceAs (Decidable (_ = _))

/-- What the user and the scroll view may do.  Paging stops at pages, and nothing bounces. -/
def Possible (v : LTPageView) : Action → Prop
  | .titleSelectIndex index => index < setup.count
  | .willBeginDragging => v.motion ≠ .dragging
  | .didScroll offsetX =>
      v.motion ≠ .rest ∧ 0 ≤ offsetX ∧ offsetX ≤ setup.contentWidth - setup.width
  | .didEndDragging willDecelerate =>
      v.motion = .dragging ∧ (willDecelerate = false → setup.OnPage v.contentOffsetX)
  | .didEndDecelerating => v.motion = .decelerating ∧ setup.OnPage v.contentOffsetX
  | .didEndScrollingAnimation => ∃ index, v.motion = .animating index

/-- The call itself. -/
def perform (v : LTPageView) : Action → Option (LTPageView × List Output)
  | .titleSelectIndex index => v.setupTitleSelectIndex setup index
  | .willBeginDragging =>
      some ({ v with motion := .dragging, glt_startOffsetX := v.contentOffsetX }, [])
  | .didScroll offsetX => v.scrollViewDidScroll setup offsetX
  | .didEndDragging willDecelerate =>
      some ({ v with motion := if willDecelerate then .decelerating else .rest }, [])
  | .didEndDecelerating => some ({ v with motion := .rest }, [])
  | .didEndScrollingAnimation =>
      match v.motion with
      | .animating index => v.scrollViewDidEndScrollingAnimation setup index
      | _ => some (v, [])

instance (v : LTPageView) : (a : Action) → Decidable (Possible setup v a)
  | .titleSelectIndex _ => inferInstanceAs (Decidable (_ < _))
  | .willBeginDragging => inferInstanceAs (Decidable (_ ≠ _))
  | .didScroll _ => inferInstanceAs (Decidable (_ ∧ _ ∧ _))
  | .didEndDragging _ => inferInstanceAs (Decidable (_ ∧ _))
  | .didEndDecelerating => inferInstanceAs (Decidable (_ ∧ _))
  | .didEndScrollingAnimation =>
      match h : v.motion with
      | .animating index => .isTrue ⟨index, h⟩
      | .rest | .dragging | .decelerating => .isFalse fun ⟨_, h'⟩ => by rw [h] at h'; cases h'

def machine : Machine LTPageView Action Output where
  step v a :=
    if Possible setup v a then some ((v.perform setup a).getD (v, [.trap])) else none

/-! ## Offsets and pages -/

section Offsets

variable {setup}

theorem Setup.width_pos : 0 < setup.width := by
  have := setup.one_lt_width
  linarith

theorem Setup.indexAt_page (index : Nat) : setup.indexAt (setup.width * index) = index := by
  have hw := setup.width_pos
  have hpos : (setup.width * index + setup.width * (1 / 2)) / setup.width = index + 1 / 2 := by
    field_simp
  have hfloor : ⌊(index : ℚ) + 1 / 2⌋ = index := by
    rw [Int.floor_eq_iff]
    push_cast
    constructor
    · linarith
    · linarith
  rw [Setup.indexAt, hpos, hfloor, Int.toNat_natCast]

theorem Setup.toNat_floor_lt {q : ℚ} {n : Nat} (hn : 0 < n) (hq : q < n) : ⌊q⌋.toNat < n := by
  have hfloor : ⌊q⌋ < n := by
    rw [Int.floor_lt]
    exact_mod_cast hq
  omega

theorem Setup.indexAt_lt {offsetX : ℚ} (hle : offsetX ≤ setup.contentWidth - setup.width) :
    setup.indexAt offsetX < setup.count := by
  have hw := setup.width_pos
  refine Setup.toNat_floor_lt (by have := setup.two_le_count; omega) ?_
  rw [div_lt_iff₀ hw]
  rw [Setup.contentWidth] at hle
  linarith

theorem Setup.lineOffset_lt (offsetX : ℚ) :
    setup.lineOffset offsetX < setup.contentWidth - setup.width := by
  have hone := setup.one_lt_width
  have htwo : (2 : ℚ) ≤ setup.count := by exact_mod_cast setup.two_le_count
  have hroom : setup.width ≤ setup.contentWidth - setup.width := by
    rw [Setup.contentWidth]
    nlinarith
  have hclamped : ∀ q : ℚ, q < setup.contentWidth - setup.width →
      (if q ≤ 0 then 1 / 2 else q) < setup.contentWidth - setup.width := by
    intro q hq
    split
    · linarith
    · exact hq
  refine hclamped _ ?_
  split
  · linarith
  · rename_i h
    linarith [not_le.mp h]

/-- `setupLineViewX` never reaches past the last button. -/
theorem Setup.lineIndices_lt (startOffsetX offsetX : ℚ) :
    (setup.lineIndices startOffsetX offsetX).1 < setup.count ∧
      (setup.lineIndices startOffsetX offsetX).2 < setup.count := by
  have htwo := setup.two_le_count
  have hlt : ⌊setup.lineOffset offsetX / setup.width⌋.toNat < setup.count - 1 := by
    refine Setup.toNat_floor_lt (by omega) ?_
    have hoffset := setup.lineOffset_lt offsetX
    rw [Setup.contentWidth] at hoffset
    rw [div_lt_iff₀ setup.width_pos, Nat.cast_sub (by omega), Nat.cast_one]
    linarith
  rw [Setup.lineIndices]
  by_cases hforward : setup.lineOffset offsetX > startOffsetX
  · rw [if_pos hforward]
    exact ⟨by omega, by omega⟩
  · rw [if_neg hforward]
    exact ⟨by omega, by omega⟩

end Offsets

/-! ## What a call does -/

/-- The pages created among the outputs. -/
def Output.added : Output → Option Nat
  | .addChild index => some index
  | .didSelect _ | .trap => none

/-- Pages were created, none of them twice. -/
structure Grown (before after : List Nat) (outputs : List Output) : Prop where
  children : after = before ++ outputs.filterMap Output.added
  nodup : before.Nodup → after.Nodup
  lt : (∀ index ∈ before, index < setup.count) → ∀ index ∈ after, index < setup.count
  no_trap : .trap ∉ outputs

/-- What holds in every run. -/
structure InRange (v : LTPageView) : Prop where
  nonneg : 0 ≤ v.contentOffsetX
  le : v.contentOffsetX ≤ setup.contentWidth - setup.width
  index : v.glt_currentIndex < setup.count
  nodup : v.childViewControllers.Nodup
  lt : ∀ index ∈ v.childViewControllers, index < setup.count

/-- What a drag that begins too early breaks. -/
structure Consistent (v : LTPageView) : Prop where
  index : v.glt_currentIndex = setup.indexAt v.contentOffsetX
  selected : v.animated setup = false → v.currentSelectIndex = v.glt_currentIndex ∧
    v.glt_currentIndex ∈ v.childViewControllers
  animating : v.animated setup = true → ∃ index, v.motion = .animating index
  rest : v.motion = .rest → setup.OnPage v.contentOffsetX

section Calls

variable {setup} {v : LTPageView}

theorem Grown.refl (children : List Nat) : Grown setup children children [] where
  children := (List.append_nil _).symm
  nodup h := h
  lt h := h
  no_trap := List.not_mem_nil

theorem createAndSelect_ok (v : LTPageView) {index : Nat} (hindex : index < setup.count) :
    ∃ children outputs, v.createAndSelect setup index =
        some ({ v with childViewControllers := children, currentSelectIndex := index }, outputs) ∧
      Grown setup v.childViewControllers children outputs ∧ index ∈ children := by
  rw [createAndSelect, createViewController, if_pos hindex]
  by_cases hmem : index ∈ v.childViewControllers
  · rw [if_pos hmem]
    refine ⟨_, [.didSelect index], rfl,
      ⟨(List.append_nil _).symm, fun h => h, fun h => h, ?_⟩, hmem⟩
    simp
  · rw [if_neg hmem]
    refine ⟨_, [.addChild index, .didSelect index], rfl, ⟨rfl, ?_, ?_, ?_⟩, ?_⟩
    · intro h
      refine List.nodup_append.mpr ⟨h, List.pairwise_singleton _ _, ?_⟩
      intro a ha b hb
      rw [List.mem_singleton.mp hb]
      rintro rfl
      exact hmem ha
    · intro h i hi
      rcases List.mem_append.mp hi with hi | hi
      · exact h i hi
      · rw [List.mem_singleton.mp hi]
        exact hindex
    · simp
    · exact List.mem_append_right _ (List.mem_singleton_self index)

/-- What `scrollViewDidScroll` does: a page that comes to the middle is created and made known,
unless a title was tapped. -/
theorem scrollViewDidScroll_ok (v : LTPageView) (hcurrent : v.glt_currentIndex < setup.count)
    {offsetX : ℚ} (hle : offsetX ≤ setup.contentWidth - setup.width) :
    ∃ children selected outputs, v.scrollViewDidScroll setup offsetX =
        some ({ v with
          contentOffsetX := offsetX
          glt_currentIndex := setup.indexAt offsetX
          isClick := false
          childViewControllers := children
          currentSelectIndex := selected }, outputs) ∧
      Grown setup v.childViewControllers children outputs ∧
      ((children = v.childViewControllers ∧ selected = v.currentSelectIndex ∧
          (v.glt_currentIndex = setup.indexAt offsetX ∨ v.animated setup = true)) ∨
        (selected = setup.indexAt offsetX ∧ setup.indexAt offsetX ∈ children)) := by
  have hindex := Setup.indexAt_lt hle
  rw [scrollViewDidScroll]
  dsimp only
  rw [if_neg fun h => h.2 (Setup.lineIndices_lt _ _)]
  by_cases hsame : v.glt_currentIndex = setup.indexAt offsetX
  · rw [if_pos hsame, ← hsame]
    exact ⟨_, _, _, rfl, .refl _, .inl ⟨rfl, rfl, .inl rfl⟩⟩
  · rw [if_neg hsame, if_neg fun h => h.2 ⟨hcurrent, hindex⟩]
    cases hanimated : v.animated setup with
    | true =>
        rw [if_pos (show animated setup { v with contentOffsetX := offsetX } = true from hanimated)]
        exact ⟨_, _, _, rfl, .refl _, .inl ⟨rfl, rfl, .inr rfl⟩⟩
    | false =>
        rw [if_neg (show ¬ animated setup { v with contentOffsetX := offsetX } = true from
          Bool.eq_false_iff.mp hanimated)]
        obtain ⟨children, outputs, hcreate, hgrown, hmem⟩ :=
          createAndSelect_ok { v with contentOffsetX := offsetX } hindex
        rw [hcreate]
        exact ⟨children, _, outputs, rfl, hgrown, .inr ⟨rfl, hmem⟩⟩

/-- What the end of an animation does: the page it led to is created and made known. -/
theorem scrollViewDidEndScrollingAnimation_ok (h : InRange setup v) {index : Nat}
    (hmotion : v.motion = .animating index) :
    ∃ v' outputs, v.scrollViewDidEndScrollingAnimation setup index = some (v', outputs) ∧
      InRange setup v' ∧
      Grown setup v.childViewControllers v'.childViewControllers outputs ∧
      (Consistent setup v → Consistent setup v') := by
  have hlt := Setup.indexAt_lt h.le
  obtain ⟨motion, hv, hpage⟩ : ∃ motion : Motion,
      (if v.contentOffsetX = setup.width * index then { v with motion := .rest } else v) =
        { v with motion } ∧ (motion = .rest → setup.OnPage v.contentOffsetX) := by
    by_cases hoffset : v.contentOffsetX = setup.width * index
    · refine ⟨.rest, if_pos hoffset, fun _ => ?_⟩
      rw [Setup.OnPage, hoffset, setup.indexAt_page]
    · refine ⟨v.motion, if_neg hoffset, fun hrest => ?_⟩
      rw [hmotion] at hrest
      cases hrest
  rw [scrollViewDidEndScrollingAnimation, hv]
  dsimp only
  by_cases hclick : v.glt_isClickScrollAnimation = true
  · obtain ⟨children, outputs, hcreate, hgrown, hmem⟩ := createAndSelect_ok { v with motion } hlt
    rw [if_pos hclick, hcreate, Option.map_some]
    cases hscroll : setup.isClickScrollAnimation with
    | true =>
        refine ⟨_, outputs, rfl, ⟨h.nonneg, h.le, h.index, hgrown.nodup h.nodup, hgrown.lt h.lt⟩,
          hgrown, fun hc => ⟨hc.index, fun _ => ⟨hc.index.symm, hc.index ▸ hmem⟩, ?_, hpage⟩⟩
        intro hanimated
        rw [animated, hscroll] at hanimated
        cases hanimated
    | false =>
        refine ⟨_, outputs, rfl, ⟨h.nonneg, h.le, h.index, hgrown.nodup h.nodup, hgrown.lt h.lt⟩,
          hgrown, fun hc => ⟨hc.index, fun _ => ⟨hc.index.symm, hc.index ▸ hmem⟩, ?_, hpage⟩⟩
        intro hanimated
        rw [animated, hscroll] at hanimated
        cases hanimated
  · rw [if_neg hclick]
    refine ⟨_, [], rfl, ⟨h.nonneg, h.le, h.index, h.nodup, h.lt⟩, .refl _,
      fun hc => ⟨hc.index, hc.selected, fun hanimated => ?_, hpage⟩⟩
    rw [animated, Bool.and_eq_true] at hanimated
    exact absurd hanimated.2 hclick

/-- A tap on a title keeps what holds, guarded or not. -/
theorem setupTitleSelectIndex_ok (h : InRange setup v) {index : Nat}
    (hindex : index < setup.count) :
    ∃ v' outputs, v.setupTitleSelectIndex setup index = some (v', outputs) ∧ InRange setup v' ∧
      Grown setup v.childViewControllers v'.childViewControllers outputs ∧
      (Consistent setup v → Consistent setup v') := by
  rw [setupTitleSelectIndex]
  by_cases hguard : v.glt_currentIndex = index ∨ v.motion = .dragging ∨
      v.motion = .decelerating
  · rw [if_pos hguard]
    exact ⟨v, [], rfl, h, .refl _, fun hc => hc⟩
  · rw [if_neg hguard]
    dsimp only
    cases hscroll : setup.isClickScrollAnimation with
    | true =>
        refine ⟨_, [], rfl, ⟨h.nonneg, h.le, h.index, h.nodup, h.lt⟩, .refl _, fun hc => ?_⟩
        refine ⟨hc.index, fun hnot => ?_, fun _ => ⟨index, rfl⟩, fun hrest => by cases hrest⟩
        rw [animated, hscroll] at hnot
        cases hnot
    | false =>
        -- the offset of the page is there at once, and `scrollViewDidScroll` finds the page
        have hw := setup.width_pos
        have hoffset : (index : ℚ) ≤ setup.count - 1 := by
          rw [le_sub_iff_add_le]
          exact_mod_cast hindex
        have hle : setup.width * index ≤ setup.contentWidth - setup.width := by
          rw [Setup.contentWidth]
          nlinarith
        obtain ⟨children, selected, outputs, hdid, hgrown, hpage⟩ := scrollViewDidScroll_ok
          { v with isClick := true, glt_isClickScrollAnimation := true } h.index hle
        rw [hdid, Option.bind_some, if_pos hindex]
        rw [setup.indexAt_page] at hpage
        refine ⟨_, outputs, rfl, ⟨by positivity, hle, hindex, hgrown.nodup h.nodup,
          hgrown.lt h.lt⟩, hgrown, fun hc => ?_⟩
        refine ⟨(setup.indexAt_page index).symm, fun _ => ?_, fun hanimated => ?_, fun _ => ?_⟩
        · rcases hpage with ⟨-, -, hsame | hanimated⟩ | ⟨hselected, hmem⟩
          · exact absurd (.inl hsame) hguard
          · rw [animated, hscroll] at hanimated
            cases hanimated
          · exact ⟨hselected, hmem⟩
        · rw [animated, hscroll] at hanimated
          cases hanimated
        · show setup.width * index = setup.width * setup.indexAt (setup.width * index)
          rw [setup.indexAt_page]

/-- **One call**: it does not trap and creates no page twice; and it leaves the pages
consistent, unless it begins a drag while a tapped title is being scrolled to. -/
theorem perform_ok {a : Action} (h : InRange setup v) (ha : Possible setup v a) :
    ∃ v' outputs, v.perform setup a = some (v', outputs) ∧ InRange setup v' ∧
      Grown setup v.childViewControllers v'.childViewControllers outputs ∧
      (Consistent setup v → (a = .willBeginDragging → v.animated setup = false) →
        Consistent setup v') := by
  cases a with
  | titleSelectIndex index =>
      obtain ⟨v', outputs, hdid, hin, hgrown, hc'⟩ := setupTitleSelectIndex_ok h ha
      exact ⟨v', outputs, hdid, hin, hgrown, fun hc _ => hc' hc⟩
  | willBeginDragging =>
      refine ⟨_, [], rfl, ⟨h.nonneg, h.le, h.index, h.nodup, h.lt⟩, .refl _, fun hc hguard => ?_⟩
      have hnot : v.animated setup = false := hguard rfl
      refine ⟨hc.index, fun _ => hc.selected hnot, fun hanimated => ?_, fun hrest => by cases hrest⟩
      exact absurd hanimated (Bool.eq_false_iff.mp hnot)
  | didScroll offsetX =>
      obtain ⟨hmotion, hnonneg, hle⟩ := ha
      obtain ⟨children, selected, outputs, hdid, hgrown, hpage⟩ :=
        scrollViewDidScroll_ok v h.index hle
      refine ⟨_, outputs, hdid, ⟨hnonneg, hle, Setup.indexAt_lt hle, hgrown.nodup h.nodup,
        hgrown.lt h.lt⟩, hgrown, fun hc _ => ?_⟩
      refine ⟨rfl, fun hnot => ?_, hc.animating, fun hrest => absurd hrest hmotion⟩
      rcases hpage with ⟨hchildren, hselected, hsame | hanimated⟩ | hpage
      · obtain ⟨hcurrent, hmem⟩ := hc.selected hnot
        rw [hsame] at hcurrent hmem
        exact ⟨hselected.trans hcurrent, hchildren ▸ hmem⟩
      · exact absurd hanimated (Bool.eq_false_iff.mp hnot)
      · exact hpage
  | didEndDragging willDecelerate =>
      obtain ⟨hmotion, hpage⟩ := ha
      refine ⟨_, [], rfl, ⟨h.nonneg, h.le, h.index, h.nodup, h.lt⟩, .refl _, fun hc _ => ?_⟩
      refine ⟨hc.index, hc.selected, fun hanimated => ?_, fun hrest => ?_⟩
      · obtain ⟨index, hindex⟩ := hc.animating hanimated
        rw [hmotion] at hindex
        cases hindex
      · cases willDecelerate with
        | true => cases hrest
        | false => exact hpage rfl
  | didEndDecelerating =>
      obtain ⟨hmotion, hpage⟩ := ha
      refine ⟨_, [], rfl, ⟨h.nonneg, h.le, h.index, h.nodup, h.lt⟩, .refl _, fun hc _ => ?_⟩
      refine ⟨hc.index, hc.selected, fun hanimated => ?_, fun _ => hpage⟩
      obtain ⟨index, hindex⟩ := hc.animating hanimated
      rw [hmotion] at hindex
      cases hindex
  | didEndScrollingAnimation =>
      obtain ⟨index, hmotion⟩ := ha
      obtain ⟨v', outputs, hdid, hin, hgrown, hc'⟩ :=
        scrollViewDidEndScrollingAnimation_ok h hmotion
      refine ⟨v', outputs, ?_, hin, hgrown, fun hc _ => hc' hc⟩
      rw [perform, hmotion]
      exact hdid

end Calls

/-! ## Runs -/

section Runs

variable {setup} {v : LTPageView} {as : List Action} {log : List Output}

theorem Setup.width_le_contentWidth : setup.width ≤ setup.contentWidth := by
  have hw := setup.width_pos
  have htwo : (2 : ℚ) ≤ setup.count := by exact_mod_cast setup.two_le_count
  rw [Setup.contentWidth]
  nlinarith

theorem Setup.indexAt_zero : setup.indexAt 0 = 0 := by
  have h := setup.indexAt_page 0
  rwa [Nat.cast_zero, mul_zero] at h

theorem inRange_initial : InRange setup {} where
  nonneg := le_refl 0
  le := sub_nonneg.mpr Setup.width_le_contentWidth
  index := by
    have := setup.two_le_count
    show 0 < setup.count
    omega
  nodup := List.pairwise_singleton _ _
  lt := by
    intro index hindex
    rw [List.mem_singleton.mp hindex]
    have := setup.two_le_count
    omega

theorem consistent_initial : Consistent setup {} where
  index := Setup.indexAt_zero.symm
  selected _ := ⟨rfl, List.mem_singleton_self 0⟩
  animating hanimated := by
    rw [animated, Bool.and_eq_true] at hanimated
    cases hanimated.2
  rest _ := by
    show (0 : ℚ) = setup.width * setup.indexAt 0
    rw [Setup.indexAt_zero, Nat.cast_zero, mul_zero]

/-- One step of a run. -/
theorem step_ok {t : LTPageView} {a : Action} {outputs : List Output} (h : InRange setup v)
    (hstep : (machine setup).step v a = some (t, outputs)) :
    InRange setup t ∧ Grown setup v.childViewControllers t.childViewControllers outputs ∧
      (Consistent setup v → (a = .willBeginDragging → v.animated setup = false) →
        Consistent setup t) := by
  by_cases ha : Possible setup v a
  · obtain ⟨v', outputs', hperform, hin, hgrown, hc⟩ := perform_ok h ha
    rw [show (machine setup).step v a = some ((v.perform setup a).getD (v, [.trap])) from
      if_pos ha, hperform, Option.getD_some] at hstep
    cases hstep
    exact ⟨hin, hgrown, hc⟩
  · rw [show (machine setup).step v a = none from if_neg ha] at hstep
    cases hstep

theorem inRange_of_run (hrun : (machine setup).run {} as = some (v, log)) :
    InRange setup v ∧ Grown setup [0] v.childViewControllers log := by
  refine Machine.invariant (P := fun v log => InRange setup v ∧
    Grown setup [0] v.childViewControllers log) ⟨inRange_initial, .refl _⟩ ?_ hrun
  rintro v log a t outputs ⟨hin, hgrown⟩ hstep
  obtain ⟨hin', hgrown', -⟩ := step_ok hin hstep
  refine ⟨hin', ?_, fun h => hgrown'.nodup (hgrown.nodup h), fun h => hgrown'.lt (hgrown.lt h), ?_⟩
  · rw [hgrown'.children, hgrown.children, List.filterMap_append, List.append_assoc]
  · rw [List.mem_append]
    exact not_or.mpr ⟨hgrown.no_trap, hgrown'.no_trap⟩

/-- **No list is created twice, and nothing reaches past the pages**, in whatever order
titles are tapped and the scroll view calls. -/
theorem pages_created_once (hrun : (machine setup).run {} as = some (v, log)) :
    .trap ∉ log ∧ v.childViewControllers = 0 :: log.filterMap Output.added ∧
      v.childViewControllers.Nodup ∧ ∀ index ∈ v.childViewControllers, index < setup.count := by
  obtain ⟨hin, hgrown⟩ := inRange_of_run hrun
  exact ⟨hgrown.no_trap, hgrown.children, hin.nodup, hin.lt⟩

/-- **What is shown at rest** is one page; it has been created, and it is the page the manager
knows of.  No drag may begin while a tapped title is being scrolled to. -/
theorem selected_at_rest (hrun : (machine setup).run {} as = some (v, log))
    (hguard : (machine setup).Guarded (fun v a => a = .willBeginDragging →
      v.animated setup = false) {} as) (hrest : v.motion = .rest) :
    v.contentOffsetX = setup.width * v.currentSelectIndex ∧
      v.glt_currentIndex = v.currentSelectIndex ∧
      (v.currentSelectIndex = 0 ∨ .addChild v.currentSelectIndex ∈ log) := by
  have hconsistent : InRange setup v ∧ Consistent setup v := by
    refine Machine.run_induction (P := fun _ v _ => InRange setup v ∧ Consistent setup v)
      ⟨inRange_initial, consistent_initial⟩ ?_ hrun hguard
    rintro _ v _ a t outputs - ⟨hin, hc⟩ hga hstep
    obtain ⟨hin', -, hc'⟩ := step_ok hin hstep
    exact ⟨hin', hc' hc hga⟩
  obtain ⟨-, hc⟩ := hconsistent
  have hnot : v.animated setup = false := by
    rw [Bool.eq_false_iff]
    intro hanimated
    obtain ⟨index, hindex⟩ := hc.animating hanimated
    rw [hrest] at hindex
    cases hindex
  obtain ⟨hselected, hmem⟩ := hc.selected hnot
  refine ⟨?_, hselected.symm, ?_⟩
  · rw [hselected, hc.index]
    exact hc.rest hrest
  · rw [(inRange_of_run hrun).2.children, ← hselected] at hmem
    rcases List.mem_append.mp hmem with hmem | hmem
    · exact .inl (List.mem_singleton.mp hmem)
    · obtain ⟨output, houtput, hadded⟩ := List.mem_filterMap.mp hmem
      cases output with
      | addChild index =>
          cases hadded
          exact .inr houtput
      | didSelect index => cases hadded
      | trap => cases hadded

end Runs

/-- The pages of `HotViewController`, on a screen 375 points wide. -/
def hotPages : Setup where
  width := 375
  count := 2
  isClickScrollAnimation := true
  one_lt_width := by norm_num
  two_le_count := by norm_num

/-- The second title is tapped. -/
def tapAndWait : List Action :=
  [.titleSelectIndex 1, .didScroll 200, .didScroll 375, .didEndScrollingAnimation]

def secondPage : LTPageView where
  contentOffsetX := 375
  glt_currentIndex := 1
  childViewControllers := [0, 1]
  currentSelectIndex := 1

theorem run_tapAndWait : (machine hotPages).run {} tapAndWait =
    some (secondPage, [.addChild 1, .didSelect 1]) := by decide +kernel

theorem pages_created_once_tap :
    (.trap : Output) ∉ [.addChild 1, .didSelect 1] ∧
      secondPage.childViewControllers = 0 :: [.addChild 1, .didSelect 1].filterMap Output.added ∧
      secondPage.childViewControllers.Nodup ∧
      ∀ index ∈ secondPage.childViewControllers, index < hotPages.count :=
  pages_created_once run_tapAndWait

theorem selected_at_rest_tap :
    secondPage.contentOffsetX = hotPages.width * (1 : Nat) ∧ secondPage.glt_currentIndex = 1 ∧
      ((1 : Nat) = 0 ∨ Output.addChild 1 ∈ [.addChild 1, .didSelect 1]) :=
  selected_at_rest run_tapAndWait (by decide +kernel) rfl

/-- A drag that begins on the way to the second page ends there, and the page is empty. -/
example : ((machine hotPages).run {}
      [.titleSelectIndex 1, .didScroll 100, .willBeginDragging, .didScroll 300,
        .didEndDragging true, .didScroll 375, .didEndDecelerating]).map
      (fun r => (r.1.motion, r.1.contentOffsetX, r.1.currentSelectIndex,
        r.1.childViewControllers)) =
    some (.rest, 375, 0, [0]) := by decide +kernel

end LTPageView

end MagnetX
