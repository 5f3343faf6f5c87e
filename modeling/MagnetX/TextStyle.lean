/-
# `MagnetX.TextStyle` — the text styling of labels

`Extension/UILabelExtension.swift`, and `configContent` and `bindItem` of
`MovieDetail/View/MovieDetailOverViewCell.swift` with what they call in `YYText`
(`NSAttributedString+YYText.m`).

Four functions build a range from a text's `count`, the number of its grapheme clusters,
and give it to an attributed string, which counts UTF-16 units.  The range is always
within the string (`every_styling`), so none of them raises.  But it stops short of the
end by as many units as the clusters have beyond one each: what is styled is the whole
text exactly when every cluster is one unit (`styled_throughout_iff`).  The extension
`String.nsRange(from:)`, which the same cell uses for its expand link, asks for the
range in UTF-16 units instead.
-/
import MagnetX.Model
import MagnetX.Screen
import MagnetX.Target
import MagnetX.Lib.AttributedString

namespace MagnetX

open Lib

/-! ## Attributed strings of the app -/

inductive AttributeName where
  | font
  | ctForegroundColor
  | foregroundColor
  | paragraphStyle
  | kern
deriving DecidableEq, Repr

structure UIColor where
  red : ℚ
  green : ℚ
  blue : ℚ
  alpha : ℚ
deriving DecidableEq, Repr

inductive AttributeValue where
  | systemFont (ofSize : ℚ)
  | color (color : UIColor)
  | paragraphStyle (lineSpacing : ℚ)
  | kern (wordSpace : ℚ)
deriving DecidableEq, Repr

abbrev NSAttributedString := AttributedString AttributeName AttributeValue

/-! ## `UILabel` -/

/-- A label: plain text is attributed text whose attributes nobody looks at. -/
structure UILabel where
  attributedText : Option NSAttributedString

namespace UILabel

def text (label : UILabel) : Option String := label.attributedText.map fun t => t.string

variable (G : GraphemeBreaking)

/-- What the three extensions have in common: new text, with attributes over its `count`. -/
def change (attributes : List (AttributeName × AttributeValue)) (label : UILabel) :
    Except NSRangeException UILabel :=
  if label.text.map isBlank = some true then .ok label
  else do
    let labelText := label.text.getD ""
    let attrStr ← (AttributedString.ofString labelText).addAttributes attributes
      (NSMakeRange 0 (G.count labelText))
    return { attributedText := some attrStr }

def changeLineSpace (lineSpace : ℚ) : UILabel → Except NSRangeException UILabel :=
  change G [(.paragraphStyle, .paragraphStyle lineSpace)]

def changeWordSpace (wordSpace : ℚ) : UILabel → Except NSRangeException UILabel :=
  change G [(.kern, .kern wordSpace)]

def changeSpace (lineSpace wordSpace : ℚ) : UILabel → Except NSRangeException UILabel :=
  change G [(.paragraphStyle, .paragraphStyle lineSpace), (.kern, .kern wordSpace)]

end UILabel

/-! ## `YYText` -/

namespace NSAttributedString

/-- `yy_font = font`. -/
def yy_setFont (font : AttributeValue) (t : NSAttributedString) :
    Except NSRangeException NSAttributedString :=
  t.addAttribute .font font (NSMakeRange 0 t.length)

/-- `yy_setColor(_:range:)`. -/
def yy_setColor (color : UIColor) (range : NSRange) (t : NSAttributedString) :
    Except NSRangeException NSAttributedString :=
  t.addAttributes [(.ctForegroundColor, .color color), (.foregroundColor, .color color)] range

/-- The line spacing in force at a unit: that of its paragraph style, or of the default one. -/
def lineSpacingOf (a : Attributes AttributeName AttributeValue) : ℚ :=
  match a .paragraphStyle with
  | some (.paragraphStyle lineSpacing) => lineSpacing
  | _ => 0

/-- `ParagraphStyleSet(lineSpacing)` at one unit. -/
def paragraphStyleSet (lineSpacing : ℚ) (a : Attributes AttributeName AttributeValue) :
    Attributes AttributeName AttributeValue :=
  if lineSpacingOf a = lineSpacing then a
  else Function.update a .paragraphStyle (some (.paragraphStyle lineSpacing))

/-- `yy_lineSpacing = lineSpacing`. -/
def yy_setLineSpacing (lineSpacing : ℚ) (t : NSAttributedString) :
    Except NSRangeException NSAttributedString :=
  t.modify (paragraphStyleSet lineSpacing) (NSMakeRange 0 t.length)

theorem paragraphStyleSet_of_ne (lineSpacing : ℚ) {other : AttributeName}
    (hother : other ≠ .paragraphStyle) (a : Attributes AttributeName AttributeValue) :
    paragraphStyleSet lineSpacing a other = a other := by
  unfold paragraphStyleSet
  split
  · rfl
  · exact Function.update_of_ne hother _ _

end NSAttributedString

/-! ## The overview cell -/

/-- What the layout of a text depends on outside the app. -/
structure TextEngine where
  breaking : GraphemeBreaking
  /-- The height of `boundingRect(with:options:context:)` for a text set at a width. -/
  boundingHeight : NSAttributedString → ℚ → ℚ

structure MovieDetailOverViewCell where
  overViewLabel : UILabel := ⟨none⟩
  contentHeight : ℚ := 0

namespace MovieDetailOverViewCell

variable (screen : UIScreen) (engine : TextEngine)

def textColor : UIColor := ⟨0, 0, 0, 8 / 10⟩

/-- The attributed text of `configContent`. -/
def styledContent (content : String) : Except NSRangeException NSAttributedString := do
  let attrStr : NSAttributedString := (AttributedString.ofString "").append (.ofString content)
  let attrStr ← NSAttributedString.yy_setFont (.systemFont (screen.rpx 15)) attrStr
  let attrStr ← NSAttributedString.yy_setColor textColor
    (NSMakeRange 0 (engine.breaking.count content)) attrStr
  NSAttributedString.yy_setLineSpacing 4 attrStr

/-- The height of a text in the width of the label, in whole points. -/
def textHeight (attrStr : NSAttributedString) : ℤ :=
  Rat.ceil (engine.boundingHeight attrStr (screen.width - screen.rpx 15 * 2))

def configContent (content : String) (_cell : MovieDetailOverViewCell) :
    Except NSRangeException MovieDetailOverViewCell := do
  let attrStr ← styledContent screen engine content
  return {
    overViewLabel := ⟨some attrStr⟩
    contentHeight := textHeight screen engine attrStr + screen.rpx 15 * 2 }

/-- The text a model is shown with. -/
def overViewText (model : MovieDetailModel) : String :=
  if !isBlank model.summary then model.summary else "暂无简介"

/-- `bindItem`; the expand link that `addMoreAction` adds is the label's truncation token
and no part of its text. -/
def bindItem (model : MovieDetailModel) (cell : MovieDetailOverViewCell) :
    Except NSRangeException MovieDetailOverViewCell :=
  configContent screen engine (overViewText model) cell

end MovieDetailOverViewCell

/-! ## What a range over the count reaches -/

/-- A styling did not raise, and each of the attributes is on every unit of the text. -/
def StyledThroughout (text : String) (attributes : List (AttributeName × AttributeValue))
    (result : Except NSRangeException UILabel) : Prop :=
  ∃ styled : NSAttributedString, result = .ok ⟨some styled⟩ ∧ styled.string = text ∧
    ∀ p ∈ attributes, styled.Every p.1 p.2

theorem styledThroughout_iff {text : String} {attributes : List (AttributeName × AttributeValue)}
    {result : Except NSRangeException UILabel} {styled : NSAttributedString} {C : Prop}
    (hne : attributes ≠ []) (hresult : result = .ok ⟨some styled⟩) (hstring : styled.string = text)
    (hevery : ∀ p ∈ attributes, styled.Every p.1 p.2 ↔ C) :
    StyledThroughout text attributes result ↔ C := by
  rw [hresult]
  constructor
  · rintro ⟨styled', hok, -, hall⟩
    cases hok
    obtain ⟨p, hp⟩ := List.exists_mem_of_ne_nil attributes hne
    exact (hevery p hp).mp (hall p hp)
  · intro hC
    exact ⟨styled, rfl, hstring, fun p hp => (hevery p hp).mpr hC⟩

section Styling

variable (G : GraphemeBreaking) (text : String)

/-- The range from zero to the count of a text is within the text. -/
theorem count_range_le_length :
    (NSMakeRange 0 (G.count text)).upperBound ≤ utf16Length text.toList := by
  rw [upperBound_NSMakeRange_zero]
  exact G.count_le_utf16Length text

/-- **Styling over the count of a text.**  It never raises, and it reaches every unit
exactly when every cluster is one unit. -/
theorem every_styling (attributes : List (AttributeName × AttributeValue))
    {t : NSAttributedString} (hstring : t.string = text)
    (hnodup : (attributes.map Prod.fst).Nodup)
    (hfresh : ∀ name ∈ attributes.map Prod.fst, ∀ i, t.attributeAt i name = none) :
    ∃ u, t.addAttributes attributes (NSMakeRange 0 (G.count text)) = .ok u ∧ u.string = text ∧
      ∀ p ∈ attributes,
        u.Every p.1 p.2 ↔ ∀ cluster ∈ G.clusters text.toList, utf16Length cluster = 1 := by
  have hn : G.count text ≤ t.length := by
    rw [AttributedString.length, hstring]
    exact G.count_le_utf16Length text
  obtain ⟨u, hu, hustring, huevery, -⟩ := AttributedString.every_of_addAttributes hn hnodup hfresh
  refine ⟨u, hu, hustring.trans hstring, ?_⟩
  intro p hp
  rw [huevery p hp, AttributedString.length, hstring, G.utf16Length_le_count_iff]

/-- The extensions of `UILabel`: each is `change` for some attributes. -/
theorem change_spec (attributes : List (AttributeName × AttributeValue)) {label : UILabel}
    (hnodup : (attributes.map Prod.fst).Nodup) (hlabel : label.text = some text)
    (hblank : isBlank text = false) :
    ∃ styled : NSAttributedString, label.change G attributes = .ok ⟨some styled⟩ ∧
      styled.string = text ∧ ∀ p ∈ attributes,
        styled.Every p.1 p.2 ↔ ∀ cluster ∈ G.clusters text.toList, utf16Length cluster = 1 := by
  obtain ⟨styled, hstyled, hspec⟩ := every_styling G text attributes
    (t := AttributedString.ofString text) rfl hnodup
    (fun name _ i => AttributedString.attributeAt_ofString text i name)
  refine ⟨styled, ?_, hspec⟩
  rw [UILabel.change, hlabel, Option.map_some, hblank, if_neg (by simp)]
  show (AttributedString.ofString text).addAttributes _ (NSMakeRange 0 (G.count text)) >>= _ = _
  rw [hstyled]
  rfl

/-- The attributes `configContent` gives over the count of its text. -/
def colorAttributes : List (AttributeName × AttributeValue) :=
  [(.ctForegroundColor, .color MovieDetailOverViewCell.textColor),
    (.foregroundColor, .color MovieDetailOverViewCell.textColor)]

namespace MovieDetailOverViewCell

variable (screen : UIScreen) (engine : TextEngine)

/-- The text of the overview cell: the font and the line spacing are set over its length,
the colour over its count. -/
theorem styledContent_spec (content : String) :
    ∃ styled, styledContent screen engine content = .ok styled ∧ styled.string = content ∧
      ∀ p ∈ colorAttributes, styled.Every p.1 p.2 ↔
        ∀ cluster ∈ engine.breaking.clusters content.toList, utf16Length cluster = 1 := by
  let plain : NSAttributedString := (AttributedString.ofString "").append (.ofString content)
  have hplain : ∀ i name, plain.attributeAt i name = none := by
    intro i name
    exact AttributedString.attributeAt_ofString content i name
  obtain ⟨t, ht, htstring, -, htother⟩ := AttributedString.every_of_addAttribute (t := plain)
    (v := AttributeValue.systemFont (screen.rpx 15)) (le_refl _) fun i => hplain i .font
  have htstring' : t.string = content := by
    rw [htstring]
    exact String.empty_append
  obtain ⟨u, hu, hustring, huevery⟩ := every_styling engine.breaking content
    colorAttributes htstring' (by decide) (by
      intro name hname i
      rw [htother i name (by rintro rfl; simp [colorAttributes] at hname)]
      exact hplain i name)
  obtain ⟨v, hv, hvstring, hvunits⟩ := AttributedString.modify_of_le (r := NSMakeRange 0 u.length)
    (f := NSAttributedString.paragraphStyleSet 4) (t := u) (by rw [upperBound_NSMakeRange_zero])
  refine ⟨v, ?_, hvstring.trans hustring, ?_⟩
  · rw [styledContent, NSAttributedString.yy_setFont, ht]
    show NSAttributedString.yy_setColor _ _ t >>= _ = _
    rw [NSAttributedString.yy_setColor]
    show AttributedString.addAttributes colorAttributes _ t >>= _ = _
    rw [hu]
    exact hv
  · intro p hp
    rw [← huevery p hp]
    refine AttributedString.every_congr hvstring fun i => ?_
    have hne : p.1 ≠ .paragraphStyle := by
      intro h
      simp only [colorAttributes, List.mem_cons, List.not_mem_nil, or_false] at hp
      rcases hp with rfl | rfl <;> cases h
    exact AttributedString.attributeAt_of_modify hvunits
      (fun a => NSAttributedString.paragraphStyleSet_of_ne 4 hne a) i

/-- `configContent` never raises. -/
theorem configContent_eq {content : String} {styled : NSAttributedString}
    (h : styledContent screen engine content = .ok styled) (cell : MovieDetailOverViewCell) :
    cell.configContent screen engine content = .ok {
      overViewLabel := ⟨some styled⟩
      contentHeight := textHeight screen engine styled + screen.rpx 15 * 2 } := by
  rw [configContent, h]
  rfl

end MovieDetailOverViewCell

end Styling

/-! ## The four styling functions -/

section

variable (screen : UIScreen) (engine : TextEngine) (lineSpace wordSpace : ℚ)

/-- Every range of the four functions, five in all, is within the text, and what is set
over it is set on every unit: for a label with the text, and for the cell. -/
structure StylesWholeText (text : String) (label : UILabel) (cell : MovieDetailOverViewCell) :
    Prop where
  inBounds : (NSMakeRange 0 (engine.breaking.count text)).upperBound ≤ utf16Length text.toList
  lineSpacing : StyledThroughout text [(.paragraphStyle, .paragraphStyle lineSpace)]
    (label.changeLineSpace engine.breaking lineSpace)
  wordSpacing : StyledThroughout text [(.kern, .kern wordSpace)]
    (label.changeWordSpace engine.breaking wordSpace)
  spacing : StyledThroughout text
    [(.paragraphStyle, .paragraphStyle lineSpace), (.kern, .kern wordSpace)]
    (label.changeSpace engine.breaking lineSpace wordSpace)
  content : StyledThroughout text colorAttributes
    ((cell.configContent screen engine text).map fun c => c.overViewLabel)

/-- **A text is styled throughout exactly when its clusters are single UTF-16 units.**  No
range is ever out of bounds, and no function raises. -/
theorem styled_throughout_iff {text : String} {label : UILabel} (cell : MovieDetailOverViewCell)
    (hlabel : label.text = some text) (hblank : isBlank text = false) :
    ((NSMakeRange 0 (engine.breaking.count text)).upperBound ≤ utf16Length text.toList ∧
      (∃ l, label.changeLineSpace engine.breaking lineSpace = .ok l) ∧
      (∃ l, label.changeWordSpace engine.breaking wordSpace = .ok l) ∧
      (∃ l, label.changeSpace engine.breaking lineSpace wordSpace = .ok l) ∧
      ∃ c, cell.configContent screen engine text = .ok c) ∧
    (StylesWholeText screen engine lineSpace wordSpace text label cell ↔
      ∀ cluster ∈ engine.breaking.clusters text.toList, utf16Length cluster = 1) := by
  obtain ⟨lined, hlined, hlstring, hlevery⟩ := change_spec engine.breaking text
    [(.paragraphStyle, .paragraphStyle lineSpace)] (by simp) hlabel hblank
  obtain ⟨worded, hworded, hwstring, hwevery⟩ := change_spec engine.breaking text
    [(.kern, .kern wordSpace)] (by simp) hlabel hblank
  obtain ⟨spaced, hspaced, hsstring, hsevery⟩ := change_spec engine.breaking text
    [(.paragraphStyle, .paragraphStyle lineSpace), (.kern, .kern wordSpace)] (by simp)
    hlabel hblank
  obtain ⟨styled, hstyled, hcstring, hcevery⟩ :=
    MovieDetailOverViewCell.styledContent_spec screen engine text
  have hcell := MovieDetailOverViewCell.configContent_eq screen engine hstyled cell
  have hbounds := count_range_le_length engine.breaking text
  refine ⟨⟨hbounds, ⟨_, hlined⟩, ⟨_, hworded⟩, ⟨_, hspaced⟩, ⟨_, hcell⟩⟩, ?_⟩
  constructor
  · intro h
    exact (styledThroughout_iff (List.cons_ne_nil _ _) hlined hlstring hlevery).mp h.lineSpacing
  · intro hclusters
    exact {
      inBounds := hbounds
      lineSpacing := (styledThroughout_iff (List.cons_ne_nil _ _) hlined hlstring hlevery).mpr
        hclusters
      wordSpacing := (styledThroughout_iff (List.cons_ne_nil _ _) hworded hwstring hwevery).mpr
        hclusters
      spacing := (styledThroughout_iff (List.cons_ne_nil _ _) hspaced hsstring hsevery).mpr
        hclusters
      content := (styledThroughout_iff (List.cons_ne_nil _ _)
        (by rw [hcell]; rfl) hcstring hcevery).mpr hclusters }

end

/-- A text engine to evaluate on: every scalar a cluster, every text no height. -/
def scalarEngine : TextEngine where
  breaking := .scalars
  boundingHeight _ _ := 0

theorem styled_throughout_iff_title :
    StylesWholeText sampleScreen scalarEngine 4 1 "电影" ⟨some (.ofString "电影")⟩ {} :=
  (styled_throughout_iff sampleScreen scalarEngine 4 1 {} rfl (by decide)).2.mpr (by decide)

/-- One emoji is one cluster and two units, and what is set over the count stops between. -/
theorem emoji_is_not_styled_throughout :
    ¬ StylesWholeText sampleScreen scalarEngine 4 1 "🎬" ⟨some (.ofString "🎬")⟩ {} := by
  intro h
  have hlabel : (⟨some (.ofString "🎬")⟩ : UILabel).text = some "🎬" := rfl
  obtain ⟨worded, hworded, hstring, hevery⟩ := change_spec scalarEngine.breaking "🎬"
    [(.kern, .kern 1)] (by simp) hlabel (by decide)
  have hclusters := (styledThroughout_iff (List.cons_ne_nil _ _) hworded hstring hevery).mp
    h.wordSpacing
  exact absurd hclusters (by decide)

end MagnetX
