/-
# `MagnetX.Hot.Cell` — reused cells of the lists

`Hot/View/HotMovieCell.swift`, with what it calls: `kf.setImage` of the vendored
Kingfisher (`ImageView+Kingfisher.swift`), the value of the vendored star view
(`SwiftyStarRatingView.swift`), and the labels of `MagnetX.TextStyle`.

The table hands a cell that has scrolled off to another row; `prepareForReuse` resets
nothing, so what the cell shows of its former movies is what `bindItem` does not write.
It writes every label, flag and value, whatever they were (`bindItem_details`), and the
poster only when the movie has one.  A movie without a poster therefore leaves the cell
with the poster of an earlier one, and with the download of an earlier one, which still
sets its image when it finishes: Kingfisher compares the finished URL with the last one
it was *given*.

So a reused cell shows its last movie alone exactly when that movie has a poster or no
movie before it had one (`reused_cell_iff`).
-/
import MagnetX.TextStyle

namespace MagnetX

open Lib

/-! ## Names of people -/

namespace HotMovieModel

/-- `director` and `cast`. -/
def names (people : List PersonalAttrModel) : String :=
  if people.length = 0 then "暂无数据"
  else " / ".intercalate (people.map fun person => person.name)

def director (model : HotMovieModel) : String := names model.directors

def cast (model : HotMovieModel) : String := names model.casts

end HotMovieModel

/-! ## What is outside the app -/

/-- The arithmetic of `CGFloat` as far as a cell uses it. -/
structure Arithmetic where
  CGFloat : Type
  zero : CGFloat
  /-- `Double.init(_:)`, as a `CGFloat`. -/
  double : String → Option CGFloat
  /-- `x > 0`. -/
  isPositive : CGFloat → Bool
  /-- `x / 2.0`. -/
  half : CGFloat → CGFloat
  /-- `x != y`, which holds of a NaN and itself. -/
  ne : CGFloat → CGFloat → Bool
  /-- `min(max(x, 0), 5)`. -/
  clamp : CGFloat → CGFloat
  /-- `String(format: "%.1f", x)`. -/
  format : CGFloat → String
  clamp_congr : ∀ x y, ne x y = false → clamp x = clamp y

/-! ## The poster -/

inductive PosterImage (Image : Type) where
  | img_poster_placeholder
  | img_poster_loading_placeholder
  | downloaded (image : Image)
deriving DecidableEq, Repr

/-- An image view with the URL that Kingfisher keeps for it. -/
structure PosterView (URL Image : Type) where
  image : PosterImage Image := .img_poster_placeholder
  webURL : Option URL := none
deriving DecidableEq, Repr

namespace PosterView

variable {URL Image : Type} [DecidableEq URL]

/-- `kf.setImage(with:placeholder:)`, at once.  The download it starts ends in `finish`. -/
def setImage (resource : Option URL) (placeholder : PosterImage Image)
    (view : PosterView URL Image) : PosterView URL Image :=
  match resource with
  | none => { view with image := placeholder, webURL := none }
  | some url => { view with image := placeholder, webURL := some url }

/-- The completion handler of a download.  The downloads of one URL are one. -/
def finish (url : URL) (image : Option Image) (view : PosterView URL Image) :
    PosterView URL Image :=
  if view.webURL = some url then
    match image with
    | none => view
    | some image => { view with image := .downloaded image }
  else view

end PosterView

namespace UILabel

/-- The setter of `text`. -/
def setText (text : String) (_label : UILabel) : UILabel := ⟨some (.ofString text)⟩

end UILabel

/-! ## The cell -/

structure HotMovieCell (A : Arithmetic) (URL Image : Type) where
  posterImgView : PosterView URL Image := {}
  nameLabel : UILabel := ⟨none⟩
  rateLabel : UILabel := ⟨none⟩
  directorLabel : UILabel := ⟨none⟩
  castsLabel : UILabel := ⟨none⟩
  /-- `_value` of the star view. -/
  starValue : A.CGFloat := A.zero
  noRateHidden : Bool := true
  starHidden : Bool := false
  rateHidden : Bool := false

namespace HotMovieCell

variable {A : Arithmetic} {URL Image : Type} (G : GraphemeBreaking) (url : String → Option URL)

/-- `CommonTableViewCell.prepareForReuse`. -/
def prepareForReuse (cell : HotMovieCell A URL Image) : HotMovieCell A URL Image := cell

/-- The setter of the star view's `value`. -/
def setValue (newValue value : A.CGFloat) : A.CGFloat :=
  if A.ne value newValue then newValue else value

/-- What `bindItem` does to the poster. -/
def bindPoster (model : HotMovieModel) (view : PosterView URL Image) : PosterView URL Image :=
  if isBlank model.images.medium = false then
    view.setImage (url model.images.medium) .img_poster_loading_placeholder
  else view

def bindItem (model : HotMovieModel) (cell : HotMovieCell A URL Image) :
    Except NSRangeException (HotMovieCell A URL Image) := do
  let posterImgView := bindPoster url model cell.posterImgView
  let stars := (A.double model.rating.stars).getD A.zero
  let rate := (A.double model.rating.average).getD A.zero
  let noRateHidden := A.isPositive stars
  let starHidden := !noRateHidden
  let rateHidden := !noRateHidden
  let starValue := setValue (A.half rate) cell.starValue
  let rateLabel := cell.rateLabel.setText (A.format rate)
  let nameLabel := cell.nameLabel.setText
    (if isBlank model.title = false then model.title else "暂无数据")
  let directorLabel := cell.directorLabel.setText ("导演: " ++ model.director)
  let castsLabel := cell.castsLabel.setText ("主演: " ++ model.cast)
  let directorLabel ← directorLabel.changeLineSpace G 2
  let castsLabel ← castsLabel.changeLineSpace G 2
  return { posterImgView, nameLabel, rateLabel, directorLabel, castsLabel, starValue,
           noRateHidden, starHidden, rateHidden }

/-- What a cell shows beside the poster. -/
structure Details (A : Arithmetic) where
  name : UILabel
  rate : UILabel
  director : UILabel
  casts : UILabel
  value : A.CGFloat
  noRateHidden : Bool
  starHidden : Bool
  rateHidden : Bool

/-- The details of a cell; the value of the star view is clamped when it is read. -/
def details (cell : HotMovieCell A URL Image) : Details A where
  name := cell.nameLabel
  rate := cell.rateLabel
  director := cell.directorLabel
  casts := cell.castsLabel
  value := A.clamp cell.starValue
  noRateHidden := cell.noRateHidden
  starHidden := cell.starHidden
  rateHidden := cell.rateHidden

/-! ## Binding -/

/-- Binding a movie with a poster: the same, whatever was there before. -/
theorem bindPoster_of_poster {model : HotMovieModel} (h : isBlank model.images.medium = false)
    (view : PosterView URL Image) :
    bindPoster url model view =
      { image := .img_poster_loading_placeholder, webURL := url model.images.medium } := by
  rw [bindPoster, if_pos h]
  cases url model.images.medium with
  | none => rfl
  | some u => rfl

/-- Binding one without leaves the poster alone. -/
theorem bindPoster_of_blank {model : HotMovieModel} (h : isBlank model.images.medium = true)
    (view : PosterView URL Image) : bindPoster url model view = view := by
  rw [bindPoster, h, if_neg (by simp)]

theorem clamp_setValue (newValue value : A.CGFloat) :
    A.clamp (setValue newValue value) = A.clamp newValue := by
  unfold setValue
  split
  · rfl
  · rename_i h
    exact A.clamp_congr value newValue (Bool.not_eq_true _ ▸ h)

/-- Styling a label that has just been given a text that is not blank. -/
theorem changeLineSpace_setText (lineSpace : ℚ) {text : String} (hblank : isBlank text = false) :
    ∃ styled, ∀ label : UILabel,
      (label.setText text).changeLineSpace G lineSpace = .ok styled := by
  have hlabel : (UILabel.setText text ⟨none⟩).text = some text := rfl
  obtain ⟨styled, hstyled, -⟩ := change_spec G text
    [(.paragraphStyle, .paragraphStyle lineSpace)] (by simp) hlabel hblank
  exact ⟨⟨some styled⟩, fun _ => hstyled⟩

theorem isBlank_append (s t : String) : isBlank (s ++ t) = (isBlank s && isBlank t) := by
  rw [isBlank, String.toList_append, List.all_append, isBlank, isBlank]

/-- **Binding writes every detail**: whatever the cell was, its details are the model's, and
the poster is what `bindPoster` makes of it. -/
theorem bindItem_details (A : Arithmetic) (Image : Type) (model : HotMovieModel) :
    ∃ d : Details A, ∀ cell : HotMovieCell A URL Image, ∃ bound,
      cell.bindItem G url model = .ok bound ∧ bound.details = d ∧
        bound.posterImgView = bindPoster url model cell.posterImgView := by
  have hdirector : isBlank ("导演: " ++ model.director) = false := by
    rw [isBlank_append]
    rfl
  have hcasts : isBlank ("主演: " ++ model.cast) = false := by
    rw [isBlank_append]
    rfl
  obtain ⟨director, hstyledDirector⟩ := changeLineSpace_setText G 2 hdirector
  obtain ⟨casts, hstyledCasts⟩ := changeLineSpace_setText G 2 hcasts
  let stars := (A.double model.rating.stars).getD A.zero
  let rate := (A.double model.rating.average).getD A.zero
  let name := if isBlank model.title = false then model.title else "暂无数据"
  refine ⟨{
    name := ⟨some (.ofString name)⟩
    rate := ⟨some (.ofString (A.format rate))⟩
    director := director
    casts := casts
    value := A.clamp (A.half rate)
    noRateHidden := A.isPositive stars
    starHidden := !A.isPositive stars
    rateHidden := !A.isPositive stars }, ?_⟩
  intro cell
  refine ⟨{
    posterImgView := bindPoster url model cell.posterImgView
    nameLabel := ⟨some (.ofString name)⟩
    rateLabel := ⟨some (.ofString (A.format rate))⟩
    directorLabel := director
    castsLabel := casts
    starValue := setValue (A.half rate) cell.starValue
    noRateHidden := A.isPositive stars
    starHidden := !A.isPositive stars
    rateHidden := !A.isPositive stars }, ?_, ?_, rfl⟩
  · simp only [bindItem, hstyledDirector, hstyledCasts, bind, Except.bind]
    rfl
  · simp only [details, clamp_setValue]

/-! ## Runs -/

/-- What happens to a cell: the table takes it for a row, or a download finishes. -/
inductive Event (URL Image : Type) where
  | bind (model : HotMovieModel)
  | finish (url : URL) (image : Option Image)

/-- Downloads that finish, one after the other. -/
def Event.finishes (downloads : List (URL × Option Image)) : List (Event URL Image) :=
  downloads.map fun download => .finish download.1 download.2

/-- The models bound in a history that ends with a binding and its downloads. -/
theorem forall_bind_iff {P : HotMovieModel → Prop} {events : List (Event URL Image)}
    {last : HotMovieModel} {downloads : List (URL × Option Image)} :
    (∀ model, .bind model ∈ events ++ .bind last :: Event.finishes downloads → P model) ↔
      (∀ model, .bind model ∈ events → P model) ∧ P last := by
  have hfinishes : ∀ model, Event.bind model ∉ Event.finishes downloads := by
    intro model h
    obtain ⟨download, -, hdownload⟩ := List.mem_map.mp h
    cases hdownload
  simp [hfinishes, or_imp, forall_and]

variable [DecidableEq URL]

/-- `dataSource`, and the completion handlers of Kingfisher. -/
def step (cell : HotMovieCell A URL Image) :
    Event URL Image → Except NSRangeException (HotMovieCell A URL Image)
  | .bind model => cell.prepareForReuse.bindItem G url model
  | .finish url image => .ok { cell with posterImgView := cell.posterImgView.finish url image }

def run (cell : HotMovieCell A URL Image) (events : List (Event URL Image)) :
    Except NSRangeException (HotMovieCell A URL Image) :=
  events.foldlM (step G url) cell

theorem run_cons_of_step {cell mid : HotMovieCell A URL Image} {event : Event URL Image}
    (hstep : cell.step G url event = .ok mid) (events : List (Event URL Image)) :
    cell.run G url (event :: events) = mid.run G url events := by
  rw [run, List.foldlM_cons, hstep]
  rfl

theorem run_append_of_run {cell mid : HotMovieCell A URL Image} {front : List (Event URL Image)}
    (hrun : cell.run G url front = .ok mid) (back : List (Event URL Image)) :
    cell.run G url (front ++ back) = mid.run G url back := by
  rw [run] at hrun
  rw [run, List.foldlM_append, hrun]
  rfl

/-- What an event does to the poster. -/
def posterStep (view : PosterView URL Image) : Event URL Image → PosterView URL Image
  | .bind model => bindPoster url model view
  | .finish url image => view.finish url image

theorem step_poster (cell : HotMovieCell A URL Image) (event : Event URL Image) :
    ∃ after, cell.step G url event = .ok after ∧
      after.posterImgView = posterStep url cell.posterImgView event := by
  cases event with
  | bind model =>
      obtain ⟨d, hbind⟩ := bindItem_details G url A Image model
      obtain ⟨after, hafter, -, hposter⟩ := hbind cell
      exact ⟨after, hafter, hposter⟩
  | finish u image => exact ⟨_, rfl, rfl⟩

/-- A run never raises, and the poster goes its own way. -/
theorem run_poster (events : List (Event URL Image)) :
    ∀ cell : HotMovieCell A URL Image, ∃ after, cell.run G url events = .ok after ∧
      after.posterImgView = events.foldl (posterStep url) cell.posterImgView := by
  induction events with
  | nil => exact fun cell => ⟨cell, rfl, rfl⟩
  | cons event events ih =>
      intro cell
      obtain ⟨mid, hstep, hposter⟩ := step_poster G url cell event
      obtain ⟨after, hrun, hafter⟩ := ih mid
      rw [run_cons_of_step G url hstep, List.foldl_cons, ← hposter]
      exact ⟨after, hrun, hafter⟩

theorem poster_of_run {events : List (Event URL Image)} {cell after : HotMovieCell A URL Image}
    (hrun : cell.run G url events = .ok after) :
    after.posterImgView = events.foldl (posterStep url) cell.posterImgView := by
  obtain ⟨after', hrun', hposter⟩ := run_poster G url events cell
  obtain rfl : after = after' := Except.ok.inj (hrun.symm.trans hrun')
  exact hposter

/-- Downloads change no detail. -/
theorem details_of_finishes (downloads : List (URL × Option Image)) :
    ∀ {cell after : HotMovieCell A URL Image},
      cell.run G url (Event.finishes downloads) = .ok after → after.details = cell.details := by
  induction downloads with
  | nil =>
      intro cell after hrun
      cases hrun
      rfl
  | cons download downloads ih =>
      intro cell after hrun
      rw [Event.finishes, List.map_cons, run_cons_of_step G url rfl] at hrun
      exact (ih hrun).trans rfl

/-- From its last binding on, a cell has the details of that model, whatever it was before. -/
theorem details_of_bind (A : Arithmetic) (Image : Type) (model : HotMovieModel) :
    ∃ d : Details A, ∀ (events : List (Event URL Image)) (downloads : List (URL × Option Image))
      {cell after : HotMovieCell A URL Image},
      cell.run G url (events ++ .bind model :: Event.finishes downloads) = .ok after →
        after.details = d := by
  obtain ⟨d, hd⟩ := bindItem_details G url A Image model
  refine ⟨d, ?_⟩
  intro events downloads cell after hrun
  obtain ⟨mid, hmid, -⟩ := run_poster G url events cell
  obtain ⟨bound, hbound, hdetails, -⟩ := hd mid
  have hstep : mid.step G url (.bind model) = .ok bound := hbound
  rw [run_append_of_run G url hmid, run_cons_of_step G url hstep] at hrun
  rw [details_of_finishes G url downloads hrun, hdetails]

/-! ## Posters -/

section Poster

/-- A cell that no movie with a poster was bound to is as it was made. -/
theorem poster_of_blank {events : List (Event URL Image)}
    (h : ∀ model, .bind model ∈ events → isBlank model.images.medium = true) :
    events.foldl (posterStep url) {} = {} := by
  induction events with
  | nil => rfl
  | cons event events ih =>
      have hstep : posterStep url {} event = {} := by
        cases event with
        | bind model => exact bindPoster_of_blank url (h model (List.mem_cons_self ..)) {}
        | finish u image => simp [posterStep, PosterView.finish]
      rw [List.foldl_cons, hstep]
      exact ih fun model hmodel => h model (List.mem_cons_of_mem _ hmodel)

/-- A cell never goes back to the placeholder it was made with. -/
theorem posterStep_image_ne {view : PosterView URL Image}
    (h : view.image ≠ .img_poster_placeholder) (event : Event URL Image) :
    (posterStep url view event).image ≠ .img_poster_placeholder := by
  cases event with
  | bind model =>
      show (bindPoster url model view).image ≠ _
      cases hblank : isBlank model.images.medium with
      | true => rwa [bindPoster_of_blank url hblank]
      | false =>
          rw [bindPoster_of_poster url hblank]
          simp
  | finish u image =>
      show (view.finish u image).image ≠ _
      unfold PosterView.finish
      split
      · cases image with
        | none => exact h
        | some image => simp
      · exact h

theorem foldl_image_ne {events : List (Event URL Image)} :
    ∀ {view : PosterView URL Image}, view.image ≠ .img_poster_placeholder →
      (events.foldl (posterStep url) view).image ≠ .img_poster_placeholder := by
  induction events with
  | nil => exact fun h => h
  | cons event events ih => exact fun h => ih (posterStep_image_ne url h event)

/-- **Whose poster a cell shows**: none, exactly as long as no movie with a poster has been
bound to it. -/
theorem image_eq_placeholder_iff (events : List (Event URL Image)) :
    (events.foldl (posterStep url) {}).image = .img_poster_placeholder ↔
      ∀ model, .bind model ∈ events → isBlank model.images.medium = true := by
  constructor
  · intro himage model hmodel
    by_contra hposter
    obtain ⟨front, back, rfl⟩ := List.append_of_mem hmodel
    rw [List.foldl_append, List.foldl_cons] at himage
    refine foldl_image_ne url ?_ himage
    show (bindPoster url model _).image ≠ _
    rw [bindPoster_of_poster url (Bool.not_eq_true _ ▸ hposter)]
    simp
  · intro h
    rw [poster_of_blank url h]

end Poster

/-! ## Reuse -/

/-- What a cell shows. -/
structure Visible (A : Arithmetic) (Image : Type) where
  poster : PosterImage Image
  details : Details A

def visible (cell : HotMovieCell A URL Image) : Visible A Image :=
  ⟨cell.posterImgView.image, cell.details⟩

/-- A cell with a past, bound to a last movie, shows what a new one bound to it shows, with
the same downloads finished since. -/
def ShowsLastOnly (A : Arithmetic) (events : List (Event URL Image)) (last : HotMovieModel)
    (downloads : List (URL × Option Image)) : Prop :=
  ∃ reused fresh : HotMovieCell A URL Image,
    run G url {} (events ++ .bind last :: Event.finishes downloads) = .ok reused ∧
      run G url {} (.bind last :: Event.finishes downloads) = .ok fresh ∧
        reused.visible = fresh.visible

/-- **A reused cell shows its last movie alone exactly when that movie has a poster, or none
before it had one.** -/
theorem reused_cell_iff (A : Arithmetic) (events : List (Event URL Image)) (last : HotMovieModel)
    (downloads : List (URL × Option Image)) :
    ShowsLastOnly G url A events last downloads ↔
      isBlank last.images.medium = false ∨
        ∀ model, .bind model ∈ events → isBlank model.images.medium = true := by
  obtain ⟨d, hdetails⟩ := details_of_bind G url A Image last
  obtain ⟨reused, hreused, hposter⟩ := run_poster G url
    (events ++ .bind last :: Event.finishes downloads) ({} : HotMovieCell A URL Image)
  obtain ⟨fresh, hfresh, hposter'⟩ := run_poster G url
    (.bind last :: Event.finishes downloads) ({} : HotMovieCell A URL Image)
  have hsame : reused.details = fresh.details :=
    (hdetails events downloads hreused).trans (hdetails [] downloads hfresh).symm
  have hposters : ShowsLastOnly G url A events last downloads ↔
      reused.posterImgView.image = fresh.posterImgView.image := by
    constructor
    · rintro ⟨r, f, hr, hf, hvisible⟩
      obtain rfl : reused = r := Except.ok.inj (hreused.symm.trans hr)
      obtain rfl : fresh = f := Except.ok.inj (hfresh.symm.trans hf)
      exact congrArg Visible.poster hvisible
    · intro himage
      refine ⟨reused, fresh, hreused, hfresh, ?_⟩
      rw [visible, visible, himage, hsame]
  rw [hposters, hposter, hposter']
  cases hblank : isBlank last.images.medium with
  | false =>
      refine iff_of_true ?_ (.inl rfl)
      rw [List.foldl_append, List.foldl_cons, List.foldl_cons, posterStep, posterStep,
        bindPoster_of_poster url hblank, bindPoster_of_poster url hblank]
  | true =>
      have hfreshImage : (List.foldl (posterStep url) {}
          ([] ++ .bind last :: Event.finishes downloads)).image = .img_poster_placeholder := by
        rw [image_eq_placeholder_iff, forall_bind_iff]
        exact ⟨fun _ h => absurd h List.not_mem_nil, hblank⟩
      rw [List.nil_append] at hfreshImage
      rw [hfreshImage, image_eq_placeholder_iff, forall_bind_iff, hblank]
      simp

/-- Exact arithmetic, to evaluate on; the numbers it reads are whole. -/
def exactArithmetic : Arithmetic where
  CGFloat := ℚ
  zero := 0
  double s := s.toNat?.map fun n => n
  isPositive x := decide (0 < x)
  half x := x / 2
  ne x y := decide (x ≠ y)
  clamp x := min (max x 0) 5
  format x := toString x.floor ++ "." ++ toString ((x * 10).floor % 10)
  clamp_congr x y h := by rw [not_not.mp (of_decide_eq_false h)]

def posterOnly (medium : String) : HotMovieModel :=
  { (CleanJSON.Fallback.value : HotMovieModel) with images := ⟨"", medium, ""⟩ }

/-- A movie without a poster in the cell of one with a poster. -/
theorem poster_of_another_movie :
    ¬ ShowsLastOnly .scalars some exactArithmetic
      [.bind (posterOnly "https://img1.doubanio.com/view/photo/p2519070834.jpg")]
      (posterOnly "") ([] : List (String × Option Unit)) := by
  rintro ⟨reused, fresh, hreused, hfresh, hvisible⟩
  have himage : reused.posterImgView.image = fresh.posterImgView.image :=
    congrArg Visible.poster hvisible
  rw [poster_of_run _ _ hreused, poster_of_run _ _ hfresh] at himage
  exact absurd himage (by decide)

end HotMovieCell

end MagnetX
