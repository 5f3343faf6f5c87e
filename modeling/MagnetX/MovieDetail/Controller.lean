/-
# `MagnetX.MovieDetail.Controller` — opening a movie

`HotChildViewController.didSelectRow` builds a dictionary from the movie of the row,
`MovieDetailViewController.registerRoute` reads it back into a controller, and the
controller's `viewDidLoad` loads the poster and binds the view model.

Three values are force-unwrapped on the way: the URL of the poster and the image that
Kingfisher retrieves, in `loadPoster`, and the base URL, in the cache key of
`bindViewModel`.  A failed unwrap is a `Trap`.

`Platform` stands for what is outside the app: `URL(string:)`, Kingfisher's cache and
downloads, and ColorThief.  The base URL is valid, so what is left is the poster
(`opens_iff`).  Nothing between the server and `loadPoster` checks its URL; and `loadPoster`
takes a retrieval without an error to have an image, which it has not when the server calls
the image not modified and the cache does not have it.
-/
import MagnetX.Hot.ViewModel
import MagnetX.MovieDetail.ViewModel

namespace MagnetX

open Lib.Json CleanJSON

/-! ## Selecting a row -/

/-- `as? String`. -/
def AnyValue.asString : AnyValue → Option String
  | .string s => some s
  | .int _ | .other => none

/-- The parameters that `didSelectRow` pushes a detail screen with. -/
def didSelectRow (model : HotMovieModel) : Parameters :=
  [("id", .string model.id), ("posterURL", .string model.images.medium),
    ("movieName", .string model.title)]

structure MovieDetailViewController where
  id : String := ""
  posterURL : String := ""
  movieName : String := ""
deriving DecidableEq, Repr

namespace MovieDetailViewController

/-- A `String` parameter. -/
def parameter (parameters : Parameters) (key : String) : Option String :=
  (parameters.lookup key).bind AnyValue.asString

def registerRoute : Option Parameters → MovieDetailViewController
  | none => {}
  | some parameters =>
      let movideDetailVC : MovieDetailViewController := {}
      let movideDetailVC := match parameter parameters "id" with
        | some id => { movideDetailVC with id }
        | none => movideDetailVC
      let movideDetailVC := match parameter parameters "posterURL" with
        | some posterURL => { movideDetailVC with posterURL }
        | none => movideDetailVC
      match parameter parameters "movieName" with
      | some movieName => { movideDetailVC with movieName }
      | none => movideDetailVC

/-- The poster URL a controller ends up with: the parameter, or the property's default. -/
theorem registerRoute_posterURL (parameters : Option Parameters) :
    (registerRoute parameters).posterURL =
      ((parameters.bind fun ps => parameter ps "posterURL").getD "") := by
  cases parameters with
  | none => rfl
  | some ps =>
      simp only [registerRoute, Option.bind_some]
      cases parameter ps "id" <;> cases parameter ps "posterURL" <;>
        cases parameter ps "movieName" <;> rfl

/-! ## Loading the view -/

/-- A force-unwrap that finds `nil`. -/
inductive Trap where
  | posterURL
  | posterImage
  | baseURL
deriving DecidableEq, Repr

/-- `!`. -/
def unwrap {α : Type} (trap : Trap) : Option α → Except Trap α
  | some a => .ok a
  | none => .error trap

/-- How a download of Kingfisher's ends: with an image, with the answer that it has not been
modified (304), or in another error. -/
inductive Download (Image : Type) where
  | image (image : Image)
  | notModified
  | failed (error : String)

/-- What the controller takes from outside the app. -/
structure Platform where
  URL : Type
  Image : Type
  Color : Type
  /-- `URL(string:)`. -/
  url : String → Option URL
  /-- What Kingfisher's cache has for a URL. -/
  cached : URL → Option Image
  download : URL → Download Image
  /-- What the cache has once the download has ended. -/
  cachedAfter : URL → Option Image
  /-- `ColorThief.getColor(from:)`. -/
  getColor : Image → Option Color

/-- The image and the error that `KingfisherManager.retrieveImage` completes with, without
options: from the cache, or else from a download; and for an image that was not modified
whatever the cache has, without an error. -/
def Platform.retrieveImage (P : Platform) (url : P.URL) : Option P.Image × Option String :=
  match P.cached url with
  | some image => (some image, none)
  | none =>
      match P.download url with
      | .image image => (some image, none)
      | .notModified => (P.cachedAfter url, none)
      | .failed error => (none, some error)

variable (P : Platform)

/-- The empty string is no URL and the base URL of the app is one. -/
structure Platform.Lawful : Prop where
  empty : P.url "" = none
  base : ∃ u, P.url MagnetX.baseURL = some u

/-- The image has not been modified, but there is none: not in the cache, before or after. -/
structure Platform.Missing (url : P.URL) : Prop where
  cached : P.cached url = none
  download : P.download url = .notModified
  cachedAfter : P.cachedAfter url = none

/-- The text is the URL of a poster that is not missing. -/
def Platform.HasPoster (posterURL : String) : Prop :=
  ∃ u, P.url posterURL = some u ∧ ¬ P.Missing u

/-- A retrieval ends without an image and without an error exactly when the image is missing. -/
theorem Platform.retrieveImage_eq_none_iff (u : P.URL) :
    P.retrieveImage u = (none, none) ↔ P.Missing u := by
  unfold Platform.retrieveImage
  cases hcached : P.cached u with
  | some image => exact iff_of_false nofun fun h => nomatch hcached.symm.trans h.cached
  | none =>
      cases hdownload : P.download u with
      | image image => exact iff_of_false nofun fun h => nomatch hdownload.symm.trans h.download
      | failed error => exact iff_of_false nofun fun h => nomatch hdownload.symm.trans h.download
      | notModified =>
          constructor
          · intro h
            exact ⟨hcached, hdownload, congrArg Prod.fst h⟩
          · intro h
            exact congrArg (·, none) h.cachedAfter

/-- What is behind the header of the table. -/
inductive Header where
  | untouched
  | poster (image : P.Image) (color : P.Color)
  | placeholder

/-- `loadPoster`, with the completion handler run. -/
def loadPoster (vc : MovieDetailViewController) : Except Trap (Header P) := do
  let downloadURL ← unwrap .posterURL (P.url vc.posterURL)
  let (image, error) := P.retrieveImage downloadURL
  match error with
  | none =>
      let posterImage ← unwrap .posterImage image
      match P.getColor posterImage with
      | none => return .untouched
      | some dominantColor => return .poster posterImage dominantColor
  | some _ => return .placeholder

/-- `bindViewModel`; `TargetType.baseURL` is unwrapped for the cache key. -/
def bindViewModel (vc : MovieDetailViewController) (storage : Storage) :
    Except Trap ((DetailTransform × Storage) × List (List MovieDetailListModel)) := do
  let _ ← unwrap .baseURL (P.url MagnetX.baseURL)
  return DetailTransform.bindViewModel vc.id storage

def viewDidLoad (vc : MovieDetailViewController) (storage : Storage) :
    Except Trap (Header P × (DetailTransform × Storage) × List (List MovieDetailListModel)) := do
  let header ← loadPoster P vc
  let screen ← bindViewModel P vc storage
  return (header, screen)

/-- The view loads. -/
def Opens (parameters : Option Parameters) (storage : Storage) : Prop :=
  ∃ screen, (registerRoute parameters).viewDidLoad P storage = .ok screen

variable {P}

/-- `loadPoster` past its first unwrap. -/
theorem loadPoster_of_url {vc : MovieDetailViewController} {u : P.URL}
    (hurl : P.url vc.posterURL = some u) :
    vc.loadPoster P =
      match (P.retrieveImage u).2 with
      | some _ => .ok .placeholder
      | none => (unwrap .posterImage (P.retrieveImage u).1).map fun image =>
          ((P.getColor image).map fun color => Header.poster image color).getD .untouched := by
  rw [loadPoster, hurl]
  simp only [unwrap, bind, Except.bind]
  obtain ⟨image, error⟩ := P.retrieveImage u
  cases error with
  | some e => rfl
  | none =>
      cases image with
      | none => rfl
      | some image =>
          cases hcolor : P.getColor image <;> simp [Except.map, hcolor, pure, Except.pure]

theorem loadPoster_ok_iff (vc : MovieDetailViewController) :
    (∃ header, vc.loadPoster P = .ok header) ↔ P.HasPoster vc.posterURL := by
  cases hurl : P.url vc.posterURL with
  | none =>
      constructor
      · rintro ⟨header, hheader⟩
        rw [loadPoster, hurl] at hheader
        cases hheader
      · rintro ⟨u, hu, -⟩
        cases hurl.symm.trans hu
  | some u =>
      have hposter : P.HasPoster vc.posterURL ↔ P.retrieveImage u ≠ (none, none) := by
        rw [ne_eq, P.retrieveImage_eq_none_iff]
        constructor
        · rintro ⟨u', hu', hmissing⟩
          cases hurl.symm.trans hu'
          exact hmissing
        · exact fun hmissing => ⟨u, hurl, hmissing⟩
      rw [hposter, loadPoster_of_url hurl]
      obtain ⟨image, error⟩ := P.retrieveImage u
      cases error with
      | some error => exact iff_of_true ⟨.placeholder, rfl⟩ nofun
      | none =>
          cases image with
          | some image => exact iff_of_true ⟨_, rfl⟩ nofun
          | none =>
              refine iff_of_false ?_ fun hne => hne rfl
              rintro ⟨header, hheader⟩
              cases hheader

/-- The one condition under which the view loads. -/
theorem viewDidLoad_ok_iff (hP : P.Lawful) (vc : MovieDetailViewController) (storage : Storage) :
    (∃ screen, vc.viewDidLoad P storage = .ok screen) ↔ P.HasPoster vc.posterURL := by
  rw [← loadPoster_ok_iff vc]
  obtain ⟨base, hbase⟩ := hP.base
  have hbind : vc.bindViewModel P storage = .ok (DetailTransform.bindViewModel vc.id storage) := by
    rw [bindViewModel, hbase]
    rfl
  constructor
  · rintro ⟨screen, hscreen⟩
    cases hposter : vc.loadPoster P with
    | error trap =>
        rw [viewDidLoad, hposter] at hscreen
        cases hscreen
    | ok header => exact ⟨header, rfl⟩
  · rintro ⟨header, hheader⟩
    refine ⟨(header, DetailTransform.bindViewModel vc.id storage), ?_⟩
    rw [viewDidLoad, hheader, hbind]
    rfl

/-- Opened without parameters, the screen traps: the default of `posterURL` is no URL. -/
theorem not_opens_without_parameters (hP : P.Lawful) (storage : Storage) :
    ¬ Opens P none storage := by
  rw [Opens, viewDidLoad_ok_iff hP]
  rintro ⟨u, hu, -⟩
  cases hP.empty.symm.trans hu

/-! ## From the server's JSON -/

/-- The text of `images.medium` in a list element. -/
def posterOf (fields : List (String × JSONValue)) : String :=
  match fields.lookup "images" with
  | some (.object images) => ((images.lookup "medium").bind text).getD ""
  | _ => ""

theorem images_medium_of_decoded {fields : List (String × JSONValue)} {model : HotMovieModel}
    (h : initFrom {} (.object fields) = .ok model) : model.images.medium = posterOf fields := by
  simp only [initFrom, JSONDecoder.container_object, decodeString_eq, decode_eq, bind, Except.bind,
    pure, Except.pure, Except.ok.injEq] at h
  subst h
  simp only [posterOf]
  cases himages : fields.lookup "images" with
  | none => rfl
  | some v =>
      cases v with
      | object images => simp [Except.toOption]
      | null => rfl
      | bool b => rfl
      | int n => rfl
      | double d => rfl
      | string s => rfl
      | array elements => rfl

/-- **A movie opens exactly when it has a poster**: when the `images.medium` of the element
selected, or the `posterURL` of any other parameters (the empty string if there is none), is
a URL, and the image at it is not missing. -/
theorem opens_iff {P : Platform} (hP : P.Lawful) (storage : Storage) :
    (∀ fields model, initFrom {} (.object fields) = .ok model →
      (Opens P (some (didSelectRow model)) storage ↔ P.HasPoster (posterOf fields))) ∧
    (∀ parameters, Opens P parameters storage ↔
      P.HasPoster ((parameters.bind fun ps => parameter ps "posterURL").getD "")) := by
  constructor
  · intro fields model hmodel
    rw [Opens, viewDidLoad_ok_iff hP, registerRoute_posterURL, ← images_medium_of_decoded hmodel]
    rfl
  · intro parameters
    rw [Opens, viewDidLoad_ok_iff hP, registerRoute_posterURL]

/-- A platform on which every string but the empty one is a URL, and every image can be
downloaded but one, which the server takes to be in the cache. -/
def samplePlatform : Platform where
  URL := String
  Image := Unit
  Color := Unit
  url s := if s = "" then none else some s
  cached _ := none
  download u := if u = "https://img1.doubanio.com/304" then .notModified else .image ()
  cachedAfter _ := none
  getColor _ := some ()

theorem samplePlatform_lawful : samplePlatform.Lawful where
  empty := rfl
  base := ⟨MagnetX.baseURL, rfl⟩

/-- An element with a poster. -/
def sampleFields : List (String × JSONValue) :=
  [("id", .string "26752088"),
    ("images", .object
      [("medium", .string "https://img1.doubanio.com/view/photo/p2519070834.jpg")])]

/-- The element opens; parameters with the URL of a missing image do not. -/
theorem opens_iff_sampleFields :
    (∃ model, initFrom (T := HotMovieModel) {} (.object sampleFields) = .ok model ∧
      Opens samplePlatform (some (didSelectRow model)) fun _ => none) ∧
    ¬ Opens samplePlatform (some [("posterURL", .string "https://img1.doubanio.com/304")])
      fun _ => none := by
  have h := opens_iff samplePlatform_lawful fun _ => none
  constructor
  · obtain ⟨model, hmodel⟩ := HotMovieModel.initFrom_eq (JSONDecoder.container_object sampleFields)
    have hposter : samplePlatform.HasPoster (posterOf sampleFields) :=
      ⟨_, rfl, fun hmissing => nomatch hmissing.download⟩
    exact ⟨model, hmodel, (h.1 sampleFields model hmodel).mpr hposter⟩
  · intro hopens
    obtain ⟨u, hu, hmissing⟩ := (h.2 _).mp hopens
    cases hu
    exact hmissing ⟨rfl, rfl, rfl⟩

/-- An element without a poster, even one without any field, traps when it is selected. -/
theorem movie_without_poster_traps :
    ¬ ∀ (P : Platform) (storage : Storage), P.Lawful →
      (∀ fields model, initFrom {} (.object fields) = .ok model →
        Opens P (some (didSelectRow model)) storage) ∧
      (∀ parameters, Opens P parameters storage) := by
  intro h
  obtain ⟨model, hmodel⟩ := HotMovieModel.initFrom_eq (JSONDecoder.container_object [])
  obtain ⟨screen, hscreen⟩ :=
    (h samplePlatform (fun _ => none) samplePlatform_lawful).1 [] model hmodel
  obtain ⟨u, hu, -⟩ := (viewDidLoad_ok_iff samplePlatform_lawful _ _).mp ⟨screen, hscreen⟩
  rw [registerRoute_posterURL] at hu
  have hposter : samplePlatform.url model.images.medium = some u := hu
  rw [images_medium_of_decoded hmodel] at hposter
  cases hposter

end MovieDetailViewController

end MagnetX
