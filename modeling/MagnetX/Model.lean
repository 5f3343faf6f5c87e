/-
# `MagnetX.Model` — the records the server sends

`HotMovieModel`, `MovieDetailModel` and the records nested in them, with the
synthesized `init(from:)`: one container, then every property in order through the
overrides of `MagnetX.CleanJSON`.

The synthesized initialiser throws only where the container does.  So each record
has a `Fallback` (what `{}` decodes to, every string empty), and each decodes every
JSON object, whatever its fields hold.
-/
import MagnetX.CleanJSON

namespace MagnetX

open Lib.Json CleanJSON

/-! ## Common records -/

structure RatingModel where
  max : String
  average : String
  stars : String
  min : String
deriving DecidableEq, Repr

instance : Decodable RatingModel where
  initFrom decoder j := do
    let c ← decoder.container j
    return {
      max := ← decodeString c "max"
      average := ← decodeString c "average"
      stars := ← decodeString c "stars"
      min := ← decodeString c "min" }

structure ImagesModel where
  small : String
  medium : String
  large : String
deriving DecidableEq, Repr

instance : Decodable ImagesModel where
  initFrom decoder j := do
    let c ← decoder.container j
    return {
      small := ← decodeString c "small"
      medium := ← decodeString c "medium"
      large := ← decodeString c "large" }

instance : Fallback RatingModel where
  value := ⟨"", "", "", ""⟩
  decoded := .inl rfl

instance : Fallback ImagesModel where
  value := ⟨"", "", ""⟩
  decoded := .inl rfl

structure PersonalAttrModel where
  alt : String
  name : String
  id : String
  avatars : ImagesModel
deriving DecidableEq, Repr

instance : Decodable PersonalAttrModel where
  initFrom decoder j := do
    let c ← decoder.container j
    return {
      alt := ← decodeString c "alt"
      name := ← decodeString c "name"
      id := ← decodeString c "id"
      avatars := ← decode c "avatars" }

instance : Fallback PersonalAttrModel where
  value := ⟨"", "", "", Fallback.value⟩
  decoded := .inl rfl

/-! ## The element of a list page -/

structure HotMovieModel where
  title : String
  collect_count : String
  original_title : String
  subtype : String
  year : String
  alt : String
  id : String
  rating : RatingModel
  genres : List String
  casts : List PersonalAttrModel
  directors : List PersonalAttrModel
  images : ImagesModel
deriving DecidableEq, Repr

instance : Decodable HotMovieModel where
  initFrom decoder j := do
    let c ← decoder.container j
    return {
      title := ← decodeString c "title"
      collect_count := ← decodeString c "collect_count"
      original_title := ← decodeString c "original_title"
      subtype := ← decodeString c "subtype"
      year := ← decodeString c "year"
      alt := ← decodeString c "alt"
      id := ← decodeString c "id"
      rating := ← decode c "rating"
      genres := ← decode c "genres"
      casts := ← decode c "casts"
      directors := ← decode c "directors"
      images := ← decode c "images" }

instance : Fallback HotMovieModel where
  value := ⟨"", "", "", "", "", "", "", Fallback.value, [], [], [], Fallback.value⟩
  decoded := .inl rfl

/-! ## The detail record -/

structure MovieDetailModel where
  reviews_count : String
  wish_count : String
  douban_site : String
  year : String
  alt : String
  id : String
  mobile_url : String
  title : String
  do_count : String
  share_url : String
  seasons_count : String
  schedule_url : String
  episodes_count : String
  collect_count : String
  current_season : String
  original_title : String
  summary : String
  subtype : String
  comments_count : String
  ratings_count : String
  rating : RatingModel
  images : ImagesModel
  countries : List String
  genres : List String
  aka : List String
  casts : List PersonalAttrModel
  directors : List PersonalAttrModel
deriving DecidableEq, Repr

instance : Decodable MovieDetailModel where
  initFrom decoder j := do
    let c ← decoder.container j
    return {
      reviews_count := ← decodeString c "reviews_count"
      wish_count := ← decodeString c "wish_count"
      douban_site := ← decodeString c "douban_site"
      year := ← decodeString c "year"
      alt := ← decodeString c "alt"
      id := ← decodeString c "id"
      mobile_url := ← decodeString c "mobile_url"
      title := ← decodeString c "title"
      do_count := ← decodeString c "do_count"
      share_url := ← decodeString c "share_url"
      seasons_count := ← decodeString c "seasons_count"
      schedule_url := ← decodeString c "schedule_url"
      episodes_count := ← decodeString c "episodes_count"
      collect_count := ← decodeString c "collect_count"
      current_season := ← decodeString c "current_season"
      original_title := ← decodeString c "original_title"
      summary := ← decodeString c "summary"
      subtype := ← decodeString c "subtype"
      comments_count := ← decodeString c "comments_count"
      ratings_count := ← decodeString c "ratings_count"
      rating := ← decode c "rating"
      images := ← decode c "images"
      countries := ← decode c "countries"
      genres := ← decode c "genres"
      aka := ← decode c "aka"
      casts := ← decode c "casts"
      directors := ← decode c "directors" }

/-! ## Every object decodes

Stated for the decoder's own container, so that the key strategy plays no part. -/

section Objects

variable {decoder : JSONDecoder} {j : JSONValue} {c : KeyedDecodingContainer}

theorem HotMovieModel.initFrom_eq (h : decoder.container j = .ok c) :
    ∃ m : HotMovieModel, initFrom decoder j = .ok m := by
  simp [initFrom, h, bind, Except.bind, pure, Except.pure]

theorem MovieDetailModel.initFrom_eq (h : decoder.container j = .ok c) :
    ∃ m : MovieDetailModel, initFrom decoder j = .ok m := by
  simp [initFrom, h, bind, Except.bind, pure, Except.pure]

end Objects

end MagnetX
