/-
# `MagnetX.Encoding` — what is written to the cache

The synthesized `encode(to:)` of the records: one container, every property in order.  It
coerces nothing and leaves nothing out, so none of the lenient overrides of
`MagnetX.CleanJSON` has anything to mend in its output, and every record is read back as
it was (`RoundTrips`).
-/
import MagnetX.Model

namespace MagnetX

open Lib.Json CleanJSON

/-- A string that was written is text as it stands, whatever it looks like. -/
theorem text_encodeTo (s : String) : text (encodeTo s) = some s := rfl

/-! ## Common records -/

instance : EncodeTo RatingModel where
  encodeTo m := .object [("max", encodeTo m.max), ("average", encodeTo m.average),
    ("stars", encodeTo m.stars), ("min", encodeTo m.min)]

instance : EncodeTo ImagesModel where
  encodeTo m := .object [("small", encodeTo m.small), ("medium", encodeTo m.medium),
    ("large", encodeTo m.large)]

instance : EncodeTo PersonalAttrModel where
  encodeTo m := .object [("alt", encodeTo m.alt), ("name", encodeTo m.name),
    ("id", encodeTo m.id), ("avatars", encodeTo m.avatars)]

/-! ## The element of a list page -/

instance : EncodeTo HotMovieModel where
  encodeTo m := .object [
    ("title", encodeTo m.title), ("collect_count", encodeTo m.collect_count),
    ("original_title", encodeTo m.original_title), ("subtype", encodeTo m.subtype),
    ("year", encodeTo m.year), ("alt", encodeTo m.alt), ("id", encodeTo m.id),
    ("rating", encodeTo m.rating), ("genres", encodeTo m.genres), ("casts", encodeTo m.casts),
    ("directors", encodeTo m.directors), ("images", encodeTo m.images)]

/-! ## The detail record -/

instance : EncodeTo MovieDetailModel where
  encodeTo m := .object [
    ("reviews_count", encodeTo m.reviews_count), ("wish_count", encodeTo m.wish_count),
    ("douban_site", encodeTo m.douban_site), ("year", encodeTo m.year), ("alt", encodeTo m.alt),
    ("id", encodeTo m.id), ("mobile_url", encodeTo m.mobile_url), ("title", encodeTo m.title),
    ("do_count", encodeTo m.do_count), ("share_url", encodeTo m.share_url),
    ("seasons_count", encodeTo m.seasons_count), ("schedule_url", encodeTo m.schedule_url),
    ("episodes_count", encodeTo m.episodes_count), ("collect_count", encodeTo m.collect_count),
    ("current_season", encodeTo m.current_season), ("original_title", encodeTo m.original_title),
    ("summary", encodeTo m.summary), ("subtype", encodeTo m.subtype),
    ("comments_count", encodeTo m.comments_count), ("ratings_count", encodeTo m.ratings_count),
    ("rating", encodeTo m.rating), ("images", encodeTo m.images),
    ("countries", encodeTo m.countries), ("genres", encodeTo m.genres), ("aka", encodeTo m.aka),
    ("casts", encodeTo m.casts), ("directors", encodeTo m.directors)]

/-! ## Every record is read back

Only the record's own fields are unfolded: a nested record or list is a field whose value is
read back by its own instance. -/

instance : RoundTrips RatingModel where
  decoded m := by
    conv => lhs; arg 2; unfold encodeTo instEncodeToRatingModel
    unfold initFrom instDecodableRatingModel
    simp [bind, Except.bind, pure, Except.pure, List.lookup_cons, text_encodeTo]

instance : RoundTrips ImagesModel where
  decoded m := by
    conv => lhs; arg 2; unfold encodeTo instEncodeToImagesModel
    unfold initFrom instDecodableImagesModel
    simp [bind, Except.bind, pure, Except.pure, List.lookup_cons, text_encodeTo]

instance : RoundTrips PersonalAttrModel where
  decoded m := by
    conv => lhs; arg 2; unfold encodeTo instEncodeToPersonalAttrModel
    unfold initFrom instDecodablePersonalAttrModel
    simp [bind, Except.bind, pure, Except.pure, List.lookup_cons, text_encodeTo]

instance : RoundTrips HotMovieModel where
  decoded m := by
    conv => lhs; arg 2; unfold encodeTo instEncodeToHotMovieModel
    unfold initFrom instDecodableHotMovieModel
    simp [bind, Except.bind, pure, Except.pure, List.lookup_cons, text_encodeTo]

instance : RoundTrips MovieDetailModel where
  decoded m := by
    conv => lhs; arg 2; unfold encodeTo instEncodeToMovieDetailModel
    unfold initFrom instDecodableMovieDetailModel
    simp [bind, Except.bind, pure, Except.pure, List.lookup_cons, text_encodeTo]

/-- Reading, writing and reading again is reading. -/
theorem decode_encode_decode {T : Type} [Decodable T] [EncodeTo T] [RoundTrips T]
    (j : JSONValue) :
    (initFrom (T := T) {} j).bind (fun m => initFrom (T := T) {} (encodeTo m)) = initFrom {} j := by
  cases h : initFrom (T := T) {} j with
  | error e => rfl
  | ok m => exact RoundTrips.decoded m

end MagnetX
