/-
# `MagnetX.Kingfisher.KingfisherManager` — from the cache, or else from the network

How a poster comes to its image view: the vendored Kingfisher's `ImageView+Kingfisher.swift`,
`KingfisherManager.swift` and `ImageCache.swift`, over the downloader.  An image is looked
for in memory, at once, and then in the file of its URL, on the serial `ioQueue`; what is not
found is downloaded, and a downloaded image is put in both places before the view has it.

Completions come on the main queue: at once when the main queue is where they are called
(`safeAsync`), and as a block of their own otherwise.  Here, as everywhere, `onMain` says
which it is.

The posters are asked for with no options, so that the processor, the serializer and the
queue of the callbacks are the default ones, and a URL is its own cache key.  What is not the
program's: the memory cache may drop any image at any time, the files may go away and need
not be readable or writable, and `md5` names them.
-/
import MagnetX.Hot.Cell
import MagnetX.Kingfisher.ImageDownloader

namespace MagnetX.Kingfisher

open Lib

/-- Images and data, and the file of a URL's image. -/
structure Codec (URL Image : Type) where
  /-- `Kingfisher<Image>.image(data:…)`, which the processor and the serializer both call. -/
  image : List UInt8 → Option Image
  /-- `DefaultCacheSerializer.data(with:original:)`. -/
  data : Image → List UInt8 → Option (List UInt8)
  /-- `cacheFileName(forComputedKey:)`. -/
  cacheFileName : URL → String

/-- What an image is looked for in the cache for: to show it, or to download it if it is not
there; or to show it since the server said that it had not changed. -/
inductive Purpose where
  | tryToRetrieve
  | notModified
deriving DecidableEq, Repr

/-- A retrieval from the cache, with what its completion handler captures. -/
structure Retrieval (View URL : Type) where
  view : View
  url : URL
  purpose : Purpose
deriving DecidableEq, Repr

/-- A block of `ioQueue`; the second half of a retrieval has the image that it read. -/
inductive IoBlock (View URL Image : Type) where
  | store (image : Image) (original : List UInt8) (key : URL)
  | retrieve (retrieval : Retrieval View URL)
  | retrieved (retrieval : Retrieval View URL) (image : Option Image)
deriving DecidableEq, Repr

/-- A block of the main queue. -/
inductive MainBlock (View URL Image : Type) where
  | retrieved (retrieval : Retrieval View URL) (image : Option Image)
  | downloaded (view : View) (url : URL) (answer : Answer Image)

/-- What can be seen of the loading of posters: it begins, and it ends, with or without an
image. -/
inductive Loading (View URL Image : Type) where
  | began (view : View) (url : URL)
  | ended (view : View) (url : URL) (image : Option Image)
deriving DecidableEq, Repr

/-- The image views, the cache, the downloader and the queues between them. -/
structure KingfisherManager (View URL Image : Type) [DecidableEq URL] where
  views : View → PosterView URL Image := fun _ => {}
  memoryCache : URL → Option Image := fun _ => none
  disk : String → Option (List UInt8) := fun _ => none
  ioQueue : List (IoBlock View URL Image) := []
  mainQueue : List (MainBlock View URL Image) := []
  downloader : ImageDownloader URL View := {}

namespace KingfisherManager

variable {View URL Image : Type} [DecidableEq View] [DecidableEq URL]

abbrev Log (View URL Image : Type) := List (Loading View URL Image)

variable (s : KingfisherManager View URL Image)

/-! ## Completions -/

/-- The completion handler of `setImage`. -/
def complete (view : View) (url : URL) (image : Option Image) :
    KingfisherManager View URL Image × Log View URL Image :=
  ({ s with views := Function.update s.views view ((s.views view).finish url image) },
    [.ended view url image])

/-- `ImageCache.store`, to memory and to disk. -/
def store (image : Image) (original : List UInt8) (key : URL) : KingfisherManager View URL Image :=
  { s with
    memoryCache := Function.update s.memoryCache key (some image)
    ioQueue := s.ioQueue ++ [.store image original key] }

/-- `downloadAndCacheImage`. -/
def downloadAndCacheImage (view : View) (url : URL) : KingfisherManager View URL Image :=
  { s with downloader := (s.downloader.setup url view : _ × ImageDownloader.Log URL View Image).1 }

/-- The completion handlers of a retrieval: of `tryToRetrieveImageFromCache`, and of a download
that was not modified. -/
def retrieved (retrieval : Retrieval View URL) (image : Option Image) :
    KingfisherManager View URL Image × Log View URL Image :=
  match image, retrieval.purpose with
  | some image, _ => s.complete retrieval.view retrieval.url (some image)
  | none, .tryToRetrieve => (s.downloadAndCacheImage retrieval.view retrieval.url, [])
  | none, .notModified => s.complete retrieval.view retrieval.url none

/-- `ImageCache.retrieveImage`. -/
def retrieveImage (onMain : Bool) (retrieval : Retrieval View URL) :
    KingfisherManager View URL Image × Log View URL Image :=
  match s.memoryCache retrieval.url with
  | some image =>
      if onMain then s.retrieved retrieval (some image)
      else ({ s with mainQueue := s.mainQueue ++ [.retrieved retrieval (some image)] }, [])
  | none => ({ s with ioQueue := s.ioQueue ++ [.retrieve retrieval] }, [])

/-- The completion handler of `downloadAndCacheImage`. -/
def downloaded (onMain : Bool) (view : View) (url : URL) :
    Answer Image → KingfisherManager View URL Image × Log View URL Image
  | .error .notModified => s.retrieveImage onMain ⟨view, url, .notModified⟩
  | .error _ => s.complete view url none
  | .ok (image, originalData) => (s.store image originalData url).complete view url (some image)

/-! ## The image view -/

/-- `setImage(with:placeholder:)`. -/
def setImage (view : View) (resource : Option URL) (placeholder : PosterImage Image) :
    KingfisherManager View URL Image × Log View URL Image :=
  let s := { s with
    views := Function.update s.views view ((s.views view).setImage resource placeholder) }
  match resource with
  | none => (s, [])
  | some url =>
      let (s, log) := s.retrieveImage true ⟨view, url, .tryToRetrieve⟩
      (s, .began view url :: log)

/-! ## The queues -/

/-- The head of `ioQueue`; `ok` says whether the file system does what it is asked. -/
def runIoQueue (codec : Codec URL Image) (ok : Bool) : Option (KingfisherManager View URL Image) :=
  match s.ioQueue with
  | [] => none
  | .store image original key :: rest =>
      match codec.data image original, ok with
      | some data, true => some { s with
          disk := Function.update s.disk (codec.cacheFileName key) (some data)
          ioQueue := rest }
      | _, _ => some { s with ioQueue := rest }
  | .retrieve retrieval :: rest =>
      let data := if ok then s.disk (codec.cacheFileName retrieval.url) else none
      some { s with ioQueue := .retrieved retrieval (data.bind codec.image) :: rest }
  | .retrieved retrieval image :: rest =>
      some { s with
        memoryCache := match image with
          | some image => Function.update s.memoryCache retrieval.url (some image)
          | none => s.memoryCache
        ioQueue := rest
        mainQueue := s.mainQueue ++ [.retrieved retrieval image] }

/-- The head of the main queue. -/
def runMainQueue : Option (KingfisherManager View URL Image × Log View URL Image) :=
  match s.mainQueue with
  | [] => none
  | block :: rest =>
      let s := { s with mainQueue := rest }
      match block with
      | .retrieved retrieval image => some (s.retrieved retrieval image)
      | .downloaded view url answer => some (s.downloaded true view url answer)

/-- A callback of the downloader.  The error of an image that is not modified does not go
through the queue of the callbacks. -/
def callback (onMain : Bool) :
    SingleFlight.Output URL View (Answer Image) →
      KingfisherManager View URL Image × Log View URL Image
  | .joined _ _ => (s, [])
  | .answered url view (.error .notModified) => s.downloaded onMain view url (.error .notModified)
  | .answered url view answer =>
      if onMain then s.downloaded onMain view url answer
      else ({ s with mainQueue := s.mainQueue ++ [.downloaded view url answer] }, [])

/-- The callbacks of the downloader, one after the other. -/
def callbacks (onMain : Bool) :
    KingfisherManager View URL Image → ImageDownloader.Log URL View Image →
      KingfisherManager View URL Image × Log View URL Image
  | s, [] => (s, [])
  | s, output :: outputs =>
      let (s, log) := s.callback onMain output
      let (s, rest) := callbacks onMain s outputs
      (s, log ++ rest)

/-! ## The machine -/

inductive Action (View URL : Type) where
  | setImage (view : View) (resource : Option URL)
  | runIoQueue (ok : Bool)
  | runMainQueue
  | downloader (action : ImageDownloader.Action URL View)
  | evict (key : URL)
  | removeFile (name : String)

/-- The process queue is the one that is not the main queue. -/
def onMain : ImageDownloader.Action URL View → Bool
  | .finishProcess _ => false
  | _ => true

/-- A step of the downloader by itself: only the manager asks for downloads. -/
def stepDownloader (codec : Codec URL Image) (action : ImageDownloader.Action URL View) :
    Option (KingfisherManager View URL Image × Log View URL Image) :=
  match action with
  | .downloadImage _ _ => none
  | action =>
      ((ImageDownloader.machine codec.image).step s.downloader action).map fun r =>
        callbacks (onMain action) { s with downloader := r.1 } r.2

def machine (codec : Codec URL Image) :
    Machine (KingfisherManager View URL Image) (Action View URL) (Loading View URL Image) where
  step s
    | .setImage view resource => some (s.setImage view resource .img_poster_loading_placeholder)
    | .runIoQueue ok => (s.runIoQueue codec ok).map fun s => (s, [])
    | .runMainQueue => s.runMainQueue
    | .downloader action => s.stepDownloader codec action
    | .evict key => some ({ s with memoryCache := Function.update s.memoryCache key none }, [])
    | .removeFile name => some ({ s with disk := Function.update s.disk name none }, [])

end KingfisherManager

end MagnetX.Kingfisher
