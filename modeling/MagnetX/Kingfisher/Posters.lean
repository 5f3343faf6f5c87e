/-
# `MagnetX.Kingfisher.Posters` — an image view shows a poster of the URL it was last given

Image views are reused, and what was asked for a while ago may come at any time: from memory,
from a file, from a download that others share.  Whatever comes when, an image that a view
shows is a poster of the URL that the view was last given (`shows_own_poster`): it was made of
what a download of that URL has received, or read back from the file in which such an image
was stored, or from the file as it was before.

And no view is forgotten: those whose loading of a URL began are, up to order, those whose
loading has ended, and those that a block on a queue or a download will see to
(`loading_ends_once`).  Without cancellations all have ended when the queues are empty and the
downloads are over.
-/
import MagnetX.Kingfisher.Callbacks
import MagnetX.Kingfisher.KingfisherManager

namespace MagnetX.Kingfisher

open Lib Lib.SingleFlight

variable {View URL Image : Type}

/-! ## Where images come from -/

section Poster

variable (codec : Codec URL Image) (files : String → Option (List UInt8))
  (Downloaded : URL → Image → List UInt8 → Prop)

/-- The image of a URL: it was downloaded, or read from the file where a downloaded image was
stored, or from the file there was at first. -/
inductive Poster (url : URL) (image : Image) : Prop where
  | downloaded {data : List UInt8} (h : Downloaded url image data)
  | stored {url' : URL} {image' : Image} {original data : List UInt8}
      (h : Downloaded url' image' original)
      (hname : codec.cacheFileName url = codec.cacheFileName url')
      (hdata : codec.data image' original = some data) (himage : codec.image data = some image)
  | kept {data : List UInt8} (hdata : files (codec.cacheFileName url) = some data)
      (himage : codec.image data = some image)

/-- With more downloads there are more posters. -/
theorem Poster.mono {codec : Codec URL Image} {files : String → Option (List UInt8)}
    {Downloaded Downloaded' : URL → Image → List UInt8 → Prop}
    (hmono : ∀ url image data, Downloaded url image data → Downloaded' url image data) {url : URL}
    {image : Image} (h : Poster codec files Downloaded url image) :
    Poster codec files Downloaded' url image := by
  cases h with
  | downloaded h => exact .downloaded (hmono _ _ _ h)
  | stored h hname hdata himage => exact .stored (hmono _ _ _ h) hname hdata himage
  | kept hdata himage => exact .kept hdata himage

/-- What a block of `ioQueue` has to do with posters. -/
def IoBlock.Sound : IoBlock View URL Image → Prop
  | .store image original key => Downloaded key image original
  | .retrieve _ => True
  | .retrieved retrieval image => ∀ i ∈ image, Poster codec files Downloaded retrieval.url i

/-- What a block of the main queue has to do with posters. -/
def MainBlock.Sound : MainBlock View URL Image → Prop
  | .retrieved retrieval image => ∀ i ∈ image, Poster codec files Downloaded retrieval.url i
  | .downloaded _ url answer => ∀ image data, answer = .ok (image, data) → Downloaded url image data

end Poster

namespace KingfisherManager

/-! ## Actions -/

/-- The action that the downloader takes for an action, if any: the manager asks for downloads,
and nobody else does. -/
def Action.Below : Action View URL → ImageDownloader.Action URL View → Prop
  | .downloader action', action => action = action'
  | _, action => ∃ url view, action = .downloadImage url view

/-- No response is rejected. -/
def Action.Valid : Action View URL → Prop
  | .downloader action => action.Valid
  | _ => True

/-- Some download is cancelled. -/
def Action.Cancels : Action View URL → Prop
  | .downloader action => action.Cancels
  | _ => False

theorem Action.Valid.below {a : Action View URL} (ha : a.Valid)
    {action : ImageDownloader.Action URL View} (h : a.Below action) : action.Valid := by
  cases a with
  | downloader action' => exact (show action = action' from h) ▸ ha
  | _ =>
      obtain ⟨url, view, rfl⟩ := h
      trivial

theorem Action.not_cancels_below {a : Action View URL} (ha : ¬ a.Cancels)
    {action : ImageDownloader.Action URL View} (h : a.Below action) : ¬ action.Cancels := by
  cases a with
  | downloader action' => exact (show action = action' from h) ▸ ha
  | _ =>
      obtain ⟨url, view, rfl⟩ := h
      exact id

/-! ## Every image in its place -/

variable [DecidableEq URL] {s t : KingfisherManager View URL Image}
  {codec : Codec URL Image}

/-- The downloads of a downloader that are over. -/
def Downloads (codec : Codec URL Image) (d : ImageDownloader URL View) (url : URL) (image : Image)
    (data : List UInt8) : Prop :=
  codec.image data = some image ∧
    ∃ task ∈ d.tasks, task.url = url ∧ task.state = .finished ∧ task.received = data

theorem Downloads.mono {d d' : ImageDownloader URL View} (h : ImageDownloader.KeepsOver d d')
    (url : URL) (image : Image) (data : List UInt8) (hd : Downloads codec d url image data) :
    Downloads codec d' url image data := by
  obtain ⟨himage, task, htask, hurl, hover, hdata⟩ := hd
  exact ⟨himage, task, h task htask hover, hurl, hover, hdata⟩

/-- Every image is a poster of the URL it is kept for, and so is the one that a view shows of
the URL that the view was given. -/
structure Sound (codec : Codec URL Image) (files : String → Option (List UInt8))
    (Downloaded : URL → Image → List UInt8 → Prop) (given : View → Option URL)
    (s : KingfisherManager View URL Image) : Prop where
  webURL : ∀ view, (s.views view).webURL = given view
  views : ∀ view image, (s.views view).image = .downloaded image →
    ∃ url, given view = some url ∧ Poster codec files Downloaded url image
  memoryCache : ∀ url image, s.memoryCache url = some image →
    Poster codec files Downloaded url image
  disk : ∀ url data image, s.disk (codec.cacheFileName url) = some data →
    codec.image data = some image → Poster codec files Downloaded url image
  ioQueue : ∀ block ∈ s.ioQueue, block.Sound codec files Downloaded
  mainQueue : ∀ block ∈ s.mainQueue, block.Sound codec files Downloaded

section Sound

variable {files : String → Option (List UInt8)} {Downloaded : URL → Image → List UInt8 → Prop}
  {given : View → Option URL}

/-- With the files there were at first, and nothing shown or kept. -/
theorem sound_initial (codec : Codec URL Image) (files : String → Option (List UInt8))
    (Downloaded : URL → Image → List UInt8 → Prop) :
    Sound codec files Downloaded (fun _ => none)
      ({ disk := files } : KingfisherManager View URL Image) where
  webURL _ := rfl
  views _ _ h := nomatch h
  memoryCache _ _ h := nomatch h
  disk _ _ _ hdata himage := .kept hdata himage
  ioQueue _ h := nomatch h
  mainQueue _ h := nomatch h

theorem Sound.mono {Downloaded' : URL → Image → List UInt8 → Prop}
    (hmono : ∀ url image data, Downloaded url image data → Downloaded' url image data)
    (hs : Sound codec files Downloaded given s) : Sound codec files Downloaded' given s where
  webURL := hs.webURL
  views view image h := by
    obtain ⟨url, hgiven, hposter⟩ := hs.views view image h
    exact ⟨url, hgiven, hposter.mono hmono⟩
  memoryCache url image h := (hs.memoryCache url image h).mono hmono
  disk url data image hdata himage := (hs.disk url data image hdata himage).mono hmono
  ioQueue block hblock := by
    have h := hs.ioQueue block hblock
    cases block with
    | store image original key => exact hmono _ _ _ h
    | retrieve retrieval => trivial
    | retrieved retrieval image => exact fun i hi => (h i hi).mono hmono
  mainQueue block hblock := by
    have h := hs.mainQueue block hblock
    cases block with
    | retrieved retrieval image => exact fun i hi => (h i hi).mono hmono
    | downloaded view url answer => exact fun image data heq => hmono _ _ _ (h image data heq)

theorem Sound.withDownloader (hs : Sound codec files Downloaded given s)
    (downloader : ImageDownloader URL View) :
    Sound codec files Downloaded given { s with downloader } :=
  ⟨hs.webURL, hs.views, hs.memoryCache, hs.disk, hs.ioQueue, hs.mainQueue⟩

theorem Sound.withIoBlock (hs : Sound codec files Downloaded given s)
    (block : IoBlock View URL Image) (hblock : block.Sound codec files Downloaded) :
    Sound codec files Downloaded given { s with ioQueue := s.ioQueue ++ [block] } where
  webURL := hs.webURL
  views := hs.views
  memoryCache := hs.memoryCache
  disk := hs.disk
  ioQueue := List.forall_mem_append.mpr ⟨hs.ioQueue, List.forall_mem_singleton.mpr hblock⟩
  mainQueue := hs.mainQueue

theorem Sound.withMainBlock (hs : Sound codec files Downloaded given s)
    (block : MainBlock View URL Image) (hblock : block.Sound codec files Downloaded) :
    Sound codec files Downloaded given { s with mainQueue := s.mainQueue ++ [block] } where
  webURL := hs.webURL
  views := hs.views
  memoryCache := hs.memoryCache
  disk := hs.disk
  ioQueue := hs.ioQueue
  mainQueue := List.forall_mem_append.mpr ⟨hs.mainQueue, List.forall_mem_singleton.mpr hblock⟩

theorem Sound.remember (hs : Sound codec files Downloaded given s) {url : URL} {image : Image}
    (himage : Poster codec files Downloaded url image) :
    Sound codec files Downloaded given
      { s with memoryCache := Function.update s.memoryCache url (some image) } where
  webURL := hs.webURL
  views := hs.views
  memoryCache url' image' h := by
    dsimp only at h
    rw [Function.update_apply] at h
    split at h
    · rename_i heq
      cases h
      exact heq ▸ himage
    · exact hs.memoryCache url' image' h
  disk := hs.disk
  ioQueue := hs.ioQueue
  mainQueue := hs.mainQueue

theorem Sound.store (hs : Sound codec files Downloaded given s) {url : URL} {image : Image}
    {data : List UInt8} (h : Downloaded url image data) :
    Sound codec files Downloaded given (s.store image data url) :=
  (hs.remember (.downloaded h)).withIoBlock (.store image data url) h

/-! ## The files -/

theorem Sound.runIoQueue (hs : Sound codec files Downloaded given s) {ok : Bool}
    (h : s.runIoQueue codec ok = some t) : Sound codec files Downloaded given t := by
  rw [KingfisherManager.runIoQueue] at h
  split at h
  · cases h
  · rename_i image original key rest hqueue
    have hblocks := hs.ioQueue
    rw [hqueue, List.forall_mem_cons] at hblocks
    split at h
    · rename_i data hdata
      cases h
      refine ⟨hs.webURL, hs.views, hs.memoryCache, ?_, hblocks.2, hs.mainQueue⟩
      intro url data' image' hfile himage
      dsimp only at hfile
      rw [Function.update_apply] at hfile
      split at hfile
      · rename_i hname
        cases hfile
        exact .stored hblocks.1 hname hdata himage
      · exact hs.disk url data' image' hfile himage
    · cases h
      exact ⟨hs.webURL, hs.views, hs.memoryCache, hs.disk, hblocks.2, hs.mainQueue⟩
  · rename_i retrieval rest hqueue
    cases h
    have hblocks := hs.ioQueue
    rw [hqueue, List.forall_mem_cons] at hblocks
    refine ⟨hs.webURL, hs.views, hs.memoryCache, hs.disk, ?_, hs.mainQueue⟩
    rw [List.forall_mem_cons]
    refine ⟨?_, hblocks.2⟩
    intro i hi
    cases ok with
    | false => cases hi
    | true =>
        obtain ⟨data, hdata, himage⟩ := Option.bind_eq_some_iff.mp hi
        exact hs.disk retrieval.url data i hdata himage
  · rename_i retrieval image rest hqueue
    cases h
    have hblocks := hs.ioQueue
    rw [hqueue, List.forall_mem_cons] at hblocks
    have hrest : Sound codec files Downloaded given { s with ioQueue := rest } :=
      ⟨hs.webURL, hs.views, hs.memoryCache, hs.disk, hblocks.2, hs.mainQueue⟩
    have hmain := hrest.withMainBlock (.retrieved retrieval image) hblocks.1
    cases image with
    | none => exact hmain
    | some i => exact hmain.remember (hblocks.1 i rfl)

/-! ## Completions -/

variable [DecidableEq View]

/-- A view takes the image only if it was last given the URL. -/
theorem Sound.complete (hs : Sound codec files Downloaded given s) (view : View) {url : URL}
    {image : Option Image} (himage : ∀ i ∈ image, Poster codec files Downloaded url i) :
    Sound codec files Downloaded given (s.complete view url image).1 where
  webURL view' := by
    rw [KingfisherManager.complete]
    dsimp only
    rw [Function.update_apply]
    split
    · rename_i heq
      rw [heq]
      unfold PosterView.finish
      split
      · cases image <;> exact hs.webURL view
      · exact hs.webURL view
    · exact hs.webURL view'
  views view' image' h := by
    rw [KingfisherManager.complete] at h
    dsimp only at h
    rw [Function.update_apply] at h
    split at h
    · rename_i heq
      rw [heq]
      unfold PosterView.finish at h
      split at h
      · rename_i hurl
        cases image with
        | none => exact hs.views view image' h
        | some i =>
            cases h
            exact ⟨url, (hs.webURL view).symm.trans hurl, himage image' rfl⟩
      · exact hs.views view image' h
    · exact hs.views view' image' h
  memoryCache := hs.memoryCache
  disk := hs.disk
  ioQueue := hs.ioQueue
  mainQueue := hs.mainQueue

theorem Sound.retrieved (hs : Sound codec files Downloaded given s)
    {retrieval : Retrieval View URL} {image : Option Image}
    (himage : ∀ i ∈ image, Poster codec files Downloaded retrieval.url i) :
    Sound codec files Downloaded given (s.retrieved retrieval image).1 := by
  unfold KingfisherManager.retrieved
  split
  · exact hs.complete retrieval.view himage
  · exact hs.withDownloader _
  · exact hs.complete retrieval.view nofun

theorem Sound.retrieveImage (hs : Sound codec files Downloaded given s) (onMain : Bool)
    (retrieval : Retrieval View URL) :
    Sound codec files Downloaded given (s.retrieveImage onMain retrieval).1 := by
  rw [KingfisherManager.retrieveImage]
  split
  · rename_i image hmemory
    have himage : ∀ i ∈ some image, Poster codec files Downloaded retrieval.url i := by
      rintro i ⟨⟩
      exact hs.memoryCache retrieval.url image hmemory
    cases onMain with
    | true => exact hs.retrieved himage
    | false => exact hs.withMainBlock (.retrieved retrieval (some image)) himage
  · exact hs.withIoBlock (.retrieve retrieval) trivial

theorem Sound.downloaded (hs : Sound codec files Downloaded given s) (onMain : Bool) (view : View)
    {url : URL} {answer : Answer Image}
    (hanswer : ∀ image data, answer = .ok (image, data) → Downloaded url image data) :
    Sound codec files Downloaded given (s.downloaded onMain view url answer).1 := by
  have hnone : ∀ i ∈ (none : Option Image), Poster codec files Downloaded url i := nofun
  cases answer with
  | ok result =>
      obtain ⟨image, data⟩ := result
      have h := hanswer image data rfl
      refine (hs.store h).complete view ?_
      rintro i ⟨⟩
      exact .downloaded h
  | error error =>
      cases error with
      | notModified => exact hs.retrieveImage onMain _
      | session => exact hs.complete view hnone
      | invalidStatusCode statusCode => exact hs.complete view hnone
      | badData => exact hs.complete view hnone

/-- A view that is given a URL shows a placeholder, unless the image is in memory. -/
theorem Sound.setImage (hs : Sound codec files Downloaded given s) (view : View)
    (resource : Option URL) :
    Sound codec files Downloaded (Function.update given view resource)
      (s.setImage view resource .img_poster_loading_placeholder).1 := by
  have hset : Sound codec files Downloaded (Function.update given view resource)
      { s with
        views := Function.update s.views view
          ((s.views view).setImage resource .img_poster_loading_placeholder) } := by
    refine ⟨?_, ?_, hs.memoryCache, hs.disk, hs.ioQueue, hs.mainQueue⟩
    · intro view'
      dsimp only
      rw [Function.update_apply, Function.update_apply]
      split
      · cases resource <;> rfl
      · exact hs.webURL view'
    · intro view' image h
      dsimp only at h
      rw [Function.update_apply] at h ⊢
      split at h
      · cases resource <;> cases h
      · rename_i hne
        rw [if_neg hne]
        exact hs.views view' image h
  unfold KingfisherManager.setImage
  cases resource with
  | none => exact hset
  | some url => exact hset.retrieveImage true _

/-! ## The main queue -/

theorem Sound.runMainQueue (hs : Sound codec files Downloaded given s)
    {r : KingfisherManager View URL Image × Log View URL Image} (h : s.runMainQueue = some r) :
    Sound codec files Downloaded given r.1 := by
  rw [KingfisherManager.runMainQueue] at h
  split at h
  · cases h
  · rename_i block rest hqueue
    have hblocks := hs.mainQueue
    rw [hqueue, List.forall_mem_cons] at hblocks
    have hrest : Sound codec files Downloaded given { s with mainQueue := rest } :=
      ⟨hs.webURL, hs.views, hs.memoryCache, hs.disk, hs.ioQueue, hblocks.2⟩
    cases block with
    | retrieved retrieval image =>
        cases h
        exact hrest.retrieved hblocks.1
    | downloaded view url answer =>
        cases h
        exact hrest.downloaded true view hblocks.1

theorem Sound.callback (hs : Sound codec files Downloaded given s) (onMain : Bool)
    (output : Output URL View (Answer Image))
    (houtput : ∀ url view image data, output = .answered url view (.ok (image, data)) →
      Downloaded url image data) :
    Sound codec files Downloaded given (s.callback onMain output).1 := by
  unfold KingfisherManager.callback
  split
  · exact hs
  · exact hs.downloaded onMain _ fun image data heq => nomatch heq
  · rename_i url view answer _
    have hanswer : ∀ image data, answer = .ok (image, data) → Downloaded url image data := by
      rintro image data rfl
      exact houtput url view image data rfl
    split
    · exact hs.downloaded onMain view hanswer
    · exact hs.withMainBlock (.downloaded view url answer) hanswer

theorem Sound.callbacks {onMain : Bool} {outputs : ImageDownloader.Log URL View Image}
    (houtputs : ∀ url view image data, .answered url view (.ok (image, data)) ∈ outputs →
      Downloaded url image data) :
    ∀ {s : KingfisherManager View URL Image}, Sound codec files Downloaded given s →
      Sound codec files Downloaded given (callbacks onMain s outputs).1 := by
  induction outputs with
  | nil => exact fun hs => hs
  | cons output outputs ih =>
      intro s hs
      have houtput := hs.callback onMain output fun url view image data heq =>
        houtputs url view image data (heq ▸ List.mem_cons_self ..)
      exact ih (fun url view image data hmem =>
        houtputs url view image data (List.mem_cons_of_mem _ hmem)) houtput

end Sound

/-! ## The downloader below -/

/-- The downloader takes a step, or none. -/
def StepsDownloader (codec : Codec URL Image) (a : Action View URL)
    (d d' : ImageDownloader URL View) : Prop :=
  d' = d ∨ ∃ action outputs,
    (ImageDownloader.machine codec.image).step d action = some (d', outputs) ∧ a.Below action

section Downloader

variable [DecidableEq View]

@[simp] theorem complete_downloader (s : KingfisherManager View URL Image) (view : View) (url : URL)
    (image : Option Image) : (s.complete view url image).1.downloader = s.downloader := rfl

@[simp] theorem retrieveImage_downloader (s : KingfisherManager View URL Image) (onMain : Bool)
    (retrieval : Retrieval View URL) :
    (s.retrieveImage onMain retrieval).1.downloader = s.downloader := by
  rw [retrieveImage]
  split
  · split <;> rfl
  · rfl

@[simp] theorem downloaded_downloader (s : KingfisherManager View URL Image) (onMain : Bool)
    (view : View) (url : URL) (answer : Answer Image) :
    (s.downloaded onMain view url answer).1.downloader = s.downloader := by
  unfold downloaded
  split
  · exact s.retrieveImage_downloader onMain _
  · rfl
  · rfl

theorem callbacks_downloader (onMain : Bool) (outputs : ImageDownloader.Log URL View Image) :
    ∀ s : KingfisherManager View URL Image,
      (callbacks onMain s outputs).1.downloader = s.downloader := by
  induction outputs with
  | nil => exact fun _ => rfl
  | cons output outputs ih =>
      intro s
      refine (ih (s.callback onMain output).1).trans ?_
      unfold callback
      split
      · rfl
      · exact s.downloaded_downloader onMain _ _ _
      · split
        · exact s.downloaded_downloader onMain _ _ _
        · rfl

theorem stepDownloader_cases {action : ImageDownloader.Action URL View}
    {r : KingfisherManager View URL Image × Log View URL Image}
    (h : s.stepDownloader codec action = some r) :
    ∃ d outputs,
      (ImageDownloader.machine codec.image).step s.downloader action = some (d, outputs) ∧
      (∀ url view, action ≠ .downloadImage url view) ∧
      r = callbacks (onMain action) { s with downloader := d } outputs := by
  unfold stepDownloader at h
  split at h
  · cases h
  · rename_i hne
    obtain ⟨⟨d, outputs⟩, hstep, rfl⟩ := Option.map_eq_some_iff.mp h
    exact ⟨d, outputs, hstep, hne, rfl⟩

/-- What a step does to the downloader is a step of the downloader, or nothing. -/
theorem step_downloader {a : Action View URL}
    {r : KingfisherManager View URL Image × Log View URL Image}
    (h : (machine codec).step s a = some r) :
    StepsDownloader codec a s.downloader r.1.downloader := by
  cases a with
  | setImage view resource =>
      cases h
      left
      unfold setImage
      cases resource with
      | none => rfl
      | some url => exact retrieveImage_downloader _ true _
  | runIoQueue ok =>
      obtain ⟨t, ht, rfl⟩ := Option.map_eq_some_iff.mp h
      left
      rw [runIoQueue] at ht
      split at ht
      · cases ht
      · split at ht <;> cases ht <;> rfl
      · cases ht
        rfl
      · cases ht
        rfl
  | runMainQueue =>
      replace h : s.runMainQueue = some r := h
      rw [runMainQueue] at h
      split at h
      · cases h
      · rename_i block rest hqueue
        cases block with
        | retrieved retrieval image =>
            cases h
            unfold retrieved
            split
            · exact .inl rfl
            · exact .inr ⟨.downloadImage retrieval.url retrieval.view, _, rfl, _, _, rfl⟩
            · exact .inl rfl
        | downloaded view url answer =>
            cases h
            exact .inl (downloaded_downloader _ true view url answer)
  | downloader action =>
      obtain ⟨d, outputs, hstep, -, rfl⟩ := stepDownloader_cases h
      rw [callbacks_downloader]
      exact .inr ⟨action, outputs, hstep, rfl⟩
  | evict key =>
      cases h
      exact .inl rfl
  | removeFile name =>
      cases h
      exact .inl rfl

end Downloader

/-- Without rejected responses the downloader stays as it should be, and keeps what it has
downloaded. -/
theorem StepsDownloader.linked {a : Action View URL} {d d' : ImageDownloader URL View}
    (h : StepsDownloader codec a d d') (ha : a.Valid) (hd : d.Linked) (hcalm : d.AllCalm) :
    d'.Linked ∧ d'.AllCalm ∧ ImageDownloader.KeepsOver d d' := by
  rcases h with rfl | ⟨action, outputs, hstep, hbelow⟩
  · exact ⟨hd, hcalm, .of_eq rfl⟩
  · have hvalid := ha.below hbelow
    have hask := hcalm.askedWhenOver action
    exact ⟨(hd.follows hask hstep).linked, hcalm.step hd hvalid hstep,
      ImageDownloader.step_keepsOver hstep⟩

theorem StepsDownloader.uncancelled {a : Action View URL} {d d' : ImageDownloader URL View}
    (h : StepsDownloader codec a d d') (ha : ¬ a.Cancels) (hd : d.Linked)
    (hu : d.Uncancelled) : d'.Uncancelled := by
  rcases h with rfl | ⟨action, outputs, hstep, hbelow⟩
  · exact hu
  · exact (hu.step hd (Action.not_cancels_below ha hbelow) hstep).1

/-! ## Every view shows its own poster -/

section Run

variable [DecidableEq View] {files : String → Option (List UInt8)}

/-- The URLs that the views were last given, after an action. -/
def Action.gives (given : View → Option URL) : Action View URL → View → Option URL
  | .setImage view resource => Function.update given view resource
  | _ => given

/-- The URLs that the views were last given. -/
def given (as : List (Action View URL)) : View → Option URL :=
  as.foldl Action.gives fun _ => none

theorem Sound.step {given : View → Option URL}
    (hs : Sound codec files (Downloads codec s.downloader) given s) (hd : s.downloader.Linked)
    (hcalm : s.downloader.AllCalm) {a : Action View URL} (ha : a.Valid)
    {r : KingfisherManager View URL Image × Log View URL Image}
    (h : (machine codec).step s a = some r) :
    Sound codec files (Downloads codec r.1.downloader) (a.gives given) r.1 := by
  obtain ⟨-, -, hkeeps⟩ := (step_downloader h).linked ha hd hcalm
  have hmono := hs.mono (Downloads.mono hkeeps)
  cases a with
  | setImage view resource =>
      cases h
      exact hmono.setImage view resource
  | runIoQueue ok =>
      obtain ⟨t, ht, rfl⟩ := Option.map_eq_some_iff.mp h
      exact hmono.runIoQueue ht
  | runMainQueue => exact hmono.runMainQueue h
  | downloader action =>
      obtain ⟨d, outputs, hstep, -, rfl⟩ := stepDownloader_cases h
      refine Sound.callbacks ?_ (hmono.withDownloader d)
      rw [callbacks_downloader]
      exact hd.fromDownloads_step hstep
  | evict key =>
      cases h
      refine ⟨hs.webURL, hs.views, ?_, hs.disk, hs.ioQueue, hs.mainQueue⟩
      intro url image h
      dsimp only at h
      rw [Function.update_apply] at h
      split at h
      · cases h
      · exact hs.memoryCache url image h
  | removeFile name =>
      cases h
      refine ⟨hs.webURL, hs.views, hs.memoryCache, ?_, hs.ioQueue, hs.mainQueue⟩
      intro url data image h himage
      dsimp only at h
      rw [Function.update_apply] at h
      split at h
      · cases h
      · exact hs.disk url data image h himage

/-- **Every view shows its own poster**: an image that a view shows is a poster of the URL that
the view was last given, however late other images come. -/
theorem shows_own_poster {as : List (Action View URL)} {log : Log View URL Image}
    (hrun : (machine codec).run { disk := files } as = some (s, log)) (hvalid : ∀ a ∈ as, a.Valid)
    {view : View} {image : Image} (hshows : (s.views view).image = .downloaded image) :
    ∃ url, given as view = some url ∧
      Poster codec files (Downloads codec s.downloader) url image := by
  have hinv : Sound codec files (Downloads codec s.downloader) (given as) s ∧
      s.downloader.Linked ∧ s.downloader.AllCalm := by
    refine Machine.run_induction (G := fun _ a => a.Valid)
      (P := fun as s _ => Sound codec files (Downloads codec s.downloader) (given as) s ∧
        s.downloader.Linked ∧ s.downloader.AllCalm) ?_ ?_ hrun (Machine.guarded_of_forall _ hvalid)
    · exact ⟨sound_initial codec files _, ImageDownloader.linked_initial,
        ImageDownloader.allCalm_initial⟩
    · rintro as s log a t o - ⟨hs, hd, hcalm⟩ ha hstep
      obtain ⟨hd', hcalm', -⟩ := (step_downloader hstep).linked ha hd hcalm
      refine ⟨?_, hd', hcalm'⟩
      rw [given, List.foldl_append]
      exact hs.step hd hcalm ha hstep
  exact hinv.1.views view image hshows

/-- Images as they are sent, and files named by their URLs. -/
def sampleCodec : Codec String (List UInt8) where
  image := some
  data _ original := some original
  cacheFileName url := url

/-- A view is given a poster and then another; the first of them is the last to be downloaded. -/
def sampleReused : List (Action Nat String) :=
  [.setImage 0 (some "first"), .setImage 0 (some "second"), .runIoQueue true, .runIoQueue true,
    .runIoQueue true, .runIoQueue true, .runMainQueue, .runMainQueue,
    .downloader (.didReceiveData 1 [2]), .downloader (.didComplete 1 false),
    .downloader (.beginProcess 1), .downloader (.finishProcess 1),
    .downloader (.didReceiveData 0 [1]), .downloader (.didComplete 0 false),
    .downloader (.beginProcess 0), .downloader (.finishProcess 0), .runMainQueue, .runMainQueue,
    .runIoQueue true, .runIoQueue true]

theorem shows_own_poster_sampleReused : ∃ s log,
    (machine sampleCodec).run {} sampleReused = some (s, log) ∧
      Poster sampleCodec (fun _ => none) (Downloads sampleCodec s.downloader) "second" [2] := by
  have hvalid : ∀ a ∈ sampleReused, a.Valid := by
    simp [sampleReused, Action.Valid, ImageDownloader.Action.Valid]
  have hrun : ∃ s log, (machine sampleCodec).run {} sampleReused = some (s, log) ∧
      (s.views 0).image = .downloaded [2] := ⟨_, _, rfl, rfl⟩
  obtain ⟨s, log, hrun, hshows⟩ := hrun
  obtain ⟨url, hgiven, hposter⟩ := shows_own_poster hrun hvalid hshows
  cases hgiven
  exact ⟨s, log, hrun, hposter⟩

end Run

/-! ## Every loading ends once -/

/-- One view, if it is about the URL. -/
def single (view : View) (url' url : URL) : List View := if url' = url then [view] else []

/-- The view whose loading of a URL begins. -/
def begins (url : URL) : Loading View URL Image → List View
  | .began view url' => single view url' url
  | .ended _ _ _ => []

/-- The view whose loading of a URL ends. -/
def ends (url : URL) : Loading View URL Image → List View
  | .began _ _ => []
  | .ended view url' _ => single view url' url

/-- The views whose loading of a URL has begun, in order. -/
def began (url : URL) (log : Log View URL Image) : List View := log.flatMap (begins url)

/-- The views whose loading of a URL has ended, in order. -/
def ended (url : URL) (log : Log View URL Image) : List View := log.flatMap (ends url)

/-- The view whose loading of a URL a block of `ioQueue` goes on with. -/
def ioOwes (url : URL) : IoBlock View URL Image → List View
  | .store _ _ _ => []
  | .retrieve retrieval | .retrieved retrieval _ => single retrieval.view retrieval.url url

/-- The view whose loading of a URL a block of the main queue goes on with. -/
def mainOwes (url : URL) : MainBlock View URL Image → List View
  | .retrieved retrieval _ => single retrieval.view retrieval.url url
  | .downloaded view url' _ => single view url' url

/-- The views whose loading of a URL goes on: on the queues, and in the downloader. -/
def pending (s : KingfisherManager View URL Image) (url : URL) : List View :=
  s.ioQueue.flatMap (ioOwes url) ++ s.mainQueue.flatMap (mainOwes url) ++
    (s.downloader.waiting url ++ s.downloader.queued url)

theorem pending_store (s : KingfisherManager View URL Image) (image : Image) (data : List UInt8)
    (key url : URL) : (s.store image data key).pending url = s.pending url := by
  rw [pending, store]
  dsimp only
  rw [List.flatMap_append, List.flatMap_singleton, ioOwes, List.append_nil]
  rfl

section Count

variable [DecidableEq View]

/-- Some views are due: of these and of those that were pending, each ends or is pending. -/
def Takes (due : URL → List View) (s : KingfisherManager View URL Image)
    (r : KingfisherManager View URL Image × Log View URL Image) : Prop :=
  ∀ url view, (due url).count view + (began url r.2).count view + (s.pending url).count view =
    (ended url r.2).count view + (r.1.pending url).count view

theorem Takes.congr {due due' : URL → List View}
    {r : KingfisherManager View URL Image × Log View URL Image} (h : Takes due s r)
    (heq : ∀ url, due url = due' url) : Takes due' s r := fun url view => heq url ▸ h url view

theorem takes_complete (s : KingfisherManager View URL Image) (view : View) (url : URL)
    (image : Option Image) : Takes (single view url) s (s.complete view url image) := by
  intro url' view'
  have hended : ended url' (s.complete view url image).2 = single view url url' :=
    List.flatMap_singleton ..
  rw [hended]
  rfl

theorem takes_withIoBlock (s : KingfisherManager View URL Image) (block : IoBlock View URL Image) :
    Takes (fun url => ioOwes url block) s ({ s with ioQueue := s.ioQueue ++ [block] }, []) := by
  intro url view
  simp only [pending, began, ended, List.flatMap_nil, List.flatMap_append, List.flatMap_singleton,
    List.count_append, List.count_nil]
  omega

theorem takes_withMainBlock (s : KingfisherManager View URL Image)
    (block : MainBlock View URL Image) :
    Takes (fun url => mainOwes url block) s
      ({ s with mainQueue := s.mainQueue ++ [block] }, []) := by
  intro url view
  simp only [pending, began, ended, List.flatMap_nil, List.flatMap_append, List.flatMap_singleton,
    List.count_append, List.count_nil]
  omega

theorem takes_retrieveImage (s : KingfisherManager View URL Image) (onMain : Bool)
    (retrieval : Retrieval View URL) :
    Takes (single retrieval.view retrieval.url) s (s.retrieveImage onMain retrieval) := by
  rw [retrieveImage]
  split
  · cases onMain with
    | true => exact s.takes_complete retrieval.view retrieval.url _
    | false => exact s.takes_withMainBlock (.retrieved retrieval _)
  · exact s.takes_withIoBlock (.retrieve retrieval)

theorem takes_downloaded (s : KingfisherManager View URL Image) (onMain : Bool) (view : View)
    (url : URL) (answer : Answer Image) :
    Takes (single view url) s (s.downloaded onMain view url answer) := by
  unfold downloaded
  split
  · exact s.takes_retrieveImage onMain ⟨view, url, .notModified⟩
  · exact s.takes_complete view url none
  · rename_i image data
    intro url' view'
    rw [← s.pending_store image data url url']
    exact (s.store image data url).takes_complete view url (some image) url' view'

/-- What the callbacks of the downloader were called for, ends or is pending. -/
theorem takes_callbacks (onMain : Bool) (outputs : ImageDownloader.Log URL View Image) :
    ∀ s : KingfisherManager View URL Image,
      Takes (fun url => answered url outputs) s (callbacks onMain s outputs) := by
  induction outputs with
  | nil => exact fun s url view => by simp [callbacks, began, ended]
  | cons output outputs ih =>
      intro s url view
      have houtput : Takes (fun url => answered url [output]) s (s.callback onMain output) := by
        unfold callback
        split
        · intro url view
          simp [began, ended]
        · rename_i url' view'
          refine (s.takes_downloaded onMain view' url' _).congr fun url => ?_
          exact (answered_map_answered url url' [view'] _).symm
        · rename_i url' view' answer _
          split
          · refine (s.takes_downloaded onMain view' url' answer).congr fun url => ?_
            exact (answered_map_answered url url' [view'] _).symm
          · refine (s.takes_withMainBlock (.downloaded view' url' answer)).congr fun url => ?_
            exact (answered_map_answered url url' [view'] _).symm
      have hhead := houtput url view
      have htail := ih (s.callback onMain output).1 url view
      have hanswered : answered url (output :: outputs) =
          answered url [output] ++ answered url outputs := answered_append url [output] outputs
      simp only [hanswered, callbacks, began, ended, List.flatMap_append, List.count_append]
        at hhead htail ⊢
      omega

/-- A step of the downloader: what is asked for, or was pending there, is answered or pending. -/
theorem count_downloader {d d' : ImageDownloader URL View} (hd : d.Linked) (hcalm : d.AllCalm)
    {process : List UInt8 → Option Image} {action : ImageDownloader.Action URL View}
    {outputs : ImageDownloader.Log URL View Image}
    (h : (ImageDownloader.machine process).step d action = some (d', outputs)) (url : URL)
    (view : View) :
    (action.asker url).toList.count view + (d.waiting url ++ d.queued url).count view =
      (answered url outputs).count view + (d'.waiting url ++ d'.queued url).count view := by
  obtain ⟨-, as, has⟩ := hd.follows (hcalm.askedWhenOver action) h
  have hwaiting := congrArg (List.count view) (SingleFlight.waiting_append_joined has url)
  have hqueued := (ImageDownloader.step_queued h url).count_eq view
  simp only [List.count_append] at hwaiting hqueued ⊢
  omega

theorem takes_downloadAndCacheImage (hd : s.downloader.Linked) (hcalm : s.downloader.AllCalm)
    (view : View) (url : URL) :
    Takes (single view url) s (s.downloadAndCacheImage view url, []) := by
  intro url' view'
  have hstep : (ImageDownloader.machine fun _ => none).step s.downloader (.downloadImage url view) =
      some ((s.downloader.setup url view : _ × ImageDownloader.Log URL View Image).1,
        (s.downloader.setup url view).2) := rfl
  have hcount := count_downloader hd hcalm hstep url' view'
  have hanswered : answered url' (s.downloader.setup url view :
      _ × ImageDownloader.Log URL View Image).2 = [] := by
    rcases s.downloader.setup_cases Image url view with ⟨-, t, heq, -⟩ | heq
    · rw [heq]
      rfl
    · rw [heq]
      rfl
  have hasker : ((ImageDownloader.Action.downloadImage url view).asker url').toList =
      single view url url' := by
    rw [ImageDownloader.Action.asker, single]
    split <;> rfl
  rw [hanswered, hasker] at hcount
  simp only [pending, downloadAndCacheImage, began, ended, List.flatMap_nil, List.count_append,
    List.count_nil] at hcount ⊢
  omega

theorem takes_retrieved (hd : s.downloader.Linked) (hcalm : s.downloader.AllCalm)
    (retrieval : Retrieval View URL) (image : Option Image) :
    Takes (single retrieval.view retrieval.url) s (s.retrieved retrieval image) := by
  unfold retrieved
  split
  · exact s.takes_complete retrieval.view retrieval.url _
  · exact takes_downloadAndCacheImage hd hcalm retrieval.view retrieval.url
  · exact s.takes_complete retrieval.view retrieval.url none

theorem takes_setImage (s : KingfisherManager View URL Image) (view : View)
    (resource : Option URL) (placeholder : PosterImage Image) :
    Takes (fun _ => []) s (s.setImage view resource placeholder) := by
  intro url' view'
  unfold setImage
  cases resource with
  | none => rfl
  | some url =>
      dsimp only
      set s' : KingfisherManager View URL Image := { s with
        views := Function.update s.views view ((s.views view).setImage (some url) placeholder) }
      have htakes := s'.takes_retrieveImage true ⟨view, url, .tryToRetrieve⟩ url' view'
      have hpending : s'.pending url' = s.pending url' := rfl
      rw [hpending] at htakes
      simp only [began, ended, List.flatMap_cons, List.count_append, List.count_nil, begins,
        ends] at htakes ⊢
      omega

theorem takes_runIoQueue {ok : Bool} {t : KingfisherManager View URL Image}
    (h : s.runIoQueue codec ok = some t) : Takes (fun _ => []) s (t, []) := by
  intro url view
  rw [runIoQueue] at h
  split at h
  · cases h
  · rename_i image original key rest hqueue
    split at h <;> cases h <;> simp [pending, hqueue, ioOwes, began, ended]
  · rename_i retrieval rest hqueue
    cases h
    simp [pending, hqueue, ioOwes, began, ended]
  · rename_i retrieval image rest hqueue
    cases h
    simp [pending, hqueue, ioOwes, mainOwes, began, ended]
    omega

theorem takes_runMainQueue (hd : s.downloader.Linked) (hcalm : s.downloader.AllCalm)
    {r : KingfisherManager View URL Image × Log View URL Image} (h : s.runMainQueue = some r) :
    Takes (fun _ => []) s r := by
  rw [runMainQueue] at h
  split at h
  · cases h
  · rename_i block rest hqueue
    intro url view
    have hpending : s.pending url =
        s.ioQueue.flatMap (ioOwes url) ++ (mainOwes url block ++ rest.flatMap (mainOwes url)) ++
          (s.downloader.waiting url ++ s.downloader.queued url) := by
      rw [pending, hqueue, List.flatMap_cons]
    -- what the block does, from the state without it
    have hrest : (mainOwes url block).count view + (began url r.2).count view +
        (({ s with mainQueue := rest } : KingfisherManager View URL Image).pending url).count view =
          (ended url r.2).count view + (r.1.pending url).count view := by
      cases block with
      | retrieved retrieval image =>
          cases h
          exact takes_retrieved (s := { s with mainQueue := rest }) hd hcalm retrieval image
            url view
      | downloaded view' url' answer =>
          cases h
          exact takes_downloaded { s with mainQueue := rest } true view' url' answer url view
    rw [hpending]
    simp only [pending, List.count_append, List.count_nil] at hrest ⊢
    omega

/-- **A step**: the views whose loading begins, or was pending, end or are pending. -/
theorem takes_step (hd : s.downloader.Linked) (hcalm : s.downloader.AllCalm)
    {a : Action View URL} {r : KingfisherManager View URL Image × Log View URL Image}
    (h : (machine codec).step s a = some r) : Takes (fun _ => []) s r := by
  have hquiet : ∀ {t : KingfisherManager View URL Image}, t.pending = s.pending →
      Takes (fun _ => []) s (t, []) := by
    intro t hpending url view
    rw [hpending]
    simp [began, ended]
  cases a with
  | setImage view resource =>
      cases h
      exact s.takes_setImage view resource _
  | runIoQueue ok =>
      obtain ⟨t, ht, rfl⟩ := Option.map_eq_some_iff.mp h
      exact takes_runIoQueue ht
  | runMainQueue => exact takes_runMainQueue hd hcalm h
  | downloader action =>
      obtain ⟨d, outputs, hstep, hne, rfl⟩ := stepDownloader_cases h
      intro url view
      have hcount := count_downloader hd hcalm hstep url view
      have hasker : action.asker url = none := by
        cases action with
        | downloadImage url' view' => exact absurd rfl (hne url' view')
        | _ => rfl
      have htakes := takes_callbacks (onMain action) outputs { s with downloader := d } url view
      rw [hasker] at hcount
      simp only [pending, Option.toList_none, List.count_append, List.count_nil] at hcount htakes ⊢
      omega
  | evict key =>
      cases h
      exact hquiet rfl
  | removeFile name =>
      cases h
      exact hquiet rfl

/-- **Every loading ends once**: the views whose loading of a URL began are, each as often,
those whose loading has ended and those with a block on a queue or a callback in the
downloader.  Without cancellations, when the queues are empty and the downloads of the URL
are over, all have ended. -/
theorem loading_ends_once {files : String → Option (List UInt8)} {as : List (Action View URL)}
    {log : Log View URL Image} (hrun : (machine codec).run { disk := files } as = some (s, log))
    (hvalid : ∀ a ∈ as, a.Valid) (url : URL) :
    (began url log).Perm (ended url log ++ s.pending url) ∧
      ((∀ a ∈ as, ¬ a.Cancels) → s.ioQueue = [] → s.mainQueue = [] →
        (∀ task ∈ s.downloader.tasks, task.url = url → task.state = .finished) →
          (began url log).Perm (ended url log)) := by
  have hinv : (s.downloader.Linked ∧ s.downloader.AllCalm) ∧ ∀ view, (began url log).count view =
      (ended url log).count view + (s.pending url).count view := by
    refine Machine.run_induction (G := fun _ a => a.Valid)
      (P := fun _ s log => (s.downloader.Linked ∧ s.downloader.AllCalm) ∧
        ∀ view, (began url log).count view =
          (ended url log).count view + (s.pending url).count view)
      ⟨⟨ImageDownloader.linked_initial, ImageDownloader.allCalm_initial⟩, fun _ => rfl⟩ ?_ hrun
      (Machine.guarded_of_forall _ hvalid)
    rintro as s log a t o - ⟨⟨hd, hcalm⟩, hcount⟩ ha hstep
    obtain ⟨hd', hcalm', -⟩ := (step_downloader hstep).linked ha hd hcalm
    refine ⟨⟨hd', hcalm'⟩, fun view => ?_⟩
    have hlog := hcount view
    have htakes := takes_step hd hcalm hstep url view
    simp only [began, ended, List.flatMap_append, List.count_append, List.count_nil]
      at hlog htakes ⊢
    omega
  obtain ⟨⟨hd, -⟩, hcount⟩ := hinv
  have hperm : (began url log).Perm (ended url log ++ s.pending url) := by
    rw [List.perm_iff_count]
    intro view
    rw [List.count_append]
    exact hcount view
  refine ⟨hperm, fun hcancels hio hmain hover => ?_⟩
  have hu : s.downloader.Linked ∧ s.downloader.AllCalm ∧ s.downloader.Uncancelled := by
    refine Machine.run_induction (G := fun _ a => a.Valid ∧ ¬ a.Cancels)
      (P := fun _ s _ => s.downloader.Linked ∧ s.downloader.AllCalm ∧ s.downloader.Uncancelled)
      ?_ ?_ hrun (Machine.guarded_of_forall _ fun a ha => ⟨hvalid a ha, hcancels a ha⟩)
    · exact ⟨ImageDownloader.linked_initial, ⟨ImageDownloader.allCalm_initial,
        ⟨rfl, fun h => nomatch h⟩⟩⟩
    · rintro as s log a t o - ⟨hd, hcalm, hu⟩ ⟨ha, hcancels⟩ hstep
      obtain ⟨hd', hcalm', -⟩ := (step_downloader hstep).linked ha hd hcalm
      exact ⟨hd', hcalm', (step_downloader hstep).uncancelled hcancels hd hu⟩
  have hqueued : s.downloader.queued url = [] := by
    rw [ImageDownloader.queued, hu.2.2.cancelQueue]
    rfl
  rw [pending, hio, hmain, hd.waiting_of_over hover, hqueued] at hperm
  simpa using hperm

/-- The view was given two posters: the first was loaded for nothing, and still only once. -/
theorem loading_ends_once_sampleReused : ∃ s log,
    (machine sampleCodec).run {} sampleReused = some (s, log) ∧ [0].Perm (ended "first" log) := by
  have hvalid : ∀ a ∈ sampleReused, a.Valid := by
    simp [sampleReused, Action.Valid, ImageDownloader.Action.Valid]
  have hcancels : ∀ a ∈ sampleReused, ¬ a.Cancels := by
    simp [sampleReused, Action.Cancels, ImageDownloader.Action.Cancels]
  have hrun : ∃ s log, (machine sampleCodec).run {} sampleReused = some (s, log) ∧
      s.ioQueue = [] ∧ s.mainQueue = [] ∧
        (∀ task ∈ s.downloader.tasks, task.url = "first" → task.state = .finished) ∧
          began "first" log = [0] :=
    ⟨_, _, rfl, rfl, rfl, by decide, rfl⟩
  obtain ⟨s, log, hrun, hio, hmain, hover, hbegan⟩ := hrun
  refine ⟨s, log, hrun, ?_⟩
  rw [← hbegan]
  exact (loading_ends_once hrun hvalid "first").2 hcancels hio hmain hover

end Count

end KingfisherManager

end MagnetX.Kingfisher
