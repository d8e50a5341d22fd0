import RenditionPipeline.Api.Answers
import RenditionPipeline.Api.Routes
import RenditionPipeline.System.Finished

/-!
# Following the links of a video

The detail page asks for the playback of a video once it is done and hands the address that
it gets to a player, which fetches the master playlist, picks one of its addresses, fetches
the playlist of this rendition, and picks a segment. Each fetch is a new request, made at any
time later: rows may have been read by other sessions, messages may have been delivered
again, and the addresses of an earlier answer are followed in the state of a later one. None
of them leads nowhere (`RenditionPipeline.links_lead_to_segments`).
-/

namespace RenditionPipeline

open Routes

/-! ### The addresses of a playlist -/

section Addresses

variable {bucket : Bucket} {sign : String → Option String} {videoId : UUID} {resolution : String}

/-- The addresses of the lines that are joined. -/
theorem mediaUris_unlines {lines : List String} (hne : lines ≠ [])
    (h : ∀ line ∈ lines, Text.IsLine line) : mediaUris (Text.unlines lines) =
      lines.filter fun line => line ≠ "" && !Text.startsWith line "#" := by
  rw [mediaUris, Text.splitLines_unlines hne h]

/-- The name of a segment that is stored is no address of its own. -/
theorem SegmentStored.isCopiedLine {line : String}
    (h : SegmentStored bucket videoId resolution (Text.removePrefix line "segments/"))
    (hne : line ≠ "") (hcomment : Text.startsWith line "#" = false) :
    isCopiedLine line = false := by
  obtain ⟨key, hkey, -⟩ := h
  obtain ⟨-, ⟨-, -, -, hslash, -⟩, -⟩ := buildHlsSegmentKey_eq_ok_iff.mp hkey
  have hcount : line.toList.count '/' ≤ 1 := by
    rw [Text.removePrefix] at hslash
    split at hslash
    · rename_i hstart
      obtain ⟨tail, htail⟩ := Text.startsWith_iff.mp hstart
      rw [String.toList_ofList, ← htail, List.drop_left] at hslash
      rw [← htail, List.count_append, List.count_eq_zero.mpr hslash]
      decide
    · rw [List.count_eq_zero.mpr hslash]
      exact Nat.zero_le _
  have hcontains : Text.contains line "://" = false := by
    by_contra hc
    have hinfix : "://".toList <:+: line.toList := by simpa [Text.contains] using hc
    have htwo := hinfix.sublist.count_le '/'
    have hcount' : "://".toList.count '/' = 2 := by decide
    omega
  simp [RenditionPipeline.isCopiedLine, hne, hcomment, hcontains]

/-- **The addresses of the playlist that is served** are those that have been signed for
segments in the bucket. -/
theorem mediaUris_rewritten {lines out : List String} (hlines : ∀ line ∈ lines, Text.IsLine line)
    (hstored : ∀ line ∈ lines, line ≠ "" → Text.startsWith line "#" = false →
      SegmentStored bucket videoId resolution (Text.removePrefix line "segments/"))
    (hsign : ∀ key url, sign key = some url → Text.IsLine url)
    (hout : (rewriteVariantLines sign videoId resolution lines).2 = .ok out) :
    ∀ address ∈ mediaUris (Text.unlines out), ∃ key, sign key = some address ∧
      (bucket key).isSome := by
  have hserved := variantLine_of_rewriteVariantLines hout
  -- each line that is served is copied from one of the playlist, or signed for it
  have hline : ∀ served ∈ out, ∃ line ∈ lines, VariantLine sign videoId resolution line served := by
    intro served hs
    obtain ⟨i, hi, rfl⟩ := List.mem_iff_getElem.mp hs
    have hi' : i < lines.length := hserved.length_eq ▸ hi
    exact ⟨lines[i], List.getElem_mem hi', hserved.get hi' hi⟩
  have hisLine : ∀ served ∈ out, Text.IsLine served := by
    intro served hs
    obtain ⟨line, hl, hv⟩ := hline served hs
    rw [VariantLine] at hv
    split at hv
    · rw [hv]
      exact hlines line hl
    · exact hsign _ _ hv
  intro address haddress
  have hne : out ≠ [] := by
    rintro rfl
    have hnone : mediaUris (Text.unlines []) = [] := by decide
    rw [hnone] at haddress
    cases haddress
  rw [mediaUris_unlines hne hisLine, List.mem_filter] at haddress
  obtain ⟨hmem, huri⟩ := haddress
  obtain ⟨line, hl, hv⟩ := hline address hmem
  have haddress : address ≠ "" ∧ Text.startsWith address "#" = false := by simpa using huri
  by_cases hcopied : isCopiedLine line = true
  · -- what is copied is an address of its own, and no segment is one
    rw [VariantLine, if_pos (isCopiedLine_iff.mp hcopied)] at hv
    rw [hv] at haddress
    rw [(hstored line hl haddress.1 haddress.2).isCopiedLine haddress.1 haddress.2] at hcopied
    cases hcopied
  · rw [VariantLine, if_neg fun hc => hcopied (isCopiedLine_iff.mpr hc)] at hv
    simp only [isCopiedLine_iff, not_or, Bool.not_eq_true] at hcopied
    obtain ⟨key, hkey, hsome⟩ := hstored line hl hcopied.1 hcopied.2.1
    obtain ⟨-, -, rfl⟩ := buildHlsSegmentKey_eq_ok_iff.mp hkey
    exact ⟨_, hv, hsome⟩

/-- The addresses of a master playlist are those of its renditions, in order. -/
theorem mediaUris_master {url : String → String} {resolutions : List String}
    (h : ∀ r ∈ resolutions, Text.IsLine (url r) ∧ url r ≠ "" ∧
      Text.startsWith (url r) "#" = false) :
    mediaUris (Text.unlines (masterHeader ++ variantLines url resolutions)) =
      resolutions.map url := by
  have hlines : ∀ line ∈ masterHeader ++ variantLines url resolutions, Text.IsLine line := by
    intro line hl
    rcases List.mem_append.mp hl with hl | hl
    · exact isLine_masterHeader line hl
    · obtain ⟨r, hr, hl⟩ := List.mem_flatMap.mp hl
      rcases List.mem_cons.mp hl with rfl | hl
      · exact isLine_streamInf _
      · rw [List.mem_singleton.mp hl]
        exact (h r hr).1
  rw [mediaUris_unlines (List.append_ne_nil_of_left_ne_nil (by decide) _) hlines,
    List.filter_append]
  have hheader : masterHeader.filter (fun line => line ≠ "" && !Text.startsWith line "#") = [] := by
    decide
  rw [hheader, List.nil_append]
  clear hlines
  induction resolutions with
  | nil => rfl
  | cons r resolutions ih =>
    have hr := h r List.mem_cons_self
    have hrest := ih fun q hq => h q (List.mem_cons_of_mem _ hq)
    have htag := startsWith_streamInf (getHlsPreset r)
    rw [variantLines, List.flatMap_cons, List.cons_append, List.cons_append, List.nil_append,
      List.filter_cons_of_neg (by simp [htag]), List.filter_cons_of_pos (by simp [hr.2]),
      List.map_cons]
    exact congrArg (url r :: ·) hrest

end Addresses

/-! ### The links -/

section Links

variable {β : Type} {framework : Framework β} {videoId : UUID} {resolution : String}

theorem UUID.isLine_str (u : UUID) : Text.IsLine u.str := by
  have hdigit : ∀ k < 16, Text.isLineBoundary (Nat.digitChar k) = false := by decide
  intro c hc
  rw [UUID.toList_str, List.mem_map] at hc
  obtain ⟨place, -, rfl⟩ := hc
  cases place with
  | none => exact (by decide : Text.isLineBoundary '-' = false)
  | some k => exact hdigit _ (u.nibble_lt k)

theorem UUID.isSegment_str (u : UUID) : IsSegment u.str := by
  refine ⟨fun hempty => ?_, u.slash_not_mem_str⟩
  have hlength := congrArg (fun text : String => text.toList.length) hempty
  simp only [UUID.toList_str, List.length_map] at hlength
  exact absurd hlength (by decide)

/-- **The address of a request** is routed to its handler. -/
theorem dispatch_follow (hdispatches : Dispatches ownPath framework.dispatcher)
    (hparse : ∀ u : UUID, framework.parseUuid u.str = some u) {request : VideoRequest}
    {path : String} (hvideo : request.videoId? = some videoId)
    (hcall : (request.call videoId.str) = ApiClient.follow path)
    (hsegments : ∀ text ∈ request.args videoId.str, IsSegment text) (hend : EndsVisibly path) :
    framework.dispatch app (ApiClient.follow path) = some request := by
  refine Framework.dispatch_of_call hdispatches (List.Perm.refl _) hend hsegments ?_
    (by rw [hcall]; rfl) (by rw [hcall]; rfl) (by rw [hcall]; exact nofun)
  intro v hv
  rw [hvideo, Option.some.injEq] at hv
  rw [hparse, hv]

section Paths

variable (hdispatches : Dispatches ownPath framework.dispatcher)
  (hparse : ∀ u : UUID, framework.parseUuid u.str = some u)

include hdispatches hparse

theorem dispatch_playbackPath (videoId : UUID) :
    framework.dispatch app (ApiClient.follow (playbackPath videoId)) =
      some (.getPlayback videoId) := by
  refine dispatch_follow hdispatches hparse rfl ?_ ?_ ?_
  · simp [VideoRequest.call, ApiClient.getVideoPlayback, ApiClient.follow, playbackPath, apiBaseUrl]
  · simpa [VideoRequest.args] using videoId.isSegment_str
  · exact EndsVisibly.append _ (by decide) (by decide)

theorem dispatch_masterPlaylistPath (videoId : UUID) :
    framework.dispatch app (ApiClient.follow (masterPlaylistPath videoId)) =
      some (.getPlaybackMasterPlaylist videoId) := by
  refine dispatch_follow hdispatches hparse rfl ?_ ?_ ?_
  · simp [VideoRequest.call, ApiClient.follow, masterPlaylistPath, playbackPath,
      ← String.toList_inj]
  · simpa [VideoRequest.args] using videoId.isSegment_str
  · exact EndsVisibly.append _ (by decide) (by decide)

theorem dispatch_variantPlaylistPath (videoId : UUID) (hr : IsKeyPart resolution) :
    framework.dispatch app (ApiClient.follow (variantPlaylistPath videoId resolution)) =
      some (.getPlaybackVariantPlaylist videoId resolution) := by
  refine dispatch_follow hdispatches hparse rfl ?_ ?_ ?_
  · simp [VideoRequest.call, ApiClient.follow, variantPlaylistPath, playbackPath,
      ← String.toList_inj]
  · intro text htext
    rcases List.mem_cons.mp htext with rfl | htext
    · exact videoId.isSegment_str
    · rw [List.mem_singleton.mp htext]
      exact ⟨hr.1, hr.2.2.2.1⟩
  · exact EndsVisibly.append _ (by decide) (by decide)

end Paths

/-- The address of a rendition is a line of its own in a playlist. -/
theorem isUri_variantPlaylistPath (videoId : UUID) (hr : IsEntry resolution) :
    Text.IsLine (variantPlaylistPath videoId resolution) ∧
      variantPlaylistPath videoId resolution ≠ "" ∧
      Text.startsWith (variantPlaylistPath videoId resolution) "#" = false := by
  have htext : Text.IsLine "/api/v1/videos/" ∧ Text.IsLine "/playback" ∧ Text.IsLine "/" ∧
      Text.IsLine "/index.m3u8" := by decide
  obtain ⟨hroot, hplayback, hslash, hindex⟩ := htext
  refine ⟨?_, ?_, ?_⟩
  · rw [variantPlaylistPath, playbackPath]
    exact ((((hroot.append videoId.isLine_str).append hplayback).append hslash).append
      hr.2.1).append hindex
  · rw [ne_eq, ← String.toList_inj]
    simp [variantPlaylistPath, playbackPath]
  · simp [Text.startsWith, variantPlaylistPath, playbackPath, List.isPrefixOf]

end Links

/-! ### Following them -/

/-- **The storage works**: what is stored is downloaded as it is and signed, and an address
is one line. -/
structure Outside.Serves (o : Outside) (bucket : Bucket) : Prop where
  download : o.download = bucket.downloadText
  sign : ∀ key, (bucket key).isSome → (o.sign key).isSome
  isLine : ∀ key url, o.sign key = some url → Text.IsLine url

/-- The states that a state may go on to. -/
abbrev System.Later (s s' : System) : Prop :=
  Reaches System.step EncoderListsSegments (· = s) s'

/-- The answer to a request for an address. -/
def answer {β : Type} (framework : Framework β) (settings : ApiSettings) (o : Outside) (db : Db)
    (path : String) : Option ApiResponse :=
  (framework.dispatch app (ApiClient.follow path)).map fun request =>
    (request.respond settings o db).2

/-- What is answered at the address of a valid request. -/
theorem answer_eq {β : Type} {framework : Framework β} {settings : ApiSettings} {o : Outside}
    {db : Db} {path : String} {request : VideoRequest}
    (h : framework.dispatch app (ApiClient.follow path) = some request)
    (hvalid : request.Valid settings) : answer framework settings o db path =
      some (request.response (request.handle settings o db).2) := by
  rw [answer, h, Option.map_some, VideoRequest.respond, if_pos hvalid]

section Following

variable {s s' : System} {videoId : UUID} {video : Video}

/-- A video that is done stays as it is. -/
theorem ReachableSystem.done_later (h : ReachableSystem EncoderListsSegments s)
    (hv : s.db.videos.get? videoId = some video) (hdone : video.status = .done)
    (hlater : s.Later s') : ReachableSystem EncoderListsSegments s' ∧
      SameVideo videoId s.db s'.db := by
  refine Reaches.invariant (I := fun t => ReachableSystem EncoderListsSegments t ∧
    SameVideo videoId s.db t.db) ?_ ?_ hlater
  · rintro _ rfl
    exact ⟨h, SameVideo.refl videoId _⟩
  · rintro t a t' ⟨ht, hsame⟩ hg hstep
    have hfinished := (h.finished_of_done hv hdone).of_sameVideo hsame
    exact ⟨Reaches.step ht hg hstep, hsame.trans (System.sameVideo_of_step ht hfinished hstep)⟩

theorem getVideoPlayback_masterPlaylistUrl {db : Db} {sign : String → Option String} {url : String}
    {now : Timestamp} {expires : ℤ} {playback : VideoPlayback}
    (h : getVideoPlayback db sign videoId url now expires = .ok (some playback)) :
    playback.streaming.masterPlaylistUrl = url := by
  rw [getVideoPlayback] at h
  split at h
  · cases h
  · rename_i video _
    cases hvalid : validatePlayableVideo video (db.renditionsOf videoId) with
    | error e => simp [hvalid, bind, Except.bind] at h
    | ok u =>
      simp only [hvalid, bind, Except.bind] at h
      split at h
      · cases h
      · obtain rfl := Option.some.inj (Except.ok.inj h)
        rfl

section Answers

variable {β : Type} {framework : Framework β} {settings : ApiSettings} {o : Outside}

/-- The playback of a video that is done. -/
theorem answer_playback (h : ReachableSystem EncoderListsSegments s)
    (hv : s.db.videos.get? videoId = some video) (hdone : video.status = .done)
    (ho : o.Serves s.bucket) (hdispatches : Dispatches ownPath framework.dispatcher)
    (hparse : ∀ u : UUID, framework.parseUuid u.str = some u) :
    ∃ playback, playback.streaming.masterPlaylistUrl = masterPlaylistPath videoId ∧
      answer framework settings o s.db (playbackPath videoId) =
        some ⟨200, .ok (.playback playback)⟩ := by
  obtain ⟨hpath, hstored⟩ := path_of_done h hv hdone
  obtain ⟨signed, hsigned⟩ := Option.isSome_iff_exists.mp (ho.sign _ hstored)
  obtain ⟨playback, hplayback⟩ : ∃ playback, getVideoPlayback s.db o.sign videoId
      (masterPlaylistPath videoId) o.now settings.urlExpiresSeconds = .ok (some playback) := by
    simp only [getVideoPlayback, hv, valid_of_done h hv hdone, hpath, Option.getD_some, hsigned,
      bind, Except.bind, pure, Except.pure]
    exact ⟨_, rfl⟩
  refine ⟨playback, getVideoPlayback_masterPlaylistUrl hplayback, ?_⟩
  rw [answer_eq (dispatch_playbackPath hdispatches hparse videoId) trivial]
  simp only [VideoRequest.handle, hplayback]
  rfl

/-- Its master playlist. -/
theorem answer_master (h : ReachableSystem EncoderListsSegments s)
    (hv : s.db.videos.get? videoId = some video) (hdone : video.status = .done)
    (hdispatches : Dispatches ownPath framework.dispatcher)
    (hparse : ∀ u : UUID, framework.parseUuid u.str = some u) :
    answer framework settings o s.db (masterPlaylistPath videoId) =
      some ⟨200, .ok (.playlist (Text.unlines (masterHeader ++ variantLines
        (variantPlaylistPath videoId) (doneResolutions (s.db.renditionsOf videoId)))))⟩ := by
  rw [answer_eq (dispatch_masterPlaylistPath hdispatches hparse videoId) trivial]
  simp only [VideoRequest.handle, (master_of_done h hv hdone _).2]
  rfl

/-- The playlist of one of its renditions. -/
theorem answer_variant (h : ReachableSystem EncoderListsSegments s)
    (hv : s.db.videos.get? videoId = some video) (hdone : video.status = .done)
    (ho : o.Serves s.bucket) (hdispatches : Dispatches ownPath framework.dispatcher)
    (hparse : ∀ u : UUID, framework.parseUuid u.str = some u) {resolution : String}
    (hr : resolution ∈ doneResolutions (s.db.renditionsOf videoId)) :
    ∃ variant, answer framework settings o s.db (variantPlaylistPath videoId resolution) =
        some ⟨200, .ok (.playlist variant)⟩ ∧
      ∀ address ∈ mediaUris variant, ∃ key, o.sign key = some address ∧
        (s.bucket key).isSome := by
  have hvalid := valid_of_done h hv hdone
  obtain ⟨key, playlist, hkey, hready, hdownload, -⟩ :=
    Playable.variant_of h.stocked hv hvalid hr
  -- the playlist in the bucket is whole
  obtain ⟨object, hobject, hbody⟩ := Option.bind_eq_some_iff.mp hdownload
  obtain ⟨playlist', hbody', huris⟩ := h.stocked.whole _ _ key object hkey hobject
  obtain rfl := Option.some.inj (hbody.symm.trans hbody')
  have hstored : ∀ line ∈ Text.splitLines playlist, line ≠ "" → Text.startsWith line "#" = false →
      SegmentStored s.bucket videoId resolution (Text.removePrefix line "segments/") :=
    fun line hline hne hcomment => huris line (List.mem_filter.mpr ⟨hline, by simp [hne, hcomment]⟩)
  obtain ⟨out, hout⟩ := (rewriteVariantLines_stored o.sign hstored).2 ho.sign
  refine ⟨Text.unlines out, ?_, mediaUris_rewritten (fun _ => Text.isLine_of_mem_splitLines) hstored
    ho.isLine hout⟩
  have hentry := isEntry_of_done h resolution hr
  rw [answer_eq (dispatch_variantPlaylistPath hdispatches hparse videoId hentry.1) trivial]
  simp only [VideoRequest.handle, buildPlaybackVariantPlaylist, hv, hvalid, hkey, hready,
    ho.download, hdownload, hout, if_true]
  rfl

end Answers

/-- **No link leads nowhere.** From the moment a video is done, and for as long as the storage
works: the playback that the API answers names an address, at which it answers a master
playlist that is not empty, and at each address of this playlist it answers the playlist of a
rendition, all of whose addresses have been signed for segments that are in the bucket –
however much time, and whatever steps of the system, lie between the answers. -/
theorem links_lead_to_segments (h : ReachableSystem EncoderListsSegments s)
    (hv : s.db.videos.get? videoId = some video) (hdone : video.status = .done)
    {β : Type} {framework : Framework β} (hdispatches : Dispatches ownPath framework.dispatcher)
    (hparse : ∀ u : UUID, framework.parseUuid u.str = some u) (settings : ApiSettings) :
    ∀ s₁ o₁, s.Later s₁ → Outside.Serves o₁ s₁.bucket → ∃ playback,
      answer framework settings o₁ s₁.db (playbackPath videoId) =
        some ⟨200, .ok (.playback playback)⟩ ∧
      ∀ s₂ o₂, s₁.Later s₂ → Outside.Serves o₂ s₂.bucket → ∃ master,
        answer framework settings o₂ s₂.db playback.streaming.masterPlaylistUrl =
          some ⟨200, .ok (.playlist master)⟩ ∧ mediaUris master ≠ [] ∧
        ∀ uri ∈ mediaUris master, ∀ s₃ o₃, s₂.Later s₃ → Outside.Serves o₃ s₃.bucket →
          ∃ variant, answer framework settings o₃ s₃.db uri = some ⟨200, .ok (.playlist variant)⟩ ∧
            ∀ address ∈ mediaUris variant, ∃ key, o₃.sign key = some address ∧
              (s₃.bucket key).isSome := by
  intro s₁ o₁ h₁ ho₁
  obtain ⟨hr₁, hsame₁⟩ := h.done_later hv hdone h₁
  have hv₁ := hsame₁.video.trans hv
  obtain ⟨playback, hurl, hplayback⟩ := answer_playback hr₁ hv₁ hdone ho₁ hdispatches hparse
  refine ⟨playback, hplayback, fun s₂ o₂ h₂ ho₂ => ?_⟩
  obtain ⟨hr₂, hsame₂⟩ := hr₁.done_later hv₁ hdone h₂
  have hv₂ := hsame₂.video.trans hv₁
  refine ⟨_, by rw [hurl]; exact answer_master hr₂ hv₂ hdone hdispatches hparse, ?_⟩
  rw [mediaUris_master fun r hr => isUri_variantPlaylistPath videoId (isEntry_of_done hr₂ r hr)]
  refine ⟨by simpa using (master_of_done hr₂ hv₂ hdone id).1, fun uri huri s₃ o₃ h₃ ho₃ => ?_⟩
  obtain ⟨resolution, hr, rfl⟩ := List.mem_map.mp huri
  obtain ⟨hr₃, hsame₃⟩ := hr₂.done_later hv₂ hdone h₃
  rw [← hsame₃.renditions] at hr
  exact answer_variant hr₃ (hsame₃.video.trans hv₂) hdone ho₃ hdispatches hparse hr

end Following

/-- What a request gets from outside while the storage works. -/
def servingOutside (bucket : Bucket) : Outside :=
  { sampleOutside sampleId with
    download := bucket.downloadText
    sign := fun _ => some "https://storage/object" }

/-- A framework that reads ids as they are written. -/
noncomputable def readingFramework : Framework Body :=
  { sampleFramework with parseUuid := Function.partialInv UUID.str }

/-- The playlist of a small video is found by its links. -/
theorem links_lead_to_segments_small : ∃ s uri variant,
    ReachableSystem EncoderListsSegments s ∧
    answer readingFramework sampleApiSettings (servingOutside s.bucket) s.db uri =
      some ⟨200, .ok (.playlist variant)⟩ := by
  obtain ⟨s, hs⟩ : ∃ s, guardedRun System.step EncoderListsSegments System.start
      (sampleUpload.map Action.request ++ samplePublishing ++ sampleEncoding ++
        (List.replicate 5 sampleSkipping).flatten) = some s := ⟨_, rfl⟩
  have hstart : ReachableSystem EncoderListsSegments System.start := Reaches.start rfl
  have hreach := hstart.of_guardedRun hs
  obtain ⟨video, hv, hdone⟩ : ∃ video, s.db.videos.get? (sampleId 0) = some video ∧
      video.status = .done := by
    obtain rfl := Option.some.inj hs
    exact ⟨_, rfl, rfl⟩
  have hserves : (servingOutside s.bucket).Serves s.bucket :=
    ⟨rfl, fun _ _ => rfl, fun _ url h => by
      rw [← Option.some.inj (show some "https://storage/object" = some url from h)]
      decide⟩
  have hlater : s.Later s := Reaches.start rfl
  obtain ⟨playback, -, hmaster⟩ := links_lead_to_segments hreach hv hdone
    (show Dispatches ownPath readingFramework.dispatcher from dispatches_firstMatch ownPath)
    (Function.partialInv_left UUID.str_injective) sampleApiSettings s _ hlater hserves
  obtain ⟨master, -, hne, hvariant⟩ := hmaster s _ hlater hserves
  obtain ⟨uri, huri⟩ := List.exists_mem_of_ne_nil _ hne
  obtain ⟨variant, hanswer, -⟩ := hvariant uri huri s _ hlater hserves
  exact ⟨s, uri, variant, hreach, hanswer⟩

end RenditionPipeline
