import RenditionPipeline.Api.Handlers
import RenditionPipeline.Lifecycle.Fresh
import RenditionPipeline.Races.Decisions
import RenditionPipeline.Runs.Cleanup
import RenditionPipeline.System.Playback

/-!
# What the API answers

Six of its exceptions have a handler of their own; any other is an internal error. In a state
that the system reaches the rows are such that the services raise nothing else, whatever the
storage and the broker do, in all but two cases. The resolution in the address of a playlist is
checked as a part of a key and not as a part of the request, so that an address with `..` in
its place is an internal error for a video that is done; and a filename is accepted with a
character that the database does not hold (`RenditionPipeline.internal_error_iff`).

A request that is answered with an error has written nothing, but for the failure of an upload
whose storage call has failed (`RenditionPipeline.failed_request_writes`).
-/

namespace RenditionPipeline

/-! ### One session to a video -/

/-- **Every move keeps sessions and work together.** -/
theorem Move.sessionsState_all {scope : Scope} {w w' : World} {e : List Settlement}
    (hl : w.db.Linked) (hm : Move scope w e w') (h : SessionsState w.db) :
    SessionsState w'.db := by
  have hrest : ∀ {w' e}, Move { scope with endsUpload := fun _ => False } w e w' →
      SessionsState w'.db := fun hm => hm.sessionsState (fun _ hends => hends) hl h
  cases hm with
  | heartbeat now hget hrun => exact hrest (.heartbeat now hget hrun)
  | settled hscope hs => exact hrest (.settled hscope hs)
  | outbox hscope hmessages => exact hrest (.outbox hscope hmessages)
  | created hvideo hsession huploading hpath hactive hvid =>
    exact hrest (.created hvideo hsession huploading hpath hactive hvid)
  | completed _ hopen hc =>
    obtain ⟨hs, hvid, -⟩ := hopen.get?_session
    exact h.completed (hopen.renditionsOf_eq_nil hl) hs hvid hc
  | @uploadFailed _ sid _ _ error _ hopen =>
    refine h.setSession (fun _ => ⟨rfl, rfl⟩) (show UploadStatus.failed ≠ .completed by decide)
      fun s hs => ?_
    obtain ⟨hget, -, hactive⟩ := hopen.get?_session
    rw [hget, Option.some.injEq] at hs
    rw [← hs, hactive]
    decide
  | @aborted videoId sid _ _ now _ hopen =>
    have hvideo : SessionsState (w.db.setVideo videoId abortedVideo) :=
      h.of_same rfl (fun _ => Table.get?_modify_eq_none_iff) fun _ => Iff.rfl
    refine hvideo.setSession (fun _ => ⟨rfl, rfl⟩)
      (show UploadStatus.aborted ≠ .completed by decide) fun s hs => ?_
    obtain ⟨hget, -, hactive⟩ := hopen.get?_session
    replace hs : w.db.uploadSessions.get? sid = some s := hs
    rw [hget, Option.some.injEq] at hs
    rw [← hs, hactive]
    decide

theorem ReachableSystem.sessionsState {guard : System → Action → Prop} {s : System}
    (h : ReachableSystem guard s) : SessionsState s.db :=
  h.invariant_db SessionsState.empty fun _ _ _ hl hi hm => hm.sessionsState_all hl hi

/-- A video with one session has one active session at most. -/
theorem OneSession.activeSessions_cases {db : Db} (h : OneSession db) (videoId : UUID) :
    activeSessions db videoId = [] ∨ ∃ p, activeSessions db videoId = [p] := by
  have hnodup := Table.nodup_keys_select db.uploadSessions
    fun _ session => session.videoId = videoId && session.status = .active
  rcases hl : activeSessions db videoId with _ | ⟨p, _ | ⟨q, rest⟩⟩
  · exact Or.inl rfl
  · exact Or.inr ⟨p, rfl⟩
  · obtain ⟨hp, hpv, -⟩ := mem_activeSessions.mp (show (p.1, p.2) ∈ activeSessions db videoId by
      rw [hl]; exact List.mem_cons_self)
    obtain ⟨hq, hqv, -⟩ := mem_activeSessions.mp (show (q.1, q.2) ∈ activeSessions db videoId by
      rw [hl]; exact List.mem_cons_of_mem _ List.mem_cons_self)
    have he := h.unique p.1 q.1 p.2 q.2 hp hq (hpv.trans hqv.symm)
    rw [show db.uploadSessions.select _ = p :: q :: rest from hl] at hnodup
    simp [he] at hnodup

/-! ### Exceptions with a handler -/

/-- The exceptions of the services that have a handler of their own. -/
def Raised.isHandled : Raised → Bool
  | .videoUploadConflictError _ | .videoUploadValidationError _ | .videoUploadStorageError _
  | .videoPlaybackNotReadyError _ | .videoPlaybackStorageError _ => true
  | _ => false

/-- **An internal error** is the answer to any other exception. -/
theorem exceptionResponse_status_eq_500_iff {e : ApiException} :
    (exceptionResponse e).status = 500 ↔ ∃ error, e = .raised error ∧ error.isHandled = false := by
  cases e with
  | videoNotFoundError message => simp [exceptionResponse, errorResponse]
  | requestValidationError => simp [exceptionResponse, errorResponse]
  | raised error => cases error <;> simp [exceptionResponse, errorResponse, Raised.isHandled]

/-- A computation that raises, if anything, an exception with a handler. -/
def RaisesHandled {α : Type} (x : Except Raised α) : Prop := ∀ e, x = .error e → e.isHandled = true

namespace RaisesHandled

variable {α β : Type}

theorem ok (a : α) : RaisesHandled (.ok a) := by
  rintro e ⟨⟩

theorem error {e : Raised} (h : e.isHandled = true) :
    RaisesHandled (.error e : Except Raised α) := by
  rintro e' ⟨⟩
  exact h

theorem bind {x : Except Raised α} {f : α → Except Raised β} (hx : RaisesHandled x)
    (hf : ∀ a, x = .ok a → RaisesHandled (f a)) : RaisesHandled (x >>= f) := by
  intro e h
  cases x with
  | error e' =>
    obtain rfl : e' = e := Except.error.inj h
    exact hx e' rfl
  | ok a => exact hf a rfl e h

theorem map {x : Except Raised α} (hx : RaisesHandled x) (f : α → β) :
    RaisesHandled (x.map f) := by
  intro e h
  cases x with
  | error e' => exact hx e (by rw [← Except.error.inj h])
  | ok a => cases h

theorem not_unhandled {x : Except Raised α} (h : RaisesHandled x) :
    ¬ ∃ e, x = .error e ∧ e.isHandled = false := by
  rintro ⟨e, he, hno⟩
  rw [h e he] at hno
  cases hno

end RaisesHandled

/-- What a handler raises is what its service raises. -/
theorem foundOr404_eq_raised {α : Type} {content : α → ApiContent} {x : Except Raised (Option α)}
    {error : Raised} : foundOr404 content x = .error (.raised error) ↔ x = .error error := by
  rcases x with e | _ | a
  · simp [foundOr404]
  · simp [foundOr404]
  · simp [foundOr404]

theorem map_eq_error_iff {α β : Type} {x : Except Raised α} {f : α → β} {error : Raised} :
    x.map f = .error error ↔ x = .error error := by
  cases x <;> simp [Except.map]

theorem RaisesHandled.foundOr404 {α : Type} {x : Except Raised (Option α)} (h : RaisesHandled x)
    (content : α → ApiContent) : ¬ ∃ error, foundOr404 content x = .error (.raised error) ∧
      error.isHandled = false := by
  simp only [foundOr404_eq_raised]
  exact h.not_unhandled

section Services

variable {db : Db} {videoId : UUID} {video : Video}

theorem validatePlayableVideo_raises (video : Video) (renditions : List (UUID × Rendition)) :
    RaisesHandled (validatePlayableVideo video renditions) := by
  rw [validatePlayableVideo]
  split_ifs
  · exact .error rfl
  · exact .error rfl
  · exact .error rfl
  · exact .ok ()

theorem getVideoPlayback_raises (sign : String → Option String) (url : String) (now : Timestamp)
    (expires : ℤ) : RaisesHandled (getVideoPlayback db sign videoId url now expires) := by
  rw [getVideoPlayback]
  split
  · exact .ok _
  · refine (validatePlayableVideo_raises _ _).bind fun _ _ => ?_
    split
    · exact .error rfl
    · exact .ok _

theorem OneSession.getActiveUploadSession_raises (h : OneSession db) (videoId : UUID)
    (video : Video) : RaisesHandled (getActiveUploadSession db videoId video) := by
  rw [getActiveUploadSession]
  split
  · exact .error rfl
  · rcases h.activeSessions_cases videoId with hnil | ⟨p, hp⟩
    · rw [hnil]
      exact .error rfl
    · rw [hp]
      exact .ok p

theorem OneSession.refreshVideoUpload_raises (h : OneSession db) (partCount : ℤ)
    (upload : Option MultipartUpload) :
    RaisesHandled (refreshVideoUpload db videoId partCount upload) := by
  unfold refreshVideoUpload
  split
  · exact .ok _
  · refine (h.getActiveUploadSession_raises _ _).bind ?_
    rintro ⟨sid, session⟩ _
    dsimp only
    split
    · exact .error rfl
    · cases upload with
      | none => exact .error rfl
      | some upload => exact .ok _

theorem OneSession.abortVideoUpload_raises (h : OneSession db) (abortOk : Bool) (now : Timestamp) :
    RaisesHandled (abortVideoUpload db videoId abortOk now).2 := by
  rw [abortVideoUpload]
  split
  · exact .ok _
  · rename_i video hv
    split
    · rename_i e he
      exact .error (h.getActiveUploadSession_raises videoId video e he)
    · dsimp only
      split
      · exact .ok _
      · exact .error rfl

/-- **A creation** raises the error of a row that its columns do not hold, or what the storage
raises. -/
theorem createVideoUpload_eq_unhandled_iff {bucket filename contentType : String}
    {sizeBytes partCount : ℤ} {upload : String → Option MultipartUpload} {ids : IdStream}
    {now : Timestamp} (hpart : IsKeyPart filename) (hvideo : db.videos.get? (ids 0) = none)
    (hsession : db.uploadSessions.get? (ids 1) = none)
    (hupload : NewVideoFits bucket filename contentType sizeBytes → ∀ key answer,
      buildSourceKey (ids 0) filename = .ok key → upload key = some answer →
        NewSessionFits answer partCount) :
    (∃ error, (createVideoUpload db bucket filename contentType sizeBytes partCount upload ids
        now).2 = .error error ∧ error.isHandled = false) ↔
      ¬NewVideoFits bucket filename contentType sizeBytes := by
  rw [createVideoUpload]
  by_cases hfits : NewVideoFits bucket filename contentType sizeBytes
  swap
  · rw [if_pos hfits]
    exact iff_of_true ⟨_, rfl, rfl⟩ hfits
  obtain ⟨key, hkey⟩ : ∃ key, buildSourceKey (ids 0) filename = .ok key :=
    ⟨_, buildSourceKey_eq_ok_iff.mpr ⟨hpart, rfl⟩⟩
  rw [if_neg (not_not.mpr hfits), hkey]
  refine iff_of_false (RaisesHandled.not_unhandled ?_) (not_not.mpr hfits)
  dsimp only
  split
  · exact .error rfl
  · rename_i answer hanswer
    rw [if_neg (not_not.mpr (hupload hfits key answer hkey hanswer))]
    simp only [Table.insert?, dif_pos hvideo, dif_pos hsession]
    exact .ok _

/-- A completion raises no error of the database, as its rows have new ids. -/
theorem OneSession.completeVideoUpload_raises (h : OneSession db) (hl : db.Linked)
    (settings : Settings) (answers : CompletionAnswers) (parts : List CompletedUploadPart)
    {ids : IdStream} (hfresh : FreshIds db ids) (uploadedAt completedAt : Timestamp) :
    RaisesHandled (completeVideoUpload settings db answers videoId parts ids uploadedAt
      completedAt).2 := by
  rw [completeVideoUpload]
  split
  · exact .ok _
  rename_i video hv
  split
  · rename_i e he
    exact .error (h.getActiveUploadSession_raises videoId video e he)
  rename_i sid session hactive
  split
  · rename_i e he
    rw [validateCompletedUploadParts] at he
    split at he
    · obtain rfl := Except.error.inj he
      exact .error rfl
    · cases he
  split
  · rename_i e _
    obtain ⟨message, he⟩ := completionFailure_raises answers e
    rw [he]
    exact .error rfl
  · have hopen := getActiveUploadSession_eq_ok hv hactive
    obtain ⟨⟨db', messages⟩, hfinish⟩ : ∃ result, finishCompletion settings db videoId sid ids
        uploadedAt completedAt = .ok result :=
      finishCompletion_of_fresh hl (hopen.renditionsOf_eq_nil hl) hfresh uploadedAt completedAt
    rw [hfinish]
    exact .ok _

/-- The signing of a playlist's segments raises only what the storage raises. -/
theorem rewriteVariantLines_raises (sign : String → Option String) {resolution : String}
    {lines : List String} (h : ∀ line ∈ lines, isCopiedLine line = false → ∃ key,
      buildHlsSegmentKey videoId resolution (Text.removePrefix line "segments/") = .ok key) :
    RaisesHandled (rewriteVariantLines sign videoId resolution lines).2 := by
  induction lines with
  | nil => exact .ok _
  | cons line lines ih =>
    have hrest := ih fun l hl => h l (List.mem_cons_of_mem _ hl)
    rw [rewriteVariantLines]
    by_cases hcopied : isCopiedLine line = true
    · rw [if_pos hcopied]
      exact hrest.map _
    · rw [if_neg hcopied]
      obtain ⟨key, hkey⟩ := h line List.mem_cons_self (by simpa using hcopied)
      rw [hkey]
      dsimp only
      split
      · exact .error rfl
      · exact hrest.map _

theorem validatePlayableVideo_eq_ok {renditions : List (UUID × Rendition)}
    (h : validatePlayableVideo video renditions = .ok ()) : video.status = .done := by
  rw [validatePlayableVideo] at h
  by_contra hne
  rw [if_pos hne] at h
  cases h

end Services

/-! ### The playlists in a state of the system -/

section Playlists

variable {s : System} {videoId : UUID} {video : Video}

/-- The keys have one way to fail, which is not an error of a request. -/
theorem buildHlsPlaylistKey_eq_error {resolution : String} {e : Raised}
    (h : buildHlsPlaylistKey videoId resolution = .error e) :
    ¬ IsKeyPart resolution ∧ e.isHandled = false := by
  refine ⟨fun hpart => ?_, ?_⟩
  · rw [buildHlsPlaylistKey_eq_ok_iff.mpr ⟨hpart, rfl⟩] at h
    cases h
  · rw [buildHlsPlaylistKey, validateKeyPart] at h
    split at h
    · obtain rfl := Except.error.inj h
      rfl
    · cases h

/-- The playlist of a video that is done has been uploaded. -/
theorem path_of_done (h : ReachableSystem EncoderListsSegments s)
    (hv : s.db.videos.get? videoId = some video) (hdone : video.status = .done) :
    video.playbackPath = some (buildHlsMasterKey videoId) ∧
      (s.bucket (buildHlsMasterKey videoId)).isSome := by
  have hrows := doneRows h.coherent h.idleNotDone h.stocked hv hdone
  obtain ⟨hpath, playlist, -, hstored⟩ := (h.stocked.served.published.published videoId video hv
    hrows.ne_nil hrows.idle hrows.noneFailed).2 hrows.completed_ne_nil
  exact ⟨hpath, Option.isSome_iff_exists.mpr ⟨_, hstored⟩⟩

/-- A video that is done passes the check of the playback service. -/
theorem valid_of_done (h : ReachableSystem EncoderListsSegments s)
    (hv : s.db.videos.get? videoId = some video) (hdone : video.status = .done) :
    validatePlayableVideo video (s.db.renditionsOf videoId) = .ok () := by
  have hrows := doneRows h.coherent h.idleNotDone h.stocked hv hdone
  rw [validatePlayableVideo, if_neg (not_not.mpr hdone), (path_of_done h hv hdone).1,
    if_neg (Option.some_ne_none _), if_neg hrows.completed_ne_nil]

/-- The renditions that are done have entries that are read back. -/
theorem isEntry_of_done (h : ReachableSystem EncoderListsSegments s) :
    ∀ r ∈ doneResolutions (s.db.renditionsOf videoId), IsEntry r :=
  fun r hr => isEntry_of_ladder r ((h.linked.resolutions videoId).2 r hr)

/-- The master playlist of a video that is done lists its renditions that are done, of which
there is one. -/
theorem master_of_done (h : ReachableSystem EncoderListsSegments s)
    (hv : s.db.videos.get? videoId = some video) (hdone : video.status = .done)
    (url : String → String) :
    doneResolutions (s.db.renditionsOf videoId) ≠ [] ∧
      buildPlaybackMasterPlaylist s.db videoId url = .ok (some (Text.unlines (masterHeader ++
        variantLines url (doneResolutions (s.db.renditionsOf videoId))))) := by
  have hrows := doneRows h.coherent h.idleNotDone h.stocked hv hdone
  have hentry : ∀ r ∈ doneResolutions (s.db.renditionsOf videoId), IsEntry r :=
    isEntry_of_done h
  have hresolutions : (completedRenditions (s.db.renditionsOf videoId)).map
      MasterPlaylistRendition.resolution = doneResolutions (s.db.renditionsOf videoId) := by
    rw [hrows.completed, map_resolution_doneRenditions]
  rw [← hresolutions] at hentry ⊢
  exact ⟨by simpa using hrows.completed_ne_nil, buildPlaybackMasterPlaylist_eq_ok hv
    (valid_of_done h hv hdone) hrows.completed_ne_nil hrows.key hentry⟩

theorem buildPlaybackMasterPlaylist_raises (h : ReachableSystem EncoderListsSegments s)
    (url : String → String) : RaisesHandled (buildPlaybackMasterPlaylist s.db videoId url) := by
  cases hv : s.db.videos.get? videoId with
  | none =>
    rw [buildPlaybackMasterPlaylist, hv]
    exact .ok _
  | some video =>
    cases hvalid : validatePlayableVideo video (s.db.renditionsOf videoId) with
    | error e =>
      rw [buildPlaybackMasterPlaylist, hv]
      simp only [hvalid]
      exact .error (validatePlayableVideo_raises _ _ e hvalid)
    | ok u =>
      rw [(master_of_done h hv (validatePlayableVideo_eq_ok hvalid) url).2]
      exact .ok _

/-- **The playlist of a rendition**: an exception without a handler is that of a resolution
which is no part of a key, for a video that is done. -/
theorem buildPlaybackVariantPlaylist_eq_unhandled_iff
    (h : ReachableSystem EncoderListsSegments s) {download sign : String → Option String}
    (hdownload : ∀ key text, download key = some text → s.bucket.downloadText key = some text)
    (resolution : String) :
    (∃ error, (buildPlaybackVariantPlaylist s.db download sign videoId resolution).2 =
        .error error ∧ error.isHandled = false) ↔
      ∃ video, s.db.videos.get? videoId = some video ∧ video.status = .done ∧
        ¬ IsKeyPart resolution := by
  rw [buildPlaybackVariantPlaylist]
  cases hv : s.db.videos.get? videoId with
  | none => exact iff_of_false (RaisesHandled.ok _).not_unhandled (by simp)
  | some video =>
    dsimp only
    cases hvalid : validatePlayableVideo video (s.db.renditionsOf videoId) with
    | error e =>
      refine iff_of_false
        (RaisesHandled.error (validatePlayableVideo_raises _ _ e hvalid)).not_unhandled ?_
      rintro ⟨video', hv', hdone, -⟩
      obtain rfl := Option.some.inj hv'
      rw [valid_of_done h hv hdone] at hvalid
      cases hvalid
    | ok u =>
      have hdone := validatePlayableVideo_eq_ok hvalid
      dsimp only
      cases hkey : buildHlsPlaylistKey videoId resolution with
      | error e =>
        obtain ⟨hpart, he⟩ := buildHlsPlaylistKey_eq_error hkey
        exact iff_of_true ⟨e, rfl, he⟩ ⟨video, rfl, hdone, hpart⟩
      | ok key =>
        have hpart := (buildHlsPlaylistKey_eq_ok_iff.mp hkey).1
        have hno : ¬ ∃ video', some video = some video' ∧ video'.status = .done ∧
            ¬ IsKeyPart resolution := by
          rintro ⟨_, _, _, hno⟩
          exact hno hpart
        refine iff_of_false (RaisesHandled.not_unhandled ?_) hno
        dsimp only
        split
        · split
          · exact .error rfl
          · rename_i playlist hplaylist
            -- what is downloaded is a playlist of the bucket, and those are whole
            obtain ⟨object, hobject, hbody⟩ :=
              Option.bind_eq_some_iff.mp (hdownload key _ hplaylist)
            obtain ⟨playlist', hbody', huris⟩ := h.stocked.whole _ _ key object hkey hobject
            obtain rfl := Option.some.inj (hbody.symm.trans hbody')
            refine (rewriteVariantLines_raises sign fun line hline hcopied => ?_).map _
            simp only [isCopiedLine, Bool.or_eq_false_iff, decide_eq_false_iff_not] at hcopied
            obtain ⟨segmentKey, hsegment, -⟩ := huris line
              (List.mem_filter.mpr ⟨hline, by simp [hcopied.1.1, hcopied.1.2]⟩)
            exact ⟨segmentKey, hsegment⟩
        · exact .error rfl

end Playlists

/-! ### Internal errors -/

namespace VideoRequest

variable {settings : ApiSettings} {o : Outside} {db : Db} {request : VideoRequest}

theorem response_status_eq_500_iff {answer : Except ApiException ApiContent} :
    (request.response answer).status = 500 ↔
      ∃ error, answer = .error (.raised error) ∧ error.isHandled = false := by
  cases answer with
  | ok content => cases request <;> simp [response, successStatus]
  | error e => simp [response, exceptionResponse_status_eq_500_iff]

theorem respond_status_eq_500_iff : (request.respond settings o db).2.status = 500 ↔
    request.Valid settings ∧ ∃ error, (request.handle settings o db).2 = .error (.raised error) ∧
      error.isHandled = false := by
  rw [respond]
  by_cases hvalid : request.Valid settings
  · rw [if_pos hvalid, and_iff_right hvalid]
    exact response_status_eq_500_iff
  · rw [if_neg hvalid]
    exact iff_of_false (show (422 : ℕ) ≠ 500 by decide) fun h => hvalid h.1

end VideoRequest

/-! ### What the columns hold -/

theorem UUID.fitsString_str (u : UUID) : FitsString u.str := by
  have hdigit : ∀ k < 16, Nat.digitChar k ≠ '\x00' := by decide
  rw [FitsString, toList_str, List.mem_map]
  rintro ⟨place, -, hplace⟩
  cases place with
  | none => exact absurd (show '-' = '\x00' from hplace) (by decide)
  | some k => exact hdigit _ (u.nibble_lt k) hplace

theorem fitsString_buildSourceKey {videoId : UUID} {filename key : String}
    (h : FitsString filename) (hkey : buildSourceKey videoId filename = .ok key) :
    FitsString key := by
  have htext : FitsString "source/" ∧ FitsString "/" := by decide
  obtain ⟨-, rfl⟩ := buildSourceKey_eq_ok_iff.mp hkey
  simp only [FitsString, String.toList_append, List.mem_append, not_or] at h htext ⊢
  exact ⟨⟨⟨htext.1, videoId.fitsString_str⟩, htext.2⟩, h⟩

/-- **What the settings and the storage say** fits the columns that it is written to. -/
structure Outside.Fits (o : Outside) (settings : ApiSettings) : Prop where
  bucket : FitsString o.bucket
  contentType : ∀ text ∈ settings.uploads.allowedContentTypes, FitsString text
  sizeBytes : settings.uploads.uploadMaxSizeBytes < 2 ^ 63
  create : ∀ key answer, FitsString key → o.create key = some answer →
    FitsString answer.bucket ∧ FitsString answer.key ∧ FitsString answer.uploadId

section Fits

variable {settings : ApiSettings} {o : Outside} {payload : VideoCreateRequest}

/-- Of all that is written for an accepted creation, the filename alone may not fit. -/
theorem Outside.Fits.newVideoFits_iff (h : o.Fits settings)
    (haccepts : payload.Accepts settings.uploads) :
    NewVideoFits o.bucket payload.filename payload.contentType payload.sizeBytes ↔
      FitsString payload.filename := by
  have htype : payload.contentType ∈ settings.uploads.allowedContentTypes := by
    have hvalid := haccepts.contentType
    rw [validateContentType] at hvalid
    by_contra hno
    rw [if_neg hno] at hvalid
    cases hvalid
  have hsize : FitsBigInteger payload.sizeBytes := by
    have hvalid := haccepts.sizeBytes
    have hpos := haccepts.sizeBytes_pos
    have hmax := h.sizeBytes
    rw [validateSizeBytes] at hvalid
    split at hvalid
    · cases hvalid
    · exact ⟨by omega, by omega⟩
  exact ⟨fun hfits => hfits.2.1, fun hname => ⟨h.bucket, hname, h.contentType _ htype, hsize⟩⟩

theorem Outside.Fits.newSessionFits (h : o.Fits settings)
    (haccepts : payload.Accepts settings.uploads) (hname : FitsString payload.filename)
    {videoId : UUID} {key : String} {answer : MultipartUpload}
    (hkey : buildSourceKey videoId payload.filename = .ok key)
    (hanswer : o.create key = some answer) : NewSessionFits answer payload.partCount := by
  obtain ⟨hbucket, hkeyFits, hid⟩ :=
    h.create key answer (fitsString_buildSourceKey hname hkey) hanswer
  refine ⟨hbucket, hkeyFits, hid, ?_⟩
  have hvalid := haccepts.partCount
  have hpos := haccepts.partCount_pos
  have hmax := settings.uploads.uploadMaxPartCount_le
  rw [validatePartCount] at hvalid
  split at hvalid
  · cases hvalid
  · exact ⟨by omega, by omega⟩

end Fits

/-- **The two internal errors.** In every state that the system reaches, a request about a
video is answered with an internal error just when it asks for the playlist of a resolution
that is no part of a key, and the video is done, or when it creates a video with a filename
that the database does not hold. -/
theorem internal_error_iff {s : System} (h : ReachableSystem EncoderListsSegments s)
    (settings : ApiSettings) {o : Outside} (hfresh : FreshIds s.db o.ids)
    (hvideo : s.db.videos.get? (o.ids 0) = none)
    (hsession : s.db.uploadSessions.get? (o.ids 1) = none)
    (hdownload : ∀ key text, o.download key = some text → s.bucket.downloadText key = some text)
    (hfits : o.Fits settings) (request : VideoRequest) :
    (request.respond settings o s.db).2.status = 500 ↔
      (∃ videoId resolution video, request = .getPlaybackVariantPlaylist videoId resolution ∧
        s.db.videos.get? videoId = some video ∧ video.status = .done ∧ ¬ IsKeyPart resolution) ∨
      ∃ payload, request = .createVideo payload ∧ payload.Accepts settings.uploads ∧
        ¬ FitsString payload.filename := by
  have hone := h.sessionsState.toOneSession
  have hother : (∀ videoId resolution, request ≠ .getPlaybackVariantPlaylist videoId resolution) →
      (∀ payload, request ≠ .createVideo payload) →
      ¬ ((∃ videoId resolution video, request = .getPlaybackVariantPlaylist videoId resolution ∧
        s.db.videos.get? videoId = some video ∧ video.status = .done ∧ ¬ IsKeyPart resolution) ∨
      ∃ payload, request = .createVideo payload ∧ payload.Accepts settings.uploads ∧
        ¬ FitsString payload.filename) := by
    rintro hvariant hcreate (⟨videoId, resolution, _, he, _⟩ | ⟨payload, he, _⟩)
    · exact hvariant videoId resolution he
    · exact hcreate payload he
  rw [VideoRequest.respond_status_eq_500_iff]
  cases request with
  | createVideo payload =>
    simp only [VideoRequest.handle, foundOr404_eq_raised, map_eq_error_iff]
    constructor
    · rintro ⟨haccepts, hraised⟩
      refine Or.inr ⟨payload, rfl, haccepts, fun hname => ?_⟩
      refine (createVideoUpload_eq_unhandled_iff haccepts.isKeyPart hvideo hsession ?_).mp hraised
        ((hfits.newVideoFits_iff haccepts).mpr hname)
      exact fun _ _ _ hkey hanswer => hfits.newSessionFits haccepts hname hkey hanswer
    · rintro (⟨_, _, _, ⟨⟩, _⟩ | ⟨_, ⟨⟩, haccepts, hname⟩)
      have hno := mt (hfits.newVideoFits_iff haccepts).mp hname
      exact ⟨haccepts, (createVideoUpload_eq_unhandled_iff haccepts.isKeyPart hvideo hsession
        fun hyes => absurd hyes hno).mpr hno⟩
  | getVideo videoId =>
    exact iff_of_false (fun h => (RaisesHandled.ok _).foundOr404 _ h.2) (hother nofun nofun)
  | getPlayback videoId =>
    exact iff_of_false (fun h => (getVideoPlayback_raises _ _ _ _).foundOr404 _ h.2)
      (hother nofun nofun)
  | getPlaybackMasterPlaylist videoId =>
    exact iff_of_false (fun hr => (buildPlaybackMasterPlaylist_raises h _).foundOr404 _ hr.2)
      (hother nofun nofun)
  | getPlaybackVariantPlaylist videoId resolution =>
    rw [and_iff_right (show (VideoRequest.getPlaybackVariantPlaylist videoId resolution).Valid
      settings from trivial)]
    simp only [VideoRequest.handle, foundOr404_eq_raised]
    rw [buildPlaybackVariantPlaylist_eq_unhandled_iff h hdownload]
    constructor
    · rintro ⟨video, hv⟩
      exact Or.inl ⟨videoId, resolution, video, rfl, hv⟩
    · rintro (⟨_, _, video, ⟨rfl, rfl⟩, hv⟩ | ⟨_, ⟨⟩, _⟩)
      exact ⟨video, hv⟩
  | completeUpload videoId parts =>
    refine iff_of_false (fun ⟨_, hraised⟩ => ?_) (hother nofun nofun)
    have hcomplete : RaisesHandled (completeVideoUpload settings.worker s.db o.completion videoId
        parts o.ids o.uploadedAt o.completedAt).2 :=
      hone.completeVideoUpload_raises h.linked _ _ _ hfresh _ _
    rw [VideoRequest.handle] at hraised
    split at hraised
    · simp at hraised
    · rename_i result hresult
      rw [hresult] at hcomplete
      exact hcomplete.foundOr404 _ hraised
  | refreshUpload videoId partCount =>
    exact iff_of_false (fun h => (hone.refreshVideoUpload_raises _ _).foundOr404 _ h.2)
      (hother nofun nofun)
  | abortUpload videoId =>
    exact iff_of_false (fun h => (hone.abortVideoUpload_raises _ _).foundOr404 _ h.2)
      (hother nofun nofun)

/-- What a request gets from outside while nothing works, with the given ids. -/
def sampleOutside (ids : IdStream) : Outside where
  bucket := "media"
  create := fun _ => none
  refresh := none
  completion := ⟨false, none, false⟩
  abortOk := false
  sign := fun _ => none
  download := fun _ => none
  publisher := ⟨some "refused", fun _ => .error "refused", none⟩
  locked := fun _ => false
  ids := ids
  uploadedAt := 0
  completedAt := 0
  now := 0

/-- The settings of the handlers, as they are by default. -/
def sampleApiSettings : ApiSettings := ⟨sampleSettings, .default, 3600⟩

/-- A small video is done, and its playlist is asked for at `..`. -/
theorem internal_error_iff_dots : ∃ s, ReachableSystem EncoderListsSegments s ∧
    ((VideoRequest.getPlaybackVariantPlaylist (sampleId 0) "..").respond sampleApiSettings
      (sampleOutside fun n => sampleId (100 + n)) s.db).2.status = 500 := by
  obtain ⟨s, hs⟩ : ∃ s, guardedRun System.step EncoderListsSegments System.start
      (sampleUpload.map Action.request ++ samplePublishing ++ sampleEncoding ++
        (List.replicate 5 sampleSkipping).flatten) = some s := ⟨_, rfl⟩
  have hstart : ReachableSystem EncoderListsSegments System.start := Reaches.start rfl
  have hreach := hstart.of_guardedRun hs
  have hids : FreshIds s.db (sampleOutside fun n => sampleId (100 + n)).ids := by
    obtain rfl := Option.some.inj hs
    refine ⟨fun j k hj hk he => ?_, by decide, by decide, by decide⟩
    have hval := congrArg (fun u : UUID => (u.int : ℕ)) he
    rw [completionIds] at hj hk
    simp only [sampleOutside, sampleId, Fin.ofNat] at hval
    rw [Nat.mod_eq_of_lt (by omega), Nat.mod_eq_of_lt (by omega)] at hval
    omega
  have hdownload : ∀ key text, (sampleOutside fun n => sampleId (100 + n)).download key =
      some text → s.bucket.downloadText key = some text := by
    rintro key text ⟨⟩
  have hfits : (sampleOutside fun n => sampleId (100 + n)).Fits sampleApiSettings :=
    ⟨by decide, by decide, by decide, fun _ _ _ hnone => by cases hnone⟩
  obtain rfl := Option.some.inj hs
  exact ⟨_, hreach, (internal_error_iff hreach sampleApiSettings hids rfl rfl hdownload hfits
    _).mpr (Or.inl ⟨sampleId 0, "..", _, rfl, rfl, rfl, by decide⟩)⟩

end RenditionPipeline
