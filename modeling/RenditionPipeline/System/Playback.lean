import RenditionPipeline.Runs.Playlists
import RenditionPipeline.Services.Rewriting
import RenditionPipeline.System.Playable

/-!
# Playing a video that is done

The playback service reads the rows and the bucket and rewrites two texts. What it
answers for a video that is done is worked out here, function by function, from
what the system keeps (`RenditionPipeline.Stocked`): the master playlist lists each
rendition that is done once and nothing else, and for each of them the variant
endpoint finds its playlist and signs only addresses of segments that have been
uploaded (`RenditionPipeline.done_video_playable`).
-/

namespace RenditionPipeline

/-! ### The renditions of a video that is done -/

/-- **A video is done** just when a rendition is not skipped, and all such are done. -/
theorem deriveVideoStatus_eq_done {statuses : List ProcessingStatus}
    (h : deriveVideoStatus statuses = .done) :
    (∃ s ∈ statuses, s = .done) ∧ ∀ s ∈ statuses, s = .skipped ∨ s = .done := by
  simp only [deriveVideoStatus] at h
  split_ifs at h with hnil hskipped hall
  have hdone : ∀ s ∈ statuses, s = .skipped ∨ s = .done := by
    intro s hs
    by_cases hskip : s = .skipped
    · exact Or.inl hskip
    · refine Or.inr ?_
      have hmem : s ∈ statuses.filter fun s => s ≠ .skipped := by simp [hs, hskip]
      simpa using List.all_eq_true.mp hall s hmem
  obtain ⟨s, hs⟩ := List.exists_mem_of_ne_nil _ hskipped
  obtain ⟨hmem, hskip⟩ : s ∈ statuses ∧ s ≠ .skipped := by simpa using hs
  exact ⟨⟨s, hmem, (hdone s hmem).resolve_left hskip⟩, hdone⟩

/-- The resolutions of the renditions that are done. -/
def doneResolutions (renditions : List (UUID × Rendition)) : List String :=
  (renditions.filter fun p => p.2.status = .done).map fun p => p.2.resolution

theorem mem_doneResolutions {renditions : List (UUID × Rendition)} {resolution : String} :
    resolution ∈ doneResolutions renditions ↔
      ∃ p ∈ renditions, p.2.status = .done ∧ p.2.resolution = resolution := by
  simp [doneResolutions, and_assoc]

theorem map_resolution_doneRenditions (renditions : List (UUID × Rendition)) :
    (doneRenditions renditions).map MasterPlaylistRendition.resolution =
      doneResolutions renditions := by
  rw [doneRenditions, List.map_map]
  rfl

/-- The resolutions of the ladder have entries that are read back. -/
theorem isEntry_of_ladder : ∀ r ∈ defaultHlsRenditions.map EncodingPreset.resolution,
    IsEntry r := by decide

/-- The resolutions of a video are among those of the ladder, each once. -/
theorem Db.Linked.resolutions {db : Db} (hl : db.Linked) (videoId : UUID) :
    (doneResolutions (db.renditionsOf videoId)).Nodup ∧
      ∀ r ∈ doneResolutions (db.renditionsOf videoId),
        r ∈ defaultHlsRenditions.map EncodingPreset.resolution := by
  have hsub : (doneResolutions (db.renditionsOf videoId)).Sublist
      (((entriesOf (db.renditionsOf videoId)).map Prod.snd).map Prod.fst) := by
    rw [entriesOf, List.map_map, List.map_map]
    exact List.filter_sublist.map _
  rcases hl.ladder videoId with hnil | hladder
  · rw [hnil]
    exact ⟨List.nodup_nil, fun _ hr => (List.not_mem_nil hr).elim⟩
  · rw [hladder, List.map_map] at hsub
    exact ⟨hsub.nodup nodup_resolutions, fun r hr => hsub.subset hr⟩

/-! ### The variant playlist of the service -/

/-- **The variant playlist of a whole playlist** is made of signed addresses of
segments that have been uploaded. -/
theorem rewriteVariantLines_stored {bucket : Bucket} {videoId : UUID} {resolution : String}
    (sign : String → Option String) {lines : List String}
    (h : ∀ line ∈ lines, line ≠ "" → Text.startsWith line "#" = false →
      SegmentStored bucket videoId resolution (Text.removePrefix line "segments/")) :
    (∀ key ∈ (rewriteVariantLines sign videoId resolution lines).1, (bucket key).isSome) ∧
      ((∀ key, (bucket key).isSome → (sign key).isSome) →
        ∃ rewritten, (rewriteVariantLines sign videoId resolution lines).2 = .ok rewritten) := by
  induction lines with
  | nil => exact ⟨nofun, fun _ => ⟨[], rfl⟩⟩
  | cons line lines ih =>
    obtain ⟨hkeys, htotal⟩ := ih fun l hl => h l (by simp [hl])
    rw [rewriteVariantLines]
    -- a line that is not copied names a stored segment
    by_cases hcopied : isCopiedLine line = true
    · rw [if_pos hcopied]
      refine ⟨hkeys, fun hsign => ?_⟩
      obtain ⟨rewritten, hr⟩ := htotal hsign
      exact ⟨line :: rewritten, by simp [hr, Except.map]⟩
    · rw [if_neg hcopied]
      simp only [isCopiedLine, Bool.or_eq_true, decide_eq_true_eq, not_or, Bool.not_eq_true]
        at hcopied
      obtain ⟨key, hkey, hstored⟩ := h line (by simp) hcopied.1.1 hcopied.1.2
      simp only [hkey]
      -- where signing fails the rewriting stops, with the keys signed so far
      cases hs : sign key with
      | none =>
        refine ⟨fun k hk => ?_, fun hsign => ?_⟩
        · obtain rfl : k = key := by simpa using hk
          exact hstored
        · have hsome := hsign key hstored
          rw [hs] at hsome
          cases hsome
      | some url =>
        refine ⟨fun k hk => ?_, fun hsign => ?_⟩
        · rcases List.mem_cons.mp hk with rfl | hk
          · exact hstored
          · exact hkeys k hk
        · obtain ⟨rewritten, hr⟩ := htotal hsign
          exact ⟨url :: rewritten, by simp [hr, Except.map]⟩

/-! ### A video that is done -/

/-- `download_bytes` with the decoding of its answer. -/
def Bucket.downloadText (bucket : Bucket) (key : String) : Option String :=
  (bucket key).bind StoredObject.body

/-- **A video can be played**, from its master playlist to its last segment. -/
structure Playable (s : System) (videoId : UUID) (video : Video) : Prop where
  valid : validatePlayableVideo video (s.db.renditionsOf videoId) = .ok ()
  /-- The master playlist that is signed for the playback has been uploaded. -/
  path : video.playbackPath = some (buildHlsMasterKey videoId) ∧
    (s.bucket (buildHlsMasterKey videoId)).isSome
  playback : ∀ sign masterPlaylistUrl now urlExpiresSeconds,
    (sign (buildHlsMasterKey videoId)).isSome → ∃ playback,
      getVideoPlayback s.db sign videoId masterPlaylistUrl now urlExpiresSeconds =
        .ok (some playback)
  /-- The master playlist of the service lists the renditions that are done. -/
  master : ∀ url, buildPlaybackMasterPlaylist s.db videoId url =
    .ok (some (Text.unlines (masterHeader ++
      variantLines url (doneResolutions (s.db.renditionsOf videoId)))))
  once : (doneResolutions (s.db.renditionsOf videoId)).Nodup
  /-- Each of them is ready and has its playlist in the bucket, and every address
  that is signed for it is that of an object that has been uploaded. -/
  variant : ∀ resolution ∈ doneResolutions (s.db.renditionsOf videoId), ∃ key playlist,
    buildHlsPlaylistKey videoId resolution = .ok key ∧
    isVariantReady (s.db.renditionsOf videoId) resolution key = true ∧
    s.bucket.downloadText key = some playlist ∧
    ∀ sign,
      (∀ signed ∈ (buildPlaybackVariantPlaylist s.db s.bucket.downloadText sign videoId
        resolution).1, (s.bucket signed).isSome) ∧
      ((∀ key, (s.bucket key).isSome → (sign key).isSome) → ∃ text,
        (buildPlaybackVariantPlaylist s.db s.bucket.downloadText sign videoId resolution).2 =
          .ok (some text))

section Done

variable {s : System} {videoId : UUID} {video : Video}

/-- What the rows say of a video that is done. -/
structure DoneRows (s : System) (videoId : UUID) (video : Video) : Prop where
  ne_nil : s.db.renditionsOf videoId ≠ []
  idle : hasActiveRenditions (s.db.renditionsOf videoId) = false
  noneFailed : NoneFailed (s.db.renditionsOf videoId)
  completed : completedRenditions (s.db.renditionsOf videoId) =
    doneRenditions (s.db.renditionsOf videoId)
  completed_ne_nil : completedRenditions (s.db.renditionsOf videoId) ≠ []
  /-- A completed rendition is at the key of its playlist. -/
  key : ∀ r ∈ completedRenditions (s.db.renditionsOf videoId),
    buildHlsPlaylistKey videoId r.resolution = .ok r.outputPath

theorem doneRows (hc : s.db.Coherent) (hi : s.db.IdleNotDone) (hst : Stocked s)
    (hv : s.db.videos.get? videoId = some video) (hdone : video.status = .done) :
    DoneRows s videoId video := by
  have hne : s.db.renditionsOf videoId ≠ [] := fun hnil => hi videoId video hv hnil hdone
  have hderived := hc.derived videoId video hv hne
  rw [hdone] at hderived
  obtain ⟨⟨status, hstatus, rfl⟩, hall⟩ := deriveVideoStatus_eq_done hderived.symm
  obtain ⟨p₀, hp₀, hp₀s⟩ := List.mem_map.mp hstatus
  have hskipped : ∀ p ∈ s.db.renditionsOf videoId, p.2.status = .skipped ∨ p.2.status = .done :=
    fun p hp => hall _ (List.mem_map.mpr ⟨p, hp, rfl⟩)
  -- every rendition that is done has the key of its playlist as its path
  have hpath : ∀ p ∈ s.db.renditionsOf videoId, p.2.status = .done → ∃ key,
      buildHlsPlaylistKey videoId p.2.resolution = .ok key ∧ p.2.outputPath = some key := by
    intro p hp hs
    obtain ⟨hget, hvid⟩ := Db.mem_renditionsOf.mp (show (p.1, p.2) ∈ _ from hp)
    obtain ⟨key, hkey, ho⟩ := hst.served.published.outputPath p.1 p.2 hget hs
    exact ⟨key, by rw [← hvid]; exact hkey, ho⟩
  obtain ⟨key₀, hkey₀, ho₀⟩ := hpath p₀ hp₀ hp₀s
  refine ⟨hne, ?_, ?_, ?_, ?_, ?_⟩
  · rw [hasActiveRenditions, List.any_eq_false]
    intro p hp
    rcases hskipped p hp with hs | hs <;> rw [hs] <;> exact Bool.false_ne_true
  · intro p hp hs
    rcases hskipped p hp with hs' | hs' <;> rw [hs'] at hs <;> cases hs
  · refine completedRenditions_eq_doneRenditions fun p hp hs => ?_
    obtain ⟨key, -, ho⟩ := hpath p hp hs
    rw [ho]
    rfl
  · exact List.ne_nil_of_mem (mem_completedRenditions (c := ⟨p₀.2.resolution, key₀⟩)
      |>.mpr ⟨p₀, hp₀, hp₀s, ho₀, rfl⟩)
  · intro r hr
    obtain ⟨p, hp, hs, ho, hres⟩ := mem_completedRenditions.mp hr
    obtain ⟨key, hkey, ho'⟩ := hpath p hp hs
    rw [ho, Option.some.injEq] at ho'
    rw [← hres, ho']
    exact hkey

/-- The variant endpoint for a rendition that is done. -/
theorem Playable.variant_of (hst : Stocked s) (hv : s.db.videos.get? videoId = some video)
    (hvalid : validatePlayableVideo video (s.db.renditionsOf videoId) = .ok ())
    {resolution : String} (hr : resolution ∈ doneResolutions (s.db.renditionsOf videoId)) :
    ∃ key playlist, buildHlsPlaylistKey videoId resolution = .ok key ∧
      isVariantReady (s.db.renditionsOf videoId) resolution key = true ∧
      s.bucket.downloadText key = some playlist ∧
      ∀ sign,
        (∀ signed ∈ (buildPlaybackVariantPlaylist s.db s.bucket.downloadText sign videoId
          resolution).1, (s.bucket signed).isSome) ∧
        ((∀ key, (s.bucket key).isSome → (sign key).isSome) → ∃ text,
          (buildPlaybackVariantPlaylist s.db s.bucket.downloadText sign videoId resolution).2 =
            .ok (some text)) := by
  obtain ⟨⟨rid, r⟩, hp, hs, rfl⟩ := mem_doneResolutions.mp hr
  obtain ⟨hget, rfl⟩ := Db.mem_renditionsOf.mp hp
  obtain ⟨key, hkey, ho⟩ := hst.served.published.outputPath rid r hget hs
  obtain ⟨key', hkey', hsome⟩ := hst.served.stored rid r hget hs
  obtain rfl : key = key' := Except.ok.inj (hkey.symm.trans hkey')
  -- its playlist is in the bucket, and whole
  obtain ⟨object, hobject⟩ : ∃ object, s.bucket key = some object :=
    Option.isSome_iff_exists.mp hsome
  obtain ⟨playlist, hbody, huris⟩ := hst.whole _ _ key object hkey hobject
  have hready : isVariantReady (s.db.renditionsOf r.videoId) r.resolution key = true := by
    rw [isVariantReady, List.any_eq_true]
    exact ⟨(rid, r), hp, by simp [show r.status = .done from hs, ho]⟩
  have hdownload : s.bucket.downloadText key = some playlist := by
    rw [Bucket.downloadText, hobject, Option.bind_some, hbody]
  refine ⟨key, playlist, hkey, hready, hdownload, fun sign => ?_⟩
  have hstored : ∀ line ∈ Text.splitLines playlist, line ≠ "" → Text.startsWith line "#" = false →
      SegmentStored s.bucket r.videoId r.resolution (Text.removePrefix line "segments/") :=
    fun line hline hne hcomment => huris line (List.mem_filter.mpr ⟨hline, by simp [hne, hcomment]⟩)
  have hlines := rewriteVariantLines_stored sign hstored
  have hanswer : buildPlaybackVariantPlaylist s.db s.bucket.downloadText sign r.videoId
      r.resolution = ((rewriteVariantLines sign r.videoId r.resolution
        (Text.splitLines playlist)).1, (rewriteVariantLines sign r.videoId r.resolution
          (Text.splitLines playlist)).2.map fun lines => some (Text.unlines lines)) := by
    simp [buildPlaybackVariantPlaylist, hv, hvalid, hkey, hready, hdownload]
  rw [hanswer]
  refine ⟨hlines.1, fun hsign => ?_⟩
  obtain ⟨rewritten, hrewritten⟩ := hlines.2 hsign
  exact ⟨Text.unlines rewritten, by simp [hrewritten, Except.map]⟩

/-- **A video that is shown as done is fully playable**, in every run of the system
whose encoder lists its segments. -/
theorem done_video_playable (h : ReachableSystem EncoderListsSegments s)
    (hv : s.db.videos.get? videoId = some video) (hdone : video.status = .done) :
    Playable s videoId video := by
  have hst := h.stocked
  have hrows := doneRows h.coherent h.idleNotDone hst hv hdone
  obtain ⟨hpath, playlist, -, hstored⟩ := (hst.served.published.published videoId video hv
    hrows.ne_nil hrows.idle hrows.noneFailed).2 hrows.completed_ne_nil
  have hvalid : validatePlayableVideo video (s.db.renditionsOf videoId) = .ok () := by
    simp [validatePlayableVideo, hdone, hpath, hrows.completed_ne_nil]
  obtain ⟨honce, hladder⟩ := h.linked.resolutions videoId
  refine ⟨hvalid, ⟨hpath, Option.isSome_iff_exists.mpr ⟨_, hstored⟩⟩, ?_, ?_, honce, fun r hr =>
    Playable.variant_of hst hv hvalid hr⟩
  · intro sign url now expires hsign
    obtain ⟨signed, hsigned⟩ := Option.isSome_iff_exists.mp hsign
    simp only [getVideoPlayback, hv, hvalid, hpath, Option.getD_some, hsigned, bind, Except.bind,
      pure, Except.pure]
    exact ⟨_, rfl⟩
  · intro url
    have hresolutions : (completedRenditions (s.db.renditionsOf videoId)).map
        MasterPlaylistRendition.resolution = doneResolutions (s.db.renditionsOf videoId) := by
      rw [hrows.completed, map_resolution_doneRenditions]
    rw [← hresolutions]
    refine buildPlaybackMasterPlaylist_eq_ok hv hvalid hrows.completed_ne_nil hrows.key ?_
    rw [hresolutions]
    exact fun r hr => isEntry_of_ladder r (hladder r hr)

end Done

/-- All six messages are sent, the last one first in the queue. -/
def samplePublishing : List Action :=
  [.openPass 2 (.limit 6)] ++ List.replicate 6 (.publish 0 (.ok 2) true) ++
    [.commitPass 0 none none]

/-- The worker takes the next message, and its source is a small one. -/
def sampleProbing : List Action :=
  [.deliver "worker" 0, .work "worker" (.claim 3 3),
    .work "worker" (.probed ⟨100, 100, none, none⟩)]

/-- The worker encodes the smallest rendition into one segment. -/
def sampleEncoding : List Action :=
  sampleProbing ++
    [.work "worker" (.encoded ⟨[⟨"a.ts", none⟩], some "#EXTM3U\nsegments/a.ts\n"⟩),
      .work "worker" .upload, .work "worker" .upload, .work "worker" (.conclude 4 true true),
      .settle "worker"]

/-- The worker skips a rendition. -/
def sampleSkipping : List Action :=
  sampleProbing ++ [.work "worker" (.conclude 4 true true), .settle "worker"]

/-- A small video is done once its smallest rendition is, the others being skipped. -/
theorem done_video_playable_small :
    ∃ s video, ReachableSystem EncoderListsSegments s ∧
      s.db.videos.get? (sampleId 0) = some video ∧ video.status = .done ∧
      Playable s (sampleId 0) video := by
  obtain ⟨s, hs⟩ : ∃ s, guardedRun System.step EncoderListsSegments System.start
      (sampleUpload.map Action.request ++ samplePublishing ++ sampleEncoding ++
        (List.replicate 5 sampleSkipping).flatten) = some s := ⟨_, rfl⟩
  have hstart : ReachableSystem EncoderListsSegments System.start := Reaches.start rfl
  have hreach := hstart.of_guardedRun hs
  obtain rfl := Option.some.inj hs
  exact ⟨_, _, hreach, rfl, rfl, done_video_playable hreach rfl rfl⟩

end RenditionPipeline
