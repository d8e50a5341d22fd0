import RenditionPipeline.Lifecycle.Shape
import RenditionPipeline.Models.WriteBack

/-!
# Sessions that overlap

A transaction that settles a job reads its rows at one instant and writes them back
at a later one. What it has made of them in memory is
`RenditionPipeline.Settled`, over the rows that it has read; what comes of that in
the database is worked out here, over whatever is committed by then. The job and
its rendition are written as they are in memory, because nobody else writes them
while the job is locked, and of the video only the columns that the transaction has
changed.
-/

namespace RenditionPipeline

/-! ### The shape under a write-back -/

/-- The renditions of a video under a write-back that adds none: each is as it is committed, in
the columns that stay. -/
theorem entriesOf_flush {loaded new db : Db}
    (hkeys : ∀ k, loaded.renditions.get? k = none → new.renditions.get? k = none) (vid : UUID) :
    entriesOf ((Db.flush loaded new db).renditionsOf vid) = entriesOf (db.renditionsOf vid) := by
  obtain ⟨f, hrows, hf⟩ : ∃ f : UUID × Rendition → UUID × Rendition,
      (Db.flush loaded new db).renditions.rows = db.renditions.rows.map f ∧
        ∀ p, f p = p ∨ ∃ a b, f p = (p.1, Rendition.flush a b p.2) := by
    refine ⟨_, Table.flush_rows hkeys, fun p => ?_⟩
    split
    · exact Or.inr ⟨_, _, rfl⟩
    · exact Or.inl rfl
  have hkeep : ∀ p, (f p).1 = p.1 ∧ (f p).2.videoId = p.2.videoId ∧
      (f p).2.entry = p.2.entry := fun p => by
    rcases hf p with he | ⟨a, b, he⟩ <;>
    · rw [he]
      exact ⟨rfl, rfl, rfl⟩
  have hsame : (Db.flush loaded new db).renditionsOf vid = (db.renditionsOf vid).map f := by
    rw [Db.renditionsOf, Table.select, hrows, List.filter_map, Db.renditionsOf,
      List.map_insertionSort _ (fun p q : UUID × Rendition => q.2.bitrate ≤ p.2.bitrate)]
    · simp only [Function.comp_def, (hkeep _).2.1]
      rfl
    · intro p _ q _
      have hbitrate : ∀ p, (f p).2.bitrate = p.2.bitrate := fun p => congrArg Prod.snd (hkeep p).2.2
      rw [hbitrate p, hbitrate q]
  rw [hsame, entriesOf, entriesOf, List.map_map]
  exact List.map_congr_left fun p _ => Prod.ext (hkeep p).1 (hkeep p).2.2

/-- **A write-back keeps the shape**, where what the session has made of its rows has the
shape of what it has loaded, and no upload is ended or opened. -/
theorem SameShape.flush {loaded new db : Db} (h : SameShape loaded new)
    (hvideos : ∀ vid a b c, loaded.videos.get? vid = some a → new.videos.get? vid = some b →
      db.videos.get? vid = some c → (Video.flush a b c).isUploading = c.isUploading) :
    SameShape db (Db.flush loaded new db) := by
  have hkeys : ∀ {V W : Type} {t t' : Table UUID V} {f : V → W}, t'.view f = t.view f →
      ∀ k, t.get? k = none ↔ t'.get? k = none := fun hview k => by
    rw [← Table.view_eq_none_iff, ← Table.view_eq_none_iff, hview]
  exact {
    videos := Table.view_flush hvideos (hkeys h.videos)
    uploadSessions := Table.view_flush (fun _ _ _ _ _ _ _ => rfl) (hkeys h.uploadSessions)
    renditions := Table.view_flush (fun _ _ _ _ _ _ _ => rfl) (hkeys h.renditions)
    ladder := entriesOf_flush fun k => (hkeys h.renditions k).mp
    jobs := Table.view_flush (fun _ _ _ _ _ _ _ => rfl) (hkeys h.jobs)
    outboxMessages := Table.view_flush (fun _ _ _ _ _ _ _ => rfl) (hkeys h.outboxMessages) }

namespace Outcome

/-- A job that nobody else has written is written as it is in memory. -/
theorem flush_job (o : Outcome) (job : Job) : Job.flush job (o.job job) job = o.job job := by
  simp only [Job.flush, Table.flushColumn_self]
  cases o <;> rfl

/-- A rendition that nobody else has written is written as it is in memory. -/
theorem flush_rendition (o : Outcome) (r : Rendition) :
    Rendition.flush r (o.rendition r) r = o.rendition r := by
  simp only [Rendition.flush, Table.flushColumn_self]
  cases o <;> rfl

end Outcome

namespace Settled

variable {db₀ new : Db} {loaded : LoadedJob db₀} {o : Outcome} {publication : Option Publication}

section Written

variable (h : Settled loaded o publication new) (db : Db)
include h

theorem flush_jobs : (Db.flush db₀ new db).jobs =
    db.jobs.modify loaded.jobId (Job.flush loaded.job (o.job loaded.job)) := by
  show Table.flush Job.flush db₀.jobs new.jobs db.jobs = _
  rw [h.jobs, Table.flush_modify Job.flush_same loaded.get?_job]

theorem flush_renditions : (Db.flush db₀ new db).renditions =
    db.renditions.modify loaded.job.renditionId
      (Rendition.flush loaded.rendition (o.rendition loaded.rendition)) := by
  show Table.flush Rendition.flush db₀.renditions new.renditions db.renditions = _
  rw [h.renditions, Table.flush_modify Rendition.flush_same loaded.get?_rendition]

/-- **The video is written column by column**, from the row that was read and the
status and the path that were worked out. -/
theorem flush_videos : ∃ video : Video,
    (Db.flush db₀ new db).videos =
      db.videos.modify loaded.rendition.videoId (Video.flush loaded.video video) ∧
    video.status = deriveVideoStatus (statusesOf (new.renditionsOf loaded.rendition.videoId)) ∧
    video.playbackPath =
      (publication.getD .notReady).playbackPath loaded.video.playbackPath := by
  obtain ⟨f, hf, hfv⟩ := h.videos
  refine ⟨f loaded.video, ?_, hfv _⟩
  show Table.flush Video.flush db₀.videos new.videos db.videos = _
  rw [hf, Table.flush_modify Video.flush_same loaded.get?_video]

end Written

/-! ### Rows after the write-back -/

section Rows

variable (h : Settled loaded o publication new) {db : Db}
include h

theorem get?_flush_job_self (hj : db.jobs.get? loaded.jobId = some loaded.job) :
    (Db.flush db₀ new db).jobs.get? loaded.jobId = some (o.job loaded.job) := by
  rw [h.flush_jobs, Table.get?_modify_self, hj, Option.map_some, o.flush_job]

theorem get?_flush_job_of_ne {jid : UUID} (hne : jid ≠ loaded.jobId) :
    (Db.flush db₀ new db).jobs.get? jid = db.jobs.get? jid := by
  rw [h.flush_jobs, Table.get?_modify_of_ne hne]

theorem get?_flush_rendition_self
    (hr : db.renditions.get? loaded.job.renditionId = some loaded.rendition) :
    (Db.flush db₀ new db).renditions.get? loaded.job.renditionId =
      some (o.rendition loaded.rendition) := by
  rw [h.flush_renditions, Table.get?_modify_self, hr, Option.map_some, o.flush_rendition]

theorem get?_flush_rendition_of_ne {rid : UUID} (hne : rid ≠ loaded.job.renditionId) :
    (Db.flush db₀ new db).renditions.get? rid = db.renditions.get? rid := by
  rw [h.flush_renditions, Table.get?_modify_of_ne hne]

theorem get?_flush_video_of_ne {vid : UUID} (hne : vid ≠ loaded.rendition.videoId) :
    (Db.flush db₀ new db).videos.get? vid = db.videos.get? vid := by
  obtain ⟨video, hv, -, -⟩ := h.flush_videos db
  rw [hv, Table.get?_modify_of_ne hne]

/-- The renditions of a video after the write-back. -/
theorem renditionsOf_flush
    (hr : db.renditions.get? loaded.job.renditionId = some loaded.rendition) (vid : UUID) :
    (Db.flush db₀ new db).renditionsOf vid = (db.renditionsOf vid).map fun p =>
      if p.1 = loaded.job.renditionId then (p.1, o.rendition p.2) else p := by
  refine (Db.renditionsOf_modify (h.flush_renditions db) (fun _ => rfl) (fun _ => rfl) vid).trans ?_
  refine List.map_congr_left fun p hp => ?_
  by_cases hrid : p.1 = loaded.job.renditionId
  · obtain ⟨hget, -⟩ := Db.mem_renditionsOf.mp (show (p.1, p.2) ∈ _ from hp)
    rw [hrid, hr, Option.some.injEq] at hget
    rw [if_pos hrid, if_pos hrid, ← hget, o.flush_rendition]
  · rw [if_neg hrid, if_neg hrid]

/-- The renditions of every other video stay. -/
theorem renditionsOf_flush_of_ne
    (hr : db.renditions.get? loaded.job.renditionId = some loaded.rendition) {vid : UUID}
    (hne : vid ≠ loaded.rendition.videoId) :
    (Db.flush db₀ new db).renditionsOf vid = db.renditionsOf vid := by
  rw [h.renditionsOf_flush hr]
  refine (List.map_congr_left fun p hp => ?_).trans (List.map_id _)
  obtain ⟨hget, hv⟩ := Db.mem_renditionsOf.mp (show (p.1, p.2) ∈ _ from hp)
  rw [if_neg, id]
  intro he
  rw [he, hr] at hget
  exact hne (by rw [← hv, ← Option.some.inj hget])

/-- **The write-back of a settled job keeps the shape.** -/
theorem sameShape_flush (hl₀ : db₀.Referenced) (hl : db.Referenced)
    (hr : db.renditions.get? loaded.job.renditionId = some loaded.rendition) :
    SameShape db (Db.flush db₀ new db) := by
  refine (h.sameShape hl₀).flush fun vid a b c ha hb hc => ?_
  by_cases hvid : vid = loaded.rendition.videoId
  · subst hvid
    obtain rfl : loaded.video = a := Option.some.inj (loaded.get?_video.symm.trans ha)
    obtain ⟨b', hb', hstatus, -⟩ := h.get?_video_self
    obtain rfl : b = b' := Option.some.inj (hb.symm.trans hb')
    obtain ⟨c', hc', hup⟩ := hl.rendition_video _ _ hr
    obtain rfl : c = c' := Option.some.inj (hc.symm.trans hc')
    rw [hup, Video.isUploading, decide_eq_false_iff_not]
    show Table.flushColumn loaded.video.status b.status c.status ≠ .uploading
    rw [Table.flushColumn]
    split
    · simpa [Video.isUploading] using hup
    · rw [hstatus]
      exact deriveVideoStatus_ne_uploading _
  · rw [h.get?_video_of_ne hvid, ha] at hb
    rw [Option.some.inj hb, Video.flush_same]

end Rows

end Settled

end RenditionPipeline
