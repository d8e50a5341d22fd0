import RenditionPipeline.Races.Sessions
import RenditionPipeline.Runs.Playlists

/-!
# Marking calls that overlap

A marking call locks the row of its job and nothing else, and what it writes to the
video – its status and its playback path – it works out from the renditions that
are committed when it begins. Two calls for the same video can therefore overlap:
each sees the rendition of the other as running, each writes a status that leaves
the other out, and neither publishes the master playlist
(`RenditionPipeline.overlapping_ends`).

The race is modelled transaction by transaction (`RenditionPipeline.MarkingRace`):
a call begins by reading, uploads what it has to upload, and commits by writing
back. The rows agree in the end as long as the call that ends the last rendition of
a video has begun after all others were committed
(`RenditionPipeline.video_agrees_with_renditions`).
-/

namespace RenditionPipeline

/-! ### The race -/

/-- A marking call. Its uploads succeed. -/
inductive MarkingCall where
  | succeeded (jobId : UUID) (workerId : String) (outputPath : Option String)
      (sourceMetadata : Option VideoSourceMetadata) (now : Timestamp)
  | skipped (jobId : UUID) (reason : String) (workerId : String)
      (sourceMetadata : Option VideoSourceMetadata) (now : Timestamp)
  | failed (settings : Settings) (jobId : UUID) (error : String) (workerId : String)
      (newId : UUID) (now : Timestamp)

namespace MarkingCall

/-- The job whose row a call locks. -/
def jobId : MarkingCall → UUID
  | succeeded jobId _ _ _ _ => jobId
  | skipped jobId _ _ _ _ => jobId
  | failed _ jobId _ _ _ _ => jobId

/-- What a call makes of the rows that it reads, and what it publishes. -/
def mark (db : Db) : MarkingCall → Except Raised (Db × Publication)
  | succeeded jobId workerId outputPath sourceMetadata now =>
    (markEncodingJobSucceeded db jobId workerId outputPath sourceMetadata now true).map
      fun m => (m.db, m.publication)
  | skipped jobId reason workerId sourceMetadata now =>
    (markEncodingJobSkipped db jobId reason workerId sourceMetadata now true).map
      fun m => (m.db, m.publication)
  | failed settings jobId error workerId newId now =>
    (markEncodingJobFailed settings db jobId error workerId newId now true).map
      fun m => (m.db, m.publication)

end MarkingCall

/-- A call between its first query and its commit: the rows that it has read, what
it has made of them, and whether it has uploaded what it publishes. -/
structure Transaction where
  jobId : UUID
  loaded : Db
  new : Db
  publication : Publication
  uploaded : Bool

/-- The committed rows, the bucket, and the calls that are under way. -/
structure MarkingRace where
  db : Db
  bucket : Bucket
  transactions : List Transaction

inductive MarkingStep where
  /-- A call locks its job and reads. -/
  | begin (call : MarkingCall)
  /-- A call uploads what it publishes. -/
  | upload (index : ℕ)
  /-- A call writes back and commits. -/
  | commit (index : ℕ)

/-- What a call commits. -/
def Transaction.commit (t : Transaction) (db : Db) : Db := Db.flush t.loaded t.new db

/-- **A step of the race.** A call waits while another one holds the lock of its
job. -/
def MarkingRace.step (s : MarkingRace) : MarkingStep → Option MarkingRace
  | .begin call =>
    if s.transactions.any fun t => t.jobId = call.jobId then none
    else
      match call.mark s.db with
      | .error _ => some s
      | .ok (new, publication) => some { s with
          transactions := ⟨call.jobId, s.db, new, publication, false⟩ :: s.transactions }
  | .upload index =>
    match s.transactions[index]? with
    | none => none
    | some t => some { s with
        bucket := t.publication.store s.bucket
        transactions := s.transactions.set index { t with uploaded := true } }
  | .commit index =>
    match s.transactions[index]? with
    | none => none
    | some t =>
      if t.uploaded then some { s with
        db := t.commit s.db
        transactions := s.transactions.eraseIdx index }
      else none

/-- **A video agrees with its renditions**: it has the status that they give, and
if some are completed, it is published as their playlist. -/
structure Agrees (db : Db) (bucket : Bucket) (videoId : UUID) (video : Video) : Prop where
  status : video.status = deriveVideoStatus (statusesOf (db.renditionsOf videoId))
  published : completedRenditions (db.renditionsOf videoId) ≠ [] →
    video.playbackPath = some (buildHlsMasterKey videoId) ∧
      ∃ playlist, buildHlsMasterPlaylist videoId (completedRenditions (db.renditionsOf videoId)) =
          .ok playlist ∧
        bucket (buildHlsMasterKey videoId) = some (masterObject playlist)

/-- Every video without work left agrees with its renditions. -/
def EndsAgree (db : Db) (bucket : Bucket) : Prop :=
  ∀ vid video, db.videos.get? vid = some video → db.renditionsOf vid ≠ [] →
    hasActiveRenditions (db.renditionsOf vid) = false → Agrees db bucket vid video

/-- The rendition of a running job is running. -/
def Db.RunningPaired (db : Db) : Prop :=
  ∀ jid job r, db.jobs.get? jid = some job → db.renditions.get? job.renditionId = some r →
    job.status = .running → r.status = .running

/-- **Where a race starts**: no call is under way, and the rows are in order. -/
structure MarkingStart (s : MarkingRace) : Prop where
  transactions : s.transactions = []
  referenced : s.db.Referenced
  paired : s.db.RunningPaired
  agree : EndsAgree s.db s.bucket

/-- **A call ends a video uninformed**: its commit leaves no rendition of the video
active, and it has read renditions that are not those that are committed. -/
def endsUninformed (s : MarkingRace) : MarkingStep → Bool
  | .commit index =>
    match s.transactions[index]? with
    | none => false
    | some t =>
      match t.loaded.jobs.get? t.jobId with
      | none => false
      | some job =>
        hasActiveRenditions (s.db.renditionsOf job.videoId) &&
          !hasActiveRenditions ((t.commit s.db).renditionsOf job.videoId) &&
          decide (t.loaded.renditionsOf job.videoId ≠ s.db.renditionsOf job.videoId)
  | _ => false

/-! ### A call under way -/

/-- **What a call has in memory** that has found the job to be its worker's. -/
structure Owning (t : Transaction) (loaded : LoadedJob t.loaded) (o : Outcome)
    (p : Option Publication) : Prop where
  jobId : loaded.jobId = t.jobId
  running : loaded.job.status = .running
  settled : Settled loaded o p t.new
  publication : t.publication = p.getD .notReady
  job_over : (o.job loaded.job).status ≠ .running
  rendition_over : (o.rendition loaded.rendition).status ≠ .running
  /-- Only a retry publishes nothing. -/
  retried : p = none → (o.rendition loaded.rendition).status.isActive = true

theorem exists_of_map_eq_ok {α β : Type} {f : α → β} {x : Except Raised α} {b : β}
    (h : x.map f = .ok b) : ∃ a, x = .ok a ∧ f a = b := by
  cases x with
  | error e => cases h
  | ok a => exact ⟨a, rfl, Except.ok.inj h⟩

/-- **What a marking call has in memory**: the rows as it has read them, or those of
a job that it has settled. -/
theorem MarkingCall.mark_eq_ok {db new : Db} {call : MarkingCall} {publication : Publication}
    (h : call.mark db = .ok (new, publication)) :
    (new = db ∧ publication = .notReady) ∨ ∃ (loaded : LoadedJob db) (o : Outcome)
      (p : Option Publication), Owning ⟨call.jobId, db, new, publication, false⟩ loaded o p := by
  cases call with
  | succeeded jobId workerId outputPath metadata now =>
    obtain ⟨m, hm, he⟩ := exists_of_map_eq_ok h
    obtain ⟨rfl, rfl⟩ := Prod.mk.inj he
    obtain ⟨loaded, hid, ⟨-, rfl⟩ | ⟨ho, -, hs⟩⟩ := markEncodingJobSucceeded_eq_ok hm
    · exact Or.inl ⟨rfl, rfl⟩
    · exact Or.inr ⟨loaded, _, _, hid, (status_of_ownsRunningJob ho).1, hs, rfl, nofun, nofun,
        nofun⟩
  | skipped jobId reason workerId metadata now =>
    obtain ⟨m, hm, he⟩ := exists_of_map_eq_ok h
    obtain ⟨rfl, rfl⟩ := Prod.mk.inj he
    obtain ⟨loaded, hid, ⟨-, rfl⟩ | ⟨ho, -, hs⟩⟩ := markEncodingJobSkipped_eq_ok hm
    · exact Or.inl ⟨rfl, rfl⟩
    · exact Or.inr ⟨loaded, _, _, hid, (status_of_ownsRunningJob ho).1, hs, rfl, nofun, nofun,
        nofun⟩
  | failed settings jobId error workerId newId now =>
    obtain ⟨m, hm, he⟩ := exists_of_map_eq_ok h
    obtain ⟨rfl, rfl⟩ := Prod.mk.inj he
    obtain ⟨loaded, hid, ⟨-, rfl⟩ | ⟨ho, -, hp, nextRunAt, -, hs⟩ | ⟨ho, -, hs⟩⟩ :=
      markEncodingJobFailed_eq_ok hm
    · exact Or.inl ⟨rfl, rfl⟩
    · exact Or.inr ⟨loaded, _, _, hid, (status_of_ownsRunningJob ho).1, hs, hp, nofun, nofun,
        fun _ => rfl⟩
    · exact Or.inr ⟨loaded, _, _, hid, (status_of_ownsRunningJob ho).1, hs, rfl, nofun, nofun,
        nofun⟩

/-- **A call under way and the committed rows**: its job and its rendition are as it
has read them, what is running now was running then, and if no rendition has changed
since, neither has the video. -/
structure Held (s : MarkingRace) (t : Transaction) (loaded : LoadedJob t.loaded) : Prop where
  referenced : t.loaded.Referenced
  job : s.db.jobs.get? loaded.jobId = some loaded.job
  rendition : s.db.renditions.get? loaded.job.renditionId = some loaded.rendition
  running : loaded.rendition.status = .running
  read : ∀ rid r, s.db.renditions.get? rid = some r → r.status = .running →
    t.loaded.renditions.get? rid = some r
  fresh : t.loaded.renditionsOf loaded.rendition.videoId =
      s.db.renditionsOf loaded.rendition.videoId →
    s.db.videos.get? loaded.rendition.videoId = some loaded.video
  /-- What it has uploaded is still there. -/
  stored : t.uploaded = true → t.publication.store s.bucket = s.bucket

/-- The rendition of a job that is held is active. -/
theorem Held.isActive_video {s : MarkingRace} {t : Transaction} {loaded : LoadedJob t.loaded}
    (h : Held s t loaded) : hasActiveRenditions (s.db.renditionsOf loaded.rendition.videoId) :=
  hasActiveRenditions_eq_true_iff.mpr
    ⟨_, Db.mem_renditionsOf.mpr ⟨h.rendition, rfl⟩, by rw [h.running]; rfl⟩

/-- **The state of a race.** -/
structure RaceState (s : MarkingRace) : Prop where
  referenced : s.db.Referenced
  paired : s.db.RunningPaired
  agree : EndsAgree s.db s.bucket
  locked : s.transactions.Pairwise fun t t' => t.jobId ≠ t'.jobId
  transaction : ∀ t ∈ s.transactions, (t.new = t.loaded ∧ t.publication = .notReady) ∨
    ∃ loaded o p, Owning t loaded o p ∧ Held s t loaded

theorem MarkingStart.raceState {s : MarkingRace} (h : MarkingStart s) : RaceState s where
  referenced := h.referenced
  paired := h.paired
  agree := h.agree
  locked := by
    rw [h.transactions]
    exact List.Pairwise.nil
  transaction := by
    rw [h.transactions]
    exact nofun

/-! ### Publications -/

namespace Publication

/-- Storing twice is storing once. -/
theorem store_store (p : Publication) (bucket : Bucket) :
    p.store (p.store bucket) = p.store bucket := by
  cases p with
  | published path playlist => exact Function.update_idem _ _ _
  | _ => rfl

/-- What two publications store, they may store in either order, if one of them
stores nothing or they store it at different keys. -/
theorem store_comm {p q : Publication}
    (h : ∀ k o k' o', p = .published k o → q = .published k' o' → k ≠ k') (bucket : Bucket) :
    p.store (q.store bucket) = q.store (p.store bucket) := by
  cases p with
  | published k o =>
    cases q with
    | published k' o' => exact Function.update_comm (h k o k' o' rfl rfl).symm _ _ _
    | _ => rfl
  | _ => rfl

end Publication

section Held

variable {s : MarkingRace} {t t' : Transaction} {loaded : LoadedJob t.loaded}
  {loaded' : LoadedJob t'.loaded} {o o' : Outcome} {p p' : Option Publication}

/-- **A call publishes at the key of its video**, and only if it has seen no
rendition active. -/
theorem Owning.eq_of_published (h : Owning t loaded o p) {key : String} {object : StoredObject}
    (hp : t.publication = .published key object) :
    key = buildHlsMasterKey loaded.rendition.videoId ∧
      hasActiveRenditions (t.new.renditionsOf loaded.rendition.videoId) = false := by
  rw [h.publication] at hp
  cases p with
  | none => cases hp
  | some p =>
    obtain ⟨uploadOk, hpub⟩ := h.settled.published p rfl
    rw [Option.getD_some] at hp
    rcases publishMasterPlaylistIfReady_eq_ok hpub with ⟨-, rfl⟩ | ⟨-, -, rfl⟩ |
      ⟨hover, -, playlist, -, rfl⟩
    · cases hp
    · cases hp
    · exact ⟨(Publication.published.inj hp).1.symm, hover⟩

/-- The renditions that a call has in memory. -/
theorem Owning.mem_new (h : Owning t loaded o p) {rid : UUID} {r : Rendition}
    (hr : t.loaded.renditions.get? rid = some r) (hne : rid ≠ loaded.job.renditionId) :
    (rid, r) ∈ t.new.renditionsOf r.videoId :=
  Db.mem_renditionsOf.mpr ⟨by rw [h.settled.get?_rendition_of_ne hne]; exact hr, rfl⟩

/-- **A call whose video has another running rendition publishes nothing.** -/
theorem Held.not_published (h : Owning t loaded o p) (hheld : Held s t loaded) {rid : UUID}
    {r : Rendition} (hr : s.db.renditions.get? rid = some r) (hrun : r.status = .running)
    (hne : rid ≠ loaded.job.renditionId) (hvid : r.videoId = loaded.rendition.videoId)
    (key : String) (object : StoredObject) : t.publication ≠ .published key object := by
  intro hp
  obtain ⟨-, hover⟩ := h.eq_of_published hp
  have hmem := h.mem_new (hheld.read rid r hr hrun) hne
  rw [hvid] at hmem
  rw [hasActiveRenditions_eq_true_iff.mpr ⟨_, hmem, by rw [hrun]; rfl⟩] at hover
  cases hover

/-- Two calls that hold different jobs have different renditions. -/
theorem Held.renditionId_ne (hl : s.db.Referenced) (h : Owning t loaded o p)
    (hheld : Held s t loaded) (h' : Owning t' loaded' o' p') (hheld' : Held s t' loaded')
    (hne : t.jobId ≠ t'.jobId) : loaded.job.renditionId ≠ loaded'.job.renditionId := by
  intro he
  refine hne ?_
  rw [← h.jobId, ← h'.jobId]
  exact hl.job_unique _ _ _ _ hheld.job hheld'.job he

/-- **Calls under way do not store at one key.** -/
theorem Held.store_comm (hl : s.db.Referenced) (h : Owning t loaded o p) (hheld : Held s t loaded)
    (h' : Owning t' loaded' o' p') (hheld' : Held s t' loaded') (hne : t.jobId ≠ t'.jobId)
    (bucket : Bucket) :
    t.publication.store (t'.publication.store bucket) =
      t'.publication.store (t.publication.store bucket) := by
  refine Publication.store_comm (fun k object k' object' hp hp' he => ?_) bucket
  obtain ⟨rfl, -⟩ := h.eq_of_published hp
  obtain ⟨rfl, -⟩ := h'.eq_of_published hp'
  have hvid := buildHlsMasterKey_injective he
  exact hheld.not_published h hheld'.rendition hheld'.running
    (Held.renditionId_ne hl h' hheld' h hheld hne.symm) hvid.symm _ _ hp

end Held

/-! ### The steps -/

section Steps

variable {s : MarkingRace}

/-- **A call begins.** -/
theorem RaceState.began (hs : RaceState s) {call : MarkingCall} {new : Db}
    {publication : Publication} (hlock : ∀ t ∈ s.transactions, t.jobId ≠ call.jobId)
    (hmark : call.mark s.db = .ok (new, publication)) :
    RaceState { s with
      transactions := ⟨call.jobId, s.db, new, publication, false⟩ :: s.transactions } where
  referenced := hs.referenced
  paired := hs.paired
  agree := hs.agree
  locked := List.pairwise_cons.mpr ⟨fun t ht => (hlock t ht).symm, hs.locked⟩
  transaction := by
    refine List.forall_mem_cons.mpr ⟨?_, fun t ht => ?_⟩
    · rcases MarkingCall.mark_eq_ok hmark with hnone | ⟨loaded, o, p, hown⟩
      · exact Or.inl hnone
      · refine Or.inr ⟨loaded, o, p, hown, hs.referenced, loaded.get?_job, loaded.get?_rendition,
          ?_, fun _ _ hr _ => hr, fun _ => loaded.get?_video, fun h => (by cases h)⟩
        exact hs.paired _ _ _ loaded.get?_job loaded.get?_rendition hown.running
    · rcases hs.transaction t ht with hnone | ⟨loaded, o, p, hown, hheld⟩
      · exact Or.inl hnone
      · exact Or.inr ⟨loaded, o, p, hown, { hheld with }⟩

/-- **A call uploads**: its video has a running rendition, so that nothing is stored
for a video without work left. -/
theorem RaceState.uploaded (hs : RaceState s) {index : ℕ} {t : Transaction}
    (ht : s.transactions[index]? = some t) :
    RaceState { s with
      bucket := t.publication.store s.bucket
      transactions := s.transactions.set index { t with uploaded := true } } where
  referenced := hs.referenced
  paired := hs.paired
  agree := by
    intro vid video hv hne hover
    have hagrees := hs.agree vid video hv hne hover
    refine ⟨hagrees.status, fun hsome => ?_⟩
    obtain ⟨hpath, playlist, hplaylist, hstored⟩ := hagrees.published hsome
    refine ⟨hpath, playlist, hplaylist, ?_⟩
    rcases hs.transaction t (List.mem_of_getElem? ht) with ⟨-, hp⟩ | ⟨loaded, o, p, hown, hheld⟩
    · rw [hp]
      exact hstored
    · cases hp : t.publication with
      | published key object =>
        obtain ⟨rfl, -⟩ := hown.eq_of_published hp
        refine (Bucket.put_of_ne (fun he => ?_) _ _).trans hstored
        obtain rfl := buildHlsMasterKey_injective he
        rw [hheld.isActive_video] at hover
        cases hover
      | _ => exact hstored
  locked := pairwise_set (f := Transaction.jobId) (R := fun a b => a ≠ b) hs.locked ht rfl
  transaction := by
    -- what a call has uploaded stays, whichever call uploads now
    have key : ∀ t' ∈ s.transactions, ∀ loaded' o' p', Owning t' loaded' o' p' →
        Held s t' loaded' → t'.publication.store (t.publication.store s.bucket) =
          t.publication.store (t'.publication.store s.bucket) := by
      intro t' ht' loaded' o' p' hown' hheld'
      by_cases hid : t'.jobId = t.jobId
      · have hnodup : (s.transactions.map Transaction.jobId).Nodup :=
          List.pairwise_map.mpr hs.locked
        obtain rfl : t' = t := List.inj_on_of_nodup_map hnodup ht' (List.mem_of_getElem? ht) hid
        rfl
      · rcases hs.transaction t (List.mem_of_getElem? ht) with ⟨-, hp⟩ | ⟨loaded, o, p, hown, hheld⟩
        · rw [hp]
          rfl
        · exact Held.store_comm hs.referenced hown' hheld' hown hheld hid _
    intro t' ht'
    rcases (List.mem_or_eq_of_mem_set ht').symm with rfl | ht'
    · rcases hs.transaction t (List.mem_of_getElem? ht) with hnone | ⟨loaded, o, p, hown, hheld⟩
      · exact Or.inl hnone
      · exact Or.inr ⟨loaded, o, p, { hown with }, { hheld with
          stored := fun _ => Publication.store_store _ _ }⟩
    · rcases hs.transaction t' ht' with hnone | ⟨loaded, o, p, hown, hheld⟩
      · exact Or.inl hnone
      · refine Or.inr ⟨loaded, o, p, hown, { hheld with stored := fun hup => ?_ }⟩
        rw [key t' ht' loaded o p hown hheld, hheld.stored hup]

/-- **A call that does not end its video uninformed** has read the renditions as they are
committed, if its commit leaves none of them active. -/
theorem Held.read_of_informed {t : Transaction} {loaded : LoadedJob t.loaded} {o : Outcome}
    {p : Option Publication} {index : ℕ} (hheld : Held s t loaded)
    (ht : s.transactions[index]? = some t) (hown : Owning t loaded o p)
    (hinformed : endsUninformed s (.commit index) = false)
    (hover : hasActiveRenditions ((t.commit s.db).renditionsOf loaded.rendition.videoId) = false) :
    t.loaded.renditionsOf loaded.rendition.videoId =
      s.db.renditionsOf loaded.rendition.videoId := by
  obtain ⟨r, hr, hrv⟩ := hheld.referenced.job_rendition _ _ loaded.get?_job
  obtain rfl : r = loaded.rendition := Option.some.inj (hr.symm.trans loaded.get?_rendition)
  have hjob : t.loaded.jobs.get? t.jobId = some loaded.job := by
    rw [← hown.jobId]
    exact loaded.get?_job
  simp only [endsUninformed, ht, hjob, ← hrv] at hinformed
  rw [hheld.isActive_video, hover] at hinformed
  simpa using hinformed

/-- **A video agrees once the call that ends it commits**, if the call has read the
renditions as they are committed. -/
theorem Held.agrees {t : Transaction} {loaded : LoadedJob t.loaded} {o : Outcome}
    {p : Option Publication} (hown : Owning t loaded o p) (hheld : Held s t loaded)
    (hup : t.uploaded = true)
    (hread : t.loaded.renditionsOf loaded.rendition.videoId =
      s.db.renditionsOf loaded.rendition.videoId) {video : Video}
    (hv : (t.commit s.db).videos.get? loaded.rendition.videoId = some video)
    (hover : hasActiveRenditions ((t.commit s.db).renditionsOf loaded.rendition.videoId) = false) :
    Agrees (t.commit s.db) s.bucket loaded.rendition.videoId video := by
  have hafter : (t.commit s.db).renditionsOf loaded.rendition.videoId =
      t.new.renditionsOf loaded.rendition.videoId := by
    rw [Transaction.commit, hown.settled.renditionsOf_flush hheld.rendition,
      hown.settled.renditionsOf, hread]
  rw [hafter] at hover
  -- the row of the video is written over the one that was read
  obtain ⟨new, hnew, hstatus, hpath⟩ := hown.settled.flush_videos s.db
  obtain rfl : Video.flush loaded.video new loaded.video = video := by
    rw [Transaction.commit, hnew, Table.get?_modify_self, hheld.fresh hread, Option.map_some] at hv
    exact Option.some.inj hv
  refine ⟨?_, fun hsome => ?_⟩ <;> rw [hafter] at *
  · exact (Table.flushColumn_self _ _).trans hstatus
  · cases p with
    | none =>
      -- a retry leaves its rendition active
      exfalso
      have hmem := Db.mem_renditionsOf.mpr
        ⟨hown.settled.get?_rendition_self, o.rendition_videoId loaded.rendition⟩
      rw [hasActiveRenditions_eq_true_iff.mpr ⟨_, hmem, hown.retried rfl⟩] at hover
      cases hover
    | some pub =>
      obtain ⟨uploadOk, hpub⟩ := hown.settled.published pub rfl
      have hstored := hheld.stored hup
      rw [hown.publication, Option.getD_some] at hstored
      rw [Option.getD_some] at hpath
      rcases publishMasterPlaylistIfReady_eq_ok hpub with ⟨hactive, -⟩ | ⟨-, hnone, -⟩ |
        ⟨-, -, playlist, hplaylist, rfl⟩
      · rw [hactive] at hover
        cases hover
      · exact absurd hnone hsome
      · refine ⟨(Table.flushColumn_self _ _).trans hpath, playlist, hplaylist, ?_⟩
        rw [← hstored]
        exact Bucket.put_self _ _ _

/-- A call under way when another one commits. -/
theorem Held.committed {t t' : Transaction} {loaded : LoadedJob t.loaded}
    {loaded' : LoadedJob t'.loaded} {o o' : Outcome} {p p' : Option Publication}
    {transactions : List Transaction} (hl : s.db.Referenced) (hown : Owning t loaded o p)
    (hheld : Held s t loaded) (hown' : Owning t' loaded' o' p') (hheld' : Held s t' loaded')
    (hne : t.jobId ≠ t'.jobId) : Held ⟨t.commit s.db, s.bucket, transactions⟩ t' loaded' := by
  have hid : loaded'.jobId ≠ loaded.jobId := by
    rw [hown.jobId, hown'.jobId]
    exact hne.symm
  have hrid := Held.renditionId_ne hl hown' hheld' hown hheld hne.symm
  refine ⟨hheld'.referenced, ?_, ?_, hheld'.running, fun rid r hr hrun => ?_, fun hread => ?_,
    hheld'.stored⟩
  · exact (hown.settled.get?_flush_job_of_ne hid).trans hheld'.job
  · exact (hown.settled.get?_flush_rendition_of_ne hrid).trans hheld'.rendition
  · -- the committed rendition does not run any more, the others are as they were
    by_cases he : rid = loaded.job.renditionId
    · subst he
      obtain rfl := Option.some.inj
        ((hown.settled.get?_flush_rendition_self hheld.rendition).symm.trans hr)
      exact absurd hrun hown.rendition_over
    · exact hheld'.read rid r ((hown.settled.get?_flush_rendition_of_ne he).symm.trans hr) hrun
  · by_cases hvid : loaded'.rendition.videoId = loaded.rendition.videoId
    · -- the other call has read the rendition that has changed just now as running
      exfalso
      have hmem := Db.mem_renditionsOf.mpr
        ⟨hown.settled.get?_flush_rendition_self hheld.rendition,
          o.rendition_videoId loaded.rendition⟩
      rw [← hvid] at hmem
      obtain ⟨hget, -⟩ := Db.mem_renditionsOf.mp (hread ▸ hmem)
      have hsame := hheld'.read _ _ hheld.rendition hheld.running
      have hstatus := congrArg (Option.map Rendition.status) (hget.symm.trans hsame)
      refine hown.rendition_over ?_
      rw [← hheld.running]
      exact Option.some.inj hstatus
    · have hsame := hown.settled.renditionsOf_flush_of_ne hheld.rendition hvid
      exact (hown.settled.get?_flush_video_of_ne hvid).trans (hheld'.fresh (hread.trans hsame))

/-- **A call commits.** -/
theorem RaceState.committed (hs : RaceState s) {index : ℕ} {t : Transaction}
    (ht : s.transactions[index]? = some t) (hup : t.uploaded = true)
    (hinformed : endsUninformed s (.commit index) = false) :
    RaceState { s with
      db := t.commit s.db
      transactions := s.transactions.eraseIdx index } := by
  have hlocked := hs.locked.sublist (List.eraseIdx_sublist s.transactions index)
  have hne : ∀ t' ∈ s.transactions.eraseIdx index, t.jobId ≠ t'.jobId := fun t' ht' =>
    rel_of_mem_eraseIdx Ne.symm hs.locked ht ht'
  have hothers : ∀ t' ∈ s.transactions.eraseIdx index, _ := fun t' ht' =>
    hs.transaction t' (List.mem_of_mem_eraseIdx ht')
  rcases hs.transaction t (List.mem_of_getElem? ht) with ⟨hnew, -⟩ | ⟨loaded, o, p, hown, hheld⟩
  · -- the job was not the worker's, and nothing is written
    have hsame : t.commit s.db = s.db := by rw [Transaction.commit, hnew, Db.flush_same]
    rw [hsame]
    refine ⟨hs.referenced, hs.paired, hs.agree, hlocked, fun t' ht' => ?_⟩
    exact (hothers t' ht').imp_right fun ⟨loaded, o, p, hown, hheld⟩ =>
      ⟨loaded, o, p, hown, { hheld with }⟩
  -- the job was the worker's, and is over with the commit
  refine ⟨?_, ?_, ?_, hlocked, fun t' ht' => ?_⟩
  · refine hs.referenced.of_sameShape ?_
    exact hown.settled.sameShape_flush hheld.referenced hs.referenced hheld.rendition
  · intro jid job r hj hr hrun
    by_cases hid : jid = loaded.jobId
    · subst hid
      obtain rfl := Option.some.inj ((hown.settled.get?_flush_job_self hheld.job).symm.trans hj)
      exact absurd hrun hown.job_over
    · have hj' := (hown.settled.get?_flush_job_of_ne hid).symm.trans hj
      have hrid : job.renditionId ≠ loaded.job.renditionId := fun he =>
        hid (hs.referenced.job_unique _ _ _ _ hj' hheld.job he)
      exact hs.paired jid job r hj'
        ((hown.settled.get?_flush_rendition_of_ne hrid).symm.trans hr) hrun
  · intro vid video hv hnil hover
    by_cases hvid : vid = loaded.rendition.videoId
    · subst hvid
      exact hheld.agrees hown hup (hheld.read_of_informed ht hown hinformed hover) hv hover
    · -- another video is not looked at by the call
      have hvideo : (t.commit s.db).videos.get? vid = s.db.videos.get? vid :=
        hown.settled.get?_flush_video_of_ne hvid
      have hrenditions : (t.commit s.db).renditionsOf vid = s.db.renditionsOf vid :=
        hown.settled.renditionsOf_flush_of_ne hheld.rendition hvid
      rw [hrenditions] at hnil hover
      have hagrees := hs.agree vid video (hvideo.symm.trans hv) hnil hover
      refine ⟨?_, ?_⟩ <;> rw [hrenditions]
      · exact hagrees.status
      · exact hagrees.published
  · exact (hothers t' ht').imp_right fun ⟨loaded', o', p', hown', hheld'⟩ =>
      ⟨loaded', o', p', hown', hheld.committed hs.referenced hown hown' hheld' (hne t' ht')⟩

end Steps

/-! ### Races -/

/-- The races in which no call ends a video uninformed. -/
abbrev InformedRace (s : MarkingRace) : Prop :=
  Reaches MarkingRace.step (fun s a => endsUninformed s a = false) MarkingStart s

theorem InformedRace.raceState {s : MarkingRace} (h : InformedRace s) : RaceState s := by
  refine Reaches.invariant (fun _ hs => hs.raceState) ?_ h
  intro s a s' hs hinformed hstep
  cases a with
  | begin call =>
    simp only [MarkingRace.step] at hstep
    split at hstep
    · cases hstep
    rename_i hlock
    have hfree : ∀ t ∈ s.transactions, t.jobId ≠ call.jobId := by simpa using hlock
    split at hstep
    · obtain rfl := Option.some.inj hstep
      exact hs
    · rename_i hmark
      obtain rfl := Option.some.inj hstep
      exact hs.began hfree hmark
  | upload index =>
    simp only [MarkingRace.step] at hstep
    split at hstep
    · cases hstep
    · rename_i t ht
      obtain rfl := Option.some.inj hstep
      exact hs.uploaded ht
  | commit index =>
    simp only [MarkingRace.step] at hstep
    split at hstep
    · cases hstep
    rename_i t ht
    split at hstep
    · rename_i hup
      obtain rfl := Option.some.inj hstep
      exact hs.committed ht hup hinformed
    · cases hstep

/-- **The video row agrees with the renditions once all are over**, in every race in
which the call that ends a video has read the renditions as they are committed. -/
theorem video_agrees_with_renditions {s : MarkingRace} (h : InformedRace s) {videoId : UUID}
    {video : Video} (hv : s.db.videos.get? videoId = some video)
    (hne : s.db.renditionsOf videoId ≠ [])
    (hterminal : ∀ p ∈ s.db.renditionsOf videoId, p.2.status.isTerminal = true) :
    Agrees s.db s.bucket videoId video :=
  h.raceState.agree videoId video hv hne (hasActiveRenditions_eq_false_of_isTerminal hterminal)

/-- **A race may start where operations have been run one at a time.** -/
theorem ReachableRun.markingStart {r : Run} (h : ReachableRun keepsPlaylists r) :
    MarkingStart ⟨r.world.db, r.world.bucket, []⟩ where
  transactions := rfl
  referenced := h.linked.toReferenced
  paired := by
    intro jid job r' hj hr hrun
    obtain ⟨r'', hr'', hp⟩ := h.sound.coherent.paired jid job hj
    obtain rfl : r'' = r' := Option.some.inj (hr''.symm.trans hr)
    rw [hrun] at hp
    generalize r''.status = status at hp
    cases hp
    rfl
  agree := by
    intro vid video hv hne hover
    exact ⟨h.sound.coherent.derived vid video hv hne,
      (h.sound.publications.published vid video hv hne hover trivial).2⟩

/-- Two workers run the first and the last rendition, the others are skipped. -/
def sampleRunning : List Op :=
  [.claimEncodingJob (sampleId 11) (sampleId 0) (sampleId 10) "first" 2 2,
    .claimEncodingJob (sampleId 13) (sampleId 0) (sampleId 12) "second" 2 2,
    .markEncodingJobSkipped (sampleId 13) "too large" "second" none 3 true,
    .claimEncodingJob (sampleId 15) (sampleId 0) (sampleId 14) "second" 4 4,
    .markEncodingJobSkipped (sampleId 15) "too large" "second" none 5 true,
    .claimEncodingJob (sampleId 17) (sampleId 0) (sampleId 16) "second" 6 6,
    .markEncodingJobSkipped (sampleId 17) "too large" "second" none 7 true,
    .claimEncodingJob (sampleId 19) (sampleId 0) (sampleId 18) "second" 8 8,
    .markEncodingJobSkipped (sampleId 19) "too large" "second" none 9 true,
    .claimEncodingJob (sampleId 21) (sampleId 0) (sampleId 20) "second" 10 10]

/-- The race of the two workers. -/
def sampleRace : MarkingRace :=
  ⟨(Run.start.exec (sampleUpload ++ sampleRunning)).world.db,
    (Run.start.exec (sampleUpload ++ sampleRunning)).world.bucket, []⟩

theorem markingStart_sampleRace : MarkingStart sampleRace := by
  have hstart : ReachableRun keepsPlaylists Run.start := Reaches.start rfl
  have hrun : guardedRun Run.step keepsPlaylists Run.start (sampleUpload ++ sampleRunning) =
      some (Run.start.exec (sampleUpload ++ sampleRunning)) := rfl
  exact ReachableRun.markingStart (hstart.of_guardedRun hrun)

/-- The first worker has completed its rendition. -/
def sampleSuccess : MarkingCall := .succeeded (sampleId 11) "first" (samplePath "1080p") none 11

/-- The second worker skips its rendition. -/
def sampleSkip : MarkingCall := .skipped (sampleId 21) "too large" "second" none 11

set_option maxRecDepth 1000 in
/-- The second worker begins after the first one has committed. -/
theorem video_agrees_with_renditions_one_after_another :
    ∃ s video, InformedRace s ∧ s.db.videos.get? (sampleId 0) = some video ∧
      Agrees s.db s.bucket (sampleId 0) video := by
  obtain ⟨s, hs⟩ : ∃ s, guardedRun MarkingRace.step (fun s a => endsUninformed s a = false)
      sampleRace [.begin sampleSuccess, .upload 0, .commit 0, .begin sampleSkip, .upload 0,
        .commit 0] = some s := ⟨_, rfl⟩
  have hstart : InformedRace sampleRace := Reaches.start markingStart_sampleRace
  have hrace := hstart.of_guardedRun hs
  obtain rfl := Option.some.inj hs
  exact ⟨_, _, hrace, rfl, video_agrees_with_renditions hrace rfl (by decide) (by decide)⟩

set_option maxRecDepth 1000 in
/-- **Two ends that overlap leave the video running for ever.** Both calls begin
before either commits: each finds the rendition of the other running, and so does the
video, which is left without a playlist. -/
theorem overlapping_ends :
    ¬ ∀ s, Reaches MarkingRace.step Unguarded MarkingStart s → s.transactions = [] →
      ∀ vid video, s.db.videos.get? vid = some video → s.db.renditionsOf vid ≠ [] →
        (∀ p ∈ s.db.renditionsOf vid, p.2.status.isTerminal = true) →
        Agrees s.db s.bucket vid video := by
  intro h
  obtain ⟨s, hs⟩ : ∃ s, guardedRun MarkingRace.step Unguarded sampleRace
      [.begin sampleSuccess, .begin sampleSkip, .upload 0, .upload 1, .commit 0, .commit 0] =
        some s := ⟨_, rfl⟩
  have hstart : Reaches MarkingRace.step Unguarded MarkingStart sampleRace :=
    Reaches.start markingStart_sampleRace
  have hagrees := h s (hstart.of_guardedRun hs)
  obtain rfl := Option.some.inj hs
  have hstatus := (hagrees rfl (sampleId 0) _ rfl (by decide) (by decide)).status
  revert hstatus
  decide

end RenditionPipeline
