import RenditionPipeline.Lifecycle.Fanout

/-!
# New rows

A completion draws an id for each row that it adds. The constraints of the tables refuse ids
that are in use; where the ids are new, the work of a video is created
(`RenditionPipeline.finishCompletion_of_fresh`), as what the other constraints ask of the new
rows follows from the references of the old ones.
-/

namespace RenditionPipeline

/-- How many ids a completion draws: two for each rendition, and one for its message. -/
def completionIds : ℕ := 18

/-- Ids that name no row yet. -/
structure FreshIds (db : Db) (ids : IdStream) : Prop where
  apart : ∀ j k, j < completionIds → k < completionIds → ids j = ids k → j = k
  renditions : ∀ k, k < completionIds → db.renditions.get? (ids k) = none
  jobs : ∀ k, k < completionIds → db.jobs.get? (ids k) = none
  outboxMessages : ∀ k, k < completionIds → db.outboxMessages.get? (ids k) = none

section Rows

variable {ids : IdStream} {videoId : UUID} {maxAttempts bound : ℕ}

theorem addRendition_ok {db : Db} {id : UUID} {rendition : Rendition}
    (hid : db.renditions.get? id = none)
    (hnew : ∀ p ∈ db.renditions.rows, p.2.videoId = rendition.videoId →
      p.2.resolution ≠ rendition.resolution) :
    db.addRendition id rendition =
      .ok { db with renditions := db.renditions.insert id rendition hid } := by
  rw [Db.addRendition, if_neg, Table.insert?, dif_pos hid]
  simp only [List.any_eq_true, Bool.and_eq_true, decide_eq_true_eq, not_exists, not_and]
  exact hnew

theorem addJob_ok {db : Db} {id : UUID} {job : Job} (hid : db.jobs.get? id = none)
    (hnew : ∀ p ∈ db.jobs.rows, p.2.renditionId ≠ job.renditionId) :
    db.addJob id job = .ok { db with jobs := db.jobs.insert id job hid } := by
  rw [Db.addJob, if_neg, Table.insert?, dif_pos hid]
  simp only [List.any_eq_true, decide_eq_true_eq, not_exists, not_and]
  exact hnew

theorem addOutboxMessage_ok {db : Db} {id : UUID} {message : OutboxMessage}
    (hid : db.outboxMessages.get? id = none)
    (hnew : ∀ p ∈ db.outboxMessages.rows, p.2.jobId ≠ message.jobId) :
    db.addOutboxMessage id message =
      .ok { db with outboxMessages := db.outboxMessages.insert id message hid } := by
  rw [Db.addOutboxMessage, if_neg, Table.insert?, dif_pos hid]
  simp only [List.any_eq_true, decide_eq_true_eq, not_exists, not_and]
  exact hnew

/-- **The loop over the presets goes through** on ids that are new. -/
theorem createForPresets_of_fresh
    (hapart : ∀ j k, j < bound → k < bound → ids j = ids k → j = k) :
    ∀ (presets : List EncodingPreset) (drawn : ℕ) (db : Db),
    drawn + 2 * presets.length ≤ bound → (presets.map EncodingPreset.resolution).Nodup →
    (∀ preset ∈ presets, ∀ p ∈ db.renditions.rows, p.2.videoId = videoId →
      p.2.resolution ≠ preset.resolution) →
    (∀ k, drawn ≤ k → k < bound → db.renditions.get? (ids k) = none ∧
      db.jobs.get? (ids k) = none ∧ ∀ p ∈ db.jobs.rows, p.2.renditionId ≠ ids k) →
    ∃ result, createForPresets ids videoId maxAttempts presets drawn db = .ok result
  | [], drawn, db, _, _, _, _ => ⟨_, rfl⟩
  | preset :: presets, drawn, db, hlength, hnodup, hresolution, hfresh => by
    rw [List.length_cons] at hlength
    obtain ⟨hpreset, hpresets⟩ := List.nodup_cons.mp hnodup
    obtain ⟨hr, -, hrid⟩ := hfresh drawn le_rfl (by omega)
    obtain ⟨-, hj, -⟩ := hfresh (drawn + 1) (by omega) (by omega)
    obtain ⟨db₁, hdb₁⟩ : ∃ db₁, db₁ = { db with
      renditions := db.renditions.insert (ids drawn) (newRendition videoId preset) hr } := ⟨_, rfl⟩
    have h₁ : db.addRendition (ids drawn) (newRendition videoId preset) = .ok db₁ := by
      rw [hdb₁]
      exact addRendition_ok hr (hresolution preset List.mem_cons_self)
    have hj₁ : db₁.jobs.get? (ids (drawn + 1)) = none := by rwa [hdb₁]
    obtain ⟨db₂, hdb₂⟩ : ∃ db₂, db₂ = { db₁ with
      jobs := db₁.jobs.insert (ids (drawn + 1)) (newJob videoId (ids drawn) maxAttempts) hj₁ } :=
        ⟨_, rfl⟩
    have h₂ : db₁.addJob (ids (drawn + 1)) (newJob videoId (ids drawn) maxAttempts) = .ok db₂ := by
      rw [hdb₂]
      exact addJob_ok hj₁ (by rw [hdb₁]; exact hrid)
    obtain ⟨⟨db', jobs⟩, hrest⟩ : ∃ result,
        createForPresets ids videoId maxAttempts presets (drawn + 2) db₂ = .ok result := by
      refine createForPresets_of_fresh hapart presets (drawn + 2) db₂ (by omega) hpresets
        (fun q hq p hp hv => ?_) fun k hk hkb => ?_
      · subst hdb₂ hdb₁
        rcases List.mem_append.mp hp with hp | hp
        · exact hresolution q (List.mem_cons_of_mem _ hq) p hp hv
        · rw [List.mem_singleton.mp hp]
          exact fun he => hpreset (List.mem_map.mpr ⟨q, hq, he.symm⟩)
      · obtain ⟨hrk, hjk, hrefk⟩ := hfresh k (by omega) hkb
        have hne : ∀ d, d < k → ids k ≠ ids d := fun d hd he => by
          have := hapart k d hkb (by omega) he
          omega
        subst hdb₂ hdb₁
        refine ⟨?_, ?_, fun p hp => ?_⟩
        · rw [Table.get?_insert, if_neg (hne drawn (by omega)), hrk]
        · rw [Table.get?_insert, if_neg (hne (drawn + 1) (by omega)), hjk]
        · rcases List.mem_append.mp hp with hp | hp
          · exact hrefk p hp
          · rw [List.mem_singleton.mp hp]
            exact (hne drawn (by omega)).symm
    refine ⟨(db', (ids (drawn + 1), newJob videoId (ids drawn) maxAttempts) :: jobs), ?_⟩
    simp only [createForPresets, h₁, h₂, hrest, bind, Except.bind, pure, Except.pure]

/-- **The loop over the jobs goes through** on ids that are new. -/
theorem createOutboxMessages_of_fresh {newId : UUID → UUID} {now : Timestamp} :
    ∀ (jobs : List (UUID × Job)) (db : Db), (jobs.map Prod.fst).Nodup →
    (jobs.map fun p => newId p.1).Nodup →
    (∀ p ∈ jobs, db.outboxMessages.get? (newId p.1) = none ∧
      ∀ q ∈ db.outboxMessages.rows, q.2.jobId ≠ p.1) →
    ∃ result, createOutboxMessages newId now jobs db = .ok result
  | [], db, _, _, _ => ⟨_, rfl⟩
  | (jobId, job) :: jobs, db, hkeys, hids, hfresh => by
    obtain ⟨hjob, hkeys⟩ := List.nodup_cons.mp hkeys
    obtain ⟨hid, hids⟩ := List.nodup_cons.mp hids
    obtain ⟨hget, href⟩ := hfresh (jobId, job) List.mem_cons_self
    obtain ⟨db₁, hdb₁⟩ : ∃ db₁, db₁ = { db with
      outboxMessages := db.outboxMessages.insert (newId jobId)
        (newOutboxMessage jobId job.videoId job.renditionId now) hget } := ⟨_, rfl⟩
    have h₁ : db.addOutboxMessage (newId jobId)
        (newOutboxMessage jobId job.videoId job.renditionId now) = .ok db₁ := by
      rw [hdb₁]
      exact addOutboxMessage_ok hget href
    obtain ⟨⟨db', rest⟩, hrest⟩ : ∃ result,
        createOutboxMessages newId now jobs db₁ = .ok result := by
      refine createOutboxMessages_of_fresh jobs db₁ hkeys hids fun p hp => ?_
      obtain ⟨hgetp, hrefp⟩ := hfresh p (List.mem_cons_of_mem _ hp)
      rw [hdb₁]
      refine ⟨?_, fun q hq => ?_⟩
      · rw [Table.get?_insert, if_neg, hgetp]
        exact fun he => hid (List.mem_map.mpr ⟨p, hp, he⟩)
      · rcases List.mem_append.mp hq with hq | hq
        · exact hrefp q hq
        · rw [List.mem_singleton.mp hq]
          exact fun he => hjob (List.mem_map.mpr ⟨p, hp, he.symm⟩)
    refine ⟨(db', newId jobId :: rest), ?_⟩
    simp only [createOutboxMessages, h₁, hrest, bind, Except.bind, pure, Except.pure]

end Rows

/-- **New ids make the last piece of a completion go through.** -/
theorem finishCompletion_of_fresh {db : Db} (hl : db.Linked) {settings : Settings}
    {videoId sessionId : UUID} {ids : IdStream} (hnone : db.renditionsOf videoId = [])
    (hfresh : FreshIds db ids) (uploadedAt completedAt : Timestamp) :
    ∃ result, finishCompletion settings db videoId sessionId ids uploadedAt completedAt =
      .ok result := by
  rw [finishCompletion]
  generalize hdb₀ : (db.setVideo videoId (uploadedVideo uploadedAt)).setSession sessionId
    (completedSession completedAt) = db₀
  have hrenditions : db₀.renditions = db.renditions := by rw [← hdb₀]; rfl
  have hjobs : db₀.jobs = db.jobs := by rw [← hdb₀]; rfl
  have hmessages : db₀.outboxMessages = db.outboxMessages := by rw [← hdb₀]; rfl
  have hnone₀ : db₀.renditionsOf videoId = [] := by
    rw [← hnone]
    exact Db.renditionsOf_congr hrenditions videoId
  have hresolution : ∀ preset ∈ defaultHlsRenditions, ∀ p ∈ db₀.renditions.rows,
      p.2.videoId = videoId → p.2.resolution ≠ preset.resolution := by
    intro preset _ p hp hv
    have hmem := Db.mem_renditionsOf.mpr ⟨Table.get?_eq_some_iff.mpr hp, hv⟩
    rw [hnone₀] at hmem
    cases hmem
  have hnew : ∀ k, 0 ≤ k → k < completionIds → db₀.renditions.get? (ids k) = none ∧
      db₀.jobs.get? (ids k) = none ∧ ∀ p ∈ db₀.jobs.rows, p.2.renditionId ≠ ids k := by
    intro k _ hk
    rw [hrenditions, hjobs]
    refine ⟨hfresh.renditions k hk, hfresh.jobs k hk, fun p hp he => ?_⟩
    obtain ⟨r, hr, -⟩ := hl.job_rendition p.1 p.2 (Table.get?_eq_some_iff.mpr hp)
    rw [he, hfresh.renditions k hk] at hr
    cases hr
  obtain ⟨⟨db₁, jobs⟩, h₁⟩ : ∃ result, createForPresets ids videoId settings.workerJobRetryCount
      defaultHlsRenditions 0 db₀ = .ok result :=
    createForPresets_of_fresh hfresh.apart defaultHlsRenditions 0 db₀ (by decide) (by decide)
      hresolution hnew
  have hcreate : createRenditionsAndJobs db₀ ids videoId settings.workerJobRetryCount =
      .ok (db₁, jobs) := by
    rw [createRenditionsAndJobs, if_neg (by simpa using hnone₀), h₁]
  simp only [hcreate, bind, Except.bind]
  obtain ⟨works, hpresets, rfl, -, hjobs₁, -, -, hmessages₁⟩ := createForPresets_eq_ok h₁
  have hkeys := Table.nodup_keys_append hjobs₁
  have hlength : works.length = 6 := by
    rw [← List.length_map Prod.fst, hpresets]
    rfl
  generalize hjs : works.map (fun w => (w.2.2, newJob videoId w.2.1 settings.workerJobRetryCount)) =
    js at *
  have hjslength : (js.map Prod.fst).length = 6 := by
    rw [← hjs, List.length_map, List.length_map, hlength]
  have hidx : ∀ p ∈ js, (js.map Prod.fst).idxOf p.1 < 6 := fun p hp =>
    hjslength ▸ List.idxOf_lt_length_of_mem (List.mem_map_of_mem hp)
  refine createOutboxMessages_of_fresh js db₁ hkeys ?_ fun p hp => ⟨?_, fun q hq he => ?_⟩
  · refine List.Nodup.map_on ?_ (hkeys.of_map _)
    intro p hp q hq he
    have hpq := hfresh.apart _ _ (by have := hidx p hp; rw [completionIds]; omega)
      (by have := hidx q hq; rw [completionIds]; omega) he
    have hfst : p.1 = q.1 := (List.idxOf_inj (List.mem_map_of_mem hp)).mp (by omega)
    exact List.inj_on_of_nodup_map hkeys hp hq hfst
  · rw [hmessages₁, hmessages]
    exact hfresh.outboxMessages _ (by have := hidx p hp; rw [completionIds]; omega)
  · rw [hmessages₁, hmessages] at hq
    obtain ⟨job, hjob, -⟩ := hl.outbox_job q.1 q.2 (Table.get?_eq_some_iff.mpr hq)
    have hnew := Table.get?_eq_none_of_mem_append hjobs₁ hp
    rw [hjobs, ← he, hjob] at hnew
    cases hnew

end RenditionPipeline
