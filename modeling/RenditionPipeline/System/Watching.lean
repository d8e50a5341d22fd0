import RenditionPipeline.Browser.Dashboard
import RenditionPipeline.Library.Progress
import RenditionPipeline.Services.Listing
import RenditionPipeline.System.Finished

/-!
# Watching the system

The dashboard loads the list of videos and polls their states while the system goes on. None
of this is in order: a poll begins every ten seconds whether or not the one before has come
to its end, its requests are answered one by one, its rows are those of the last rendering,
and a list may be shown long after it has been read. A poll that has taken long may overwrite
what a later one has shown.

Still no row shows anything that has not been so: its status, its progress and its count of
renditions are those of one state of the video, which the API has answered at some moment of
the run. And what it shows as done is done, since what the API says of such a video is final
(`RenditionPipeline.shown_row_was_answered`).
-/

namespace RenditionPipeline

/-! ### The dashboard -/

/-- `toUploadedVideo` -/
def toUploadedVideo (video : VideoListItem) : UploadedVideo where
  videoId := some video.videoId
  status := mapVideoStatus video.status
  progress := progressForVideoStatus video.status
  renditionProgress := some (renditionProgressFromRenditions video.renditions)

/-- The `page_size` that the router takes when none is asked for. -/
def defaultPageSize : PageSize := ⟨20, by decide, by decide⟩

/-- A poll under way: the rows from which it has begun, and the states that have come. The
system as it was at its beginning is an observer's; no code reads it. -/
structure Poll where
  requested : List UploadedVideo
  statesByVideoId : UUID → Option VideoState
  since : System

/-- **The dashboard**, and the system that it watches. -/
structure Dashboard where
  system : System
  videos : List UploadedVideo
  /-- The rows of the last rendering. -/
  videosRef : List UploadedVideo
  polls : List Poll
  /-- The lists that have been answered and are not shown yet. -/
  lists : List (List VideoListItem)

/-- A step of the dashboard, or of the system. -/
inductive DashboardAction where
  | system (action : Action)
  /-- The rows are rendered. -/
  | render
  /-- The timer starts a poll. -/
  | pollVideoStates
  /-- The API answers one request of a poll. -/
  | getVideoState (poll : ℕ) (videoId : UUID)
  /-- The last answer of a poll has come. -/
  | showStates (poll : ℕ)
  /-- The API answers a request for the list, in some order of its rows. -/
  | listVideos (order : (db : Db) → RowOrder db none)
  /-- A list has come. -/
  | loadVideos (list : ℕ)

namespace Dashboard

/-- The dashboard when it is opened. -/
def initial : Dashboard := ⟨System.start, [], [], [], []⟩

/-- **A step.** A poll or a load one of whose requests raises changes nothing, and is one
that never comes to its end. -/
def step (d : Dashboard) : DashboardAction → Option Dashboard
  | .system action => (d.system.step action).map fun system => { d with system := system }
  | .render => some { d with videosRef := d.videos }
  | .pollVideoStates =>
    if pollableVideos d.videosRef = [] then some d
    else some { d with polls := ⟨d.videosRef, fun _ => none, d.system⟩ :: d.polls }
  | .getVideoState index videoId =>
    match d.polls[index]?, RenditionPipeline.getVideoState d.system.db videoId with
    | some poll, some state =>
      if videoId ∈ pollableVideos poll.requested then some { d with
        polls := d.polls.set index { poll with
          statesByVideoId := Function.update poll.statesByVideoId videoId (some state) } }
      else none
    | _, _ => none
  | .showStates index =>
    match d.polls[index]? with
    | none => none
    | some poll =>
      if (pollableVideos poll.requested).all fun videoId =>
          (poll.statesByVideoId videoId).isSome then
        some { d with
          videos := RenditionPipeline.pollVideoStates poll.statesByVideoId poll.requested d.videos
          polls := d.polls.eraseIdx index }
      else none
  | .listVideos order =>
    let items := RenditionPipeline.listVideos d.system.db (order d.system.db) 1 defaultPageSize
    some { d with lists := items :: d.lists }
  | .loadVideos index =>
    match d.lists[index]? with
    | none => none
    | some items => some { d with
        videos := items.map toUploadedVideo
        lists := d.lists.eraseIdx index }

/-- The steps of the system meet a condition. -/
def Watches (guard : System → Action → Prop) (d : Dashboard) : DashboardAction → Prop
  | .system action => guard d.system action
  | _ => True

instance (guard : System → Action → Prop) [∀ s a, Decidable (guard s a)] (d : Dashboard)
    (a : DashboardAction) : Decidable (Watches guard d a) := by
  unfold Watches
  split <;> exact inferInstance

/-- A poll comes to its end when all its requests have been answered. -/
theorem step_showStates {d d' : Dashboard} {index : ℕ} (h : d.step (.showStates index) = some d') :
    ∃ poll, d.polls[index]? = some poll ∧
      (∀ videoId ∈ pollableVideos poll.requested,
        (poll.statesByVideoId videoId).isSome = true) ∧
      { d with
        videos := RenditionPipeline.pollVideoStates poll.statesByVideoId poll.requested d.videos
        polls := d.polls.eraseIdx index } = d' := by
  simp only [step] at h
  split at h
  · cases h
  · rename_i poll hpoll
    split_ifs at h with hall
    exact ⟨poll, hpoll, List.all_eq_true.mp hall, Option.some.inj h⟩

end Dashboard

/-- The states of the dashboard in runs whose steps of the system meet a condition. -/
abbrev ReachableDashboard (guard : System → Action → Prop) (d : Dashboard) : Prop :=
  Reaches Dashboard.step (Dashboard.Watches guard) (· = Dashboard.initial) d

/-! ### What the API has answered -/

/-- **A state was told** between two moments of a run: it is what the API answered then. -/
def Told (guard : System → Action → Prop) (since s : System) (videoId : UUID)
    (state : VideoState) : Prop :=
  ∃ s₀, Leads System.step guard since s₀ ∧ Leads System.step guard s₀ s ∧
    getVideoState s₀.db videoId = some state

/-- **A row shows a state that was told**, and nothing else. -/
def Shows (guard : System → Action → Prop) (since s : System) (row : UploadedVideo) : Prop :=
  ∃ videoId state, row.videoId = some videoId ∧ Told guard since s videoId state ∧
    row.withState state = row

section Telling

variable {guard : System → Action → Prop} {since s s' : System} {videoId : UUID}
  {state : VideoState} {row : UploadedVideo}

theorem Told.now (hs : Leads System.step guard since s)
    (h : getVideoState s.db videoId = some state) : Told guard since s videoId state :=
  ⟨s, hs, Leads.refl s, h⟩

/-- The system goes on. -/
theorem Told.step (h : Told guard since s videoId state) {a : Action} (hg : guard s a)
    (hstep : s.step a = some s') : Told guard since s' videoId state := by
  obtain ⟨s₀, hs₀, hleads, hstate⟩ := h
  exact ⟨s₀, hs₀, hleads.trans (Leads.single hg hstep), hstate⟩

theorem Shows.step (h : Shows guard since s row) {a : Action} (hg : guard s a)
    (hstep : s.step a = some s') : Shows guard since s' row := by
  obtain ⟨videoId, state, hid, htold, hrow⟩ := h
  exact ⟨videoId, state, hid, htold.step hg hstep, hrow⟩

/-- What was told since a moment was told since an earlier one. -/
theorem Told.earlier (h : Told guard since s videoId state) {before : System}
    (hbefore : Leads System.step guard before since) : Told guard before s videoId state := by
  obtain ⟨s₀, hs₀, hleads, hstate⟩ := h
  exact ⟨s₀, hbefore.trans hs₀, hleads, hstate⟩

/-- A row with an answer written into it shows the answer. -/
theorem Told.shows (h : Told guard since s videoId state) (hid : row.videoId = some videoId) :
    Shows guard since s (row.withState state) :=
  ⟨videoId, state, hid, h, rfl⟩

/-- **The items of a list show the states** of their videos. -/
theorem shows_listVideos (hs : Leads System.step guard since s) (order : RowOrder s.db none)
    (page : ℕ) (pageSize : PageSize) {item : VideoListItem}
    (hitem : item ∈ listVideos s.db order page pageSize) :
    Shows guard since s (toUploadedVideo item) := by
  obtain ⟨⟨videoId, video⟩, hrow, rfl⟩ := List.mem_map.mp hitem
  have hmem : (videoId, video) ∈ matchingVideos s.db none :=
    order.2.perm.mem_iff.mp (List.mem_of_mem_drop (List.mem_of_mem_take hrow))
  obtain ⟨hget, -⟩ := Table.mem_select.mp hmem
  refine ⟨videoId, ⟨videoId, video.status, (s.db.renditionsOf videoId).map fun p =>
    (p.2.resolution, p.2.status)⟩, rfl, Told.now hs ?_, rfl⟩
  rw [getVideoState, hget]
  rfl

/-- **What a poll leaves of a row**: one that it has asked for with the answer, or one that
was there, and whose video it has not asked for. -/
theorem mem_pollVideoStates {requested current : List UploadedVideo}
    {answers : UUID → Option VideoState} (hrow : row ∈ pollVideoStates answers requested current)
    (hall : ∀ videoId ∈ pollableVideos requested, (answers videoId).isSome = true) :
    (∃ row₀ ∈ current, ∃ videoId ∈ pollableVideos requested, ∃ state, row₀.videoId = some videoId ∧
      answers videoId = some state ∧ row = row₀.withState state) ∨
    (row ∈ current ∧
      ∀ videoId, row.videoId = some videoId → videoId ∉ pollableVideos requested) := by
  rw [pollVideoStates, if_pos (List.all_eq_true.mpr hall)] at hrow
  obtain ⟨row₀, hrow₀, rfl⟩ := List.mem_map.mp hrow
  rw [UploadedVideo.refreshed]
  split
  · rename_i hnone
    refine Or.inr ⟨hrow₀, fun videoId hid hasked => ?_⟩
    rw [hid, Option.bind_some, if_pos hasked] at hnone
    have hsome := hall videoId hasked
    rw [hnone] at hsome
    cases hsome
  · rename_i state hstate
    obtain ⟨videoId, hid, hanswer⟩ := Option.bind_eq_some_iff.mp hstate
    split_ifs at hanswer with hasked
    exact Or.inl ⟨row₀, hrow₀, videoId, hasked, state, hid, hanswer, rfl⟩

end Telling

/-! ### Every step -/

/-- **Everything that is shown, or is still to be shown, was told**, and what a poll has been
told, it was told since it began. -/
structure Truthful (guard : System → Action → Prop) (d : Dashboard) : Prop where
  reachable : ReachableSystem guard d.system
  videos : ∀ row ∈ d.videos, Shows guard System.start d.system row
  begun : ∀ poll ∈ d.polls, ReachableSystem guard poll.since ∧
    Leads System.step guard poll.since d.system
  polls : ∀ poll ∈ d.polls, ∀ videoId state, poll.statesByVideoId videoId = some state →
    Told guard poll.since d.system videoId state
  lists : ∀ items ∈ d.lists, ∀ item ∈ items,
    Shows guard System.start d.system (toUploadedVideo item)

section Truth

variable {guard : System → Action → Prop} {d d' : Dashboard}

theorem Truthful.initial : Truthful guard Dashboard.initial where
  reachable := Reaches.start rfl
  videos := fun _ h => by cases h
  begun := fun _ h => by cases h
  polls := fun _ h => by cases h
  lists := fun _ h => by cases h

/-- The system goes on. -/
theorem Truthful.system (h : Truthful guard d) {a : Action} {system : System}
    (hg : guard d.system a) (hstep : d.system.step a = some system) :
    Truthful guard { d with system := system } where
  reachable := Reaches.step h.reachable hg hstep
  videos := fun row hrow => (h.videos row hrow).step hg hstep
  begun := fun poll hpoll =>
    ⟨(h.begun poll hpoll).1, Reaches.step (h.begun poll hpoll).2 hg hstep⟩
  polls := fun poll hpoll videoId state hstate =>
    (h.polls poll hpoll videoId state hstate).step hg hstep
  lists := fun items hitems item hitem => (h.lists items hitems item hitem).step hg hstep

/-- A poll begins. -/
theorem Truthful.polled (h : Truthful guard d) (requested : List UploadedVideo) :
    Truthful guard { d with polls := ⟨requested, fun _ => none, d.system⟩ :: d.polls } where
  reachable := h.reachable
  videos := h.videos
  lists := h.lists
  begun := by
    intro poll hpoll
    rcases List.mem_cons.mp hpoll with rfl | hpoll
    · exact ⟨h.reachable, Leads.refl _⟩
    · exact h.begun poll hpoll
  polls := by
    intro poll hpoll
    rcases List.mem_cons.mp hpoll with rfl | hpoll
    · exact fun _ _ hstate => by cases hstate
    · exact h.polls poll hpoll

/-- A request of a poll is answered. -/
theorem Truthful.answered (h : Truthful guard d) {index : ℕ} {poll : Poll}
    (hpoll : d.polls[index]? = some poll) {videoId : UUID} {state : VideoState}
    (hstate : getVideoState d.system.db videoId = some state) :
    Truthful guard { d with
      polls := d.polls.set index { poll with
        statesByVideoId := Function.update poll.statesByVideoId videoId (some state) } } where
  reachable := h.reachable
  videos := h.videos
  lists := h.lists
  begun := by
    intro poll' hpoll'
    rcases List.mem_or_eq_of_mem_set hpoll' with hmem | rfl
    · exact h.begun poll' hmem
    · exact h.begun poll (List.mem_of_getElem? hpoll)
  polls := by
    intro poll' hpoll' videoId' state' hstate'
    rcases List.mem_or_eq_of_mem_set hpoll' with hmem | rfl
    · exact h.polls poll' hmem videoId' state' hstate'
    · by_cases hid : videoId' = videoId
      · subst hid
        simp only [Function.update_self, Option.some.injEq] at hstate'
        subst hstate'
        exact Told.now (h.begun poll (List.mem_of_getElem? hpoll)).2 hstate
      · simp only [Function.update_of_ne hid] at hstate'
        exact h.polls poll (List.mem_of_getElem? hpoll) videoId' state' hstate'

/-- A poll comes to its end. -/
theorem Truthful.shown (h : Truthful guard d) {index : ℕ} {poll : Poll}
    (hpoll : d.polls[index]? = some poll)
    (hall : ∀ videoId ∈ pollableVideos poll.requested,
      (poll.statesByVideoId videoId).isSome = true) :
    Truthful guard { d with
      videos := pollVideoStates poll.statesByVideoId poll.requested d.videos
      polls := d.polls.eraseIdx index } where
  reachable := h.reachable
  lists := h.lists
  begun := fun poll' hpoll' => h.begun poll' (List.mem_of_mem_eraseIdx hpoll')
  polls := fun poll' hpoll' => h.polls poll' (List.mem_of_mem_eraseIdx hpoll')
  videos := by
    intro row hrow
    have hmem := List.mem_of_getElem? hpoll
    rcases mem_pollVideoStates hrow hall with ⟨row₀, -, videoId, -, state, hid, hstate, rfl⟩ |
      ⟨hrow, -⟩
    · exact ((h.polls poll hmem videoId state hstate).earlier (h.begun poll hmem).1).shows hid
    · exact h.videos row hrow

/-- A list comes. -/
theorem Truthful.loaded (h : Truthful guard d) {index : ℕ} {items : List VideoListItem}
    (hitems : d.lists[index]? = some items) :
    Truthful guard { d with
      videos := items.map toUploadedVideo
      lists := d.lists.eraseIdx index } where
  reachable := h.reachable
  begun := h.begun
  polls := h.polls
  lists := fun items' hitems' => h.lists items' (List.mem_of_mem_eraseIdx hitems')
  videos := by
    intro row hrow
    obtain ⟨item, hitem, rfl⟩ := List.mem_map.mp hrow
    exact h.lists items (List.mem_of_getElem? hitems) item hitem

/-- **Every step keeps to what was told.** -/
theorem Truthful.step (h : Truthful guard d) {a : DashboardAction} (hg : d.Watches guard a)
    (hstep : d.step a = some d') : Truthful guard d' := by
  cases a with
  | system action =>
    obtain ⟨system, hsystem, rfl⟩ := Option.map_eq_some_iff.mp hstep
    exact h.system hg hsystem
  | render =>
    rw [← Option.some.inj hstep]
    exact { h with }
  | pollVideoStates =>
    simp only [Dashboard.step] at hstep
    split at hstep
    · rw [← Option.some.inj hstep]
      exact h
    · rw [← Option.some.inj hstep]
      exact h.polled d.videosRef
  | getVideoState index videoId =>
    simp only [Dashboard.step] at hstep
    split at hstep
    · rename_i poll state hpoll hstate
      split_ifs at hstep
      rw [← Option.some.inj hstep]
      exact h.answered hpoll hstate
    · cases hstep
  | showStates index =>
    obtain ⟨poll, hpoll, hall, rfl⟩ := Dashboard.step_showStates hstep
    exact h.shown hpoll hall
  | listVideos order =>
    rw [← Option.some.inj hstep]
    have hitems := fun item (hitem : item ∈ RenditionPipeline.listVideos d.system.db
      (order d.system.db) 1 defaultPageSize) => shows_listVideos h.reachable _ _ _ hitem
    exact { h with lists := List.forall_mem_cons.mpr ⟨hitems, h.lists⟩ }
  | loadVideos index =>
    simp only [Dashboard.step] at hstep
    split at hstep
    · cases hstep
    · rename_i items hitems
      rw [← Option.some.inj hstep]
      exact h.loaded hitems

theorem ReachableDashboard.truthful (h : ReachableDashboard guard d) : Truthful guard d := by
  refine h.invariant ?_ ?_
  · rintro _ rfl
    exact Truthful.initial
  · exact fun _ _ _ hd hg hstep => hd.step hg hstep

end Truth

/-! ### Rows that show a video as done -/

/-- No video is skipped. -/
def Db.NeverSkipped (db : Db) : Prop :=
  ∀ vid video, db.videos.get? vid = some video → video.status ≠ .skipped

theorem deriveVideoStatus_ne_skipped (statuses : List ProcessingStatus) :
    deriveVideoStatus statuses ≠ .skipped := by
  simp only [deriveVideoStatus]
  split_ifs <;> decide

theorem ReachableSystem.neverSkipped {guard : System → Action → Prop} {s : System}
    (h : ReachableSystem guard s) : s.db.NeverSkipped := by
  intro vid video hv
  by_cases hnil : s.db.renditionsOf vid = []
  · rcases h.unstarted vid video hv hnil with hstatus | hstatus <;> rw [hstatus] <;> decide
  · rw [h.coherent.derived vid video hv hnil]
    exact deriveVideoStatus_ne_skipped _

/-- A finished video is left alone by every run. -/
theorem Leads.sameVideo {guard : System → Action → Prop} {s s' : System} {videoId : UUID}
    (h : Leads System.step guard s s') (hs : ReachableSystem guard s)
    (hfinished : s.db.Finished videoId) : SameVideo videoId s.db s'.db := by
  induction h with
  | start hu =>
    subst hu
    exact SameVideo.refl videoId _
  | step hu hg hstep ih =>
    have hreach := Leads.reaches hu (fun _ _ h => h) hs
    exact ih.trans (System.sameVideo_of_step hreach (hfinished.of_sameVideo ih) hstep)

/-- **The renditions of a video that is done** count as completed, all of them that count. -/
theorem renditionProgress_of_done {db : Db} (hc : db.Coherent) {videoId : UUID} {video : Video}
    (hv : db.videos.get? videoId = some video) (hdone : video.status = .done)
    (hne : db.renditionsOf videoId ≠ []) :
    ∃ n, 0 < n ∧ renditionProgressFromRenditions
      ((db.renditionsOf videoId).map fun p => (p.2.resolution, p.2.status)) = (n, n) := by
  have hderived := hc.derived videoId video hv hne
  rw [hdone] at hderived
  obtain ⟨⟨status, hmem, rfl⟩, hall⟩ := deriveVideoStatus_eq_done hderived.symm
  obtain ⟨p, hp, hstatus⟩ := List.mem_map.mp hmem
  let relevant := ((db.renditionsOf videoId).map fun p => (p.2.resolution, p.2.status)).filter
    fun rendition => rendition.2 ≠ .skipped
  have hsame : relevant.filter (fun rendition => rendition.2 = .done) = relevant := by
    refine List.filter_eq_self.mpr fun rendition hrendition => ?_
    obtain ⟨hmem, hskip⟩ := List.mem_filter.mp hrendition
    obtain ⟨q, hq, rfl⟩ := List.mem_map.mp hmem
    have hor := hall q.2.status (List.mem_map.mpr ⟨q, hq, rfl⟩)
    simpa using hor.resolve_left (by simpa using hskip)
  refine ⟨relevant.length, List.length_pos_of_mem (a := (p.2.resolution, p.2.status)) ?_, ?_⟩
  · exact List.mem_filter.mpr ⟨List.mem_map.mpr ⟨p, hp, rfl⟩, by simp [hstatus]⟩
  · show ((relevant.filter fun rendition => rendition.2 = .done).length, relevant.length) = _
    rw [hsame]

/-- **What a row shows was answered, and what it shows as done is final.** Whatever the order
of the polls, of their answers and of the loads, of the renderings and of the steps of the
system: a row shows the status, the progress and the renditions of one state of its video,
which the API answered at some moment of the run. If it shows the video as done, this state
is still what the API answers, and the row shows all renditions that count as completed. -/
theorem shown_row_was_answered {guard : System → Action → Prop} {d : Dashboard}
    (h : ReachableDashboard guard d) {row : UploadedVideo} (hrow : row ∈ d.videos) :
    ∃ videoId s₀ state, row.videoId = some videoId ∧ ReachableSystem guard s₀ ∧
      Leads System.step guard s₀ d.system ∧ getVideoState s₀.db videoId = some state ∧
      row.withState state = row ∧
      (row.status = .done → getVideoState d.system.db videoId = some state ∧
        row.progress = 100 ∧ ∃ n, 0 < n ∧ row.renditionProgress = some (n, n)) := by
  obtain ⟨videoId, state, hid, ⟨s₀, hs₀, hleads, hstate⟩, hshown⟩ := h.truthful.videos row hrow
  have hs₀ : ReachableSystem guard s₀ := hs₀
  refine ⟨videoId, s₀, state, hid, hs₀, hleads, hstate, hshown, fun hdone => ?_⟩
  obtain ⟨video, hv, rfl⟩ := Option.map_eq_some_iff.mp hstate
  have hstatus : video.status = .done := by
    rw [← hshown] at hdone
    have hmapped : mapVideoStatus video.status = .done := hdone
    have hskipped := hs₀.neverSkipped videoId video hv
    cases hvideo : video.status <;> simp_all [mapVideoStatus]
  have hfinished := hs₀.finished_of_done hv hstatus
  refine ⟨(hleads.sameVideo hs₀ hfinished).answers.1.trans hstate, ?_, ?_⟩
  · rw [← hshown]
    show progressForVideoStatus video.status = 100
    rw [hstatus]
    rfl
  · obtain ⟨n, hn, hprogress⟩ := renditionProgress_of_done hs₀.coherent hv hstatus
      hfinished.nonempty
    refine ⟨n, hn, ?_⟩
    rw [← hshown]
    exact congrArg some hprogress

/-- The database takes the rows in the order in which they have been inserted. -/
def sampleOrder (db : Db) : RowOrder db none :=
  ⟨(matchingVideos db none).insertionSort fun a b => createdAtOf b ≤ createdAtOf a,
    Paging.ordered_insertionSort createdAtOf _⟩

/-- The list is loaded once a video is uploaded, and a poll begins; the video is encoded, and
another poll begins and is answered. -/
def sampleWatching : List DashboardAction :=
  (sampleUpload.map Action.request).map DashboardAction.system ++
    [.listVideos sampleOrder, .loadVideos 0, .render, .pollVideoStates] ++
    (samplePublishing ++ sampleEncoding ++ (List.replicate 5 sampleSkipping).flatten).map
      DashboardAction.system ++ [.pollVideoStates, .getVideoState 0 (sampleId 0)]

set_option maxRecDepth 2000 in
/-- The video is shown as done while the first poll is still under way. -/
theorem shown_row_was_answered_overlapping :
    ∃ d row state, ReachableDashboard Unguarded d ∧ d.polls.length = 1 ∧ d.videos = [row] ∧
      row.status = .done ∧ row.withState state = row ∧
      getVideoState d.system.db (sampleId 0) = some state := by
  obtain ⟨d, row, hrun, hpolls, hvideos, hid, hdone⟩ : ∃ d row,
      guardedRun Dashboard.step (Dashboard.Watches Unguarded) Dashboard.initial
        (sampleWatching ++ [.showStates 0]) = some d ∧ d.polls.length = 1 ∧ d.videos = [row] ∧
      row.videoId = some (sampleId 0) ∧ row.status = .done := ⟨_, _, rfl, rfl, rfl, rfl, rfl⟩
  have hreach : ReachableDashboard Unguarded d := Reaches.of_guardedRun (Reaches.start rfl) hrun
  have hrow : row ∈ d.videos := by
    rw [hvideos]
    exact List.mem_singleton_self row
  obtain ⟨videoId, -, state, hid', -, -, -, hshown, hfinal⟩ := shown_row_was_answered hreach hrow
  obtain rfl := Option.some.inj (hid.symm.trans hid')
  exact ⟨d, row, state, hreach, hpolls, hvideos, hdone, hshown, (hfinal hdone).1⟩

/-- **A poll that comes to its end has caught up** with the system as it was when the poll
began: each row of a video that it has asked for shows a state that the API has answered
since then, and a video that was done already is shown as done. -/
theorem ended_poll_catches_up {guard : System → Action → Prop} {d d' : Dashboard}
    (h : ReachableDashboard guard d) {index : ℕ} {poll : Poll}
    (hpoll : d.polls[index]? = some poll) (hstep : d.step (.showStates index) = some d')
    {row : UploadedVideo} (hrow : row ∈ d'.videos) {videoId : UUID}
    (hid : row.videoId = some videoId) (hasked : videoId ∈ pollableVideos poll.requested) :
    ∃ s₀ state, Leads System.step guard poll.since s₀ ∧ Leads System.step guard s₀ d'.system ∧
      getVideoState s₀.db videoId = some state ∧ row.withState state = row ∧
      ∀ video, poll.since.db.videos.get? videoId = some video → video.status = .done →
        row.status = .done := by
  obtain ⟨poll', hpoll', hall, rfl⟩ := Dashboard.step_showStates hstep
  obtain rfl : poll = poll' := Option.some.inj (hpoll.symm.trans hpoll')
  have hmem := List.mem_of_getElem? hpoll
  rcases mem_pollVideoStates hrow hall with
    ⟨row₀, -, videoId', -, state, hid₀, hstate, rfl⟩ | ⟨-, hnot⟩
  · obtain rfl : videoId = videoId' := Option.some.inj (hid.symm.trans hid₀)
    obtain ⟨s₀, hsince, hleads, htold⟩ := h.truthful.polls poll hmem videoId state hstate
    refine ⟨s₀, state, hsince, hleads, htold, rfl, fun video hv hdone => ?_⟩
    -- the state that was told is that of the beginning
    have hbegun := (h.truthful.begun poll hmem).1
    have hsame := hsince.sameVideo hbegun (hbegun.finished_of_done hv hdone)
    rw [getVideoState, hsame.video, hv] at htold
    rw [← Option.some.inj htold]
    show mapVideoStatus video.status = .done
    rw [hdone]
    rfl
  · exact absurd hasked (hnot videoId hid)

set_option maxRecDepth 2000 in
/-- The second poll has begun when the video was done, and shows it as done. -/
theorem ended_poll_catches_up_second :
    ∃ d d' row, ReachableDashboard Unguarded d ∧ d.polls.length = 2 ∧
      d.step (.showStates 0) = some d' ∧ d'.videos = [row] ∧ row.status = .done := by
  obtain ⟨d, d', row, poll, video, hrun, hpolls, hpoll, hstep, hvideos, hid, hasked, hv, hdone⟩ :
      ∃ d d' row poll video,
        guardedRun Dashboard.step (Dashboard.Watches Unguarded) Dashboard.initial
          sampleWatching = some d ∧ d.polls.length = 2 ∧ d.polls[0]? = some poll ∧
        d.step (.showStates 0) = some d' ∧ d'.videos = [row] ∧
        row.videoId = some (sampleId 0) ∧ pollableVideos poll.requested = [sampleId 0] ∧
        poll.since.db.videos.get? (sampleId 0) = some video ∧ video.status = .done :=
    ⟨_, _, _, _, _, rfl, rfl, rfl, rfl, rfl, rfl, rfl, rfl, rfl⟩
  have hreach : ReachableDashboard Unguarded d := Reaches.of_guardedRun (Reaches.start rfl) hrun
  have hrow : row ∈ d'.videos := by
    rw [hvideos]
    exact List.mem_singleton_self row
  have hmem : sampleId 0 ∈ pollableVideos poll.requested := by
    rw [hasked]
    exact List.mem_singleton_self _
  obtain ⟨-, -, -, -, -, -, hshown⟩ := ended_poll_catches_up hreach hpoll hstep hrow hid hmem
  exact ⟨d, d', row, hreach, hpolls, hstep, hvideos, hshown video hv hdone⟩

end RenditionPipeline
