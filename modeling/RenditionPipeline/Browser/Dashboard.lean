import RenditionPipeline.Browser.Controller

/-!
# The dashboard of the browser

The dashboard shows a row for each video, and asks the API again and again for the
states of those whose status may still change (`RenditionPipeline.isPollableStatus`).
A poll asks for the rows as they are when it begins, and writes the answers into the
rows as they are when the last answer has come
(`RenditionPipeline.pollVideoStates`); a row that it has not asked for stays as it is,
so that a status which is not polled is shown for good
(`RenditionPipeline.mem_pollVideoStates_of_not_polled`).
-/

namespace RenditionPipeline

/-- `isPollableStatus` -/
def isPollableStatus (status : VideoStatus) : Bool :=
  status = .pending || status = .processing || status = .partialStatus

/-- `progressForVideoStatus` -/
def progressForVideoStatus : ProcessingStatus → ℕ
  | .done => 100
  | .skipped => 100
  | .failed => 0
  | .partialStatus => 75
  | _ => 25

/-- `UploadedVideo`: a row of the dashboard. -/
structure UploadedVideo where
  videoId : Option UUID
  status : VideoStatus
  progress : ℕ
  /-- How many renditions are completed, and of how many. -/
  renditionProgress : Option (ℕ × ℕ)
deriving DecidableEq

/-- `renditionProgressFromRenditions` -/
def renditionProgressFromRenditions (renditions : List (String × ProcessingStatus)) : ℕ × ℕ :=
  let relevantRenditions := renditions.filter fun rendition => rendition.2 ≠ .skipped
  ((relevantRenditions.filter fun rendition => rendition.2 = .done).length,
    relevantRenditions.length)

/-- The videos that a poll asks for. -/
def pollableVideos (rows : List UploadedVideo) : List UUID :=
  rows.filterMap fun row => if isPollableStatus row.status then row.videoId else none

namespace UploadedVideo

/-- A row with the state that has come for it. -/
def withState (row : UploadedVideo) (state : VideoState) : UploadedVideo :=
  { row with
    status := mapVideoStatus state.status
    progress := progressForVideoStatus state.status
    renditionProgress := some (renditionProgressFromRenditions state.renditions) }

/-- What a poll makes of a row. -/
def refreshed (row : UploadedVideo) (statesByVideoId : UUID → Option VideoState) :
    UploadedVideo :=
  match row.videoId.bind statesByVideoId with
  | none => row
  | some state => row.withState state

end UploadedVideo

/-- **`pollVideoStates`**, of the rows when it begins and the rows when the answers have
come. A request that raises, or that finds no video, leaves all rows as they are. -/
def pollVideoStates (answers : UUID → Option VideoState)
    (requested current : List UploadedVideo) : List UploadedVideo :=
  if (pollableVideos requested).all fun videoId => (answers videoId).isSome then
    current.map fun row => row.refreshed fun videoId =>
      if videoId ∈ pollableVideos requested then answers videoId else none
  else current

section Polls

variable {answers : UUID → Option VideoState} {requested current : List UploadedVideo}
  {row : UploadedVideo} {videoId : UUID}

/-- A video is asked for when one of its rows can still change. -/
theorem mem_pollableVideos : videoId ∈ pollableVideos requested ↔
    ∃ row ∈ requested, row.videoId = some videoId ∧ isPollableStatus row.status = true := by
  rw [pollableVideos, List.mem_filterMap]
  refine exists_congr fun row => and_congr_right fun _ => ?_
  by_cases hpollable : isPollableStatus row.status = true <;> simp [hpollable]

/-- **A row that is not asked for stays** as it is, whatever is answered. -/
theorem mem_pollVideoStates_of_not_polled (hrow : row ∈ current)
    (hid : row.videoId = some videoId) (hnot : videoId ∉ pollableVideos requested) :
    row ∈ pollVideoStates answers requested current := by
  rw [pollVideoStates]
  split
  · refine List.mem_map.mpr ⟨row, hrow, ?_⟩
    rw [UploadedVideo.refreshed, hid, Option.bind_some, if_neg hnot]
  · exact hrow

/-- A row that is asked for shows the status that is answered, if all requests are. -/
theorem mem_pollVideoStates_of_polled {state : VideoState} (hrow : row ∈ current)
    (hid : row.videoId = some videoId) (hpolled : videoId ∈ pollableVideos requested)
    (hstate : answers videoId = some state)
    (hall : ∀ id ∈ pollableVideos requested, (answers id).isSome = true) :
    row.withState state ∈ pollVideoStates answers requested current := by
  rw [pollVideoStates, if_pos (List.all_eq_true.mpr hall)]
  refine List.mem_map.mpr ⟨row, hrow, ?_⟩
  rw [UploadedVideo.refreshed, hid, Option.bind_some, if_pos hpolled, hstate]

end Polls

end RenditionPipeline
