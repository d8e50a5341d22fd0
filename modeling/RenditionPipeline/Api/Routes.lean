import RenditionPipeline.Api.Handlers
import RenditionPipeline.Library.Routes

/-!
# The routes of the API

The routers of `api/routers` are included one after another under the prefix of the API, and
the browser, which has no other knowledge of them, builds its paths in
`frontend/src/components/uploads/api.ts`. Its paths are also the only ones: a request reaches a
handler with the arguments of a `RenditionPipeline.VideoRequest` just when its path is the one
that the browser would build, up to the spelling of the id
(`RenditionPipeline.Framework.dispatch_eq_some_iff`). How the routes are told apart, how the
text of an id is read, and how a body is, is the business of the framework, which is a
parameter.
-/

namespace RenditionPipeline

open Routes

/-- The methods of requests. -/
inductive Method where
  | get
  | post
  | delete
deriving DecidableEq

/-- The handlers of `api/routers`. -/
inductive Endpoint where
  | root
  | live
  | ready
  | getUploadConfig
  | getVideos
  | createVideo
  | getVideo
  | getPlayback
  | getPlaybackMasterPlaylist
  | getPlaybackVariantPlaylist
  | completeUpload
  | refreshUpload
  | abortUpload
deriving DecidableEq

/-- The router of `root.py`. -/
def rootRouter : Router Method Endpoint := ⟨"", [⟨.get, "/", .root⟩]⟩

/-- The router of `health.py`. -/
def healthRouter : Router Method Endpoint :=
  ⟨"/health", [⟨.get, "/live", .live⟩, ⟨.get, "/ready", .ready⟩]⟩

/-- The router of `videos.py`. -/
def videosRouter : Router Method Endpoint :=
  ⟨"/videos",
    [⟨.get, "/upload/config", .getUploadConfig⟩,
      ⟨.get, "", .getVideos⟩,
      ⟨.post, "", .createVideo⟩,
      ⟨.get, "/\x7bvideo_id\x7d", .getVideo⟩,
      ⟨.get, "/\x7bvideo_id\x7d/playback", .getPlayback⟩,
      ⟨.get, "/\x7bvideo_id\x7d/playback/master.m3u8", .getPlaybackMasterPlaylist⟩,
      ⟨.get, "/\x7bvideo_id\x7d/playback/\x7bresolution\x7d/index.m3u8",
        .getPlaybackVariantPlaylist⟩,
      ⟨.post, "/\x7bvideo_id\x7d/upload/complete", .completeUpload⟩,
      ⟨.post, "/\x7bvideo_id\x7d/upload/refresh", .refreshUpload⟩,
      ⟨.delete, "/\x7bvideo_id\x7d/upload", .abortUpload⟩]⟩

/-- `API_PREFIX` -/
def apiPrefix : String := "/api/v1"

/-- The routers that `app` includes. -/
def app : Application Method Endpoint :=
  [(apiPrefix, rootRouter), (apiPrefix, healthRouter), (apiPrefix, videosRouter)]

/-- The pieces that all patterns begin with. -/
def under (pieces : List Piece) : List Piece :=
  .literal "" :: .literal "api" :: .literal "v1" :: pieces

/-- The routes, each with its method, its pattern and its handler. -/
theorem patterns_app : (app.routes.map fun r => (r.method, r.pattern, r.endpoint)) =
    [(.get, under [.literal ""], .root),
      (.get, under [.literal "health", .literal "live"], .live),
      (.get, under [.literal "health", .literal "ready"], .ready),
      (.get, under [.literal "videos", .literal "upload", .literal "config"], .getUploadConfig),
      (.get, under [.literal "videos"], .getVideos),
      (.post, under [.literal "videos"], .createVideo),
      (.get, under [.literal "videos", .param], .getVideo),
      (.get, under [.literal "videos", .param, .literal "playback"], .getPlayback),
      (.get, under [.literal "videos", .param, .literal "playback", .literal "master.m3u8"],
        .getPlaybackMasterPlaylist),
      (.get, under [.literal "videos", .param, .literal "playback", .param,
        .literal "index.m3u8"], .getPlaybackVariantPlaylist),
      (.post, under [.literal "videos", .param, .literal "upload", .literal "complete"],
        .completeUpload),
      (.post, under [.literal "videos", .param, .literal "upload", .literal "refresh"],
        .refreshUpload),
      (.delete, under [.literal "videos", .param, .literal "upload"], .abortUpload)] := by
  decide +kernel

theorem plain_app : app.Plain := ⟨by decide, by decide +kernel⟩

/-- **No two routes clash.** -/
theorem unambiguous_app : Unambiguous app.routes := by
  decide +kernel

/-! ### The calls of the browser -/

/-- What is sent as the body of a call. -/
inductive Body where
  | create (payload : VideoCreateRequest)
  | complete (parts : List CompletedUploadPart)
  | refresh (partCount : ℤ)
deriving DecidableEq

/-- A call of `fetch`, whose body, if it has one, is of type `β`. -/
structure Fetch (β : Type) where
  method : Method
  path : String
  body : Option β
deriving DecidableEq

/-- `API_BASE_URL`, as it is by default. -/
def apiBaseUrl : String := "/api/v1"

namespace ApiClient

/-- `createVideoUpload` -/
def createVideoUpload (payload : VideoCreateRequest) : Fetch Body :=
  ⟨.post, apiBaseUrl ++ "/videos", some (.create payload)⟩

/-- `getVideoState` -/
def getVideoState (videoId : String) : Fetch Body :=
  ⟨.get, apiBaseUrl ++ "/videos/" ++ videoId, none⟩

/-- `getVideoPlayback` -/
def getVideoPlayback (videoId : String) : Fetch Body :=
  ⟨.get, apiBaseUrl ++ "/videos/" ++ videoId ++ "/playback", none⟩

/-- `refreshVideoUpload` -/
def refreshVideoUpload (videoId : String) (partCount : ℤ) : Fetch Body :=
  ⟨.post, apiBaseUrl ++ "/videos/" ++ videoId ++ "/upload/refresh", some (.refresh partCount)⟩

/-- `completeVideoUpload` -/
def completeVideoUpload (videoId : String) (parts : List CompletedUploadPart) : Fetch Body :=
  ⟨.post, apiBaseUrl ++ "/videos/" ++ videoId ++ "/upload/complete", some (.complete parts)⟩

/-- `abortVideoUpload` -/
def abortVideoUpload (videoId : String) : Fetch Body :=
  ⟨.delete, apiBaseUrl ++ "/videos/" ++ videoId ++ "/upload", none⟩

/-- An address in a playlist or in the playback, as a player gets it. -/
def follow {β : Type} (path : String) : Fetch β := ⟨.get, path, none⟩

end ApiClient

/-! ### The framework -/

/-- The paths under which the framework serves its own pages, as it does by default. -/
def ownPath (path : String) : Prop :=
  path ∈ ["/openapi.json", "/docs", "/docs/oauth2-redirect", "/redoc"]

instance (path : String) : Decidable (ownPath path) := by
  unfold ownPath
  exact inferInstance

/-- What stands between a request and its handler: how the endpoint is found, how an id is
read, and how bodies are, as far as their fields go. -/
structure Framework (β : Type) where
  dispatcher : Dispatcher Method Endpoint
  parseUuid : String → Option UUID
  readCreate : β → Option VideoCreateRequest
  readComplete : β → Option (List CompletedUploadPart)
  readRefresh : β → Option ℤ

namespace Framework

variable {β : Type} (framework : Framework β)

/-- The request that a handler gets, from the parameters of the path and the body. -/
def request : Endpoint → List String → Option β → Option VideoRequest
  | .createVideo, [], body => (body.bind framework.readCreate).map .createVideo
  | .getVideo, [id], _ => (framework.parseUuid id).map .getVideo
  | .getPlayback, [id], _ => (framework.parseUuid id).map .getPlayback
  | .getPlaybackMasterPlaylist, [id], _ =>
    (framework.parseUuid id).map .getPlaybackMasterPlaylist
  | .getPlaybackVariantPlaylist, [id, resolution], _ =>
    (framework.parseUuid id).map fun videoId => .getPlaybackVariantPlaylist videoId resolution
  | .completeUpload, [id], body => (framework.parseUuid id).bind fun videoId =>
    (body.bind framework.readComplete).map (.completeUpload videoId)
  | .refreshUpload, [id], body => (framework.parseUuid id).bind fun videoId =>
    (body.bind framework.readRefresh).map (.refreshUpload videoId)
  | .abortUpload, [id], _ => (framework.parseUuid id).map .abortUpload
  | _, _, _ => none

/-- The request about a video that a call is, if it is one. -/
def dispatch (app : Application Method Endpoint) (call : Fetch β) : Option VideoRequest :=
  (framework.dispatcher app call.method call.path).bind fun found =>
    framework.request found.1 found.2 call.body

/-- Whether a body is read as what the browser sends. -/
def Reads (body : Option β) : Body → Prop
  | .create payload => body.bind framework.readCreate = some payload
  | .complete parts => body.bind framework.readComplete = some parts
  | .refresh partCount => body.bind framework.readRefresh = some partCount

end Framework

namespace VideoRequest

/-- The handler of a request. -/
def endpoint : VideoRequest → Endpoint
  | createVideo _ => .createVideo
  | getVideo _ => .getVideo
  | getPlayback _ => .getPlayback
  | getPlaybackMasterPlaylist _ => .getPlaybackMasterPlaylist
  | getPlaybackVariantPlaylist _ _ => .getPlaybackVariantPlaylist
  | completeUpload _ _ => .completeUpload
  | refreshUpload _ _ => .refreshUpload
  | abortUpload _ => .abortUpload

/-- The video that a request names. -/
def videoId? : VideoRequest → Option UUID
  | createVideo _ => none
  | getVideo videoId | getPlayback videoId | getPlaybackMasterPlaylist videoId
  | getPlaybackVariantPlaylist videoId _ | completeUpload videoId _ | refreshUpload videoId _
  | abortUpload videoId => some videoId

/-- The pattern of the paths of a handler. -/
def pattern : VideoRequest → List Piece
  | createVideo _ => under [.literal "videos"]
  | getVideo _ => under [.literal "videos", .param]
  | getPlayback _ => under [.literal "videos", .param, .literal "playback"]
  | getPlaybackMasterPlaylist _ =>
    under [.literal "videos", .param, .literal "playback", .literal "master.m3u8"]
  | getPlaybackVariantPlaylist _ _ =>
    under [.literal "videos", .param, .literal "playback", .param, .literal "index.m3u8"]
  | completeUpload _ _ => under [.literal "videos", .param, .literal "upload", .literal "complete"]
  | refreshUpload _ _ => under [.literal "videos", .param, .literal "upload", .literal "refresh"]
  | abortUpload _ => under [.literal "videos", .param, .literal "upload"]

/-- The parameters of the path, where the video is spelled in one way. -/
def args (id : String) : VideoRequest → List String
  | createVideo _ => []
  | getPlaybackVariantPlaylist _ resolution => [id, resolution]
  | _ => [id]

/-- The pieces of the path, where the video is spelled in one way. -/
def pieces (id : String) : VideoRequest → List String
  | createVideo _ => ["", "api", "v1", "videos"]
  | getVideo _ => ["", "api", "v1", "videos", id]
  | getPlayback _ => ["", "api", "v1", "videos", id, "playback"]
  | getPlaybackMasterPlaylist _ => ["", "api", "v1", "videos", id, "playback", "master.m3u8"]
  | getPlaybackVariantPlaylist _ resolution =>
    ["", "api", "v1", "videos", id, "playback", resolution, "index.m3u8"]
  | completeUpload _ _ => ["", "api", "v1", "videos", id, "upload", "complete"]
  | refreshUpload _ _ => ["", "api", "v1", "videos", id, "upload", "refresh"]
  | abortUpload _ => ["", "api", "v1", "videos", id, "upload"]

/-- The call that makes a request, where the video is spelled in one way. -/
def call (id : String) : VideoRequest → Fetch Body
  | createVideo payload => ApiClient.createVideoUpload payload
  | getVideo _ => ApiClient.getVideoState id
  | getPlayback _ => ApiClient.getVideoPlayback id
  | getPlaybackMasterPlaylist _ =>
    ApiClient.follow ("/api/v1/videos/" ++ id ++ "/playback/master.m3u8")
  | getPlaybackVariantPlaylist _ resolution =>
    ApiClient.follow ("/api/v1/videos/" ++ id ++ "/playback/" ++ resolution ++ "/index.m3u8")
  | completeUpload _ parts => ApiClient.completeVideoUpload id parts
  | refreshUpload _ partCount => ApiClient.refreshVideoUpload id partCount
  | abortUpload _ => ApiClient.abortVideoUpload id

end VideoRequest

/-- A text that may stand between two slashes of a path. -/
def IsSegment (text : String) : Prop := text ≠ "" ∧ '/' ∉ text.toList

instance (text : String) : Decidable (IsSegment text) := by
  unfold IsSegment
  exact inferInstance

section Handlers

variable {request : VideoRequest} {id path : String}

/-- Each request has a route. -/
theorem exists_route_app (request : VideoRequest) (id : String) : ∃ r ∈ app.routes,
    r.method = (request.call id).method ∧ r.pattern = request.pattern ∧
      r.endpoint = request.endpoint := by
  have hmem : ((request.call id).method, request.pattern, request.endpoint) ∈
      app.routes.map fun r => (r.method, r.pattern, r.endpoint) := by
    rw [patterns_app]
    cases request <;> simp [VideoRequest.call, VideoRequest.pattern, VideoRequest.endpoint,
      ApiClient.createVideoUpload, ApiClient.getVideoState, ApiClient.getVideoPlayback,
      ApiClient.follow, ApiClient.completeVideoUpload, ApiClient.refreshVideoUpload,
      ApiClient.abortVideoUpload]
  obtain ⟨r, hr, he⟩ := List.mem_map.mp hmem
  obtain ⟨hmethod, hpattern, hendpoint⟩ : _ ∧ _ ∧ _ := by simpa only [Prod.mk.injEq] using he
  exact ⟨r, hr, hmethod, hpattern, hendpoint⟩

/-- The route of a handler has its method and its pattern. -/
theorem route_app {r : Route Method Endpoint} (hr : r ∈ app.routes)
    (he : r.endpoint = request.endpoint) (id : String) :
    r.method = (request.call id).method ∧ r.pattern = request.pattern := by
  have hmem : (r.method, r.pattern, r.endpoint) ∈
      app.routes.map fun r => (r.method, r.pattern, r.endpoint) := List.mem_map_of_mem hr
  rw [patterns_app, he] at hmem
  cases request <;> simpa [VideoRequest.call, VideoRequest.pattern, VideoRequest.endpoint,
    ApiClient.createVideoUpload, ApiClient.getVideoState, ApiClient.getVideoPlayback,
    ApiClient.follow, ApiClient.completeVideoUpload, ApiClient.refreshVideoUpload,
    ApiClient.abortVideoUpload] using hmem

theorem fill_pattern_eq {pieces : List String} :
    fill request.pattern (request.args id) = some pieces ↔
      (∀ text ∈ request.args id, text ≠ "") ∧ pieces = request.pieces id := by
  cases request <;> simp [VideoRequest.pattern, VideoRequest.args, VideoRequest.pieces, under, fill,
    @eq_comm _ pieces, and_assoc]

theorem join_pieces : Text.join "/" (request.pieces id) = (request.call id).path := by
  rw [← String.toList_inj]
  cases request <;> simp [Text.join, VideoRequest.pieces, VideoRequest.call,
    ApiClient.createVideoUpload, ApiClient.getVideoState, ApiClient.getVideoPlayback,
    ApiClient.follow, ApiClient.completeVideoUpload, ApiClient.refreshVideoUpload,
    ApiClient.abortVideoUpload, apiBaseUrl]

theorem apart_pieces_iff :
    Text.Apart '/' (request.pieces id) ↔ ∀ text ∈ request.args id, '/' ∉ text.toList := by
  cases request <;> simp [Text.Apart, VideoRequest.pieces, VideoRequest.args]

/-- **A path is filled in** with segments to give the path of a call. -/
theorem fill_pattern_iff :
    fill request.pattern (request.args id) = some (Text.split path '/') ↔
      (∀ text ∈ request.args id, IsSegment text) ∧ path = (request.call id).path := by
  have hne : request.pieces id ≠ [] := by cases request <;> exact List.cons_ne_nil _ _
  rw [fill_pattern_eq, Text.split_eq_iff hne, apart_pieces_iff]
  have hjoin : Text.join (String.singleton '/') (request.pieces id) = (request.call id).path :=
    join_pieces
  rw [hjoin, ← and_assoc]
  simp only [IsSegment, forall_and]

/-- No page of the framework has the path of a call. -/
theorem not_ownPath_call : ¬ownPath (request.call id).path := by
  have hstart : Text.startsWith (request.call id).path "/api" = true := by
    cases request <;> simp [Text.startsWith, VideoRequest.call, ApiClient.createVideoUpload,
      ApiClient.getVideoState, ApiClient.getVideoPlayback, ApiClient.follow,
      ApiClient.completeVideoUpload, ApiClient.refreshVideoUpload, ApiClient.abortVideoUpload,
      apiBaseUrl, List.isPrefixOf]
  intro hown
  have hpages : ∀ page ∈ ["/openapi.json", "/docs", "/docs/oauth2-redirect", "/redoc"],
      Text.startsWith page "/api" = false := by decide
  rw [hpages _ hown] at hstart
  cases hstart

end Handlers

namespace Framework

variable {β : Type} {framework : Framework β} {routers : Application Method Endpoint}
  {call : Fetch β} {request : VideoRequest}

/-- What a handler makes of its parameters and the body. -/
theorem request_eq_some_iff {e : Endpoint} {args : List String} {body : Option β} :
    framework.request e args body = some request ↔ e = request.endpoint ∧ ∃ id,
      args = request.args id ∧
      (∀ videoId, request.videoId? = some videoId → framework.parseUuid id = some videoId) ∧
      ∀ sent, (request.call id).body = some sent → framework.Reads body sent := by
  constructor
  · intro h
    unfold Framework.request at h
    split at h
    case h_9 => cases h
    case h_1 =>
      obtain ⟨payload, hpayload, rfl⟩ := Option.map_eq_some_iff.mp h
      refine ⟨rfl, "", rfl, nofun, fun sent hsent => ?_⟩
      obtain rfl := Option.some.inj hsent
      exact hpayload
    case h_6 | h_7 =>
      obtain ⟨videoId, hid, hread⟩ := Option.bind_eq_some_iff.mp h
      obtain ⟨said, hsaid, rfl⟩ := Option.map_eq_some_iff.mp hread
      refine ⟨rfl, _, rfl, fun v hv => ?_, fun sent hsent => ?_⟩
      · obtain rfl := Option.some.inj hv
        exact hid
      · obtain rfl := Option.some.inj hsent
        exact hsaid
    all_goals
      obtain ⟨videoId, hid, rfl⟩ := Option.map_eq_some_iff.mp h
      refine ⟨rfl, _, rfl, fun v hv => ?_, nofun⟩
      obtain rfl := Option.some.inj hv
      exact hid
  · rintro ⟨rfl, id, rfl, hid, hbody⟩
    cases request with
    | createVideo payload =>
      exact Option.map_eq_some_iff.mpr ⟨payload, hbody (.create payload) rfl, rfl⟩
    | completeUpload videoId parts =>
      exact Option.bind_eq_some_iff.mpr ⟨videoId, hid videoId rfl,
        Option.map_eq_some_iff.mpr ⟨parts, hbody (.complete parts) rfl, rfl⟩⟩
    | refreshUpload videoId partCount =>
      exact Option.bind_eq_some_iff.mpr ⟨videoId, hid videoId rfl,
        Option.map_eq_some_iff.mpr ⟨partCount, hbody (.refresh partCount) rfl, rfl⟩⟩
    | _ => exact Option.map_eq_some_iff.mpr ⟨_, hid _ rfl, rfl⟩

/-- **A call of the browser reaches its handler.** -/
theorem dispatch_of_call (hdispatches : Dispatches ownPath framework.dispatcher)
    (hperm : routers.Perm app) (hend : EndsVisibly call.path) {id : String}
    (hsegments : ∀ text ∈ request.args id, IsSegment text)
    (hid : ∀ videoId, request.videoId? = some videoId → framework.parseUuid id = some videoId)
    (hmethod : call.method = (request.call id).method) (hpath : call.path = (request.call id).path)
    (hbody : ∀ sent, (request.call id).body = some sent → framework.Reads call.body sent) :
    framework.dispatch routers call = some request := by
  obtain ⟨r, hr, hm, hpattern, he⟩ := exists_route_app request id
  have hfound := hdispatches.eq_of_fill (plain_app.perm hperm)
    (unambiguous_app.perm (Application.routes_perm hperm)) hend (hpath ▸ not_ownPath_call)
    ((Application.routes_perm hperm).mem_iff.mpr hr)
    (hpattern ▸ fill_pattern_iff.mpr ⟨hsegments, hpath⟩)
  rw [hm, ← hmethod, he] at hfound
  rw [dispatch, hfound, Option.bind_some]
  exact request_eq_some_iff.mpr ⟨rfl, id, rfl, hid, hbody⟩

/-- **What reaches a handler.** Whatever the order in which the routers are included, a call
reaches the handler of a request just when it is the call of the browser for this request –
its method, its path and, where the handler reads one, its body – up to the spelling of the
id: no path of one handler is ever taken for that of another. -/
theorem dispatch_eq_some_iff (hdispatches : Dispatches ownPath framework.dispatcher)
    (hperm : routers.Perm app) (call : Fetch β) (hend : EndsVisibly call.path)
    (request : VideoRequest) : framework.dispatch routers call = some request ↔ ∃ id,
      (∀ text ∈ request.args id, IsSegment text) ∧
      (∀ videoId, request.videoId? = some videoId → framework.parseUuid id = some videoId) ∧
      call.method = (request.call id).method ∧ call.path = (request.call id).path ∧
      ∀ sent, (request.call id).body = some sent → framework.Reads call.body sent := by
  constructor
  · intro h
    rw [dispatch, Option.bind_eq_some_iff] at h
    obtain ⟨⟨e, args⟩, hfound, hrequest⟩ := h
    obtain ⟨rfl, id, rfl, hid, hbody⟩ := request_eq_some_iff.mp hrequest
    obtain ⟨r, hr, hmethod, he, hfill⟩ :=
      hdispatches.exists_route (plain_app.perm hperm) hend hfound
    obtain ⟨hm, hpattern⟩ := route_app ((Application.routes_perm hperm).mem_iff.mp hr) he id
    rw [hpattern] at hfill
    obtain ⟨hsegments, hpath⟩ := fill_pattern_iff.mp hfill
    exact ⟨id, hsegments, hid, hmethod.symm.trans hm, hpath, hbody⟩
  · rintro ⟨id, hsegments, hid, hmethod, hpath, hbody⟩
    exact dispatch_of_call hdispatches hperm hend hsegments hid hmethod hpath hbody

end Framework

/-- A framework that takes the first match, and bodies as they are sent. -/
def sampleFramework : Framework Body where
  dispatcher := firstMatch
  parseUuid text := if text = "a" then some ⟨0⟩ else none
  readCreate
    | .create payload => some payload
    | _ => none
  readComplete
    | .complete parts => some parts
    | _ => none
  readRefresh
    | .refresh partCount => some partCount
    | _ => none

/-- The routers in the reverse order. -/
theorem dispatch_eq_some_iff_reverse :
    sampleFramework.dispatch app.reverse (ApiClient.completeVideoUpload "a" []) =
      some (.completeUpload ⟨0⟩ []) :=
  (Framework.dispatch_eq_some_iff (dispatches_firstMatch ownPath) (List.reverse_perm app) _
    (by decide) _).mpr ⟨"a", by decide, fun _ h => h, rfl, rfl, fun _ h => by
      rw [← Option.some.inj h]
      rfl⟩

end RenditionPipeline
