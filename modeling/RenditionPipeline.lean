import RenditionPipeline.Library.Table
import RenditionPipeline.Library.Run
import RenditionPipeline.Library.Progress
import RenditionPipeline.Library.Refinement
import RenditionPipeline.Library.Uuid
import RenditionPipeline.Library.Text
import RenditionPipeline.Library.Path
import RenditionPipeline.Library.Numeral
import RenditionPipeline.Library.Binary64
import RenditionPipeline.Library.Json
import RenditionPipeline.Library.Files
import RenditionPipeline.Library.Blocks
import RenditionPipeline.Library.Paging
import RenditionPipeline.Library.Multipart
import RenditionPipeline.Library.Routes
import RenditionPipeline.Models.Enums
import RenditionPipeline.Models.Rows
import RenditionPipeline.Models.WriteBack
import RenditionPipeline.Storage.Keys
import RenditionPipeline.Storage.KeySpace
import RenditionPipeline.Storage.Objects
import RenditionPipeline.Encoding.Presets
import RenditionPipeline.Encoding.Probe
import RenditionPipeline.Encoding.MasterPlaylist
import RenditionPipeline.Api.Schemas
import RenditionPipeline.Encoding.Ffmpeg
import RenditionPipeline.Encoding.Workspace
import RenditionPipeline.Services.Playback
import RenditionPipeline.Services.Rewriting
import RenditionPipeline.Services.Jobs
import RenditionPipeline.Services.Backoff
import RenditionPipeline.Services.Outbox
import RenditionPipeline.Services.Videos
import RenditionPipeline.Services.Listing
import RenditionPipeline.Services.Uploads
import RenditionPipeline.Api.Requests
import RenditionPipeline.Lifecycle.Settled
import RenditionPipeline.Lifecycle.Shape
import RenditionPipeline.Lifecycle.Fanout
import RenditionPipeline.Lifecycle.Fresh
import RenditionPipeline.Lifecycle.Moves
import RenditionPipeline.Lifecycle.Coherence
import RenditionPipeline.Lifecycle.Attempts
import RenditionPipeline.Lifecycle.Publication
import RenditionPipeline.Runs.Operations
import RenditionPipeline.Runs.Effects
import RenditionPipeline.Runs.Jobs
import RenditionPipeline.Runs.Polling
import RenditionPipeline.Runs.Uploads
import RenditionPipeline.Runs.Cleanup
import RenditionPipeline.Runs.Playlists
import RenditionPipeline.Runs.Retries
import RenditionPipeline.Runs.SourceColumns
import RenditionPipeline.System.Worker
import RenditionPipeline.System.State
import RenditionPipeline.System.Passes
import RenditionPipeline.System.Accounts
import RenditionPipeline.System.Steps
import RenditionPipeline.System.Fencing
import RenditionPipeline.System.JobLife
import RenditionPipeline.System.Delivery
import RenditionPipeline.System.Clock
import RenditionPipeline.System.Leases
import RenditionPipeline.System.Segments
import RenditionPipeline.System.Playable
import RenditionPipeline.System.Playback
import RenditionPipeline.System.Finished
import RenditionPipeline.System.Ladder
import RenditionPipeline.System.Wakeups
import RenditionPipeline.System.Forgotten
import RenditionPipeline.System.Loops
import RenditionPipeline.System.Attempt
import RenditionPipeline.System.Rest
import RenditionPipeline.System.VideoLife
import RenditionPipeline.System.Watching
import RenditionPipeline.Races.Sessions
import RenditionPipeline.Races.Marking
import RenditionPipeline.Races.Requests
import RenditionPipeline.Races.Decisions
import RenditionPipeline.Races.JobTransactions
import RenditionPipeline.Races.PendingJobs
import RenditionPipeline.Api.Handlers
import RenditionPipeline.Api.Answers
import RenditionPipeline.Api.Failures
import RenditionPipeline.Api.Routes
import RenditionPipeline.Api.Player
import RenditionPipeline.Browser.Controller
import RenditionPipeline.Browser.Completion
import RenditionPipeline.Browser.Splitting
import RenditionPipeline.Browser.Rounds
import RenditionPipeline.Browser.Cancel
import RenditionPipeline.Browser.Dashboard
import RenditionPipeline.Transfer.S3
import RenditionPipeline.Transfer.Handling
import RenditionPipeline.Transfer.Requests
import RenditionPipeline.Transfer.State
import RenditionPipeline.Transfer.Sound
import RenditionPipeline.Transfer.Steps
import RenditionPipeline.Transfer.Runs
import RenditionPipeline.Transfer.Sources
import RenditionPipeline.Transfer.Success
