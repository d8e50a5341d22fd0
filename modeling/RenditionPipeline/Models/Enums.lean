/-!
# Statuses and exceptions

The three status enumerations of the database schema, and the exceptions that
the services raise, each with the message it is raised with.
-/

namespace RenditionPipeline

/-- The status of a video, a rendition or a job. -/
inductive ProcessingStatus where
  | uploading
  | uploaded
  | pending
  | running
  /-- `partial`, which is a keyword here. -/
  | partialStatus
  | done
  | skipped
  | failed
deriving DecidableEq

/-- The status of an upload session. -/
inductive UploadStatus where
  | active
  | completed
  | aborted
  | failed
deriving DecidableEq

/-- The status of an outbox message. -/
inductive OutboxStatus where
  | pending
  | published
deriving DecidableEq

namespace ProcessingStatus

/-- A rendition is active while a job may still change it. -/
def isActive (s : ProcessingStatus) : Bool := s = pending || s = running

/-- A rendition is terminal once its job is over. -/
def isTerminal (s : ProcessingStatus) : Bool := s = done || s = skipped || s = failed

end ProcessingStatus

/-- An exception, by its class and message. -/
inductive Raised where
  /-- `ValueError` -/
  | valueError (message : String)
  /-- `IndexError` -/
  | indexError
  /-- `OverflowError`: an instant or a duration out of range. -/
  | overflowError
  /-- An attribute read of `None`: a reference whose row does not exist. -/
  | attributeError
  /-- `sqlalchemy.exc.IntegrityError`: a key constraint. -/
  | integrityError
  /-- `sqlalchemy.exc.DataError`: a value that its column does not hold. -/
  | dataError
  /-- `sqlalchemy.exc.MultipleResultsFound`: more rows than `one_or_none` allows. -/
  | multipleResultsFound
  /-- `ObjectStorageError` -/
  | objectStorageError
  /-- `MasterPlaylistError` -/
  | masterPlaylistError (message : String)
  /-- `EncodingJobNotFoundError` -/
  | encodingJobNotFoundError (message : String)
  /-- `EncodingJobMessageMismatchError` -/
  | encodingJobMessageMismatchError (message : String)
  /-- `VideoUploadConflictError` -/
  | videoUploadConflictError (message : String)
  /-- `VideoUploadValidationError` -/
  | videoUploadValidationError (message : String)
  /-- `VideoUploadStorageError` -/
  | videoUploadStorageError (message : String)
  /-- `VideoPlaybackNotReadyError` -/
  | videoPlaybackNotReadyError (message : String)
  /-- `VideoPlaybackStorageError` -/
  | videoPlaybackStorageError (message : String)
deriving DecidableEq

namespace Raised

/-- The subclasses of `EncodingJobError`. -/
def isEncodingJobError : Raised → Bool
  | encodingJobNotFoundError _ => true
  | encodingJobMessageMismatchError _ => true
  | _ => false

/-- `str(exc)`, for the exceptions that a processor raises itself. -/
def str : Raised → String
  | valueError message => message
  | _ => ""

end Raised

end RenditionPipeline
