import RetroLens.Lib.Runs
import RetroLens.Lib.Threads
import RetroLens.Lib.Text
import RetroLens.Lib.Disk
import RetroLens.Lib.Stdio
import RetroLens.Lib.Checked
import RetroLens.Lib.Arith
import RetroLens.Lib.Riff
import RetroLens.Lib.BoundedQueue
import RetroLens.Lib.Mailbox
import RetroLens.Lib.Selection
import RetroLens.Lib.Recency
import RetroLens.Lib.Json
import RetroLens.Core.Preset
import RetroLens.Core.Frame
import RetroLens.Core.ReducedJpeg
import RetroLens.Core.McuBuffers
import RetroLens.Core.Blit
import RetroLens.Core.ProcessFrame
import RetroLens.Core.AviWriter
import RetroLens.Core.AviFile
import RetroLens.Core.AviRecording
import RetroLens.Store.Entry
import RetroLens.Store.Calls
import RetroLens.Core.JpegEncoder
import RetroLens.Core.JpegSink
import RetroLens.Store.Sidecar
import RetroLens.Store.Settings
import RetroLens.Store.SettingsText
import RetroLens.Store.SettingsFile
import RetroLens.Store.Foreign
import RetroLens.Store.PhotoStore
import RetroLens.Store.Manifest
import RetroLens.Store.Startup
import RetroLens.Store.Newest
import RetroLens.Store.Names
import RetroLens.Store.Buffers
import RetroLens.Store.IndexText
import RetroLens.Store.Opened
import RetroLens.Store.Rebuild
import RetroLens.Store.Reread
import RetroLens.Store.Stages
import RetroLens.Store.Transaction
import RetroLens.Store.Atomic
import RetroLens.Store.Diagnosis
import RetroLens.Store.Phases
import RetroLens.Store.Session
import RetroLens.Store.Crash
import RetroLens.Store.Refine
import RetroLens.Store.Sharing
import RetroLens.Store.Removal
import RetroLens.Store.Prints
import RetroLens.Worker.State
import RetroLens.Worker.Styles
import RetroLens.Worker.Input
import RetroLens.Worker.RunLoop
import RetroLens.Worker.PhotoLoop
import RetroLens.Worker.Machine
import RetroLens.Worker.Calls
import RetroLens.Worker.Choices
import RetroLens.Worker.Handoff
import RetroLens.Worker.Gate
import RetroLens.Worker.Sessions
import RetroLens.Worker.LockOrder
import RetroLens.Worker.Jobs
import RetroLens.Worker.Deletion
import RetroLens.Worker.Gallery
import RetroLens.Worker.Frames
import RetroLens.Worker.Ranges
import RetroLens.Worker.Mirror
import RetroLens.Worker.Recent
import RetroLens.Worker.Persist
import RetroLens.Worker.Loaded
import RetroLens.Worker.Label
import RetroLens.Worker.History
import RetroLens.Worker.Raw
import RetroLens.Worker.Messages
import RetroLens.Camera.Controller
import RetroLens.Camera.Shutter
import RetroLens.Camera.Activity
import RetroLens.Camera.Quarantine
import RetroLens.Camera.Sequence
import RetroLens.Camera.Phases
import RetroLens.Camera.CallProtocol
import RetroLens.Camera.PollFrames
import RetroLens.Camera.SequenceMetrics
import RetroLens.Probe.Controller
import RetroLens.Probe.Lifetime
import RetroLens.Worker.DisplayProbe
import RetroLens.Worker.DisplaySafety
import RetroLens.Lib.IntExpr
import RetroLens.Core.FilterSteps
import RetroLens.Core.FilterRun
import RetroLens.Worker.FilterSafety
import RetroLens.Jpeg.Calls
import RetroLens.Jpeg.BitWriter
import RetroLens.Jpeg.DataUnits
import RetroLens.Jpeg.Segments
import RetroLens.Jpeg.Encoded
import RetroLens.Store.SavedPhotos
import RetroLens.Jpeg.Accuracy
