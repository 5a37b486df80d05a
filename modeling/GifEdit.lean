import GifEdit.Command.Arguments
import GifEdit.Command.Authoring
import GifEdit.Command.Listing
import GifEdit.Command.Readiness
import GifEdit.Command.Rendering
import GifEdit.Command.Reply
import GifEdit.Command.Surroundings
import GifEdit.Config.Basic
import GifEdit.Config.Codec
import GifEdit.Decimal.Basic
import GifEdit.Decimal.Fixed
import GifEdit.Decimal.Notation
import GifEdit.Decimal.Reader
import GifEdit.Decimal.Shortest
import GifEdit.Document
import GifEdit.Edit.Background
import GifEdit.Edit.Clip
import GifEdit.Edit.Codec
import GifEdit.Edit.Error
import GifEdit.Edit.Export
import GifEdit.Edit.Specification
import GifEdit.Edit.Trim
import GifEdit.Editor.Cropper
import GifEdit.Editor.Gesture
import GifEdit.Editor.Script
import GifEdit.Editor.Session
import GifEdit.Editor.Timeline
import GifEdit.Failure
import GifEdit.Files.Error
import GifEdit.Files.Saving
import GifEdit.Files.Tree
import GifEdit.Geometry.Canvas
import GifEdit.Geometry.Frame
import GifEdit.Geometry.Letterbox
import GifEdit.Json.Break
import GifEdit.Json.Decode
import GifEdit.Json.Fault
import GifEdit.Json.Reader
import GifEdit.Json.Tree
import GifEdit.Json.Writer
import GifEdit.Render.Codec
import GifEdit.Render.Dataflow
import GifEdit.Render.Encoder
import GifEdit.Render.Export
import GifEdit.Render.Layout
import GifEdit.Render.Mask
import GifEdit.Render.Operation
import GifEdit.Render.Pipeline
import GifEdit.Render.Planner
import GifEdit.Render.Png
import GifEdit.Render.Probe
import GifEdit.Render.Progress
import GifEdit.Render.Segment
import GifEdit.Scalar
import GifEdit.Scalar.Binary
import GifEdit.Scalar.Exact
import GifEdit.Text.Blank
import GifEdit.Text.Path
import GifEdit.Text.Quoted
import GifEdit.Text.Shell
import GifEdit.Text.Timecode
import GifEdit.Text.Timestamp
import GifEdit.Text.Unprintable
import GifEdit.Main
import GifEdit.Proofs.Scalar.Exact
import GifEdit.Proofs.Config.Gaps
import GifEdit.Proofs.Edit.Specification
import GifEdit.Proofs.Edit.Times
import GifEdit.Proofs.Geometry.Letterbox
import GifEdit.Proofs.Geometry.Fitting
import GifEdit.Proofs.Geometry.Largest
import GifEdit.Proofs.Geometry.Rounding
import GifEdit.Proofs.Geometry.Settling
import GifEdit.Proofs.Geometry.Rescaling
import GifEdit.Proofs.Geometry.Nearness
import GifEdit.Proofs.Editor.Timeline
import GifEdit.Proofs.Editor.Snapshot
import GifEdit.Proofs.Editor.Cropper
import GifEdit.Proofs.Editor.Gestures
import GifEdit.Proofs.Editor.Anchors
import GifEdit.Proofs.Editor.Carrying
import GifEdit.Proofs.Editor.Reopening
import GifEdit.Proofs.Editor.Settling
import GifEdit.Proofs.Editor.Markers
import GifEdit.Proofs.Editor.Resizing
import GifEdit.Proofs.Render.Segments
import GifEdit.Proofs.Render.Dataflow
import GifEdit.Proofs.Render.Labels
import GifEdit.Proofs.Render.Planner
import GifEdit.Proofs.Render.Wiring
import GifEdit.Proofs.Render.TermFrames
import GifEdit.Proofs.Render.Frames
import GifEdit.Proofs.Fallible
import GifEdit.Proofs.Scalar.Laws
import GifEdit.Proofs.Scalar.Order
import GifEdit.Proofs.Scalar.Words
import GifEdit.Proofs.Scalar.Sizes
import GifEdit.Proofs.Scalar.Packing
import GifEdit.Proofs.Scalar.Doubles
import GifEdit.Proofs.Scalar.Counts
import GifEdit.Proofs.Scalar.Shares
import GifEdit.Proofs.Scalar.Increasing
import GifEdit.Proofs.Editor.Clearing
import GifEdit.Proofs.Json.Strings
import GifEdit.Proofs.Json.Numbers
import GifEdit.Proofs.Json.Texts
import GifEdit.Proofs.Json.Written
import GifEdit.Proofs.Json.Schemas
import GifEdit.Proofs.Edit.Validity
import GifEdit.Proofs.Edit.Colors
import GifEdit.Proofs.Edit.Codec
import GifEdit.Proofs.Edit.Settings
import GifEdit.Proofs.Document
import GifEdit.Proofs.Text.Lines
import GifEdit.Proofs.Text.Path
import GifEdit.Proofs.Files.Entries
import GifEdit.Proofs.Files.Places
import GifEdit.Proofs.Editor.Scripts
import GifEdit.Proofs.Editor.Commits
import GifEdit.Proofs.Editor.Drags
import GifEdit.Proofs.Editor.Updates
import GifEdit.Proofs.Editor.Positions
import GifEdit.Proofs.Editor.Outcomes
import GifEdit.Proofs.Editor.Stamps
import GifEdit.Proofs.Render.Reports
import GifEdit.Proofs.Render.Moves
import GifEdit.Proofs.Decimal.Fixed
import GifEdit.Proofs.Render.Branches
import GifEdit.Proofs.Render.Layout
import GifEdit.Proofs.Render.Trims
import GifEdit.Proofs.Render.Destination
import GifEdit.Proofs.Render.Corners
import GifEdit.Proofs.Render.Probing
import GifEdit.Proofs.Render.Progress
import GifEdit.Proofs.Config.Codec
import GifEdit.Proofs.Config.Defaults
import GifEdit.Proofs.References
import GifEdit.Proofs.Text.Pasting
import GifEdit.Proofs.Command.Replaying
