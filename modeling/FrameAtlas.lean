import FrameAtlas.Arrow.Cache
import FrameAtlas.Arrow.Geometry
import FrameAtlas.Arrow.Layout
import FrameAtlas.Arrow.Request
import FrameAtlas.Arrow.Slots
import FrameAtlas.Color
import FrameAtlas.Command
import FrameAtlas.CommandLine.Arguments
import FrameAtlas.CommandLine.Export
import FrameAtlas.CommandLine.Folder
import FrameAtlas.Cursor
import FrameAtlas.Cursor.Input
import FrameAtlas.Frame
import FrameAtlas.Frame.Listing
import FrameAtlas.Geometry
import FrameAtlas.Host
import FrameAtlas.Host.Log
import FrameAtlas.IndexMap
import FrameAtlas.Json.Decode
import FrameAtlas.Json.Reader
import FrameAtlas.Json.Value
import FrameAtlas.Json.Writer
import FrameAtlas.Main
import FrameAtlas.Number.Binary64
import FrameAtlas.Number.Form
import FrameAtlas.Number.Literal
import FrameAtlas.Number.Rounding
import FrameAtlas.Number.Shortest
import FrameAtlas.Reference
import FrameAtlas.Scalar
import FrameAtlas.Scalar.Checked
import FrameAtlas.Scalar.Double
import FrameAtlas.Scalar.Exact
import FrameAtlas.Scalar.Extended
import FrameAtlas.Search
import FrameAtlas.Selection
import FrameAtlas.Selection.Event
import FrameAtlas.Session
import FrameAtlas.Session.Event
import FrameAtlas.Strip
import FrameAtlas.Surface.Checked
import FrameAtlas.Surface.Filmstrip
import FrameAtlas.Surface.Kind
import FrameAtlas.Surface.Minimap
import FrameAtlas.Surface.Overlay
import FrameAtlas.Surface.Pyramid
import FrameAtlas.Surface.Timeline
import FrameAtlas.Svg.Document
import FrameAtlas.Svg.Markup
import FrameAtlas.Svg.Palette
import FrameAtlas.Temporal
import FrameAtlas.Terminal.Arc
import FrameAtlas.Terminal.Raster
import FrameAtlas.Terminal.Screen
import FrameAtlas.Terminal.Status
import FrameAtlas.Text.Blank
import FrameAtlas.Text.Control
import FrameAtlas.Text.Digits
import FrameAtlas.Text.Printable
import FrameAtlas.Text.Quoted
import FrameAtlas.Proofs.Cursor.Highlight
import FrameAtlas.Proofs.Session.Derived
import FrameAtlas.Proofs.Session.Picture
import FrameAtlas.Proofs.Session.Rebuilding
import FrameAtlas.Proofs.Session.Memo
import FrameAtlas.Proofs.Session.ArrowCells
import FrameAtlas.Proofs.Session.Standing
import FrameAtlas.Proofs.Session.CurrentFrame
import FrameAtlas.Proofs.IndexMap
import FrameAtlas.Proofs.Strip
import FrameAtlas.Proofs.Surface.CurrentMark
import FrameAtlas.Proofs.Surface.Rects
import FrameAtlas.Proofs.Surface.Buckets
import FrameAtlas.Proofs.Temporal
import FrameAtlas.Proofs.Temporal.Groups
import FrameAtlas.Proofs.Arrow.Anchors
import FrameAtlas.Proofs.Arrow.Edges
import FrameAtlas.Proofs.Arrow.Extent
import FrameAtlas.Proofs.Arrow.Curve
import FrameAtlas.Proofs.Arrow.Clipping
import FrameAtlas.Proofs.Scalar.Exact
import FrameAtlas.Proofs.Surface.Paths
import FrameAtlas.Proofs.ReferenceGraph
import FrameAtlas.Proofs.Arrow.Stacking
import FrameAtlas.Proofs.Arrow.Reordering
import FrameAtlas.Proofs.Arrow.FirstFit
import FrameAtlas.Proofs.Arrow.Labels
import FrameAtlas.Proofs.Arrow.Nominal
import FrameAtlas.Proofs.Session.TimelineArrows
import FrameAtlas.Proofs.Cursor.Commit
import FrameAtlas.Proofs.Session.Commit
import FrameAtlas.Proofs.Selection.Notification
import FrameAtlas.Proofs.Cursor.Drag
import FrameAtlas.Proofs.Cursor.Measuring
import FrameAtlas.Proofs.Arrow.Memo
import FrameAtlas.Proofs.Session.Publication
import FrameAtlas.Proofs.Surface.Refocus
import FrameAtlas.Proofs.Json.Numeral
import FrameAtlas.Proofs.Json.Order
import FrameAtlas.Proofs.Json.ReadBack
import FrameAtlas.Proofs.Json.Output
import FrameAtlas.Proofs.Frame.Listing
import FrameAtlas.Proofs.Svg.Occurrences
import FrameAtlas.Proofs.Surface.Nesting
import FrameAtlas.Proofs.Svg.Document
import FrameAtlas.Proofs.Scalar.Double.Rounding
import FrameAtlas.Proofs.Scalar.Double.Parts
import FrameAtlas.Proofs.Scalar.Double.Operations
import FrameAtlas.Proofs.Scalar.Double.Counts
import FrameAtlas.Proofs.Scalar.Double.WholeParts
import FrameAtlas.Proofs.Scalar.Double.Zeros
import FrameAtlas.Proofs.Strip.Doubles
import FrameAtlas.Proofs.Session.DefinedKeys
import FrameAtlas.Proofs.Session.ExactKeys
import FrameAtlas.Proofs.Session.Computations
import FrameAtlas.Proofs.Session.Twin
import FrameAtlas.Proofs.Host.Isolation
import FrameAtlas.Proofs.Strip.Tiling
import FrameAtlas.Proofs.Session.Pointing
import FrameAtlas.Proofs.Strip.Shares
import FrameAtlas.Proofs.Session.Stepping
import FrameAtlas.Proofs.Temporal.Reordering
import FrameAtlas.Proofs.Surface.Columns
import FrameAtlas.Proofs.Surface.Cards
import FrameAtlas.Proofs.Surface.Cells
import FrameAtlas.Proofs.Surface.GroupLines
import FrameAtlas.Proofs.Session.GroupStarts
import FrameAtlas.Proofs.Number.Tenths
import FrameAtlas.Proofs.Terminal.Arc
import FrameAtlas.Proofs.Terminal.Loops
import FrameAtlas.Proofs.Terminal.Screen
import FrameAtlas.Proofs.Terminal.Drawing
import FrameAtlas.Proofs.Frame.Grammar
import FrameAtlas.Proofs.Json.Names
import FrameAtlas.Proofs.Steps
import FrameAtlas.Proofs.Json.Fields
import FrameAtlas.Proofs.Json.Types
import FrameAtlas.Proofs.Svg.Escaping
import FrameAtlas.Proofs.Text.Blank
import FrameAtlas.Proofs.Frame.Kinds
