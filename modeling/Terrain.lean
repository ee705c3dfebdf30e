import Terrain.Brush.Raise
import Terrain.Brush.Revert
import Terrain.Config.Reader
import Terrain.Merge
import Terrain.Sharing
import Terrain.Proofs.Number.Encoding
import Terrain.Proofs.Number.Native
import Terrain.Proofs.Number.Arithmetic
import Terrain.Proofs.Number.Conversion
import Terrain.Proofs.Height
import Terrain.Proofs.Bitset
import Terrain.Proofs.Blob.Bytes
import Terrain.Proofs.Grid
import Terrain.Proofs.PatchFlags
import Terrain.Proofs.HeightGrid
import Terrain.Proofs.Loop
import Terrain.Proofs.Blob.Decode
import Terrain.Proofs.Blob.RoundTrip
import Terrain.Proofs.Surface.Edit
import Terrain.Proofs.Surface.History
import Terrain.Proofs.Number.Interval
import Terrain.Proofs.Number.Single
import Terrain.Proofs.Blob.Rewrite
import Terrain.Proofs.Document.Layout
import Terrain.Proofs.Base64
import Terrain.Proofs.Height.Single
import Terrain.Proofs.Document.Legacy
import Terrain.Proofs.Height.Factor
import Terrain.Proofs.Surface.Saving
import Terrain.Proofs.Number.Decimal
import Terrain.Proofs.Number.Shortest
import Terrain.Proofs.Document.Versioned
import Terrain.Proofs.Document.Data
import Terrain.Proofs.Markup.Fields
import Terrain.Proofs.Document.Package
import Terrain.Proofs.Document.Acceptance
import Terrain.Proofs.Extent
import Terrain.Proofs.Number.Truncation
import Terrain.Proofs.Height.Requantized
import Terrain.Proofs.Blob.Resize
import Terrain.Proofs.Surface.Cells
import Terrain.Proofs.Surface.Merging
import Terrain.Proofs.Surface.Storage
import Terrain.Proofs.Number.Limits
import Terrain.Proofs.Surface.Turning
import Terrain.Proofs.Surface.Saturation
import Terrain.Proofs.Sharing.Runs
import Terrain.Proofs.Number.Monotone
import Terrain.Proofs.Number.Grain
import Terrain.Proofs.Number.Sum
import Terrain.Proofs.Number.Cosine
import Terrain.Proofs.Surface.Painting
import Terrain.Proofs.Surface.Commuting
import Terrain.Proofs.Brush.Distance
import Terrain.Proofs.Brush.Rise
import Terrain.Proofs.Brush.Box
import Terrain.Proofs.Brush.Dome
import Terrain.Proofs.Brush.Reach
import Terrain.Proofs.Brush.Revert
import Terrain.Proofs.Brush.Masks
import Terrain.Proofs.Brush.Settling
import Terrain.Proofs.Markup.Prologue
import Terrain.Proofs.Document.Prologue
import Terrain.Proofs.Surface.Doubles
import Terrain.Proofs.Blob.Written
import Terrain.Proofs.Bitset.Lowest
import Terrain.Proofs.PatchFlags.Draining
import Terrain.Proofs.Bitset.FiniteSet
import Terrain.Proofs.Height.Recovered
import Terrain.Proofs.HeightGrid.Layouts
import Terrain.Proofs.Extent.Membership
import Terrain.Proofs.Extent.Emptiness
