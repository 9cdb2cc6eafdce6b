import Symbology.Style.Text
import Symbology.Proofs.Icon.Settled
import Symbology.Proofs.Styling.Portrayed
import Symbology.Proofs.Styling.Repeated
import Symbology.Proofs.Styling.Outcome
import Symbology.Proofs.Icon.History
import Symbology.Proofs.Styling.SharedCache
import Symbology.Proofs.Styling.Interrupted
import Symbology.Proofs.Styling.LeaderEnds
import Symbology.Proofs.Styling.SingleLeader
import Symbology.Proofs.Styling.Compilation
import Symbology.Proofs.Styling.Skipped
import Symbology.Proofs.Style.RoundTrip
import Symbology.Proofs.Json.Listing
import Symbology.Proofs.Style.KnownFields
import Symbology.Proofs.Filter.Compared
import Symbology.Proofs.Styling.DrawOrder
import Symbology.Proofs.Styling.Frame
import Symbology.Proofs.Styling.Attributes
import Symbology.Proofs.Template.Split
import Symbology.Proofs.Raster.Walk
import Symbology.Proofs.Raster.Pixels
import Symbology.Proofs.Raster.Words
import Symbology.Proofs.Double.Fields
import Symbology.Proofs.Double.Rounded
import Symbology.Proofs.Double.Worth
import Symbology.Proofs.Dash.Widths
import Symbology.Proofs.Dash.Encoding
import Symbology.Proofs.Double.Basins
import Symbology.Proofs.Double.Meaning
import Symbology.Proofs.Json.Unique
import Symbology.Proofs.Style.SameImage
import Symbology.Proofs.Color.Notation
import Symbology.Proofs.Filter.Laws
import Symbology.Proofs.Filter.Formula
import Symbology.Proofs.Double.Ordered
import Symbology.Proofs.Json.Same
import Symbology.Proofs.Filter.Consistent
import Symbology.Proofs.Double.Whole
import Symbology.Proofs.Filter.WholeNumbers
import Symbology.Proofs.Raster.LastPut
import Symbology.Proofs.Portrayal.Connector
import Symbology.Proofs.Styling.Outline
import Symbology.Proofs.Styling.Stops
import Symbology.Proofs.Styling.Unstyled
