import LiveGraph.Attributes
import LiveGraph.CommandLine.Answer
import LiveGraph.CommandLine.Arguments
import LiveGraph.Event
import LiveGraph.Event.Codec
import LiveGraph.Graph.Basic
import LiveGraph.Graph.Change
import LiveGraph.Graph.Course
import LiveGraph.Graph.Op
import LiveGraph.Graph.Write
import LiveGraph.Json.Basic
import LiveGraph.Json.Reader
import LiveGraph.Json.Token
import LiveGraph.Json.Writer
import LiveGraph.Log
import LiveGraph.Log.Line
import LiveGraph.Main
import LiveGraph.Number.Binary64
import LiveGraph.Number.Decimal
import LiveGraph.Number.Layout
import LiveGraph.Number.Numeral
import LiveGraph.Position
import LiveGraph.Proofs.Event.RoundTrip
import LiveGraph.Proofs.Graph.Courses
import LiveGraph.Proofs.Graph.Faults
import LiveGraph.Proofs.Graph.Moves
import LiveGraph.Proofs.Graph.Paths
import LiveGraph.Proofs.Graph.Recording
import LiveGraph.Proofs.Graph.Redraws
import LiveGraph.Proofs.Graph.Rejections
import LiveGraph.Proofs.Graph.Removals
import LiveGraph.Proofs.Graph.Repeats
import LiveGraph.Proofs.Graph.Replica
import LiveGraph.Proofs.Graph.Resume
import LiveGraph.Proofs.Graph.Retry
import LiveGraph.Proofs.Graph.Runs
import LiveGraph.Proofs.Graph.Views
import LiveGraph.Proofs.Json.Numerals
import LiveGraph.Proofs.Json.RoundTrip
import LiveGraph.Proofs.Json.Scalars
import LiveGraph.Proofs.Json.Strings
import LiveGraph.Proofs.Log.Filtering
import LiveGraph.Proofs.Log.Lines
import LiveGraph.Proofs.Log.Selection
import LiveGraph.Proofs.Sprite.Arrivals
import LiveGraph.Proofs.Sprite.Echoes
import LiveGraph.Proofs.Sprite.Facets
import LiveGraph.Proofs.Sprite.Finiteness
import LiveGraph.Proofs.Sprite.Hearing
import LiveGraph.Proofs.Sprite.Independence
import LiveGraph.Proofs.Sprite.Mirror
import LiveGraph.Proofs.Sprite.Namespaces
import LiveGraph.Proofs.Sprite.Paths
import LiveGraph.Proofs.Sprite.Placing
import LiveGraph.Proofs.Sprite.Presence
import LiveGraph.Proofs.Sprite.Ranges
import LiveGraph.Proofs.Stream.Calls
import LiveGraph.Proofs.Stream.Chains
import LiveGraph.Proofs.Stream.Delivery
import LiveGraph.Proofs.Stream.FanOut
import LiveGraph.Proofs.Stream.Lists
import LiveGraph.Proofs.Stream.Recorder
import LiveGraph.Proofs.Stream.Registrations
import LiveGraph.Proofs.Stream.Screening
import LiveGraph.Proofs.Stream.Settings
import LiveGraph.Proofs.Stream.Steps
import LiveGraph.Proofs.Value.Classes
import LiveGraph.Proofs.Value.Equality
import LiveGraph.Proofs.Value.RoundTrip
import LiveGraph.Proofs.Value.Settled
import LiveGraph.Proofs.Yaml.Documents
import LiveGraph.Proofs.Yaml.Flow
import LiveGraph.Proofs.Yaml.Quoted
import LiveGraph.Session
import LiveGraph.Sprite.Key
import LiveGraph.Sprite.Operation
import LiveGraph.Sprite.Placement
import LiveGraph.Stream.Config
import LiveGraph.Stream.Config.Document
import LiveGraph.Stream.Filter
import LiveGraph.Stream.Network
import LiveGraph.Stream.Observer
import LiveGraph.Stream.Refusal
import LiveGraph.Value
import LiveGraph.Value.Codec
import LiveGraph.Yaml.Document
import LiveGraph.Yaml.Item
import LiveGraph.Yaml.Node
import LiveGraph.Yaml.Reading
import LiveGraph.Yaml.Scalar
import LiveGraph.Yaml.Spot
import LiveGraph.Yaml.Tag
