import Connectors.Console.Basic
import Connectors.Inspection
import Connectors.Json.Pretty
import Connectors.Main
import Connectors.Rehearsal.Deployment
import Connectors.Schema.Document
import Connectors.Proofs.Text.Lowercase
import Connectors.Proofs.Key
import Connectors.Proofs.Binding.Reference
import Connectors.Proofs.Binding.Values
import Connectors.Proofs.Number.Integer
import Connectors.Proofs.Options.RoundTrip
import Connectors.Proofs.Binding.RoundTrip
import Connectors.Proofs.Binding.Soundness
import Connectors.Proofs.Lifecycle.Calls
import Connectors.Proofs.Lifecycle.Ownership
import Connectors.Proofs.Rehearsal.Handles
import Connectors.Proofs.Rehearsal.Endpoints
import Connectors.Proofs.Rehearsal.Starts
import Connectors.Proofs.Rehearsal.Mirror
import Connectors.Proofs.Sections.Spelling
import Connectors.Proofs.Sections.Overlay
import Connectors.Proofs.Sections.Leaves
import Connectors.Proofs.Sections.Merging
import Connectors.Proofs.Sections.Reading
import Connectors.Proofs.Loader.Merging
import Connectors.Proofs.Binding.Comparison
import Connectors.Proofs.Binding.Respelling
import Connectors.Proofs.Binding.Secrecy
import Connectors.Proofs.Binding.Refusals
import Connectors.Proofs.Binding.Single
import Connectors.Proofs.Sections.OneName
import Connectors.Proofs.Sections.Folding
import Connectors.Proofs.Sections.Flattening
import Connectors.Proofs.Sections.OneOption
import Connectors.Proofs.Sections.OneComponent
import Connectors.Proofs.Sections.Routes
import Connectors.Proofs.Loader.OneOption
import Connectors.Proofs.Loader.Switch
import Connectors.Proofs.Loader.Overrides
import Connectors.Proofs.Environment.Names
import Connectors.Proofs.Environment.OneVariable
import Connectors.Proofs.Environment.Misspelt
import Connectors.Proofs.Sections.Elsewhere
import Connectors.Proofs.Sections.Readable
import Connectors.Proofs.Loader.Elsewhere
import Connectors.Proofs.Loader.Verbatim
import Connectors.Proofs.Sections.Folded
import Connectors.Proofs.Json.RoundTrip
import Connectors.Proofs.Schema.Documents
import Connectors.Proofs.Schema.Catalogs
import Connectors.Proofs.Registry.Exported
import Connectors.Proofs.Kinesis.Watching
import Connectors.Proofs.Calendar.Polling
import Connectors.Proofs.Lifecycle.AnyOrder
import Connectors.Proofs.Lifecycle.Selection
import Connectors.Proofs.Rehearsal.Reached
import Connectors.Proofs.Rehearsal.Served
import Connectors.Proofs.Calendar.Overlapping
import Connectors.Proofs.Sessions
import Connectors.Proofs.Rabbit.Connecting
import Connectors.Proofs.Registry.Failures
import Connectors.Proofs.Sections.Relaxing
import Connectors.Proofs.Config.Written
import Connectors.Proofs.Sections.Stable
import Connectors.Proofs.Loader.Reloading
import Connectors.Proofs.Environment.Collecting
import Connectors.Proofs.Sections.Precedence
import Connectors.Proofs.Toml.Documents
import Connectors.Proofs.Loader.LastSource
import Connectors.Proofs.Loader.FileSearch
import Connectors.Proofs.Rabbit.Declaring
import Connectors.Proofs.Binding.Defaults
import Connectors.Proofs.Sections.Integers
import Connectors.Proofs.Sections.Lists
import Connectors.Proofs.Binding.Deprecations
import Connectors.Proofs.Binding.Autowiring
import Connectors.Proofs.Registry.Spellings
import Connectors.Proofs.Binding.Demands
import Connectors.Proofs.Binding.Masking
import Connectors.Proofs.Kinesis.Settings
import Connectors.Proofs.Calendar.Credentials
import Connectors.Proofs.Rabbit.Limits
import Connectors.Proofs.Registry.Presets
import Connectors.Proofs.Rehearsal.Inspected
