import QueryGateway.Address.Internet
import QueryGateway.Administration.Api
import QueryGateway.Administration.MediaType
import QueryGateway.Administration.RequestBody
import QueryGateway.Gateway.Answer
import QueryGateway.Gateway.Error
import QueryGateway.Gateway.Fetch
import QueryGateway.Gateway.FollowUp
import QueryGateway.Gateway.HeaderRules
import QueryGateway.Gateway.Outbound
import QueryGateway.Gateway.QuerySource
import QueryGateway.Gateway.Service
import QueryGateway.Gateway.Stream
import QueryGateway.Json.Parser
import QueryGateway.Json.Printer
import QueryGateway.Json.Value
import QueryGateway.Lifecycle.Shutdown
import QueryGateway.Main
import QueryGateway.Message.Body
import QueryGateway.Message.Exchange
import QueryGateway.Message.Framing
import QueryGateway.Message.Headers
import QueryGateway.Multipart.Decoding
import QueryGateway.Multipart.Encoder
import QueryGateway.Number.Binary64
import QueryGateway.Number.Duration
import QueryGateway.Number.Shortest
import QueryGateway.Number.Written
import QueryGateway.Pattern.CharSet
import QueryGateway.Pattern.Compilation
import QueryGateway.Pattern.Expression
import QueryGateway.Pattern.Machine
import QueryGateway.Pattern.Reader
import QueryGateway.Pattern.Replacement
import QueryGateway.Projection.Applicable
import QueryGateway.Projection.Error
import QueryGateway.Projection.Link
import QueryGateway.Projection.Pass
import QueryGateway.Projection.Template
import QueryGateway.Query.Document
import QueryGateway.Query.Error
import QueryGateway.Query.Evaluation
import QueryGateway.Query.SpreadGraph
import QueryGateway.Query.Syntax
import QueryGateway.Query.Text
import QueryGateway.Query.Token
import QueryGateway.Query.TypeSystem
import QueryGateway.Routing.Mapping
import QueryGateway.Routing.Table
import QueryGateway.Settings.Configuration
import QueryGateway.Settings.Decoding
import QueryGateway.Settings.Loading
import QueryGateway.Settings.SocketAddress
import QueryGateway.Settings.Validation
import QueryGateway.Text.Bytes
import QueryGateway.Text.Digits
import QueryGateway.Toml.Document
import QueryGateway.Toml.Scalar
import QueryGateway.Toml.Value
import QueryGateway.Unicode.Category
import QueryGateway.Unicode.Folding
import QueryGateway.Unicode.Property
import QueryGateway.Unicode.Runs
import QueryGateway.Uri.DomainName
import QueryGateway.Uri.Host
import QueryGateway.Uri.Percent
import QueryGateway.Uri.Punycode
import QueryGateway.Uri.Target
import QueryGateway.Uri.Url
import QueryGateway.Proofs.Multipart.Cutting
import QueryGateway.Proofs.Multipart.Framing
import QueryGateway.Proofs.Multipart.Polling
import QueryGateway.Proofs.Multipart.Assembly
import QueryGateway.Proofs.Multipart.Interruption
import QueryGateway.Proofs.Multipart.RoundTrip
import QueryGateway.Proofs.Multipart.Chunking
import QueryGateway.Proofs.Gateway.Visits
import QueryGateway.Proofs.Gateway.PartHeaders
import QueryGateway.Proofs.Gateway.Delivery
import QueryGateway.Proofs.Gateway.Scheduling
import QueryGateway.Proofs.Gateway.Fairness
import QueryGateway.Proofs.Gateway.Recording
import QueryGateway.Proofs.Gateway.Accounting
import QueryGateway.Proofs.Gateway.Succession
import QueryGateway.Proofs.Gateway.Reading
import QueryGateway.Proofs.Gateway.Restraint
import QueryGateway.Proofs.Gateway.Completion
import QueryGateway.Proofs.Json.Value
import QueryGateway.Proofs.Query.SpreadGraph
import QueryGateway.Proofs.Query.Cycles
import QueryGateway.Proofs.Projection.Applicability
import QueryGateway.Proofs.Projection.Occurrences
import QueryGateway.Proofs.Projection.Pass
import QueryGateway.Proofs.Projection.Shape
import QueryGateway.Proofs.Projection.Decision
import QueryGateway.Proofs.Projection.Demands
import QueryGateway.Proofs.Projection.Failure
import QueryGateway.Proofs.Projection.CallDepth
import QueryGateway.Proofs.Projection.Places
import QueryGateway.Proofs.Projection.Discovery
import QueryGateway.Proofs.Routing.Table
import QueryGateway.Proofs.Routing.Operations
import QueryGateway.Proofs.Routing.Sharing
import QueryGateway.Proofs.Routing.Serialization
import QueryGateway.Proofs.Gateway.Passing
import QueryGateway.Proofs.Gateway.Preparation
import QueryGateway.Proofs.Gateway.Replies
import QueryGateway.Proofs.Gateway.Hygiene
import QueryGateway.Proofs.Gateway.Transparency
import QueryGateway.Proofs.Gateway.Inspection
import QueryGateway.Proofs.Gateway.Rejection
import QueryGateway.Proofs.Gateway.Identification
import QueryGateway.Proofs.Gateway.Priority
import QueryGateway.Proofs.Projection.Repetition
import QueryGateway.Proofs.Pattern.Meaning
import QueryGateway.Proofs.Pattern.States
import QueryGateway.Proofs.Pattern.Exploration
import QueryGateway.Proofs.Pattern.Search
import QueryGateway.Proofs.Pattern.Continuation
import QueryGateway.Proofs.Pattern.Anchoring
import QueryGateway.Proofs.Routing.WholeMatch
import QueryGateway.Proofs.Routing.Supply
import QueryGateway.Proofs.Settings.Acceptance
import QueryGateway.Proofs.Settings.Rules
import QueryGateway.Proofs.Message.Framing
import QueryGateway.Proofs.Administration.Refinement
import QueryGateway.Proofs.Uri.Segment
import QueryGateway.Proofs.Administration.Management
import QueryGateway.Proofs.Projection.Simulation
import QueryGateway.Proofs.Projection.Independence
import QueryGateway.Proofs.Query.Inlining
import QueryGateway.Proofs.Query.Lexing
import QueryGateway.Proofs.Query.Writing
import QueryGateway.Proofs.Query.RoundTrip
import QueryGateway.Proofs.Query.Reading
import QueryGateway.Proofs.Query.Definitions
import QueryGateway.Proofs.Projection.Inlining
import QueryGateway.Proofs.Text.Runs
import QueryGateway.Proofs.Text.Digits
import QueryGateway.Proofs.Text.Decoding
import QueryGateway.Proofs.Json.Grammar
import QueryGateway.Proofs.Json.Strings
import QueryGateway.Proofs.Json.Numerals
import QueryGateway.Proofs.Json.Reading
import QueryGateway.Proofs.Json.Unambiguity
import QueryGateway.Proofs.Json.Printing
import QueryGateway.Proofs.Json.RoundTrip
import QueryGateway.Proofs.Number.Magnitude
import QueryGateway.Proofs.Number.Shortest
import QueryGateway.Proofs.Number.Rounding
import QueryGateway.Proofs.Number.Fidelity
import QueryGateway.Proofs.Json.Exactness
import QueryGateway.Proofs.Json.Paths
import QueryGateway.Proofs.Gateway.Stripping
import QueryGateway.Proofs.Projection.Origins
import QueryGateway.Proofs.Gateway.Scalars
import QueryGateway.Proofs.Projection.Expansion
import QueryGateway.Proofs.Number.Overflow
import QueryGateway.Proofs.Query.Evaluation
import QueryGateway.Proofs.Query.Acceptance
import QueryGateway.Proofs.Query.Printing
import QueryGateway.Proofs.Routing.Resolution
import QueryGateway.Proofs.Gateway.Listing
import QueryGateway.Proofs.Gateway.Announcement
import QueryGateway.Proofs.Uri.Target
import QueryGateway.Proofs.Uri.Fragment
import QueryGateway.Proofs.Gateway.LinkFragment
