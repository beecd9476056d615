import UnaryRpc.Bench.Catalogue
import UnaryRpc.Bench.ClientUnit
import UnaryRpc.Bench.Marker
import UnaryRpc.Bench.Messages
import UnaryRpc.Bench.Method
import UnaryRpc.Bench.Recording
import UnaryRpc.Bench.ServerUnit
import UnaryRpc.Chain
import UnaryRpc.Chain.Edit
import UnaryRpc.Client.Gateway
import UnaryRpc.Client.Stub
import UnaryRpc.Context
import UnaryRpc.Encoding
import UnaryRpc.Envelope
import UnaryRpc.Fault
import UnaryRpc.Http.Headers
import UnaryRpc.Http.Message
import UnaryRpc.Http.Uri
import UnaryRpc.Json.Complaint
import UnaryRpc.Json.Numeral
import UnaryRpc.Json.RawText
import UnaryRpc.Json.Token
import UnaryRpc.Json.Tree
import UnaryRpc.Main
import UnaryRpc.Message
import UnaryRpc.Message.Binary
import UnaryRpc.Message.Schema
import UnaryRpc.Message.Structured
import UnaryRpc.Ownership.Arena
import UnaryRpc.Ownership.Heap
import UnaryRpc.Proofs.Chain
import UnaryRpc.Proofs.Chain.History
import UnaryRpc.Proofs.Client.Accounting
import UnaryRpc.Proofs.Client.Addressing
import UnaryRpc.Proofs.Client.Call
import UnaryRpc.Proofs.Client.Link
import UnaryRpc.Proofs.Client.Sending
import UnaryRpc.Proofs.Context
import UnaryRpc.Proofs.Envelope
import UnaryRpc.Proofs.Envelope.Canonical
import UnaryRpc.Proofs.Envelope.Override
import UnaryRpc.Proofs.Envelope.Reading
import UnaryRpc.Proofs.Envelope.Relay
import UnaryRpc.Proofs.Http.Address
import UnaryRpc.Proofs.Http.HeaderText
import UnaryRpc.Proofs.Json.Ending
import UnaryRpc.Proofs.Json.Numeral
import UnaryRpc.Proofs.Json.Object
import UnaryRpc.Proofs.Json.RawText
import UnaryRpc.Proofs.Json.Reading
import UnaryRpc.Proofs.Json.Spelling
import UnaryRpc.Proofs.Json.Strict
import UnaryRpc.Proofs.Json.Token
import UnaryRpc.Proofs.Json.Tree
import UnaryRpc.Proofs.Message.Binary
import UnaryRpc.Proofs.Message.Body
import UnaryRpc.Proofs.Message.Lawful
import UnaryRpc.Proofs.Message.Meaning
import UnaryRpc.Proofs.Message.Members
import UnaryRpc.Proofs.Message.Objects
import UnaryRpc.Proofs.Message.RoundTrip
import UnaryRpc.Proofs.Message.Structured
import UnaryRpc.Proofs.Ownership.Lifetimes
import UnaryRpc.Proofs.Ownership.Past
import UnaryRpc.Proofs.Ownership.Reflection
import UnaryRpc.Proofs.Protobuf.Nesting
import UnaryRpc.Proofs.Protobuf.Record
import UnaryRpc.Proofs.Protobuf.Spelling
import UnaryRpc.Proofs.Server.Blueprint
import UnaryRpc.Proofs.Server.Declared
import UnaryRpc.Proofs.Server.Described
import UnaryRpc.Proofs.Server.Gates
import UnaryRpc.Proofs.Server.Handling
import UnaryRpc.Proofs.Server.Noting
import UnaryRpc.Proofs.Server.RouteTable
import UnaryRpc.Proofs.Server.Routes
import UnaryRpc.Proofs.Server.Shielding
import UnaryRpc.Proofs.Table
import UnaryRpc.Proofs.Truncation
import UnaryRpc.Proofs.Weather.Commands
import UnaryRpc.Proofs.Weather.Direct
import UnaryRpc.Proofs.Weather.Errands
import UnaryRpc.Proofs.Weather.Handling
import UnaryRpc.Proofs.Weather.Interference
import UnaryRpc.Proofs.Weather.Manners
import UnaryRpc.Proofs.Weather.Methods
import UnaryRpc.Proofs.Weather.Refinement
import UnaryRpc.Protobuf.Record
import UnaryRpc.Protobuf.Varint
import UnaryRpc.Server
import UnaryRpc.Service
import UnaryRpc.Status
import UnaryRpc.Status.Code
import UnaryRpc.Status.WireCode
import UnaryRpc.Table
import UnaryRpc.Text.Bytes
import UnaryRpc.Text.Inspect
import UnaryRpc.Text.Unseen
import UnaryRpc.Weather.Demo
import UnaryRpc.Weather.Endpoints
import UnaryRpc.Weather.Messages
import UnaryRpc.Weather.Stations
