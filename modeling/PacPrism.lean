import PacPrism.Foundations.OrdSet
import PacPrism.Foundations.Table
import PacPrism.Foundations.Runs
import PacPrism.Foundations.Register
import PacPrism.Foundations.Bytes
import PacPrism.Foundations.Numerals
import PacPrism.Foundations.Hex
import PacPrism.Foundations.Reading
import PacPrism.Foundations.Utf8
import PacPrism.Foundations.Percent
import PacPrism.Foundations.Json
import PacPrism.Foundations.JsonNumbers
import PacPrism.Foundations.Path
import PacPrism.Foundations.Exceptions
import PacPrism.Foundations.Traces
import PacPrism.Foundations.Framing
import PacPrism.Foundations.Search
import PacPrism.Foundations.Layout
import PacPrism.Foundations.Lines
import PacPrism.Foundations.Calendar
import PacPrism.Node.Dht.Types
import PacPrism.Node.Dht.Operation
import PacPrism.Node.Dht.Refinement
import PacPrism.Node.Dht.IpIndex
import PacPrism.Node.Dht.IpLaws
import PacPrism.Node.Dht.ShardSets
import PacPrism.Node.Dht.Cleanups
import PacPrism.Node.Dht.Convergence
import PacPrism.Node.Dht.Reordering
import PacPrism.Node.Dht.Codec
import PacPrism.Node.Dht.RoundTrip
import PacPrism.Node.Validator
import PacPrism.Http.Message
import PacPrism.Node.Checksum
import PacPrism.Console.Config
import PacPrism.Console.ConfigFile
import PacPrism.Console.System
import PacPrism.Console.Range
import PacPrism.Console.RangeGrammar
import PacPrism.Console.FileCache
import PacPrism.Console.Calls
import PacPrism.Console.Effects
import PacPrism.Console.Disk
import PacPrism.Console.Fetching
import PacPrism.Console.RangeResponse
import PacPrism.Console.Truncation
import PacPrism.Console.Retries
import PacPrism.Console.Conditional
import PacPrism.Console.Etags
import PacPrism.Console.IgnoredHeaders
import PacPrism.Console.HttpDates
import PacPrism.Console.ModifiedSince
import PacPrism.Node.Package.Parser
import PacPrism.Node.Package.FileFormats
import PacPrism.Node.Package.PoolPaths
import PacPrism.Node.Package.Reassembly
import PacPrism.Network.Target
import PacPrism.Network.PlainRouter
import PacPrism.Network.Confinement
import PacPrism.Network.NodeRouter
import PacPrism.Network.Router
import PacPrism.Network.NullResponse
import PacPrism.Network.PlainExceptions
import PacPrism.Network.NodeExceptions
import PacPrism.Network.NodeAnswers
import PacPrism.Network.StoreAnswers
import PacPrism.Network.Lookups
import PacPrism.Network.Parameters
import PacPrism.Network.Timestamps
import PacPrism.Network.Transmission
import PacPrism.Network.Pipelining
import PacPrism.Network.Isolation
import PacPrism.Network.Api
import PacPrism.Network.Running
import PacPrism.Network.Linearization
import PacPrism.Network.Replicas
import PacPrism.Network.Footprint
import PacPrism.Console.Files
import PacPrism.Console.Provenance
import PacPrism.Network.Immutable
import PacPrism.Network.Listing
import PacPrism.Network.Tables
import PacPrism.Network.Mirroring
import PacPrism.Network.Caching
import PacPrism.Network.Responses
import PacPrism.Network.Startup
