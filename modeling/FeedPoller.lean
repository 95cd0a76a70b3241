import FeedPoller.Api
import FeedPoller.Backend.Script
import FeedPoller.Backend.StatusFeed
import FeedPoller.Backoff
import FeedPoller.Binary64.Basic
import FeedPoller.Binary64.Shortest
import FeedPoller.Clockwork
import FeedPoller.Command
import FeedPoller.Config.Basic
import FeedPoller.Config.DotEnv
import FeedPoller.Config.Files
import FeedPoller.Config.Load
import FeedPoller.Config.Resolve
import FeedPoller.Control
import FeedPoller.Counters
import FeedPoller.Credentials
import FeedPoller.Failure
import FeedPoller.Feed.Kind
import FeedPoller.Feed.Path
import FeedPoller.Feed.Query
import FeedPoller.Feed.Quota
import FeedPoller.Feed.Status
import FeedPoller.Feed.Transport
import FeedPoller.History
import FeedPoller.History.Recent
import FeedPoller.Http.Charset
import FeedPoller.Http.Charset.Tables
import FeedPoller.Http.Form
import FeedPoller.Http.MediaType
import FeedPoller.Http.Message
import FeedPoller.Http.Url
import FeedPoller.Http.Wire
import FeedPoller.IpAddress
import FeedPoller.Item
import FeedPoller.Json.Printer
import FeedPoller.Json.Reader
import FeedPoller.Json.Token
import FeedPoller.Json.Value
import FeedPoller.Main
import FeedPoller.Named
import FeedPoller.Node
import FeedPoller.Plan
import FeedPoller.Poller
import FeedPoller.Report
import FeedPoller.Settings
import FeedPoller.Sink
import FeedPoller.Span
import FeedPoller.Span.Words
import FeedPoller.Startup
import FeedPoller.Text.Blank
import FeedPoller.Text.Number
import FeedPoller.Text.Percent
import FeedPoller.Text.Quoted
import FeedPoller.Text.Shown
import FeedPoller.Text.Utf8
import FeedPoller.Toml.DateTime
import FeedPoller.Toml.Quoted
import FeedPoller.Toml.Reader
import FeedPoller.Toml.Scalar
import FeedPoller.Toml.Table
import FeedPoller.World
import FeedPoller.Xml.Document
import FeedPoller.Xml.Markup
import FeedPoller.Xml.Reference
import FeedPoller.Proofs.Course
import FeedPoller.Proofs.Terms
import FeedPoller.Proofs.Operations
import FeedPoller.Proofs.GrowingFeed
import FeedPoller.Proofs.Coverage
import FeedPoller.Proofs.InOrder
import FeedPoller.Proofs.Suspension
import FeedPoller.Proofs.Bookkeeping
import FeedPoller.Proofs.BoundedQueues
import FeedPoller.Proofs.Conduct
import FeedPoller.Proofs.SessionBracket
import FeedPoller.Proofs.Isolation
import FeedPoller.Proofs.SlidingWindow
import FeedPoller.Proofs.OwnPosts
import FeedPoller.Proofs.Deadlines
import FeedPoller.Proofs.StatusLooks
import FeedPoller.Proofs.Turns
import FeedPoller.Proofs.Ticks
import FeedPoller.Proofs.Pacing
import FeedPoller.Proofs.Failures
import FeedPoller.Proofs.Secrets
import FeedPoller.Proofs.Walks
import FeedPoller.Proofs.Authorization
import FeedPoller.Proofs.ItemCounts
import FeedPoller.Proofs.PollAsCycle
import FeedPoller.Proofs.Redelivery
import FeedPoller.Proofs.Trimming
import FeedPoller.Proofs.Numerals
import FeedPoller.Proofs.QuotaProbe
import FeedPoller.Proofs.QuotaWait
import FeedPoller.Proofs.XmlTrees
import FeedPoller.Proofs.XmlTexts
import FeedPoller.Proofs.XmlPieces
import FeedPoller.Proofs.XmlOutlines
import FeedPoller.Proofs.XmlValues
import FeedPoller.Proofs.XmlDocuments
import FeedPoller.Proofs.SoundSettings
import FeedPoller.Proofs.StatusLists
import FeedPoller.Proofs.UsableIds
import FeedPoller.Proofs.SessionLife
import FeedPoller.Proofs.NominalDelay
import FeedPoller.Proofs.ByteOrder
import FeedPoller.Proofs.CanonicalRequests
import FeedPoller.Proofs.Endpoints
import FeedPoller.Proofs.UrlPaths
import FeedPoller.Proofs.DeleteTarget
import FeedPoller.Proofs.QuotedParameters
import FeedPoller.Proofs.ResolvedCredentials
import FeedPoller.Proofs.ShownMillis
import FeedPoller.Proofs.DecimalTexts
import FeedPoller.Proofs.PortableValues
import FeedPoller.Proofs.JsonTexts
import FeedPoller.Proofs.TomlScalars
import FeedPoller.Proofs.TomlValues
import FeedPoller.Proofs.TomlDocuments
import FeedPoller.Proofs.RecordFields
import FeedPoller.Proofs.ConfigTexts
