import SpiderChrome.Library.Run
import SpiderChrome.Frame.Input
import SpiderChrome.Frame.Tree
import SpiderChrome.Frame.Rename
import SpiderChrome.Frame.Cap
import SpiderChrome.Frame.Context
import SpiderChrome.Frame.Completion
import SpiderChrome.Network.Manager
import SpiderChrome.Network.Switch
import SpiderChrome.Network.Answer
import SpiderChrome.Network.Order
import SpiderChrome.Cdp.Command
import SpiderChrome.Network.Events
import SpiderChrome.Target.Poll
import SpiderChrome.Handler.Driver
import SpiderChrome.Handler.Crash
import SpiderChrome.Handler.Calls
import SpiderChrome.Target.Backlog
import SpiderChrome.Handler.Targets
import SpiderChrome.Handler.Deliver
import SpiderChrome.Handler.Registry
import SpiderChrome.Target.Keeps
import SpiderChrome.Handler.Sessions
import SpiderChrome.Handler.Budget
import SpiderChrome.Handler.Pass
import SpiderChrome.Handler.Creation
import SpiderChrome.Handler.Wake
import SpiderChrome.Handler.Clock
import SpiderChrome.Handler.Eviction
import SpiderChrome.Handler.Ownership
import SpiderChrome.Handler.Goto
import SpiderChrome.Target.Commands
import SpiderChrome.Parallel.Session
import SpiderChrome.Parallel.Goto
import SpiderChrome.Parallel.Router
import SpiderChrome.Parallel.Routing
import SpiderChrome.Parallel.Targets
import SpiderChrome.Parallel.Creation
import SpiderChrome.Network.Decision
import SpiderChrome.Network.Stricter
import SpiderChrome.Network.Accounts
import SpiderChrome.Network.Budget
import SpiderChrome.Network.UserInterception
import SpiderChrome.Network.Credentials
import SpiderChrome.Network.Redirects
import SpiderChrome.Network.Reload
import SpiderChrome.Target.Turns
import SpiderChrome.Target.Init
import SpiderChrome.Target.Waiters
import SpiderChrome.Target.Drivers
import SpiderChrome.Target.Burst
import SpiderChrome.Dns.Resolve
import SpiderChrome.Parallel.System
import SpiderChrome.Parallel.Moves
import SpiderChrome.Parallel.Calls
import SpiderChrome.Target.Initiator
import SpiderChrome.Parallel.Lifecycle
import SpiderChrome.Parallel.Initiators
import SpiderChrome.Parallel.Exit
import SpiderChrome.Parallel.Slots
import SpiderChrome.Library.Pipeline
import SpiderChrome.Connection.Stream
import SpiderChrome.Connection.Reader
import SpiderChrome.Connection.Serial
import SpiderChrome.Connection.Malformed
import SpiderChrome.Handler.Stream
import SpiderChrome.Listeners.State
import SpiderChrome.Listeners.Delivery
import SpiderChrome.Markdown.State
import SpiderChrome.Markdown.Listeners
import SpiderChrome.Markdown.Chunks
import SpiderChrome.Cache.Session
import SpiderChrome.Cache.Navigation
import SpiderChrome.Cache.SiteKeys
import SpiderChrome.Cache.Isolation
import SpiderChrome.Cache.Interceptor
import SpiderChrome.Cache.Listener
import SpiderChrome.Cache.Methods
import SpiderChrome.Cache.Markers
import SpiderChrome.Cache.Responders
import SpiderChrome.Library.Swar
import SpiderChrome.Library.Pieces
import SpiderChrome.Library.Unicode
import SpiderChrome.Content.Units
import SpiderChrome.Library.BufferedFile
import SpiderChrome.Content.Sink
import SpiderChrome.Content.Stream
import SpiderChrome.Content.Chunks
import SpiderChrome.Content.Pump
import SpiderChrome.Cache.Settlement
import SpiderChrome.Library.Matcher
import SpiderChrome.Library.Scanner
import SpiderChrome.Pdl.Syntax
import SpiderChrome.Pdl.Parser
import SpiderChrome.Pdl.Printer
import SpiderChrome.Pdl.Lines
import SpiderChrome.Pdl.Reading
import SpiderChrome.Pdl.Domains
import SpiderChrome.Pdl.Text
import SpiderChrome.Pdl.RoundTrip
import SpiderChrome.Cache.History
import SpiderChrome.Cache.Headers
import SpiderChrome.Cache.Replay
import SpiderChrome.Cache.Keys
import SpiderChrome.Library.Separator
import SpiderChrome.Library.Slice
import SpiderChrome.Network.Helpers
import SpiderChrome.Dns.Cache
import SpiderChrome.Keyboard.Overtake
import SpiderChrome.Library.Labels
import SpiderChrome.Network.Sites
import SpiderChrome.Network.Subdomains
import SpiderChrome.Network.HostLabels
import SpiderChrome.Library.Literals
import SpiderChrome.Script.Call
import SpiderChrome.Script.Detection
import SpiderChrome.Connection.Events
import SpiderChrome.Pdl.EnumStrings
import SpiderChrome.Pdl.Versions
import SpiderChrome.Pdl.Belonging
import SpiderChrome.Target.Work
import SpiderChrome.Handler.Visits
import SpiderChrome.Handler.Passes
import SpiderChrome.Script.SkipArgs
import SpiderChrome.Library.Retry
import SpiderChrome.Pdl.Sizes
import SpiderChrome.Futures.State
import SpiderChrome.Futures.Delivery
import SpiderChrome.Futures.Wakes
import SpiderChrome.Futures.Steps
import SpiderChrome.Futures.Answers
import SpiderChrome.Futures.Deadlines
import SpiderChrome.Cache.Streams
import SpiderChrome.Cache.StreamCustody
import SpiderChrome.Cache.StreamFiles
import SpiderChrome.Cache.StreamBodies
import SpiderChrome.Cache.Workers
import SpiderChrome.Library.Modules
import SpiderChrome.Pdl.Generate
import SpiderChrome.Pdl.Mentions
import SpiderChrome.Pdl.Panics
import SpiderChrome.Library.Traversal
import SpiderChrome.Page.Pierced
import SpiderChrome.Pdl.Builders
import SpiderChrome.Launch.Output
import SpiderChrome.Launch.Retries
import SpiderChrome.Uring.Files
import SpiderChrome.Uring.Store
import SpiderChrome.Uring.Ring
import SpiderChrome.Fetcher.Versions
import SpiderChrome.Fetcher.Installs
