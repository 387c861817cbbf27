import SelfTraining.Lib.Steps
import SelfTraining.Lib.Metric
import SelfTraining.Lib.Order
import SelfTraining.Lib.Parity
import SelfTraining.Lib.Lookup
import SelfTraining.Lib.First
import SelfTraining.Lib.Framing
import SelfTraining.Lib.Gate
import SelfTraining.Lib.Fifo
import SelfTraining.Lib.Lifo
import SelfTraining.Lib.EdgeTriggered
import SelfTraining.Lib.Text
import SelfTraining.Lib.Stream
import SelfTraining.Lib.Sql
import SelfTraining.Lib.Terminal
import SelfTraining.Lib.Board
import SelfTraining.Lib.Accounts
import SelfTraining.Lib.Painting
import SelfTraining.Lib.Single
import SelfTraining.Route.Model
import SelfTraining.Route.RoutePlanner
import SelfTraining.Route.SearchTree
import SelfTraining.Route.Validity
import SelfTraining.Route.ExpansionStep
import SelfTraining.Route.Termination
import SelfTraining.Route.Optimality
import SelfTraining.Route.SearchRuns
import SelfTraining.Route.Expansions
import SelfTraining.Route.TrivialTrips
import SelfTraining.Route.Legs
import SelfTraining.Route.SecondSearch
import SelfTraining.Route.Rings
import SelfTraining.Route.RingSearch
import SelfTraining.Route.Backtracking
import SelfTraining.Route.RingAssembly
import SelfTraining.Route.RingExact
import SelfTraining.Route.EmptyWays
import SelfTraining.Route.BuildRings
import SelfTraining.Route.WayStorage
import SelfTraining.Route.LoadData
import SelfTraining.Route.Indices
import SelfTraining.Route.LoadedRoads
import SelfTraining.Route.Lookups
import SelfTraining.Route.IndexIntegrity
import SelfTraining.Route.Snapping
import SelfTraining.Route.TrackCalls
import SelfTraining.Route.StoredRings
import SelfTraining.Route.Mercator
import SelfTraining.Route.Trip
import SelfTraining.Route.Features
import SelfTraining.Route.Areas
import SelfTraining.Monitor.LinuxParser
import SelfTraining.Monitor.Processor
import SelfTraining.Monitor.ProcessStat
import SelfTraining.Monitor.User
import SelfTraining.Monitor.Process
import SelfTraining.Monitor.Format
import SelfTraining.Monitor.Memory
import SelfTraining.Monitor.OperatingSystem
import SelfTraining.Monitor.Counters
import SelfTraining.Monitor.System
import SelfTraining.Monitor.Display
import SelfTraining.Monitor.SystemWindow
import SelfTraining.Monitor.ProcessWindow
import SelfTraining.Chat.Statement
import SelfTraining.Chat.Database
import SelfTraining.Chat.Injection
import SelfTraining.Chat.Server
import SelfTraining.Chat.Client
import SelfTraining.Chat.Handling
import SelfTraining.Chat.Session
import SelfTraining.Chat.Serving
import SelfTraining.Chat.Authentication
import SelfTraining.Chat.Failures
import SelfTraining.Chat.Presence
import SelfTraining.Chat.Relay
import SelfTraining.Chat.Network
import SelfTraining.Chat.Recipients
import SelfTraining.Chat.Confusion
import SelfTraining.Chat.Stranded
import SelfTraining.Chat.EventLoop
import SelfTraining.Chat.Accepting
import SelfTraining.Chat.Handshake
import SelfTraining.Chat.Received
import SelfTraining.Chat.Display
import SelfTraining.Chat.Broadcast
import SelfTraining.Chat.Delivery
import SelfTraining.Chat.Typists
import SelfTraining.Chat.EndToEnd
import SelfTraining.Chat.CatchUp
import SelfTraining.Chat.Lifetimes
import SelfTraining.Chat.Crashes
import SelfTraining.Traffic.Model
import SelfTraining.Traffic.Threads
import SelfTraining.Traffic.Crossing
import SelfTraining.Traffic.MutualExclusion
import SelfTraining.Traffic.EntryOrder
import SelfTraining.Traffic.Lights
import SelfTraining.Traffic.RedLight
import SelfTraining.Traffic.ConsoleMutex
import SelfTraining.Traffic.Roads
import SelfTraining.Traffic.PhaseOrder
import SelfTraining.Traffic.Flag
import SelfTraining.Traffic.Passing
import SelfTraining.Traffic.Progress
import SelfTraining.Traffic.Journey
import SelfTraining.Traffic.Cities
