import LaunchMON.Cobo.Tree
import LaunchMON.Lib.Descent
import LaunchMON.Lib.FifoNet
import LaunchMON.Cobo.Collectives
import LaunchMON.Lib.Bytes
import LaunchMON.Lmonp.Msg
import LaunchMON.Lmonp.Proctab
import LaunchMON.Engine.Process
import LaunchMON.Engine.Handlers
import LaunchMON.Engine.Loop
import LaunchMON.Engine.Frames
import LaunchMON.Engine.Requests
import LaunchMON.Engine.Contexts
import LaunchMON.Engine.Alive
import LaunchMON.Engine.Kin
import LaunchMON.Engine.Signals
import LaunchMON.Engine.Text
import LaunchMON.Lib.Wire
import LaunchMON.Handshake.Lockstep
import LaunchMON.Cobo.Accept
import LaunchMON.Cobo.Connect
import LaunchMON.Lib.Traffic
import LaunchMON.Cobo.Broadcast
import LaunchMON.Cobo.Programs
import LaunchMON.Lib.Machine
import LaunchMON.Frontend.Watchdog
import LaunchMON.Backend.Handshake
import LaunchMON.Lib.Fleet
import LaunchMON.Lmonp.Stream
import LaunchMON.Backend.Sections
import LaunchMON.Backend.Names
import LaunchMON.Frontend.Handshake
import LaunchMON.Frontend.Conformance
import LaunchMON.Cobo.Bootstrap
import LaunchMON.Engine.Threads
import LaunchMON.Engine.ThreadList
import LaunchMON.Frontend.Calls
import LaunchMON.Frontend.Locks
import LaunchMON.Frontend.Sessions
import LaunchMON.Frontend.Daemons
import LaunchMON.Backend.LocalTables
import LaunchMON.Backend.UsrData
import LaunchMON.Lib.Strings
import LaunchMON.Middleware.Spawner
import LaunchMON.Engine.Options
import LaunchMON.Frontend.EngineArgs
import LaunchMON.Frontend.MwConformance
import LaunchMON.Frontend.Launch
import LaunchMON.Frontend.Ownership
import LaunchMON.Engine.Shipping
import LaunchMON.Engine.LaunchString
import LaunchMON.Middleware.Coloc
import LaunchMON.Cobo.Sockets
import LaunchMON.Cobo.Strings
import LaunchMON.Engine.MpirState
import LaunchMON.Frontend.Descriptor
import LaunchMON.Engine.Breakpoints
import LaunchMON.Engine.Symtab
import LaunchMON.Engine.Balance
import LaunchMON.Engine.LaunchBp
import LaunchMON.Engine.LinkMap
import LaunchMON.Engine.Wakeups
import LaunchMON.Lib.Transfer
import LaunchMON.Lmonp.RawIo
import LaunchMON.Engine.KillSignals
import LaunchMON.Engine.Ptracer
import LaunchMON.Engine.Arguments
import LaunchMON.Engine.ServerArgs
import LaunchMON.Frontend.MwSpawners
import LaunchMON.Frontend.UsrReceive
import LaunchMON.Middleware.HostNames
import LaunchMON.Engine.Children
import LaunchMON.Handshake.Decrypt
import LaunchMON.Middleware.CommandLine
import LaunchMON.Engine.ProcStat
import LaunchMON.Frontend.Handles
import LaunchMON.Frontend.Tokenize
import LaunchMON.Engine.RmConfig
import LaunchMON.Engine.JobId
import LaunchMON.Backend.Cdti
import LaunchMON.Backend.Procctl
import LaunchMON.Backend.BgqThreads
import LaunchMON.Backend.FetchMemory
import LaunchMON.Lib.Records
import LaunchMON.Engine.Auxv
import LaunchMON.Backend.HostLookup
import LaunchMON.Handshake.Packets
import LaunchMON.Handshake.Success
import LaunchMON.Handshake.Authentication
import LaunchMON.Engine.Messages
import LaunchMON.Frontend.EngineLink
import LaunchMON.Backend.Delivery
import LaunchMON.Frontend.UsrSessions
import LaunchMON.Backend.Startup
import LaunchMON.Middleware.ColocLaunch
