import MessageNexus.Nexus.SendPath
import MessageNexus.Nexus.Replies
import MessageNexus.Nexus.Verdict
import MessageNexus.Lib.Relay
import MessageNexus.Nexus.Faults
import MessageNexus.Nexus.Forwarding
import MessageNexus.Nexus.Frames
import MessageNexus.Nexus.ResumeCursor
import MessageNexus.Lib.Lock
import MessageNexus.Nexus.StoreLock
import MessageNexus.Nexus.Latch
import MessageNexus.Nexus.Configure
import MessageNexus.Nexus.Startup
import MessageNexus.Lib.Json
import MessageNexus.Client.Stream
import MessageNexus.Mcp.Adapter
import MessageNexus.Mcp.Operation
import MessageNexus.Mcp.Worker
import MessageNexus.Mcp.Stdio
import MessageNexus.Mcp.System
import MessageNexus.Mcp.Gate
import MessageNexus.Mcp.ActiveLock
import MessageNexus.Mcp.Dispatch
import MessageNexus.Mcp.Admission
import MessageNexus.Mcp.Cancel
import MessageNexus.Mcp.Calls
import MessageNexus.Mcp.Told
import MessageNexus.Client.Cli
import MessageNexus.Client.Terminal
import MessageNexus.Mcp.Verdicts
import MessageNexus.Mcp.Envelope
import MessageNexus.Mcp.Interrupted
import MessageNexus.Lib.Framing
import MessageNexus.Wire.Stream
import MessageNexus.Wire.RoundTrip
import MessageNexus.Wire.Cut
import MessageNexus.Wire.Prefix
import MessageNexus.Nexus.Written
import MessageNexus.Wire.EndToEnd
import MessageNexus.Wire.MetaCall
import MessageNexus.Wire.CliCall
import MessageNexus.Nexus.Recognition
import MessageNexus.Nexus.CrashSafety
import MessageNexus.Nexus.Restart
import MessageNexus.Nexus.ObservedRefusal
import MessageNexus.Lib.Text
import MessageNexus.Nexus.Peer
import MessageNexus.Lib.Lines
import MessageNexus.Mcp.Input
import MessageNexus.Mcp.Stdout
import MessageNexus.Mcp.Lines
import MessageNexus.Lib.Reap
import MessageNexus.Mcp.Joined
import MessageNexus.Nexus.Serve
import MessageNexus.Nexus.Joined
import MessageNexus.Lib.Fair
import MessageNexus.Lib.Hide
import MessageNexus.Lib.Expand
import MessageNexus.Lib.Serial
import MessageNexus.Lib.Monitor
import MessageNexus.Nexus.Watch
import MessageNexus.Nexus.Section
import MessageNexus.Nexus.Watching
import MessageNexus.Nexus.WatcherAccount
import MessageNexus.Nexus.Shutdown
import MessageNexus.Nexus.ServeReturns
import MessageNexus.Mcp.Stages
import MessageNexus.Mcp.Turns
import MessageNexus.Mcp.Ending
import MessageNexus.Mcp.Returns
