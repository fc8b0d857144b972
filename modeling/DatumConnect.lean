import DatumConnect.Lib.Runs
import DatumConnect.Lib.Serial
import DatumConnect.Lib.Prog
import DatumConnect.Lib.Traces
import DatumConnect.Lib.Restarts
import DatumConnect.Lib.Pool
import DatumConnect.Lib.Leases
import DatumConnect.Lib.Objects
import DatumConnect.Lib.Path
import DatumConnect.Lib.FileTree
import DatumConnect.Lib.Base64
import DatumConnect.Lib.Pem
import DatumConnect.Lib.Text
import DatumConnect.Lib.Trim
import DatumConnect.Lib.Utf8
import DatumConnect.Lib.UrlPath
import DatumConnect.Lib.Secrets
import DatumConnect.Lib.Lossy
import DatumConnect.Lib.Lines
import DatumConnect.Lib.Form
import DatumConnect.Lib.Watch
import DatumConnect.Lib.Options
import DatumConnect.Lib.IpAddr
import DatumConnect.Lib.IpText
import DatumConnect.Lib.IpRead
import DatumConnect.Lib.IpNetwork
import DatumConnect.Lib.IpSame
import DatumConnect.Lib.Json
import DatumConnect.Lib.JsonText
import DatumConnect.Lib.JsonSame
import DatumConnect.Lib.Lawful
import DatumConnect.Cloud.Objects
import DatumConnect.Cloud.Endpoint
import DatumConnect.Cloud.Readings
import DatumConnect.Cloud.Calls
import DatumConnect.Cloud.Server
import DatumConnect.Tunnels.Service
import DatumConnect.Tunnels.Makes
import DatumConnect.Tunnels.Footprint
import DatumConnect.Tunnels.Delete
import DatumConnect.Tunnels.Connectors
import DatumConnect.Tunnels.Dangling
import DatumConnect.Tunnels.Made
import DatumConnect.Tunnels.OneConnector
import DatumConnect.Tunnels.Creating
import DatumConnect.Tunnels.Orphans
import DatumConnect.Tunnels.Ledger
import DatumConnect.Tunnels.Stored
import DatumConnect.Tunnels.Retarget
import DatumConnect.Tunnels.Repeated
import DatumConnect.Tunnels.Reported
import DatumConnect.Tunnels.Progress
import DatumConnect.Tunnels.Checkpoints
import DatumConnect.Cli.Calls
import DatumConnect.Cli.Listen
import DatumConnect.Cli.Waiting
import DatumConnect.Cli.Nodes
import DatumConnect.Cli.Identity
import DatumConnect.Cli.NsAuthority
import DatumConnect.Cli.Ending
import DatumConnect.Auth.Tokens
import DatumConnect.Auth.Lifetimes
import DatumConnect.Auth.Gates
import DatumConnect.Auth.TokenFiles
import DatumConnect.Auth.History
import DatumConnect.Auth.SetupToken
import DatumConnect.Auth.AtomicWrites
import DatumConnect.Auth.ViewerRequests
import DatumConnect.Proxies.State
import DatumConnect.Proxies.Store
import DatumConnect.Proxies.Shared
import DatumConnect.Proxies.Wrapper
import DatumConnect.Daemon.Calls
import DatumConnect.Daemon.Operations
import DatumConnect.Daemon.Places
import DatumConnect.Daemon.Keeping
import DatumConnect.Daemon.Claims
import DatumConnect.Daemon.Busy
import DatumConnect.Daemon.Expiry
import DatumConnect.Daemon.Deleted
import DatumConnect.Daemon.DeleteFiles
import DatumConnect.Daemon.Exclusive
import DatumConnect.Daemon.Registries
import DatumConnect.HomeAssistant.Settings
import DatumConnect.HomeAssistant.LeastChange
import DatumConnect.HomeAssistant.Networks
import DatumConnect.HomeAssistant.Allow
import DatumConnect.HomeAssistant.Confirmed
import DatumConnect.HomeAssistant.Slots
import DatumConnect.Proxies.Interrupted
import DatumConnect.Peers.Operations
import DatumConnect.Peers.Listed
import DatumConnect.Peers.Turns
import DatumConnect.Peers.Revoked
import DatumConnect.Peers.Isolated
import DatumConnect.Peers.Served
import DatumConnect.Pairing.Types
import DatumConnect.Pairing.ProjectIds
import DatumConnect.Pairing.Calls
import DatumConnect.Pairing.Timeline
import DatumConnect.Pairing.Approval
import DatumConnect.Pairing.Polite
import DatumConnect.Pairing.Provision
import DatumConnect.Pairing.Host
import DatumConnect.Pairing.Parts
import DatumConnect.Pairing.Accounts
import DatumConnect.Pairing.Keys
import DatumConnect.Credentials.RefreshLoop
import DatumConnect.Inspector.Capture
import DatumConnect.Inspector.Replay
import DatumConnect.Inspector.Responses
import DatumConnect.Logs.Ansi
import DatumConnect.Logs.Tail
import DatumConnect.Credentials.ControlPlane
import DatumConnect.Credentials.AuthWatch
import DatumConnect.Credentials.ServiceAccount
import DatumConnect.Credentials.InTime
import DatumConnect.Credentials.KeptUp
import DatumConnect.Heartbeat.RunProject
import DatumConnect.Heartbeat.Projects
import DatumConnect.Heartbeat.LoggedOut
import DatumConnect.Heartbeat.Refreshed
import DatumConnect.Policies.Waf
import DatumConnect.Policies.Equality
import DatumConnect.Policies.Exempt
import DatumConnect.Policies.Passes
import DatumConnect.Policies.Places
import DatumConnect.Policies.Kept
import DatumConnect.Policies.Outlived
import DatumConnect.AddonPage.State
import DatumConnect.AddonPage.Requests
import DatumConnect.AddonPage.Places
import DatumConnect.AddonPage.Present
import DatumConnect.AddonPage.Ingress
import DatumConnect.AddonPage.Index
import DatumConnect.AddonPage.Script
import DatumConnect.AddonPage.Recovers
import DatumConnect.Plugin.Places
import DatumConnect.Plugin.Install
import DatumConnect.Plugin.Contained
import DatumConnect.Plugin.Launch
import DatumConnect.Plugin.Exec
import DatumConnect.Plugin.Listen
import DatumConnect.Plugin.Listening
import DatumConnect.Plugin.PidFile
import DatumConnect.Plugin.StartTime
import DatumConnect.Plugin.PidBytes
import DatumConnect.Plugin.Processes
import DatumConnect.Plugin.Commands
import DatumConnect.Plugin.CommandPlaces
import DatumConnect.Plugin.Recorded
import DatumConnect.Plugin.Turns
import DatumConnect.Plugin.OneDaemon
import DatumConnect.Plugin.Named
import DatumConnect.Pairing.Choosing
import DatumConnect.Pairing.Urls
import DatumConnect.Pairing.Messages
import DatumConnect.Pairing.Setup
import DatumConnect.Pairing.SetupPlaces
import DatumConnect.Pairing.SetupRuns
import DatumConnect.Pairing.Session
