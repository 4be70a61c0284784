import Netdev.Base.System
import Netdev.Daemon.Framing
import Netdev.Daemon.Handshake
import Netdev.Daemon.Version
import Netdev.Daemon.Registration
import Netdev.Daemon.Proxy
import Netdev.Daemon.Delivery
import Netdev.Kernel.FoStruct
import Netdev.Kernel.FoComm
import Netdev.Kernel.FoExecute
import Netdev.Kernel.FoSend
import Netdev.Kernel.Exchange
import Netdev.Base.Fifo
import Netdev.Kernel.FoAccess
import Netdev.Kernel.Completion
import Netdev.Base.Exec
import Netdev.Base.Hashtable
import Netdev.Kernel.Minors
import Netdev.Kernel.Netdevmgm
import Netdev.Kernel.References
import Netdev.Kernel.Balance
import Netdev.Kernel.Unregister
import Netdev.Kernel.FoTask
import Netdev.Kernel.Module
import Netdev.Kernel.Holding
import Netdev.Kernel.Lifetime
import Netdev.Kernel.Frame
import Netdev.Kernel.Register
import Netdev.Kernel.Freed
import Netdev.Kernel.Directory
import Netdev.Kernel.Lookup
import Netdev.Kernel.Shutdown
import Netdev.Kernel.PutMinor
import Netdev.Kernel.FoCodec
import Netdev.Daemon.Filter
import Netdev.Kernel.NetlinkTask
import Netdev.Kernel.AckOrder
import Netdev.Kernel.Sequence
import Netdev.Kernel.Position
import Netdev.Kernel.Allocation
import Netdev.Kernel.FailedOpen
import Netdev.Kernel.ReplyOrder
import Netdev.Kernel.MinorRuns
import Netdev.Kernel.Sending
import Netdev.Kernel.Cleanup
import Netdev.Kernel.Answering
import Netdev.Kernel.Repacking
import Netdev.Kernel.Transparency
import Netdev.Kernel.Writing
import Netdev.Kernel.FileTable
import Netdev.Kernel.Routing
import Netdev.Kernel.RoutedCalls
import Netdev.Kernel.RoutedClient
import Netdev.Kernel.RoutedServer
import Netdev.Kernel.Routed
import Netdev.Base.Ledger
import Netdev.Kernel.Creation
import Netdev.Kernel.FailedUnregister
import Netdev.Kernel.AllOrNothing
import Netdev.Kernel.Receiving
import Netdev.Daemon.Forwarding
import Netdev.Daemon.Addresses
import Netdev.Kernel.FoBounds
import Netdev.Kernel.Requester
import Netdev.Daemon.RegReply
import Netdev.Daemon.Config
import Netdev.Daemon.Names
import Netdev.Daemon.ReadConfig
import Netdev.Daemon.ConfigFile
import Netdev.Kernel.Wrapping
import Netdev.Base.Kfifo
import Netdev.Kernel.ReplySize
import Netdev.Kernel.Ring
import Netdev.Daemon.NetlinkSocket
import Netdev.Daemon.Tunnel
import Netdev.Daemon.Draining
import Netdev.Stack
import Netdev.Kernel.Isolation
import Netdev.Base.Heap
import Netdev.Daemon.Memory
import Netdev.Daemon.Ownership
import Netdev.Base.Process
import Netdev.Daemon.Listener
import Netdev.Deployment.Messages
import Netdev.Deployment.Runs
import Netdev.Base.Refines
import Netdev.Daemon.Forgetting
import Netdev.Kernel.Uninterrupted
