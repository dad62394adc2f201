import MicroTcp.Stream
import MicroTcp.Message
import MicroTcp.Session
import MicroTcp.ServerSession
import MicroTcp.ClientSession
import MicroTcp.Stop
import MicroTcp.Server
import MicroTcp.IoManager
import MicroTcp.Exchange.Machine
import MicroTcp.Exchange.Wire
import MicroTcp.Exchange.Client
import MicroTcp.Exchange.Server
import MicroTcp.Exchange.Delivery
import MicroTcp.Exchange.Sessions
import MicroTcp.Faults
import MicroTcp.Client
import MicroTcp.Host
import MicroTcp.Console
