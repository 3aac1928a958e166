import Tlink.Lib.PartialRun
import Tlink.Runtime.Trunks
import Tlink.Runtime.Acm
import Tlink.Runtime.Init
import Tlink.Net.Reference
import Tlink.Properties.QosLink
import Tlink.Properties.Flush
import Tlink.Net.Repeat
import Tlink.Properties.Ticks
import Tlink.Properties.Capacity
import Tlink.Properties.Queue
import Tlink.Properties.Rates
import Tlink.Lib.Chase
import Tlink.Properties.Resolution
import Tlink.Properties.Safety
import Tlink.Properties.Dwell
import Tlink.Properties.Endpoints
import Tlink.Properties.Restart
import Tlink.Properties.Symmetry
import Tlink.Lib.Interleave
import Tlink.Net.Rules
import Tlink.Lib.Redo
import Tlink.Properties.Isolation
import Tlink.Net.Demands
import Tlink.Properties.Recovery
import Tlink.Properties.InForce
import Tlink.Net.Ledger
import Tlink.Properties.History
import Tlink.Lib.Ring
import Tlink.Testbed.PacketRing
import Tlink.Properties.Fifo
import Tlink.Properties.Overflow
import Tlink.Testbed.Reporter
import Tlink.Lib.Clipped
import Tlink.Properties.Accounting
import Tlink.Properties.Reports
import Tlink.Lib.Rounds
import Tlink.Testbed.EndJob
import Tlink.Properties.Ending
import Tlink.Lib.Words
import Tlink.Testbed.Session
import Tlink.Properties.Wire
import Tlink.Properties.Delivery
import Tlink.Testbed.JobQueue
import Tlink.Properties.Jobs
import Tlink.Properties.Group
