import Mcapi.Lib.FreeChain
import Mcapi.Lib.Runs
import Mcapi.Lib.Tables
import Mcapi.Ownership
import Mcapi.AtMostOnce
import Mcapi.EndpointRuns
import Mcapi.Names
import Mcapi.Confirmation
import Mcapi.RequestChecks
import Mcapi.Isolation
import Mcapi.ScanBound
import Mcapi.Registry
import Mcapi.Initialise
import Mcapi.Identity
import Mcapi.Lookups
import Mcapi.Faults
import Mcapi.Leaks
import Mcapi.Routing
import Mcapi.Receive
import Mcapi.Modes
import Mcapi.Unset
import Mcapi.Refusals
import Mcapi.Signals
import Mcapi.Attributes
import Mcapi.Packets
import Mcapi.Scalars
import Mcapi.Connections
import Mcapi.Failures
import Mcapi.Flags
import Mcapi.Asserts
import Mcapi.Lib.Census
import Mcapi.SystemCalls
import Mcapi.Semaphore
import Mcapi.Segments
import Mcapi.WholeCalls
import Mcapi.Saturation
import Mcapi.PublicApi
import Mcapi.Lib.Boxes
import Mcapi.Mailboxes
import Mcapi.Crashes
import Mcapi.Lib.FileTable
import Mcapi.Descriptors
import Mcapi.Loans
