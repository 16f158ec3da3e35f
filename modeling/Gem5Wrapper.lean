import Gem5Wrapper.Release
import Gem5Wrapper.Independence
import Gem5Wrapper.SimControl
import Gem5Wrapper.Access
import Gem5Wrapper.RouterRuns
import Gem5Wrapper.ErrorStatus
import Gem5Wrapper.MasterChannels
import Gem5Wrapper.MasterRefs
import Gem5Wrapper.MasterRetries
import Gem5Wrapper.LockStep
import Gem5Wrapper.ExitEvents
import Gem5Wrapper.DebugFlags
import Gem5Wrapper.Extension
import Gem5Wrapper.Builder
import Gem5Wrapper.Paths
import Gem5Wrapper.Routing
import Gem5Wrapper.SetUp
import Gem5Wrapper.Draining
import Gem5Wrapper.Bindings
import Gem5Wrapper.Transparency
import Gem5Wrapper.HelperTables
import Gem5Wrapper.Drain
import Gem5Wrapper.Payloads
import Gem5Wrapper.AccessRuns
import Gem5Wrapper.Sessions
import Gem5Wrapper.MasterPlaces
import Gem5Wrapper.Timing
import Gem5Wrapper.Intact
import Gem5Wrapper.HostedRuns
