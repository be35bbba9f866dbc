import Ts3Vas.Lib.Span
import Ts3Vas.Lib.Run
import Ts3Vas.Lib.Prog
import Ts3Vas.Lib.Admit
import Ts3Vas.Lib.Probe
import Ts3Vas.Lib.Blocks
import Ts3Vas.Lib.Window
import Ts3Vas.Alloc.Basic
import Ts3Vas.Alloc.FreeList
import Ts3Vas.Alloc.Moves
import Ts3Vas.Alloc.Refine
import Ts3Vas.Alloc.Runs
import Ts3Vas.Alloc.Restart
import Ts3Vas.Alloc.Wrap
import Ts3Vas.Alloc.Conserve
import Ts3Vas.Alloc.Exhaust
import Ts3Vas.Alloc.Crowd
import Ts3Vas.Alloc.Stats
import Ts3Vas.Alloc.Extremal
import Ts3Vas.Alloc.Reserve
import Ts3Vas.Alloc.Rollback
import Ts3Vas.Corral.Basic
import Ts3Vas.Corral.Zones
import Ts3Vas.Corral.Runs
import Ts3Vas.Corral.Growth
import Ts3Vas.Corral.Rollback
import Ts3Vas.Conc.Handover
import Ts3Vas.Conc.Zero
import Ts3Vas.Hook.Tables
import Ts3Vas.Hook.World
import Ts3Vas.Hook.Heap
import Ts3Vas.Hook.Virtual
import Ts3Vas.Hook.Flag
import Ts3Vas.Hook.Steps
import Ts3Vas.Hook.Route
import Ts3Vas.Hook.Realloc
import Ts3Vas.Hook.Fallback
import Ts3Vas.Hook.Decommit
import Ts3Vas.Hook.Callers
import Ts3Vas.Hook.Caches
import Ts3Vas.Hook.Shelter
import Ts3Vas.Hook.Shards
import Ts3Vas.Hook.Graphics
import Ts3Vas.Hook.Tiers
import Ts3Vas.Hook.Unfreed
import Ts3Vas.Hook.Audio
import Ts3Vas.Hook.Exec
import Ts3Vas.Hook.Held
import Ts3Vas.Hook.Track
import Ts3Vas.Hook.Robin
import Ts3Vas.Hook.InPlace
import Ts3Vas.Hook.Blocks
import Ts3Vas.Hook.Copies
import Ts3Vas.Hook.Programs
import Ts3Vas.Hook.Bands
import Ts3Vas.Hook.Rollback
import Ts3Vas.Hook.Strings
import Ts3Vas.Observe.Dedup
import Ts3Vas.Observe.Dbpf
import Ts3Vas.Observe.Scan
import Ts3Vas.Observe.Types
import Ts3Vas.Observe.Files
import Ts3Vas.Observe.LocalVas
import Ts3Vas.Observe.Packages
import Ts3Vas.Observe.Analytics
import Ts3Vas.Observe.Heartbeat
import Ts3Vas.Observe.Sessions
import Ts3Vas.Observe.Walks
import Ts3Vas.Observe.Hitch
import Ts3Vas.Observe.Views
import Ts3Vas.Observe.Slope
import Ts3Vas.Observe.Reports
import Ts3Vas.Observe.Tables
import Ts3Vas.Observe.Reads
import Ts3Vas.Conc.Stacks
import Ts3Vas.Conc.Collect
import Ts3Vas.Hook.Captures
import Ts3Vas.Conc.Modes
import Ts3Vas.Observe.Present
import Ts3Vas.Hook.Callsites
