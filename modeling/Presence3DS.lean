import Presence3DS.Arm9.ConfigMcu
import Presence3DS.Arm9.ConfigNumerals
import Presence3DS.Arm9.DeliverArg
import Presence3DS.Arm9.EmuNand
import Presence3DS.Arm9.Firm
import Presence3DS.Arm9.TicketPatch
import Presence3DS.Cheats.CopyCode
import Presence3DS.Cheats.DataRegisters
import Presence3DS.Cheats.LineReader
import Presence3DS.Cheats.LoopPasses
import Presence3DS.Cheats.SearchCode
import Presence3DS.Cheats.StorageSafe
import Presence3DS.Discord.ActivityBody
import Presence3DS.Discord.ConfigLoad
import Presence3DS.Discord.FieldSearch
import Presence3DS.Discord.HttpReceive
import Presence3DS.Discord.Log
import Presence3DS.Discord.Logout
import Presence3DS.Discord.ReadMemory
import Presence3DS.Discord.SingleThread
import Presence3DS.Discord.Update
import Presence3DS.Discord.UserPrefs
import Presence3DS.Gdb.Breakpoints
import Presence3DS.Gdb.Framing
import Presence3DS.Gdb.Handshake
import Presence3DS.Gdb.HioReply
import Presence3DS.Gdb.MemoryHandlers
import Presence3DS.Gdb.TargetFiles
import Presence3DS.Gdb.ThreadList
import Presence3DS.Gdb.WatchpointRuns
import Presence3DS.Kernel.Mmu
import Presence3DS.Kernel.SessionMap
import Presence3DS.Kernel.SyscallDebug
import Presence3DS.Loader.BpsBounds
import Presence3DS.Loader.BpsEncodes
import Presence3DS.Loader.Ips
import Presence3DS.Loader.LayeredFsPlaces
import Presence3DS.Loader.Lzss
import Presence3DS.Loader.Paslr
import Presence3DS.Loader.PatchMemory
import Presence3DS.Loader.SectorReads
import Presence3DS.Loader.ThreeDsxRelocs
import Presence3DS.Loader.Ups
import Presence3DS.Pm.ExHeaderInfoHeap
import Presence3DS.Pm.LaunchFailures
import Presence3DS.Pm.RefCountRuns
import Presence3DS.Pm.Reslimit
import Presence3DS.Pxi.Routing
import Presence3DS.Pxi.StaticBuffers
import Presence3DS.Rosalina.AckLifecycle
import Presence3DS.Rosalina.Calendar
import Presence3DS.Rosalina.NetworkBit
import Presence3DS.Rosalina.PluginLifecycle
import Presence3DS.Rosalina.PluginSafety
import Presence3DS.Rosalina.RedirectionPatches
import Presence3DS.Rosalina.ServiceSessions
import Presence3DS.Rosalina.SocUsers
import Presence3DS.Rosalina.SockTable
import Presence3DS.Rosalina.TaskRunner
import Presence3DS.Sm.Lists
import Presence3DS.Sm.NotificationQueues
import Presence3DS.Sm.Registry
import Presence3DS.Sm.SessionHandles
import Presence3DS.Arm9.Draw
import Presence3DS.Rosalina.Ntp
import Presence3DS.Arm9.ExceptionHandlers
import Presence3DS.Gdb.DebugContexts
import Presence3DS.Arm9.Pin
import Presence3DS.Gdb.Registers
import Presence3DS.Loader.Programs
import Presence3DS.Kernel.AppLocale
import Presence3DS.System.ConfigRoundTrip
import Presence3DS.System.ScriptSignature
