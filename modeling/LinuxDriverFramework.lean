import LinuxDriverFramework.Foundations.Runs
import LinuxDriverFramework.Foundations.Tally
import LinuxDriverFramework.NvChar.UnregisterRace
import LinuxDriverFramework.NvChar.MiscUnregister
import LinuxDriverFramework.NvChar.ModuleExit
import LinuxDriverFramework.NvChar.ModuleRuns
import LinuxDriverFramework.NvChar.ModuleDirs
import LinuxDriverFramework.NvChar.MessageThreads
import LinuxDriverFramework.NvChar.PollWakeups
import LinuxDriverFramework.NvChar.OpenCount
import LinuxDriverFramework.NvChar.DebugfsRoot
import LinuxDriverFramework.NvChar.PlatformCycles
import LinuxDriverFramework.NvChar.DevmRegions
import LinuxDriverFramework.NvChar.IterAgreement
import LinuxDriverFramework.NvChar.WriteIterBytes
import LinuxDriverFramework.NvNet.ChangeMtu
import LinuxDriverFramework.NvNet.Statistics
import LinuxDriverFramework.NvBlock.RamHistory
import LinuxDriverFramework.NvBlock.RamConcurrent
import LinuxDriverFramework.NvCan.BufferOwnership
import LinuxDriverFramework.NvPwm.Concurrent
import LinuxDriverFramework.NvPci.IrqOwnership
import LinuxDriverFramework.NvUsb.EndpointCache
import LinuxDriverFramework.NvSdio.HostClaims
import LinuxDriverFramework.BoundContexts
import LinuxDriverFramework.BusRegistries
import LinuxDriverFramework.NvCan.PrivateArea
import LinuxDriverFramework.NvChar.RegisterAgain
import LinuxDriverFramework.NvChar.StoredRuns
import LinuxDriverFramework.NvChar.UnregisterTwice
import LinuxDriverFramework.NvUart.PortTables
import LinuxDriverFramework.RegDemo.Race
import LinuxDriverFramework.RegDemo.Texts
import LinuxDriverFramework.SlotOverwrite
import LinuxDriverFramework.SlotStores
import LinuxDriverFramework.WrappedObjects
import LinuxDriverFramework.NvUsb.FirstEndpoints
import LinuxDriverFramework.NvUsb.Autosuspend
import LinuxDriverFramework.NvPwm.DutyBound
import LinuxDriverFramework.NvCan.Loopback
import LinuxDriverFramework.NvUart.Loopback
import LinuxDriverFramework.NvUart.LoopbackRuns
import LinuxDriverFramework.NvBlock.RamBounds
import LinuxDriverFramework.NvChar.ReadIterFaults
import LinuxDriverFramework.NvChar.DemoPoll
import LinuxDriverFramework.NvSpi.Settings
import LinuxDriverFramework.NvChar.IoctlDispatch
import LinuxDriverFramework.NvChar.DeviceNumbers
import LinuxDriverFramework.NvChar.NodeModes
import LinuxDriverFramework.NvPci.BarMaps
import LinuxDriverFramework.NvBlock.RamCopies
import LinuxDriverFramework.NvBlock.RamModule
import LinuxDriverFramework.NvBlock.TornSectors
