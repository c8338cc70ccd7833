import MinNT.Boot.TopoSort
import MinNT.Cc.SectorCacheEviction
import MinNT.Cm.HiveTotal
import MinNT.Cm.RegistryReads
import MinNT.Drivers.AhciTransfer
import MinNT.Drivers.DmaBuffers
import MinNT.Ex.PoolShared
import MinNT.Ex.PushLockProgress
import MinNT.Ex.ResourceWake
import MinNT.Ex.RundownRef
import MinNT.Ex.WorkItemInvariant
import MinNT.Font.GlyphReport
import MinNT.Fs.DirectoryListing
import MinNT.Fs.Fat32Full
import MinNT.Fs.Fat32InPlace
import MinNT.Fs.Fat32WriteReturns
import MinNT.Fs.FilterManager
import MinNT.Fs.HardLink
import MinNT.Fs.NtfsAttributes
import MinNT.Fs.NtfsMount
import MinNT.Fs.PartitionScan
import MinNT.Fs.RamDiskShort
import MinNT.Fs.RecycleBin
import MinNT.Fs.VssIsolation
import MinNT.Hal.KeyboardRing
import MinNT.Ke.EventWait
import MinNT.Ke.EventWake
import MinNT.Ke.IpiOverflow
import MinNT.Ke.MultipleWait
import MinNT.Ke.Mutex
import MinNT.Ke.PeBinding
import MinNT.Ke.PeRelocations
import MinNT.Ke.PeSections
import MinNT.Ke.Semaphore
import MinNT.Ke.TimerRearm
import MinNT.Lpc.MessageCopy
import MinNT.Lpc.RequestMatching
import MinNT.Mm.BootPages
import MinNT.Mm.ContiguousRun
import MinNT.Mm.FirstFit
import MinNT.Mm.IoTables
import MinNT.Net.FirewallOrder
import MinNT.Ob.ObjectRun
import MinNT.Ps.Job
import MinNT.Se.Dacl
import MinNT.Se.ScmHosts
import MinNT.Setupapi.FormatMount
import MinNT.Usb.MassStorageTransfer
import MinNT.Usb.XhciEvents
import MinNT.Win32k.AtomRun
import MinNT.Win32k.ClipboardNames
import MinNT.Win32k.LineTo
import MinNT.Win32k.MessageRefinement
import MinNT.Win32k.MessageWait
import MinNT.Win32k.UpdatePending
import MinNT.Win32k.WindowTable
import MinNT.Wmi.Query
