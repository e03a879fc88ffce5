import RajNX.Dmnt.Runs
import RajNX.FsMitm.Boot0Storage
import RajNX.Kvdb.Commit
import RajNX.Ro.NroRuns
import RajNX.Pm.ProcessRuns
import RajNX.Spl.RandomBytes
import RajNX.Spl.Keyslots
import RajNX.Spl.RsaOaep
import RajNX.Fusee.MergeInis
import RajNX.Exosphere.SmcResult
import RajNX.Emummc.FileBased
import RajNX.Fusee.EmuDevicePartition
import RajNX.Kvdb.FailedSet
import RajNX.Fusee.Package2
import RajNX.Updater.VerificationFlag
import RajNX.Dmnt.LoopRuns
import RajNX.Dmnt.Frozen
import RajNX.FsMitm.RomFsHash
import RajNX.FsMitm.DirectoryRedirection
import RajNX.Loader.MetaPatches
import RajNX.FsMitm.CopyTree
import RajNX.FsMitm.RetryLocked
import RajNX.FsMitm.SectoredRead
import RajNX.Kvdb.ArchiveOrder
import RajNX.Sm.ListRecords
import RajNX.Loader.ProgramFlags
import RajNX.Loader.Launch
import RajNX.Pm.ThreadLimits
import RajNX.Exosphere.RandomCache
import RajNX.Fusee.IpsPatch
import RajNX.Exosphere.MasterKey
import RajNX.Exosphere.Cmac
import RajNX.Exosphere.Gf128
import RajNX.Exosphere.Package2Hash
import RajNX.Fusee.PatchedKernel
import RajNX.Util.IntrusiveListSplice
import RajNX.Util.MessageQueue
import RajNX.Fusee.RawDevClamp
import RajNX.Updater.PartitionHash
import RajNX.Kvdb.ValueFileName
import RajNX.Dmnt.VmSafety
import RajNX.Creport.ModuleRuns
import RajNX.SetMitm.SettingsParse
import RajNX.Kvdb.LruListSafety
import RajNX.Fusee.Lz
