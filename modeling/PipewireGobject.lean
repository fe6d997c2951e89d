import PipewireGobject.Reach
import PipewireGobject.Reentrant
import PipewireGobject.History
import PipewireGobject.Stream
import PipewireGobject.StreamPhase
import PipewireGobject.StreamGraphRate
import PipewireGobject.BatchQueue
import PipewireGobject.StreamBlocks
import PipewireGobject.StreamOrder
import PipewireGobject.StreamSession
import PipewireGobject.Slots
import PipewireGobject.Wrapper
import PipewireGobject.ProxyOwnership
import PipewireGobject.ProxyLiveness
import PipewireGobject.MainContext
import PipewireGobject.Registry
import PipewireGobject.KeyedEvents
import PipewireGobject.RegistryOrder
import PipewireGobject.WrapperThread
import PipewireGobject.CoreSync
import PipewireGobject.SyncSources
import PipewireGobject.SyncDetached
import PipewireGobject.SyncBarrier
import PipewireGobject.StreamWakeup
import PipewireGobject.FlatTable
import PipewireGobject.MetadataCache
import PipewireGobject.RegistrySession
import PipewireGobject.RegistryFold
import PipewireGobject.ObjectWrapper
import PipewireGobject.RegistryReentry
import PipewireGobject.ObjectStopped
import PipewireGobject.ObjectParams
import PipewireGobject.ObjectEnumeration
import PipewireGobject.MetadataBinding
import PipewireGobject.MetadataExchange
import PipewireGobject.WrapperSession
import PipewireGobject.WrapperIsolation
import PipewireGobject.StreamFormat
import PipewireGobject.Traced
import PipewireGobject.StreamCapture
import PipewireGobject.StreamBuffers
import PipewireGobject.StreamLevel
import PipewireGobject.SpaPod
import PipewireGobject.ParamInspection
import PipewireGobject.PodBuilder
import PipewireGobject.ParamControls
import PipewireGobject.ImplModule
import PipewireGobject.Presence
import PipewireGobject.MetadataDiscovery
import PipewireGobject.MetadataSite
import PipewireGobject.MetadataSync
import PipewireGobject.Custody
import PipewireGobject.Program
import PipewireGobject.ProgramCalls
import PipewireGobject.ProgramCustody
import PipewireGobject.ProgramRelease
import PipewireGobject.ProgramConnect
import PipewireGobject.ProgramSettled
import PipewireGobject.FailedStart
import PipewireGobject.ProgramStreams
import PipewireGobject.PropertyCopy
import PipewireGobject.StreamDelivery
import PipewireGobject.ParamReading
import PipewireGobject.ParamProps
import PipewireGobject.ParamRequests
import PipewireGobject.RefCounted
import PipewireGobject.StreamLifetime
import PipewireGobject.WrapperLifetime
import PipewireGobject.Mirror
import PipewireGobject.RegistryAgreement
import PipewireGobject.ProgramSettings
import PipewireGobject.MetadataNames
import PipewireGobject.ObjectAgreement
import PipewireGobject.Announcement
import PipewireGobject.PropertyNotify
