import PipewireGobject.MetadataCache
import PipewireGobject.Reentrant
import PipewireGobject.WrapperThread

namespace PipewireGobject

/-- The part of a `PwgMetadataEvent` that its type selects. A property event tells which of the
proxies that the wrapper has bound it comes from. -/
inductive MetadataNews
  | found (id version : UInt32)
  | removed (id : UInt32)
  | changed (proxy : Nat) (change : MetadataChange)
  deriving DecidableEq

structure MetadataEvent where
  generation : UInt32
  news : MetadataNews
  deriving DecidableEq

inductive MetadataSignal
  | notifyRunning
  | notifyBound
  | changed (change : MetadataChange)
  deriving DecidableEq

/-- What is left to run of the functions of a metadata wrapper. A statement ends where a signal
is emitted. With `sync` a start goes on into a sync, and with `again` a roundtrip into a second
one if the wrapper is bound by then. A roundtrip has its data in the stack frame at `slot`. -/
inductive MetadataStmt
  | handlers
  | emit (signal : MetadataSignal)
  | dispatch (event : MetadataEvent)
  | connect
  | start (sync : Bool)
  | startRegistry (sync : Bool)
  | sync
  | coreSync (again : Bool)
  | syncEnter (again : Bool)
  | syncWait (slot : Nat) (again : Bool)
  | syncIterate (slot : Nat) (again : Bool)
  | stop
  | coreConnectedNotify
  | destroyBoundProxy
  | destroyRegistry
  | clearRunning
  | clearEntries
  deriving DecidableEq

/-- A source in the main context: an event, or the completion of a roundtrip. -/
inductive MetadataSource
  | event (event : MetadataEvent)
  | completion (slot : Nat)
  deriving DecidableEq

/-- A metadata wrapper with its core and its main context. A listener is registered as long as
its proxy is there. Of its history, `proxies` counts the proxies that the wrapper has bound, and
`origins` tells which of them the entry under a key of the cache comes from. -/
structure MetadataWrapper where
  running : Bool := false
  bound : Bool := false
  entries : MetadataEntries := ∅
  metadataId : UInt32 := 0
  generation : UInt32 := 0
  hasRegistry : Bool := false
  hasMetadata : Bool := false
  connected : Bool := false
  queue : List MetadataSource := []
  completed : List Nat := []
  proxies : Nat := 0
  origins : CString → Nat := fun _ => 0

/-- What PipeWire does in a statement: how its calls end, and for a roundtrip the frame of its
data, the matching Done events, and whether the wait fails. -/
structure MetadataChoice where
  result : PipewireResult := .succeeded
  slot : Nat := 0
  dones : Nat := 1
  failed : Bool := false
  deriving DecidableEq

namespace MetadataWrapper

/-- `pwg_metadata_bind` -/
def bind (result : PipewireResult) (id : UInt32) (s : MetadataWrapper) :
    MetadataWrapper × List MetadataStmt :=
  if s.bound ∨ s.hasMetadata then (s, [])
  else if s.connected = false ∨ s.hasRegistry = false then (s, [])
  else
    match result with
    | .bindFailed | .addListenerFailed => (s, [])
    | _ =>
      ({ s with hasMetadata := true, metadataId := id, bound := true, proxies := s.proxies + 1 },
        [.emit .notifyBound])

/-- `pwg_metadata_destroy_bound_proxy`. The cache is emptied only after the handlers of
`notify::bound` have run. -/
def destroyBoundProxy (s : MetadataWrapper) : MetadataWrapper × List MetadataStmt :=
  ({ s with hasMetadata := false, metadataId := 0, bound := false },
    (if s.bound then [.emit .notifyBound] else []) ++ [.clearEntries])

/-- The cache key that an event puts an entry under. -/
def changedKey (change : MetadataChange) : Option CString :=
  change.key.bind fun key => change.value.map fun _ => metadataCacheKey change.subject key

/-- A property event of a proxy reaches the cache. -/
def cacheChange (proxy : Nat) (change : MetadataChange) (s : MetadataWrapper) :
    MetadataWrapper :=
  { s with
    entries := metadataCacheChange change s.entries
    origins := fun key => if changedKey change = some key then proxy else s.origins key }

/-- `pwg_metadata_dispatch_event` -/
def dispatchEvent (result : PipewireResult) (event : MetadataEvent) (s : MetadataWrapper) :
    MetadataWrapper × List MetadataStmt :=
  if s.running = false ∨ event.generation ≠ s.generation then (s, [])
  else
    match event.news with
    | .found id _ => s.bind result id
    | .removed id => if s.metadataId = id then s.destroyBoundProxy else (s, [])
    | .changed proxy change => (s.cacheChange proxy change, [.emit (.changed change)])

/-- The rest of `pwg_metadata_start` from `pw_core_get_registry` on. -/
def startRegistry (result : PipewireResult) (sync : Bool) (s : MetadataWrapper) :
    MetadataWrapper × List MetadataStmt :=
  -- the core is not connected any more, or pwg_core_connect has failed
  if s.connected = false then (s, [])
  else
    match result with
    | .getRegistryFailed => ({ s with hasRegistry := false }, [])
    | _ =>
      ({ s with hasRegistry := true, generation := s.generation + 1, running := true },
        .emit .notifyRunning :: if sync then [.sync] else [])

/-- `pwg_metadata_stop` -/
def stop (s : MetadataWrapper) : MetadataWrapper × List MetadataStmt :=
  if s.running = false ∧ s.hasRegistry = false ∧ s.hasMetadata = false then (s, [])
  else (s, [.destroyBoundProxy, .destroyRegistry])

/-- `pwg_metadata_reset` -/
def reset (s : MetadataWrapper) : MetadataWrapper × List MetadataStmt :=
  ({ s with
      hasRegistry := false
      hasMetadata := false
      metadataId := 0
      generation := s.generation + 1
      bound := false },
    (if s.bound then [.emit .notifyBound] else []) ++ [.clearRunning])

/-- `pwg_metadata_set`: whether the request has been made; the cache is left to its echo. -/
def set (result : Int) (s : MetadataWrapper) : Bool := s.hasMetadata && s.connected && 0 ≤ result

/-- `pwg_metadata_clear`: the cache is emptied as soon as the request has been made. -/
def clear (result : Int) (s : MetadataWrapper) : MetadataWrapper × Bool :=
  if s.hasMetadata = false ∨ s.connected = false ∨ result < 0 then (s, false)
  else ({ s with entries := ∅ }, true)

def exec (choice : MetadataChoice) :
    MetadataStmt → MetadataWrapper → MetadataWrapper × List MetadataStmt
  | .handlers, s => (s, [])
  | .emit _, s => (s, [.handlers])
  | .dispatch event, s => s.dispatchEvent choice.result event
  | .connect, s =>
    -- the handlers of notify::connected run inside pwg_core_connect
    if s.connected = false ∧ choice.result = .succeeded then
      ({ s with connected := true }, [.handlers])
    else (s, [])
  | .start sync, s =>
    if s.running then (s, if sync then [.sync] else [])
    else if s.connected then (s, [.startRegistry sync])
    else (s, [.connect, .startRegistry sync])
  | .startRegistry sync, s => s.startRegistry choice.result sync
  | .sync, s => (s, [.coreSync !s.bound])
  | .coreSync again, s =>
    if s.connected then (s, [.syncEnter again]) else (s, [.connect, .syncEnter again])
  | .syncEnter again, s =>
    if s.connected = false then (s, [])
    else
      ({ s with completed := s.completed.filter fun slot => slot ≠ choice.slot },
        [.syncWait choice.slot again])
  | .syncWait slot again, s =>
    ({ s with queue := s.queue ++ List.replicate choice.dones (.completion slot) },
      if choice.failed ∨ choice.dones = 0 then [] else [.syncIterate slot again])
  | .syncIterate slot again, s =>
    if slot ∉ s.completed then (s, [.syncIterate slot again])
    else (s, if again ∧ s.bound then [.coreSync false] else [])
  | .stop, s => s.stop
  | .coreConnectedNotify, s => if s.connected then (s, []) else s.reset
  | .destroyBoundProxy, s => s.destroyBoundProxy
  | .destroyRegistry, s =>
    ({ s with hasRegistry := false, generation := s.generation + 1 }, [.clearRunning])
  | .clearRunning, s =>
    ({ s with running := false },
      (if s.running then [.emit .notifyRunning] else []) ++ [.clearEntries])
  | .clearEntries, s => ({ s with entries := ∅ }, [])

/-- A bind does nothing, or binds a wrapper that was unbound. -/
theorem bind_cases (result : PipewireResult) (id : UInt32) (s : MetadataWrapper) :
    s.bind result id = (s, []) ∨ s.bound = false ∧ s.bind result id =
      ({ s with hasMetadata := true, metadataId := id, bound := true, proxies := s.proxies + 1 },
        [.emit .notifyBound]) := by
  unfold bind
  split
  next => exact .inl rfl
  next free =>
    have unbound : s.bound = false := by simpa using (not_or.mp free).1
    split
    · exact .inl rfl
    · split
      · exact .inl rfl
      · exact .inl rfl
      · exact .inr ⟨unbound, rfl⟩

end MetadataWrapper

/-- What the application may call. An iteration of the main context dispatches its first
source; the core is connected, is disconnected and notifies whenever the application has
control. -/
inductive MetadataCall
  | iterate
  | start
  | sync
  | stop
  | set (result : Int)
  | clear (result : Int)
  | setConnected (connected : Bool)
  | coreConnectedNotify
  deriving DecidableEq

namespace MetadataWrapper

def call : MetadataCall → MetadataWrapper → Option (MetadataWrapper × List MetadataStmt)
  | .iterate, s =>
    match s.queue with
    | [] => none
    | .event event :: rest => some ({ s with queue := rest }, [.dispatch event])
    | .completion slot :: rest =>
      some ({ s with queue := rest, completed := slot :: s.completed }, [])
  | .start, s => some (s, [.start false])
  | .sync, s => some (s, [.start true])
  | .stop, s => some (s, [.stop])
  | .set _, s => some (s, [])
  | .clear result, s => some ((s.clear result).1, [])
  | .setConnected connected, s => some ({ s with connected := connected }, [])
  | .coreConnectedNotify, s => some (s, [.coreConnectedNotify])

end MetadataWrapper

/-- The callbacks of the registry and of the bound proxy. -/
inductive MetadataCallback
  | global (id permissions : UInt32) (type : Option CString) (version : UInt32)
    (props : Option SpaDict)
  | globalRemove (id : UInt32)
  | property (change : MetadataChange)
  deriving DecidableEq

namespace MetadataWrapper

/-- `pwg_metadata_on_global`, `pwg_metadata_on_global_remove` and `pwg_metadata_on_property` up
to the queueing. -/
def onCallback (name : CString) (s : MetadataWrapper) : MetadataCallback → Option MetadataNews
  | .global id _ type version props =>
    if type ≠ some interfaceMetadata then none
    else if metadataLookupSpaDict props keyMetadataName ≠ some name then none
    else some (.found id version)
  | .globalRemove id => some (.removed id)
  | .property change => some (.changed s.proxies change)

/-- The listener that a callback comes through. -/
def listens (s : MetadataWrapper) : MetadataCallback → Bool
  | .global _ _ _ _ _ | .globalRemove _ => s.hasRegistry
  | .property _ => s.hasMetadata

/-- A callback comes through a listener, and its event waits in the main context. -/
def report (name : CString) (callback : MetadataCallback) (s : MetadataWrapper) :
    Option MetadataWrapper :=
  if s.listens callback then
    some { s with
      queue := s.queue ++
        ((s.onCallback name callback).map fun news => .event ⟨s.generation, news⟩).toList }
  else none

end MetadataWrapper

/-- The application has control while handlers run and while a roundtrip waits. -/
def MetadataStmt.emission : MetadataStmt → Bool
  | .handlers | .syncWait _ _ | .syncIterate _ _ => true
  | _ => false

def metadataComponent (name : CString) :
    Component MetadataWrapper MetadataStmt MetadataCall MetadataChoice MetadataCallback where
  exec := MetadataWrapper.exec
  emission := MetadataStmt.emission
  call := MetadataWrapper.call
  environment := MetadataWrapper.report name

/-- A wrapper that has not been started. -/
def metadataInit : Config MetadataWrapper MetadataStmt := ⟨{}, []⟩

end PipewireGobject
