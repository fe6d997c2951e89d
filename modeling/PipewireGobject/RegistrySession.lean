import PipewireGobject.Reentrant
import PipewireGobject.RegistryOrder
import PipewireGobject.Wrapper

namespace PipewireGobject

/-- What the registry emits: a notification, a change of its list model, or a signal. -/
inductive RegistrySignal
  | notifyRunning
  | itemsChanged
  | globalAdded (global : Global)
  | globalRemoved (global : Global)
  deriving DecidableEq

/-- A registry with its core and the events that wait in its main context. Of the session that
runs, `queued` and `dispatched` list what callbacks have reported and what dispatches have
not found stale; `signals` is the history of emissions, oldest first. -/
structure RegistrySession where
  registry : Registry := {}
  connected : Bool := false
  hasRegistry : Bool := false
  queue : List RegistryEvent := []
  queued : List RegistryChange := []
  dispatched : List RegistryChange := []
  signals : List RegistrySignal := []
  deriving DecidableEq

/-- What is left to run of the functions of the registry. A statement ends where a signal is
emitted. With `sync` a start goes on into a sync. -/
inductive RegistryTask
  | handlers
  | emit (signal : RegistrySignal)
  | dispatch (event : RegistryEvent)
  | append (global : Global)
  | connect
  | start (sync : Bool)
  | startProxies (sync : Bool)
  | coreSync
  | coreSyncWait
  | stop
  | coreConnectedNotify
  | clearGlobals
  deriving DecidableEq

namespace RegistrySession

def modify (f : Registry → Registry) (s : RegistrySession) : RegistrySession :=
  { s with registry := f s.registry }

@[simp] theorem modify_dispatched (f : Registry → Registry) (s : RegistrySession) :
    (s.modify f).dispatched = s.dispatched := rfl

@[simp] theorem modify_registry (f : Registry → Registry) (s : RegistrySession) :
    (s.modify f).registry = f s.registry := rfl

def setGlobals (globals : List Global) : RegistrySession → RegistrySession :=
  modify fun r => { r with globals := globals }

/-- A dispatch has not found the event of a change stale. -/
def takeUp (change : RegistryChange) (s : RegistrySession) : RegistrySession :=
  { s with dispatched := s.dispatched ++ [change] }

end RegistrySession

open RegistrySession

/-- `pwg_registry_dispatch_event`. The handlers of `items-changed` run between the removal of a
global and what follows it. -/
def registryDispatch (event : RegistryEvent) (s : RegistrySession) :
    RegistrySession × List RegistryTask :=
  if s.registry.running = false ∨ event.generation ≠ s.registry.generation then (s, [])
  else
    match event.change with
    | .globalAdded global =>
      match registryFindGlobal s.registry.globals global.id with
      | some position =>
        ((s.takeUp event.change).setGlobals (s.registry.globals.eraseIdx position),
          [.emit .itemsChanged, .append global])
      | none => (s.takeUp event.change, [.append global])
    | .globalRemoved id =>
      match registryFindGlobal s.registry.globals id with
      | some position =>
        ((s.takeUp event.change).setGlobals (s.registry.globals.eraseIdx position),
          .emit .itemsChanged :: (s.registry.globals[position]?.map fun existing =>
            .emit (.globalRemoved existing)).toList)
      | none => (s.takeUp event.change, [])

/-- The rest of `pwg_registry_start` from `pw_core_get_registry` on. -/
def registryStart (result : PipewireResult) (sync : Bool) (s : RegistrySession) :
    RegistrySession × List RegistryTask :=
  -- the core is not connected any more, or pwg_core_connect has failed
  if s.connected = false then (s, [])
  else
    match result with
    | .getRegistryFailed => ({ s with hasRegistry := false }, [])
    | _ =>
      ({ s with
          hasRegistry := true
          registry := { s.registry with
            generation := s.registry.generation + 1, running := true }
          queued := []
          dispatched := [] },
        .emit .notifyRunning :: if sync then [.coreSync] else [])

/-- The rest of `pwg_registry_stop` and `pwg_registry_reset`, once the proxy is gone. The list is
emptied only after the handlers of `notify::running` have run. -/
def registryEndSession (s : RegistrySession) : RegistrySession × List RegistryTask :=
  (s.modify fun r => { r with generation := r.generation + 1, running := false },
    (if s.registry.running then [.emit .notifyRunning] else []) ++ [.clearGlobals])

/-- `pwg_registry_stop`. Without a thread loop the proxy is left as it is. -/
def registryStopSession (s : RegistrySession) : RegistrySession × List RegistryTask :=
  if s.registry.running = false ∧ s.hasRegistry = false then (s, [])
  else registryEndSession { s with hasRegistry := s.hasRegistry && !s.connected }

/-- `pwg_registry_reset` -/
def registryResetSession (s : RegistrySession) : RegistrySession × List RegistryTask :=
  registryEndSession { s with hasRegistry := false }

def registryExecTask (result : PipewireResult) :
    RegistryTask → RegistrySession → RegistrySession × List RegistryTask
  | .handlers, s => (s, [])
  | .emit signal, s => ({ s with signals := s.signals ++ [signal] }, [.handlers])
  | .dispatch event, s => registryDispatch event s
  | .append global, s =>
    (s.setGlobals (s.registry.globals ++ [global]),
      [.emit .itemsChanged, .emit (.globalAdded global)])
  | .connect, s =>
    -- the handlers of notify::connected run inside pwg_core_connect
    if s.connected = false ∧ result = .succeeded then ({ s with connected := true }, [.handlers])
    else (s, [])
  | .start sync, s =>
    if s.registry.running then (s, if sync then [.coreSync] else [])
    else if s.connected then (s, [.startProxies sync])
    else (s, [.connect, .startProxies sync])
  | .startProxies sync, s => registryStart result sync s
  | .coreSync, s => if s.connected then (s, [.coreSyncWait]) else (s, [.connect, .coreSyncWait])
  | .coreSyncWait, s => (s, if s.connected then [.handlers] else [])
  | .stop, s => registryStopSession s
  | .coreConnectedNotify, s => if s.connected then (s, []) else registryResetSession s
  | .clearGlobals, s => (s.setGlobals [], [.emit .itemsChanged])

/-- What the application may call. An iteration of the main context dispatches an event that
waits there; the core is connected, is disconnected and notifies whenever the application has
control. -/
inductive RegistryCall
  | dispatch (position : Nat)
  | start
  | sync
  | stop
  | setConnected (connected : Bool)
  | coreConnectedNotify
  deriving DecidableEq

def registryCall : RegistryCall → RegistrySession → Option (RegistrySession × List RegistryTask)
  | .dispatch position, s => s.queue[position]?.map fun event =>
    ({ s with queue := s.queue.eraseIdx position }, [.dispatch event])
  | .start, s => some (s, [.start false])
  | .sync, s => some (s, [.start true])
  | .stop, s => some (s, [.stop])
  | .setConnected connected, s => some ({ s with connected := connected }, [])
  | .coreConnectedNotify, s => some (s, [.coreConnectedNotify])

/-- A callback of the registry listener. -/
def registryReport (callback : RegistryCallback) (s : RegistrySession) : RegistrySession :=
  { s with
    queue := s.queue ++ [registryQueueEvent (registryCallback callback) s.registry]
    queued := s.queued ++ [registryCallback callback] }

def registryComponent :
    Component RegistrySession RegistryTask RegistryCall PipewireResult RegistryCallback where
  exec := registryExecTask
  emission i := i = .handlers
  call := registryCall
  environment callback s := some (registryReport callback s)

/-- A registry that has not been started. -/
def registryInit : Config RegistrySession RegistryTask := ⟨{}, []⟩

/-- A session has just begun and its list is empty. -/
def registryRunning (generation : UInt32) : Config RegistrySession RegistryTask :=
  ⟨{ registry := ⟨true, generation, []⟩, connected := true, hasRegistry := true }, []⟩

def registryLookupGlobal (globals : List Global) (id : UInt32) : Option Global :=
  (registryFindGlobal globals id).bind fun position => globals[position]?

def globalDupProperty (global : Global) (key : CString) : Option CString :=
  (global.properties.find? fun property => property.1 = key).map (·.2)

def registryMatchProperty (key value : CString) (global : Global) : Bool :=
  globalDupProperty global key = some value

def registryLookupGlobalByProperty (globals : List Global) (key value : CString) :
    Option Global :=
  globals.find? (registryMatchProperty key value)

def registryDupGlobalsByProperty (globals : List Global) (key value : CString) : List Global :=
  globals.filter (registryMatchProperty key value)

end PipewireGobject
