import PipewireGobject.Reentrant
import PipewireGobject.WrapperEffect
import PipewireGobject.WrapperThread

namespace PipewireGobject

/-- What a wrapper copies from the events of its object. -/
inductive CopiedItem
  | globals
  | entries
  | state
  | error
  | paramInfos
  | params
  deriving DecidableEq

/-- What the functions of a wrapper consist of. An item that changes is notified, except for the
entries of a metadata. -/
inductive SessionAct
  | forgetProxies
  | destroyRegistry
  | destroyObject
  | destroyPipewireObjects
  | nextGeneration
  | bind
  | clearBound
  | clearRunning
  | change (item : CopiedItem)
  | signal
  deriving DecidableEq

/-- An event with the generation of the moment at which it was queued. The sessions number the
starts that have come to `pw_core_get_registry`, and the event comes through a listener of that
`session`. -/
structure SessionEvent where
  session : Nat
  generation : Nat
  callback : PipewireCallback
  deriving DecidableEq

/-- What is left to run of the functions of a wrapper. With an `origin` it is due to an event of
that session. -/
inductive SessionStmt
  | handlers
  | act (origin : Option Nat) (act : SessionAct)
  | dispatch (event : SessionEvent)
  | connect
  | start (sync : Bool)
  | startProxies (sync : Bool)
  | coreSync
  | coreSyncWait
  | stop (origin : Option Nat)
  | coreConnectedNotify
  deriving DecidableEq

/-- Something was done because of an event of the session `origin`, while `running` ran. -/
structure SessionEffect where
  origin : Nat
  running : Option Nat
  deriving DecidableEq

/-- A wrapper with its core and its main context. A proxy that a field points to is known by the
session it was made in, and `listening` are the proxies whose listener is registered. `session`
is the session that runs, or has run last. The generation is taken not to wrap. -/
structure WrapperSession where
  running : Bool := false
  bound : Bool := false
  generation : Nat := 0
  connected : Bool := false
  registry : Option Nat := none
  object : Option Nat := none
  listening : List (ProxyField × Nat) := []
  session : Nat := 0
  sessions : Nat := 0
  queue : List SessionEvent := []
  effects : List SessionEffect := []
  deriving DecidableEq

/-- How the PipeWire calls of a statement end, whether a search finds something or a comparison a
difference, and how many parameters an info lists. -/
structure SessionChoice where
  result : PipewireResult := .succeeded
  found : Bool := true
  count : Nat := 0
  deriving DecidableEq

/-- The copied items of a wrapper in the order in which a stop clears them. -/
def copiedItems : WrapperKind → List CopiedItem
  | .registry => [.globals]
  | .metadata => [.entries]
  | .node => [.state, .error, .paramInfos, .params]
  | .device => [.paramInfos, .params]
  | .link => [.state, .error]

def clearActs (kind : WrapperKind) : List SessionAct := (copiedItems kind).map .change

/-- `pwg_metadata_destroy_bound_proxy` -/
def destroyBoundActs : List SessionAct := [.destroyObject, .clearBound, .change .entries]

/-- The `stop` of a wrapper. A registry and a metadata count the generation once their listeners
are gone, the others before. -/
def stopActs : WrapperKind → List SessionAct
  | .registry => [.destroyRegistry, .nextGeneration, .clearRunning] ++ clearActs .registry
  | .metadata =>
    destroyBoundActs ++ [.destroyRegistry, .nextGeneration, .clearRunning] ++ clearActs .metadata
  | kind =>
    [.nextGeneration, .destroyPipewireObjects, .clearBound, .clearRunning] ++ clearActs kind

/-- The `reset` of a wrapper. -/
def resetActs : WrapperKind → List SessionAct
  | .registry => [.forgetProxies, .nextGeneration, .clearRunning] ++ clearActs .registry
  | kind => [.forgetProxies, .nextGeneration, .clearBound, .clearRunning] ++ clearActs kind

def updateStateActs : List SessionAct := [.change .state, .change .error]

def updateParamInfosActs (count : Nat) : List SessionAct :=
  List.replicate (count + 1) (.change .paramInfos) ++ [.signal]

/-- What the info event of a node, device or link updates. -/
def infoActs (kind : WrapperKind) (stateChanged paramsChanged : Bool) (count : Nat) :
    List SessionAct :=
  match kind with
  | .node =>
    (if stateChanged then updateStateActs else []) ++
      (if paramsChanged then updateParamInfosActs count else [])
  | .device => updateParamInfosActs count
  | .link => updateStateActs
  | _ => []

/-- What an event that is not stale does, other than to stop a wrapper whose object is gone. -/
def dispatchActs (kind : WrapperKind) (choice : SessionChoice) : PipewireCallback → List SessionAct
  | .global _ _ _ =>
    match kind with
    | .registry =>
      (if choice.found then [.change .globals] else []) ++ [.change .globals, .signal]
    | .metadata => [.bind]
    | _ => []
  | .globalRemove _ =>
    match kind with
    | .registry => if choice.found then [.change .globals, .signal] else []
    | .metadata => if choice.found then destroyBoundActs else []
    | _ => []
  | .property => [.change .entries, .signal]
  | .info info =>
    match info with
    | some (stateChanged, paramsChanged) => infoActs kind stateChanged paramsChanged choice.count
    | none => []
  | .param _ => [.change .params, .signal]

/-- The `dispatch_event` of a wrapper. -/
def sessionDispatch (kind : WrapperKind) (choice : SessionChoice) (event : SessionEvent)
    (s : WrapperSession) : List SessionStmt :=
  if s.running = false ∨ event.generation ≠ s.generation then []
  else
    match kind, event.callback with
    | .node, .globalRemove _ | .device, .globalRemove _ | .link, .globalRemove _ =>
      [.stop (some event.session)]
    | _, callback => (dispatchActs kind choice callback).map (.act (some event.session))

namespace WrapperSession

/-- The listener of a proxy is removed, and the proxy destroyed. -/
def unlisten (field : ProxyField) (proxy : Option Nat) (s : WrapperSession) : WrapperSession :=
  { s with listening := s.listening.filter fun l => !(l.1 = field && some l.2 = proxy) }

def destroyObject (s : WrapperSession) : WrapperSession :=
  { s.unlisten .object s.object with object := none }

def destroyRegistry (s : WrapperSession) : WrapperSession :=
  { s.unlisten .registry s.registry with registry := none }

/-- `pwg_metadata_bind` -/
def bind (result : PipewireResult) (s : WrapperSession) : WrapperSession × Bool :=
  if s.bound ∨ s.object ≠ none then (s, false)
  else if s.connected = false ∨ s.registry = none then (s, false)
  else
    match result with
    | .bindFailed | .addListenerFailed => (s, false)
    | _ =>
      ({ s with
          object := some s.session
          bound := true
          listening := s.listening ++ [(.object, s.session)] }, true)

end WrapperSession

/-- The state and the error are set only where they differ. -/
def SessionChoice.changes (choice : SessionChoice) : CopiedItem → Bool
  | .state | .error => choice.found
  | _ => true

/-- An act, and whether handlers run at its end. -/
def sessionAct (kind : WrapperKind) (choice : SessionChoice) :
    SessionAct → WrapperSession → WrapperSession × Bool
  | .forgetProxies, s => ({ s with registry := none, object := none }, false)
  | .destroyRegistry, s =>
    if s.connected = true ∨ s.registry = none then (s.destroyRegistry, false)
    -- without a thread loop the proxy of a registry is left as it is
    else if kind = .registry then (s, false)
    else ({ s with registry := none }, false)
  | .destroyObject, s =>
    if s.connected then (s.destroyObject, false) else ({ s with object := none }, false)
  | .destroyPipewireObjects, s => (s.destroyObject.destroyRegistry, false)
  | .nextGeneration, s => ({ s with generation := s.generation + 1 }, false)
  | .bind, s => s.bind choice.result
  | .clearBound, s => ({ s with bound := false }, s.bound)
  | .clearRunning, s => ({ s with running := false }, s.running)
  | .change item, s => (s, item ≠ .entries ∧ choice.changes item)
  | .signal, s => (s, true)

/-- Whether an act does anything. -/
def SessionAct.takesEffect (choice : SessionChoice) (s : WrapperSession) : SessionAct → Bool
  | .bind => (s.bind choice.result).2
  | .clearBound => s.bound
  | .clearRunning => s.running
  | .change item => choice.changes item
  | _ => true

/-- The history grows where something is done because of an event. -/
def WrapperSession.record (origin : Option Nat) (s : WrapperSession) : WrapperSession :=
  { s with
    effects := s.effects ++
      (origin.map fun n => ⟨n, if s.running then some s.session else none⟩).toList }

/-- The rest of the start of a wrapper from `pw_core_get_registry` on. Where it fails late, the
lock is free before the proxies are destroyed. -/
def sessionStart (kind : WrapperKind) (result : PipewireResult) (sync : Bool)
    (s : WrapperSession) : WrapperSession × List SessionStmt :=
  let n := s.sessions + 1
  let t : WrapperSession :=
    { s with
      sessions := n
      registry := some n
      listening := s.listening ++ [(.registry, n)] }
  let begun : WrapperSession :=
    { t with generation := t.generation + 1, running := true, session := n }
  let after : List SessionStmt := if sync then [.coreSync] else []
  match result with
  | .getRegistryFailed => ({ s with registry := none }, [])
  | .bindFailed | .addListenerFailed =>
    if kind.bindsObject then
      ({ t with object := if result = .bindFailed then none else some n },
        [.act none .destroyPipewireObjects])
    else (begun, .handlers :: after)
  | _ =>
    if kind.bindsObject then
      ({ begun with
          object := some n
          bound := true
          listening := begun.listening ++ [(.object, n)] }, .handlers :: .handlers :: after)
    else (begun, .handlers :: after)

def sessionExec (kind : WrapperKind) (choice : SessionChoice) :
    SessionStmt → WrapperSession → WrapperSession × List SessionStmt
  | .handlers, s => (s, [])
  | .act origin act, s =>
    let r := sessionAct kind choice act (if act.takesEffect choice s then s.record origin else s)
    (r.1, if r.2 then [.handlers] else [])
  | .dispatch event, s => (s, sessionDispatch kind choice event s)
  | .connect, s =>
    -- the handlers of notify::connected run inside pwg_core_connect
    if s.connected = false ∧ choice.result = .succeeded then
      ({ s with connected := true }, [.handlers])
    else (s, [])
  | .start sync, s =>
    if s.running then (s, if sync then [.coreSync] else [])
    else if s.connected then (s, [.startProxies sync])
    else (s, [.connect, .startProxies sync])
  | .startProxies sync, s =>
    -- the core is not connected any more, or pwg_core_connect has failed
    if s.connected = false then (s, []) else sessionStart kind choice.result sync s
  | .coreSync, s => (s, if s.connected then [.coreSyncWait] else [.connect, .coreSyncWait])
  -- the wait iterates the main context; that of a metadata may be followed by a second one
  | .coreSyncWait, s => (s, if s.connected then [.handlers] else [])
  | .stop origin, s =>
    if s.running = false ∧ s.registry = none ∧ s.object = none then (s, [])
    else (s, (stopActs kind).map (.act origin))
  | .coreConnectedNotify, s =>
    (s, if s.connected then [] else (resetActs kind).map (.act none))

/-- What the application may call. The core is connected, is disconnected and notifies whenever
the application has control. -/
inductive SessionCall
  | dispatch (position : Nat)
  | start
  | sync
  | stop
  | connect
  | disconnect
  | coreConnectedNotify
  deriving DecidableEq

def sessionCall : SessionCall → WrapperSession → Option (WrapperSession × List SessionStmt)
  | .dispatch position, s => (s.queue[position]?).map fun event =>
    ({ s with queue := s.queue.eraseIdx position }, [.dispatch event])
  | .start, s => some (s, [.start false])
  | .sync, s => some (s, [.start true])
  | .stop, s => some (s, [.stop none])
  | .connect, s => some ({ s with connected := true }, [])
  -- the thread loop stops, and the proxies of the connection go
  | .disconnect, s => some ({ s with connected := false, listening := [] }, [])
  | .coreConnectedNotify, s => some (s, [.coreConnectedNotify])

/-- The proxy whose listener a callback comes through. -/
def PipewireCallback.field : PipewireCallback → ProxyField
  | .global _ _ _ | .globalRemove _ => .registry
  | .property | .info _ | .param _ => .object

/-- A callback comes through the listener that a session has registered, as long as that is
there; it reads the generation of that moment. -/
def sessionReport (kind : WrapperKind) (target : WrapperTarget) (report : Nat × PipewireCallback)
    (s : WrapperSession) : Option WrapperSession :=
  if (report.2.field, report.1) ∈ s.listening then
    some { s with
      queue := s.queue ++ ((wrapperEvent kind target report.2).map fun _ =>
        ⟨report.1, s.generation, report.2⟩).toList }
  else none

def sessionComponent (kind : WrapperKind) (target : WrapperTarget) :
    Component WrapperSession SessionStmt SessionCall SessionChoice (Nat × PipewireCallback) where
  exec := sessionExec kind
  emission i := i = .handlers
  call := sessionCall
  environment := sessionReport kind target

/-- A wrapper that has not been started. -/
def sessionInit : Config WrapperSession SessionStmt := ⟨{}, []⟩

end PipewireGobject
