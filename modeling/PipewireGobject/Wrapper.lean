import PipewireGobject.Reentrant
import PipewireGobject.Slots

namespace PipewireGobject

inductive WrapperKind
  | registry
  | metadata
  | node
  | device
  | link
  deriving DecidableEq

/-- The proxies of a wrapper: its registry, and the metadata, node, device or link. -/
inductive ProxyField
  | registry
  | object
  deriving DecidableEq

/-- `startedOn` numbers the connection on which `running` was set last. -/
structure Wrapper where
  running : Bool := false
  bound : Bool := false
  metadataId : UInt32 := 0
  generation : UInt32 := 0
  startedOn : Nat := 0
  deriving DecidableEq

/-- A core and its wrappers. The slots hold the proxies; they are `up` while the core is
connected, which is when its thread loop and its `pw_core` exist, and the epoch numbers
the connections. While `notify::connected` is emitted, `emission` lists the wrappers
whose own handlers are still to run. -/
structure Wrappers (ω : Type) where
  proxies : Slots (ω × ProxyField) := {}
  emission : Option (List ω) := none
  wrapper : ω → Wrapper := fun _ => {}

/-- The wrappers on a core in the order in which they have connected their handlers of
`notify::connected`. Other handlers may stand anywhere between them. -/
structure WrapperSet (ω : Type) where
  kind : ω → WrapperKind
  order : List ω
  complete : ∀ w, w ∈ order

/-- What the PipeWire calls of a statement return. -/
inductive PipewireResult
  | succeeded
  | connectFailed
  | getRegistryFailed
  | bindFailed
  | addListenerFailed
  deriving DecidableEq

/-- An event that a wrapper has queued for its main context. -/
inductive WrapperEvent
  | found (id : UInt32)
  | removed (id : UInt32)
  | changed
  deriving DecidableEq

/-- What is left to run of the functions of the core and of its wrappers. A statement
ends where a signal is emitted. With `sync` a start goes on into a sync. -/
inductive WrapperStmt (ω : Type)
  | handlers
  | connect
  | disconnect
  | disconnectReturn (dead : Nat) (wereRunning : List ω)
  | emitConnected
  | start (w : ω) (sync : Bool)
  | startProxies (w : ω) (sync : Bool)
  | sync (w : ω)
  | coreSync (again : Option (ω × Bool))
  | coreSyncWait (again : Option (ω × Bool))
  | metadataSyncAgain (w : ω) (wasBound : Bool)
  | stop (w : ω)
  | metadataStopRegistry (w : ω)
  | clearBound (w : ω)
  | clearRunning (w : ω)
  | dispatchEvent (w : ω) (event : WrapperEvent) (generation : UInt32)
  | callMethod (w : ω)
  | enumParams (w : ω)
  | enumParamsCall (w : ω)
  deriving DecidableEq

variable {ω : Type} [DecidableEq ω]

namespace Wrappers

def connected (s : Wrappers ω) : Bool := s.proxies.up

def registry (s : Wrappers ω) (w : ω) : Option (Resource (ω × ProxyField)) :=
  s.proxies.handle (w, .registry)

def object (s : Wrappers ω) (w : ω) : Option (Resource (ω × ProxyField)) :=
  s.proxies.handle (w, .object)

def modify (w : ω) (f : Wrapper → Wrapper) (s : Wrappers ω) : Wrappers ω :=
  { s with wrapper := Function.update s.wrapper w (f (s.wrapper w)) }

def onProxies (f : Slots (ω × ProxyField) → Slots (ω × ProxyField)) (s : Wrappers ω) :
    Wrappers ω := { s with proxies := f s.proxies }

omit [DecidableEq ω] in
@[simp] theorem onProxies_emission (f : Slots (ω × ProxyField) → _) (s : Wrappers ω) :
    (s.onProxies f).emission = s.emission := rfl

omit [DecidableEq ω] in
@[simp] theorem onProxies_wrapper (f : Slots (ω × ProxyField) → _) (s : Wrappers ω) :
    (s.onProxies f).wrapper = s.wrapper := rfl

def nextGeneration (w : ω) : Wrappers ω → Wrappers ω :=
  modify w fun x => { x with generation := x.generation + 1 }

end Wrappers

open Wrappers

/-- `g_object_notify_by_pspec` for `notify::connected`, a signal that does not recurse: within an
emission it makes that emission start over once the handler that runs returns. -/
def notifyConnected (order : List ω) (s : Wrappers ω) : Wrappers ω × List (WrapperStmt ω) :=
  ({ s with emission := some order },
    if s.emission.isSome then [] else [.handlers, .emitConnected])

def coreConnect (order : List ω) (result : PipewireResult) (s : Wrappers ω) :
    Wrappers ω × List (WrapperStmt ω) :=
  if s.connected then (s, [])
  else
    match result with
    | .succeeded => notifyConnected order (s.onProxies .openEpoch)
    | _ => (s, [])

def coreDisconnect (order : List ω) (s : Wrappers ω) : Wrappers ω × List (WrapperStmt ω) :=
  let r := if s.connected then notifyConnected order (s.onProxies .closeEpoch) else (s, [])
  (r.1, r.2 ++ [.disconnectReturn s.proxies.epoch (order.filter fun w => (s.wrapper w).running)])

/-- `pwg_registry_reset` -/
def registryReset (w : ω) (s : Wrappers ω) : Wrappers ω × List (WrapperStmt ω) :=
  (nextGeneration w (s.onProxies (Slots.forget (w, .registry))), [.clearRunning w, .handlers])

/-- `pwg_metadata_reset` -/
def metadataReset (w : ω) (s : Wrappers ω) : Wrappers ω × List (WrapperStmt ω) :=
  (nextGeneration w (modify w (fun x => { x with metadataId := 0 })
      (s.onProxies (Slots.forget (w, .object) ∘ Slots.forget (w, .registry)))),
    [.clearBound w, .clearRunning w])

/-- What `pwg_node_reset`, `pwg_device_reset` and `pwg_link_reset` share. The handlers that run
last are those of the state, the error and the lists. -/
def objectReset (w : ω) (s : Wrappers ω) : Wrappers ω × List (WrapperStmt ω) :=
  (nextGeneration w (s.onProxies (Slots.forget (w, .object) ∘ Slots.forget (w, .registry))),
    [.clearBound w, .clearRunning w, .handlers])

def nodeReset (w : ω) (s : Wrappers ω) : Wrappers ω × List (WrapperStmt ω) := objectReset w s

def deviceReset (w : ω) (s : Wrappers ω) : Wrappers ω × List (WrapperStmt ω) := objectReset w s

def linkReset (w : ω) (s : Wrappers ω) : Wrappers ω × List (WrapperStmt ω) := objectReset w s

def reset : WrapperKind → ω → Wrappers ω → Wrappers ω × List (WrapperStmt ω)
  | .registry => registryReset
  | .metadata => metadataReset
  | .node => nodeReset
  | .device => deviceReset
  | .link => linkReset

/-- The `on_core_connected_notify` of a wrapper. -/
def onCoreConnectedNotify (kind : WrapperKind) (w : ω) (s : Wrappers ω) :
    Wrappers ω × List (WrapperStmt ω) :=
  if s.connected then (s, []) else reset kind w s

/-- The next handler of `notify::connected` that belongs to a wrapper. -/
def emitConnected (kind : ω → WrapperKind) (s : Wrappers ω) :
    Wrappers ω × List (WrapperStmt ω) :=
  match s.emission with
  | none => (s, [])
  | some [] => ({ s with emission := none }, [])
  | some (w :: rest) =>
    let r := onCoreConnectedNotify (kind w) w { s with emission := some rest }
    (r.1, r.2 ++ [.handlers, .emitConnected])

/-- `pwg_node_destroy_pipewire_objects`, and those of the device and the link. -/
def destroyPipewireObjects (w : ω) (s : Wrappers ω) : Wrappers ω :=
  s.onProxies (Slots.destroy (w, .registry) ∘ Slots.destroy (w, .object))

def registryStop (w : ω) (s : Wrappers ω) : Wrappers ω × List (WrapperStmt ω) :=
  if (s.wrapper w).running = false ∧ s.registry w = none then (s, [])
  else
    let t :=
      if s.connected = true ∧ s.registry w ≠ none then
        s.onProxies (Slots.destroy (w, .registry))
      else s
    (nextGeneration w t, [.clearRunning w, .handlers])

/-- `pwg_metadata_destroy_bound_proxy` -/
def metadataDestroyBoundProxy (w : ω) (s : Wrappers ω) : Wrappers ω × List (WrapperStmt ω) :=
  let t :=
    if s.connected = true ∧ s.object w ≠ none then s.onProxies (Slots.destroy (w, .object))
    else s.onProxies (Slots.forget (w, .object))
  (modify w (fun x => { x with metadataId := 0 }) t, [.clearBound w])

def metadataStop (w : ω) (s : Wrappers ω) : Wrappers ω × List (WrapperStmt ω) :=
  if (s.wrapper w).running = false ∧ s.registry w = none ∧ s.object w = none then (s, [])
  else
    ((metadataDestroyBoundProxy w s).1,
      (metadataDestroyBoundProxy w s).2 ++ [.metadataStopRegistry w])

/-- The rest of `pwg_metadata_stop`, once the bound proxy is gone. -/
def metadataStopRegistry (w : ω) (s : Wrappers ω) : Wrappers ω × List (WrapperStmt ω) :=
  let t :=
    if s.connected = true ∧ s.registry w ≠ none then s.onProxies (Slots.destroy (w, .registry))
    else s.onProxies (Slots.forget (w, .registry))
  (nextGeneration w t, [.clearRunning w])

/-- What `pwg_node_stop`, `pwg_device_stop` and `pwg_link_stop` share. -/
def objectStop (w : ω) (s : Wrappers ω) : Wrappers ω × List (WrapperStmt ω) :=
  if (s.wrapper w).running = false ∧ s.registry w = none ∧ s.object w = none then (s, [])
  else
    (destroyPipewireObjects w (nextGeneration w s), [.clearBound w, .clearRunning w, .handlers])

def nodeStop (w : ω) (s : Wrappers ω) : Wrappers ω × List (WrapperStmt ω) := objectStop w s

def deviceStop (w : ω) (s : Wrappers ω) : Wrappers ω × List (WrapperStmt ω) := objectStop w s

def linkStop (w : ω) (s : Wrappers ω) : Wrappers ω × List (WrapperStmt ω) := objectStop w s

def stop : WrapperKind → ω → Wrappers ω → Wrappers ω × List (WrapperStmt ω)
  | .registry => registryStop
  | .metadata => metadataStop
  | .node => nodeStop
  | .device => deviceStop
  | .link => linkStop

def setRunning (w : ω) (bound : Bool) (s : Wrappers ω) : Wrappers ω :=
  modify w (fun x => { x with
    generation := x.generation + 1, running := true, bound := x.bound || bound
    startedOn := s.proxies.epoch }) s

/-- What `pwg_registry_start` and `pwg_metadata_start` share from `pw_core_get_registry` on,
and whether they get to the end. -/
def registryStartProxies (result : PipewireResult) (w : ω) (s : Wrappers ω) :
    Wrappers ω × Bool :=
  match result with
  | .getRegistryFailed => (s.onProxies (Slots.lose (w, .registry)), false)
  | _ => (setRunning w false (s.onProxies (Slots.bind (w, .registry) true)), true)

def metadataStartProxies (result : PipewireResult) (w : ω) (s : Wrappers ω) :
    Wrappers ω × Bool := registryStartProxies result w s

/-- What `pwg_node_start`, `pwg_device_start` and `pwg_link_start` share from
`pw_core_get_registry` on. -/
def objectStartProxies (result : PipewireResult) (w : ω) (s : Wrappers ω) :
    Wrappers ω × Bool :=
  let t := s.onProxies (Slots.use (w, .registry) ∘ Slots.bind (w, .registry) true)
  match result with
  | .getRegistryFailed => (s.onProxies (Slots.lose (w, .registry)), false)
  | .bindFailed => (destroyPipewireObjects w (t.onProxies (Slots.lose (w, .object))), false)
  | .addListenerFailed =>
    (destroyPipewireObjects w (t.onProxies (Slots.bind (w, .object) false)), false)
  | _ => (setRunning w true (t.onProxies (Slots.bind (w, .object) true)), true)

def nodeStartProxies (result : PipewireResult) (w : ω) (s : Wrappers ω) :
    Wrappers ω × Bool := objectStartProxies result w s

def deviceStartProxies (result : PipewireResult) (w : ω) (s : Wrappers ω) :
    Wrappers ω × Bool := objectStartProxies result w s

def linkStartProxies (result : PipewireResult) (w : ω) (s : Wrappers ω) :
    Wrappers ω × Bool := objectStartProxies result w s

def startProxies : WrapperKind → PipewireResult → ω → Wrappers ω → Wrappers ω × Bool
  | .registry => registryStartProxies
  | .metadata => metadataStartProxies
  | .node => nodeStartProxies
  | .device => deviceStartProxies
  | .link => linkStartProxies

/-- The notifications of a start that succeeds: `running`, and `bound` where the wrapper
binds its object itself. -/
def startNotifications : WrapperKind → List (WrapperStmt ω)
  | .registry | .metadata => [.handlers]
  | .node | .device | .link => [.handlers, .handlers]

/-- `pwg_metadata_bind` -/
def metadataBind (result : PipewireResult) (w : ω) (id : UInt32) (s : Wrappers ω) :
    Wrappers ω × List (WrapperStmt ω) :=
  if (s.wrapper w).bound = true ∨ s.object w ≠ none then (s, [])
  else if s.connected = false ∨ s.registry w = none then (s, [])
  else
    let t := s.onProxies (Slots.use (w, .registry))
    match result with
    | .bindFailed => (t, [])
    | .addListenerFailed => (t.onProxies (Slots.bindAborted (w, .object)), [])
    | _ =>
      (modify w (fun x => { x with metadataId := id, bound := true })
        (t.onProxies (Slots.bind (w, .object) true)), [.handlers])

/-- The `dispatch_event` of a wrapper. -/
def dispatchEvent (kind : WrapperKind) (result : PipewireResult) (w : ω) (event : WrapperEvent)
    (generation : UInt32) (s : Wrappers ω) : Wrappers ω × List (WrapperStmt ω) :=
  if (s.wrapper w).running = false ∨ generation ≠ (s.wrapper w).generation then (s, [])
  else
    match kind, event with
    | .registry, _ => (s, [.handlers])
    | .metadata, .found id => metadataBind result w id s
    | .metadata, .removed id =>
      if (s.wrapper w).metadataId = id then metadataDestroyBoundProxy w s else (s, [])
    | _, .removed _ => (s, [.stop w])
    | _, _ => (s, [.handlers])

/-- `pwg_metadata_set` and `pwg_metadata_clear`, and the methods of nodes and devices other than
`enum_params`. -/
def callMethod (kind : WrapperKind) (w : ω) (s : Wrappers ω) : Wrappers ω :=
  match kind with
  | .registry | .link => s
  | .metadata =>
    if s.object w = none ∨ s.connected = false then s
    else s.onProxies (Slots.use (w, .object))
  | .node | .device =>
    if s.object w = none ∨ (s.wrapper w).bound = false ∨ s.connected = false then s
    else s.onProxies (Slots.use (w, .object))

/-- `pwg_node_enum_params` and `pwg_device_enum_params` up to the emptying of the list of
parameters, whose handlers run before the method is called. -/
def enumParams (kind : WrapperKind) (w : ω) (s : Wrappers ω) : List (WrapperStmt ω) :=
  match kind with
  | .node | .device =>
    if s.object w = none ∨ (s.wrapper w).bound = false ∨ s.connected = false then []
    else [.handlers, .enumParamsCall w]
  | _ => []

def wrapperExec (S : WrapperSet ω) (result : PipewireResult) :
    WrapperStmt ω → Wrappers ω → Wrappers ω × List (WrapperStmt ω)
  | .handlers, s => (s, [])
  | .connect, s => coreConnect S.order result s
  | .disconnect, s => coreDisconnect S.order s
  | .disconnectReturn _ _, s => (s, [])
  | .emitConnected, s => emitConnected S.kind s
  | .start w sync, s =>
    if (s.wrapper w).running then (s, if sync then [.sync w] else [])
    else if s.connected then (s, [.startProxies w sync])
    else (s, [.connect, .startProxies w sync])
  | .startProxies w sync, s =>
    -- the core is not connected any more, or pwg_core_connect has failed
    if s.connected = false then (s, [])
    else
      let r := startProxies (S.kind w) result w s
      (r.1, if r.2 then startNotifications (S.kind w) ++ (if sync then [.sync w] else []) else [])
  | .sync w, s =>
    (s, [.coreSync (if S.kind w = .metadata then some (w, (s.wrapper w).bound) else none)])
  | .coreSync again, s =>
    if s.connected then (s, [.coreSyncWait again]) else (s, [.connect, .coreSyncWait again])
  | .coreSyncWait again, s =>
    -- the wait for the main context iterates it
    if s.connected = true ∧ result = .succeeded then
      (s, .handlers :: (again.map fun r => .metadataSyncAgain r.1 r.2).toList)
    else (s, [])
  | .metadataSyncAgain w wasBound, s =>
    (s, if wasBound = false ∧ (s.wrapper w).bound = true then [.coreSync none] else [])
  | .stop w, s => stop (S.kind w) w s
  | .metadataStopRegistry w, s => metadataStopRegistry w s
  | .clearBound w, s =>
    if (s.wrapper w).bound then (modify w (fun x => { x with bound := false }) s, [.handlers])
    else (s, [])
  | .clearRunning w, s =>
    if (s.wrapper w).running then
      (modify w (fun x => { x with running := false }) s, [.handlers])
    else (s, [])
  | .dispatchEvent w event generation, s =>
    dispatchEvent (S.kind w) result w event generation s
  | .callMethod w, s => (callMethod (S.kind w) w s, [])
  | .enumParams w, s => (s, enumParams (S.kind w) w s)
  | .enumParamsCall w, s => (s.onProxies (Slots.use (w, .object)), [])

/-- What the application may call; `dispatchEvent` is an iteration of the main context. -/
inductive WrapperCall (ω : Type)
  | connect
  | disconnect
  | start (w : ω)
  | sync (w : ω)
  | stop (w : ω)
  | dispatchEvent (w : ω) (event : WrapperEvent) (generation : UInt32)
  | callMethod (w : ω)
  | enumParams (w : ω)
  deriving DecidableEq

def wrapperCall : WrapperCall ω → Wrappers ω → Option (Wrappers ω × List (WrapperStmt ω))
  | .connect, s => some (s, [.connect])
  | .disconnect, s => some (s, [.disconnect])
  | .start w, s => some (s, [.start w false])
  | .sync w, s => some (s, [if (s.wrapper w).running then .sync w else .start w true])
  | .stop w, s => some (s, [.stop w])
  | .dispatchEvent w event generation, s => some (s, [.dispatchEvent w event generation])
  | .callMethod w, s => some (s, [.callMethod w])
  | .enumParams w, s => some (s, [.enumParams w])

def wrapperComponent (S : WrapperSet ω) :
    Component (Wrappers ω) (WrapperStmt ω) (WrapperCall ω) PipewireResult Empty where
  exec := wrapperExec S
  emission i := i = .handlers
  call := wrapperCall
  environment event _ := nomatch event

/-- No wrapper has been started and the core has not been connected. -/
def wrapperInit : Config (Wrappers ω) (WrapperStmt ω) := ⟨{}, []⟩

end PipewireGobject
