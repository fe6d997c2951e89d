import PipewireGobject.Reentrant
import PipewireGobject.Registry
import PipewireGobject.Wrapper

namespace PipewireGobject

/-- The wrappers that copy the info of one object. -/
inductive ObjectKind
  | node
  | device
  | link
  deriving DecidableEq

structure ParamInfo where
  id : UInt32
  flags : UInt32
  deriving DecidableEq

structure Param where
  seq : Int
  id : UInt32
  index : UInt32
  next : UInt32
  pod : List UInt8
  deriving DecidableEq

/-- The part of an event that its type selects; an info carries a state and an error, or a list
of parameters, where these have changed. -/
inductive ObjectChange
  | info (state : Option (CString × Option CString)) (paramInfos : Option (List ParamInfo))
  | param (param : Param)
  | removed
  deriving DecidableEq

structure ObjectEvent where
  generation : UInt32
  change : ObjectChange
  deriving DecidableEq

/-- `pw_node_info`, `pw_device_info` or `pw_link_info`; the flags are those of the change mask. -/
structure ObjectInfo where
  stateChanged : Bool
  paramsChanged : Bool
  state : CString
  error : Option CString
  params : Option (List ParamInfo)
  deriving DecidableEq

inductive ObjectCallback
  | info (info : Option ObjectInfo)
  | param (seq : Int) (id index next : UInt32) (pod : Option (List UInt8))
  | globalRemove (id : UInt32)
  deriving DecidableEq

def nodeOnInfo (info : ObjectInfo) : Option ObjectChange :=
  let paramsChanged := info.params.isSome || info.paramsChanged
  if !info.stateChanged && !paramsChanged then none
  else
    some (.info (if info.stateChanged then some (info.state, info.error) else none)
      (if paramsChanged then some (info.params.getD []) else none))

def deviceOnInfo (info : ObjectInfo) : Option ObjectChange :=
  if info.params = none ∧ info.paramsChanged = false then none
  else some (.info none (some (info.params.getD [])))

def linkOnInfo (info : ObjectInfo) : Option ObjectChange :=
  if info.stateChanged = false then none
  else some (.info (some (info.state, info.error)) none)

def objectOnInfo : ObjectKind → ObjectInfo → Option ObjectChange
  | .node => nodeOnInfo
  | .device => deviceOnInfo
  | .link => linkOnInfo

/-- The `on_param` of a node or device; a link listens to no parameters. -/
def objectOnParam (kind : ObjectKind) (seq : Int) (id index next : UInt32)
    (pod : Option (List UInt8)) : Option Param :=
  if kind = .link then none else pod.map fun pod => ⟨seq, id, index, next, pod⟩

/-- The callbacks of a wrapper, up to the queueing. -/
def objectOnCallback (kind : ObjectKind) (objectId : UInt32) :
    ObjectCallback → Option ObjectChange
  | .info info => info.bind (objectOnInfo kind)
  | .param seq id index next pod => (objectOnParam kind seq id index next pod).map .param
  | .globalRemove id => if id ≠ objectId then none else some .removed

/-- Who makes a roundtrip: a sync, or the synchronous enumeration of a request. -/
inductive SyncCaller
  | sync
  | enumParams (seq : Int)
  deriving DecidableEq

/-- What a start goes on into. -/
inductive AfterStart
  | nothing
  | sync (caller : SyncCaller)
  | enumParams
  deriving DecidableEq

inductive ObjectSignal
  | notifyRunning
  | notifyBound
  | notifyState
  | notifyError
  | notifyParamInfos
  | paramInfosChanged
  | paramsChanged
  | param (param : Param)
  deriving DecidableEq

/-- What is left to run of the functions of a wrapper. A statement ends where a signal is
emitted. A roundtrip has its data in the stack frame at `slot`; `expected` are the parameters
that had been delivered for a request when the roundtrip closed. -/
inductive ObjectStmt
  | handlers
  | emit (signal : ObjectSignal)
  | dispatch (event : ObjectEvent)
  | updateState (state : CString) (error : Option CString)
  | updateError (error : Option CString)
  | updateParamInfos (paramInfos : List ParamInfo)
  | appendParamInfo (paramInfo : ParamInfo)
  | connect
  | start (next : AfterStart)
  | startProxies (next : AfterStart)
  | coreSync (caller : SyncCaller)
  | syncEnter (caller : SyncCaller)
  | syncWait (slot : Nat) (caller : SyncCaller)
  | syncIterate (slot : Nat) (request : Option (Int × List Param))
  | stop
  | coreConnectedNotify
  | clearBound
  | clearRunning
  | clearState
  | clearError
  | clearParamInfos
  | clearParams
  | enumParams (sync : Bool)
  | enumParamsCall (sync : Bool)
  deriving DecidableEq

/-- A source in the main context: an event, or the completion of the roundtrip whose data is in
a stack frame. -/
inductive ObjectSource
  | event (event : ObjectEvent)
  | completion (slot : Nat)
  deriving DecidableEq

/-- A list that `enum_params_sync` has returned, and what had been delivered for its request. -/
structure Enumerated where
  returned : List Param
  expected : List Param
  deriving DecidableEq

/-- A node, device or link with its core and its main context. `completed` are the frames whose
`main_context_done` is set. Of its history, `delivered` lists the parameters that callbacks have
brought, `latestSeq` is what the last successful `enum_params` has returned, and `enumerated`
lists the results of `enum_params_sync`. -/
structure ObjectWrapper where
  running : Bool := false
  bound : Bool := false
  state : Option CString := none
  error : Option CString := none
  paramInfos : List ParamInfo := []
  params : List Param := []
  generation : UInt32 := 0
  nextSeq : Int := 1
  hasRegistry : Bool := false
  hasObject : Bool := false
  connected : Bool := false
  queue : List ObjectSource := []
  completed : List Nat := []
  delivered : List Param := []
  latestSeq : Option Int := none
  enumerated : List Enumerated := []
  deriving DecidableEq

/-- What PipeWire does in a statement: how its calls end, the number that `enum_params` returns,
and for a roundtrip the frame of its data, the matching Done events that are processed before
the waiting thread goes on, and whether it goes on with an error or a timeout. -/
structure ObjectChoice where
  result : PipewireResult := .succeeded
  number : Int := 0
  slot : Nat := 0
  dones : Nat := 1
  failed : Bool := false
  deriving DecidableEq

/-- `SPA_RESULT_IS_ASYNC`, of a result that is not negative. -/
def spaResultIsAsync (result : Int) : Bool := 0x40000000 ≤ result

def AfterStart.code : AfterStart → List ObjectStmt
  | .nothing => []
  | .sync caller => [.coreSync caller]
  | .enumParams => [.enumParams true]

/-- What the update from an info event consists of. -/
def objectUpdates (kind : ObjectKind) (state : Option (CString × Option CString))
    (paramInfos : Option (List ParamInfo)) : List ObjectStmt :=
  let updateState : List ObjectStmt := (state.map fun s => .updateState s.1 s.2).toList
  match kind with
  | .node => updateState ++ (paramInfos.map .updateParamInfos).toList
  | .device => [.updateParamInfos (paramInfos.getD [])]
  | .link => updateState

/-- The `dispatch_event` of a wrapper. -/
def objectDispatch (kind : ObjectKind) (event : ObjectEvent) (s : ObjectWrapper) :
    ObjectWrapper × List ObjectStmt :=
  if s.running = false ∨ event.generation ≠ s.generation then (s, [])
  else
    match event.change with
    | .info state paramInfos => (s, objectUpdates kind state paramInfos)
    | .param param =>
      ({ s with params := s.params ++ [param] }, [.emit .paramsChanged, .emit (.param param)])
    | .removed => (s, [.stop])

/-- The copied state that a wrapper clears once it is not running any more. -/
def clearCopied : ObjectKind → List ObjectStmt
  | .node => [.clearState, .clearError, .clearParamInfos, .clearParams]
  | .device => [.clearParamInfos, .clearParams]
  | .link => [.clearState, .clearError]

/-- What the stop and the reset of a wrapper share. -/
def objectEndSession (s : ObjectWrapper) : ObjectWrapper × List ObjectStmt :=
  ({ s with generation := s.generation + 1, hasRegistry := false, hasObject := false },
    [.clearBound])

/-- `pwg_node_stop`, and those of the device and the link. -/
def objectStopSession (s : ObjectWrapper) : ObjectWrapper × List ObjectStmt :=
  if s.running = false ∧ s.hasRegistry = false ∧ s.hasObject = false then (s, [])
  else objectEndSession s

/-- The rest of the start of a wrapper from `pw_core_get_registry` on. -/
def objectStart (result : PipewireResult) (next : AfterStart) (s : ObjectWrapper) :
    ObjectWrapper × List ObjectStmt :=
  -- the core is not connected any more, or pwg_core_connect has failed
  if s.connected = false then (s, [])
  else
    match result with
    | .getRegistryFailed => ({ s with hasRegistry := false }, [])
    | .bindFailed | .addListenerFailed =>
      ({ s with hasRegistry := false, hasObject := false }, [])
    | _ =>
      ({ s with
          hasRegistry := true
          hasObject := true
          generation := s.generation + 1
          running := true
          bound := true },
        .emit .notifyRunning :: .emit .notifyBound :: next.code)

/-- The parameters of a list that belong to a request. -/
def paramsForSeq (seq : Int) (params : List Param) : List Param :=
  params.filter fun param => param.seq = seq

/-- The wait of a roundtrip is over. -/
def objectSyncWait (choice : ObjectChoice) (slot : Nat) (caller : SyncCaller)
    (s : ObjectWrapper) : ObjectWrapper × List ObjectStmt :=
  ({ s with queue := s.queue ++ List.replicate choice.dones (.completion slot) },
    if choice.failed ∨ choice.dones = 0 then []
    else
      match caller with
      | .sync => [.syncIterate slot none]
      | .enumParams seq => [.syncIterate slot (some (seq, paramsForSeq seq s.delivered))])

/-- The `enum_params` of a node or device, from the PipeWire call on. -/
def objectEnumParamsCall (result : Int) (sync : Bool) (s : ObjectWrapper) :
    ObjectWrapper × List ObjectStmt :=
  let t := { s with nextSeq := s.nextSeq + 1 }
  -- the handlers of items-changed may have unbound the object
  if s.hasObject = false ∨ result < 0 then (t, [])
  else
    let seq := if spaResultIsAsync result then result else s.nextSeq
    ({ t with latestSeq := some seq }, if sync then [.start (.sync (.enumParams seq))] else [])

def objectExec (kind : ObjectKind) (choice : ObjectChoice) :
    ObjectStmt → ObjectWrapper → ObjectWrapper × List ObjectStmt
  | .handlers, s => (s, [])
  | .emit _, s => (s, [.handlers])
  | .dispatch event, s => objectDispatch kind event s
  | .updateState state error, s =>
    if s.state ≠ some state then
      ({ s with state := some state }, [.emit .notifyState, .updateError error])
    else (s, [.updateError error])
  | .updateError error, s =>
    -- running is not looked at again after the handlers of notify::state
    if s.error ≠ error then ({ s with error := error }, [.emit .notifyError]) else (s, [])
  | .updateParamInfos paramInfos, s =>
    ({ s with paramInfos := [] }, .emit .paramInfosChanged ::
      paramInfos.map .appendParamInfo ++ [.emit .notifyParamInfos])
  | .appendParamInfo paramInfo, s =>
    ({ s with paramInfos := s.paramInfos ++ [paramInfo] }, [.emit .paramInfosChanged])
  | .connect, s =>
    -- the handlers of notify::connected run inside pwg_core_connect
    if s.connected = false ∧ choice.result = .succeeded then
      ({ s with connected := true }, [.handlers])
    else (s, [])
  | .start next, s =>
    if s.running then (s, next.code)
    else if s.connected then (s, [.startProxies next])
    else (s, [.connect, .startProxies next])
  | .startProxies next, s => objectStart choice.result next s
  | .coreSync caller, s =>
    if s.connected then (s, [.syncEnter caller]) else (s, [.connect, .syncEnter caller])
  | .syncEnter caller, s =>
    if s.connected = false then (s, [])
    else
      ({ s with completed := s.completed.filter fun slot => slot ≠ choice.slot },
        [.syncWait choice.slot caller])
  | .syncWait slot caller, s => objectSyncWait choice slot caller s
  | .syncIterate slot request, s =>
    if slot ∉ s.completed then (s, [.syncIterate slot request])
    else
      match request with
      | none => (s, [])
      | some (seq, expected) =>
        -- dup_params_for_seq
        ({ s with enumerated := s.enumerated ++ [⟨paramsForSeq seq s.params, expected⟩] }, [])
  | .stop, s => objectStopSession s
  | .coreConnectedNotify, s => if s.connected then (s, []) else objectEndSession s
  | .clearBound, s =>
    if s.bound then ({ s with bound := false }, [.emit .notifyBound, .clearRunning])
    else (s, [.clearRunning])
  | .clearRunning, s =>
    if s.running then ({ s with running := false }, .emit .notifyRunning :: clearCopied kind)
    else (s, clearCopied kind)
  | .clearState, s =>
    if s.state ≠ none then ({ s with state := none }, [.emit .notifyState]) else (s, [])
  | .clearError, s =>
    if s.error ≠ none then ({ s with error := none }, [.emit .notifyError]) else (s, [])
  | .clearParamInfos, s => ({ s with paramInfos := [] }, [.emit .paramInfosChanged])
  | .clearParams, s => ({ s with params := [] }, [.emit .paramsChanged])
  | .enumParams sync, s =>
    if s.hasObject = false ∨ s.bound = false ∨ s.connected = false then (s, [])
    else ({ s with params := [] }, [.emit .paramsChanged, .enumParamsCall sync])
  | .enumParamsCall sync, s => objectEnumParamsCall choice.number sync s

/-- What the application may call. An iteration of the main context dispatches its first
source; the core is connected, is disconnected and notifies whenever the application has
control. -/
inductive ObjectCall
  | iterate
  | start
  | sync
  | stop
  | enumParams
  | enumParamsSync
  | subscribeParams
  | setConnected (connected : Bool)
  | coreConnectedNotify
  deriving DecidableEq

def objectCall (kind : ObjectKind) :
    ObjectCall → ObjectWrapper → Option (ObjectWrapper × List ObjectStmt)
  | .iterate, s =>
    match s.queue with
    | [] => none
    | .event event :: rest => some ({ s with queue := rest }, [.dispatch event])
    | .completion slot :: rest =>
      some ({ s with queue := rest, completed := slot :: s.completed }, [])
  | .start, s => some (s, [.start .nothing])
  | .sync, s => some (s, [.start (.sync .sync)])
  | .stop, s => some (s, [.stop])
  | .enumParams, s => if kind = .link then none else some (s, [.enumParams false])
  | .enumParamsSync, s => if kind = .link then none else some (s, [.start .enumParams])
  -- the subscription only reaches PipeWire
  | .subscribeParams, s => if kind = .link then none else some (s, [])
  | .setConnected connected, s => some ({ s with connected := connected }, [])
  | .coreConnectedNotify, s => some (s, [.coreConnectedNotify])

/-- The events of a callback wait in the main context. -/
def objectReport (kind : ObjectKind) (objectId : UInt32) (callback : ObjectCallback)
    (s : ObjectWrapper) : ObjectWrapper :=
  match objectOnCallback kind objectId callback with
  | none => s
  | some change =>
    { s with
      queue := s.queue ++ [.event ⟨s.generation, change⟩]
      delivered := match change with
        | .param param => s.delivered ++ [param]
        | _ => s.delivered }

/-- The application has control while handlers run and while a roundtrip waits: its second part
iterates the main context, and during the first the PipeWire thread does if nobody owns it. -/
def ObjectStmt.emission : ObjectStmt → Bool
  | .handlers | .syncWait _ _ | .syncIterate _ _ => true
  | _ => false

def objectComponent (kind : ObjectKind) (objectId : UInt32) :
    Component ObjectWrapper ObjectStmt ObjectCall ObjectChoice ObjectCallback where
  exec := objectExec kind
  emission := ObjectStmt.emission
  call := objectCall kind
  environment callback s := some (objectReport kind objectId callback s)

/-- A start fails, and at most lets go of proxies, or begins a session. -/
theorem objectStart_cases (result : PipewireResult) (next : AfterStart) (s : ObjectWrapper) :
    (∃ hasRegistry hasObject, objectStart result next s =
      ({ s with hasRegistry := hasRegistry, hasObject := hasObject }, [])) ∨
    objectStart result next s =
      ({ s with
          hasRegistry := true
          hasObject := true
          generation := s.generation + 1
          running := true
          bound := true },
        .emit .notifyRunning :: .emit .notifyBound :: next.code) := by
  unfold objectStart
  split
  · exact .inl ⟨_, _, rfl⟩
  · split
    · exact .inl ⟨_, _, rfl⟩
    · exact .inl ⟨_, _, rfl⟩
    · exact .inl ⟨_, _, rfl⟩
    · exact .inr rfl

/-- The statements that operations of the application begin with. -/
def ObjectStmt.requested : ObjectStmt → Bool
  | .start _ | .stop | .coreConnectedNotify | .enumParams _ => true
  | _ => false

theorem objectCall_eq {kind : ObjectKind} {operation : ObjectCall} {s : ObjectWrapper}
    {r : ObjectWrapper × List ObjectStmt} (h : objectCall kind operation s = some r) :
    (∃ connected queue completed,
      r.1 = { s with connected := connected, queue := queue, completed := completed } ∧
        ∀ source ∈ queue, source ∈ s.queue) ∧
    ∀ j ∈ r.2, (∃ event, j = .dispatch event ∧ .event event ∈ s.queue) ∨ j.requested = true := by
  cases operation with
  | iterate =>
    simp only [objectCall] at h
    split at h
    next => simp at h
    next event rest hq =>
      cases Option.some.inj h
      refine ⟨⟨s.connected, rest, s.completed, rfl, by simp +contextual [hq]⟩, fun j hj => ?_⟩
      exact .inl ⟨event, List.mem_singleton.mp hj, by simp [hq]⟩
    next slot rest hq =>
      cases Option.some.inj h
      exact ⟨⟨s.connected, rest, slot :: s.completed, rfl, by simp +contextual [hq]⟩, by simp⟩
  | enumParams | enumParamsSync | subscribeParams =>
    simp only [objectCall] at h
    split at h
    next => simp at h
    next =>
      cases Option.some.inj h
      exact ⟨⟨s.connected, s.queue, s.completed, rfl, fun _ hs => hs⟩,
        by simp [ObjectStmt.requested]⟩
  | setConnected connected =>
    cases Option.some.inj h
    exact ⟨⟨connected, s.queue, s.completed, rfl, fun _ hs => hs⟩, by simp⟩
  | _ =>
    cases Option.some.inj h
    exact ⟨⟨s.connected, s.queue, s.completed, rfl, fun _ hs => hs⟩,
      by simp [ObjectStmt.requested]⟩

/-- A wrapper that has not been started. -/
def objectInit : Config ObjectWrapper ObjectStmt := ⟨{}, []⟩

/-- The wrapper is started on a core that is connected. -/
def objectStartSchedule : List (Label ObjectCall ObjectChoice ObjectCallback) :=
  [.call (.setConnected true), .call .start] ++ List.replicate 6 (.run {})

end PipewireGobject
