import PipewireGobject.Program

namespace PipewireGobject

/-- What `pwg_core_set_pipewire_property` and `pwg_stream_set_pipewire_property` share. -/
def setPipewireProperty (emptyKey refusal : String) (active : Bool) (key value : Option CString)
    (properties : Table CString CString) : Except PwgError (Table CString CString) :=
  match key with
  | none | some [] => .error ⟨.failed, text emptyKey⟩
  | some key =>
    if active then .error ⟨.failed, text refusal⟩
    else
      match value with
      | none => .ok (properties.erase key)
      | some value => .ok (properties.insert key value)

def coreSetPipewireProperty (key value : Option CString) (self : PwgCore) :
    Except PwgError PwgCore := do
  let properties ← setPipewireProperty "PipeWire core property key must not be empty"
    "PipeWire core properties cannot be changed after connecting" self.connected key value
    self.pipewireProperties
  pure { self with pipewireProperties := properties }

/-- The properties that `pwg_core_connect` gives to `pw_context_connect`. -/
def connectProperties (self : PwgCore) : Option (Table CString CString) :=
  if self.pipewireProperties.entries = [] then none else some self.pipewireProperties

def streamSetPipewireProperty (key value : Option CString) (self : PwgStream) :
    Except PwgError PwgStream := do
  let properties ← setPipewireProperty "PipeWire stream property key must not be empty"
    "PipeWire stream properties cannot be changed while the stream is running" self.running
    key value self.pipewireProperties
  pure { self with pipewireProperties := properties }

def streamSampleFormatFromName (sampleFormat : Option CString) :
    Except PwgError SpaAudioFormat :=
  match sampleFormat with
  | none | some [] => .error ⟨.failed, text "Requested sample format must not be empty"⟩
  | some name =>
    if name = text "F32" then .ok .f32
    else
      .error ⟨.failed, text "Unsupported requested sample format '" ++ name ++ text "'"⟩

def streamSampleFormatName : SpaAudioFormat → CString
  | .f32 => text "F32"
  | .other _ => text "unknown"

def streamValidateRequestedFormat (sampleFormat : Option CString) (rate channels : UInt32) :
    Except PwgError SpaAudioFormat := do
  let format ← streamSampleFormatFromName sampleFormat
  if rate = 0 then
    .error ⟨.failed, text "Requested sample rate must be greater than zero"⟩
  else if channels ≠ 1 ∧ channels ≠ 2 then
    .error ⟨.failed,
      text "Unsupported requested channel count " ++ text (toString channels.toNat)⟩
  else .ok format

def streamSetRequestedFormat (sampleFormat : Option CString) (rate channels : UInt32)
    (self : PwgStream) : Except PwgError PwgStream :=
  if self.running then
    .error ⟨.failed,
      text "Cannot change requested stream format while the stream is running"⟩
  else do
    let format ← streamValidateRequestedFormat sampleFormat rate channels
    pure { self with
      requestedSampleFormat := streamSampleFormatName format
      requestedRate := rate
      requestedChannels := channels }

/-- `pwg_stream_set_channel_positions` -/
def streamChannelPositions (channels : UInt32) : List AudioChannel :=
  if channels = 1 then [.mono]
  else if channels = 2 then [.frontLeft, .frontRight]
  else []

/-- The properties that `pwg_stream_start` gives to `pw_stream_new`; one that cannot be set is
left out. -/
def streamProperties (results : PipewireResults) (self : PwgStream) : Table CString CString :=
  let set := fun (properties : Table CString CString) (key value : CString) =>
    if results.propertiesSet key value < 0 then properties else properties.insert key value
  let properties : Table CString CString :=
    (((AList.singleton (text "media.type") (text "Audio")).insert (text "media.category")
        (text (if self.monitor then "Monitor" else "Capture"))).insert (text "media.role")
        (text (if self.monitor then "DSP" else "Music"))).insert (text "media.name")
        (text (if self.monitor then "Pwg monitor stream" else "Pwg audio stream"))
  let properties :=
    match self.targetObject with
    | none | some [] => properties
    | some target => set properties (text "target.object") target
  let properties :=
    if self.monitor then set properties (text "stream.capture.sink") (text "true")
    else properties
  self.pipewireProperties.entries.foldl (fun properties entry => set properties entry.1 entry.2)
    properties

/-- One of the functions that queue what the PipeWire thread has observed. -/
def streamQueue : StreamCallback → Stream → Stream
  | .queuePeak peak => streamQueuePeak peak
  | .queueGraphRate rate => streamQueueGraphRate rate
  | .queueFormat format => streamQueueFormat format
  | .queueAudioBlock block => fun s => (streamQueueAudioBlock block s).1

/-- The last part of `pwg_stream_dispatch_pending`: `s` is the stream before the snapshot. -/
def streamDispatchRate (s t : Stream) : Stream × List StreamSignal :=
  if s.hasPendingGraphRate ∧ t.running ∧ s.graphRateRevision = t.graphRateRevision ∧
      t.graphRate ≠ s.pendingGraphRate then
    ({ t with graphRate := s.pendingGraphRate }, [.notify .graphRate])
  else (t, [])

def streamDispatchPeak (s t : Stream) : Stream × List StreamSignal :=
  if s.hasPendingPeak ∧ t.running then
    ({ t with peak := s.pendingPeak }, [.notify .peak, .level s.pendingPeak])
  else (t, [])

/-- `pwg_stream_dispatch_pending`, where no handler calls anything. -/
def streamDispatchPending (s : Stream) : Stream × List StreamSignal :=
  let taken := streamTakePending s
  let format : Stream × List StreamSignal :=
    match s.pendingFormat with
    | none => (taken, [])
    | some format =>
      ({ taken with rate := format.rate, channels := format.channels, audioFormat := some format },
        [.notify .rate, .notify .channels, .notify .audioFormat])
  let rate := streamDispatchRate s format.1
  let peak := streamDispatchPeak s rate.1
  let blocks := if peak.1.running then s.pendingBlocks.map .audioBlock else []
  (peak.1, format.2 ++ rate.2 ++ peak.2 ++ blocks)

/-- The words for a wrapper in its error texts and in the interface of its global. -/
def ObjectKind.word : ObjectKind → String
  | .node => "node"
  | .device => "device"
  | .link => "link"

def ObjectKind.title : ObjectKind → String
  | .node => "Node"
  | .device => "Device"
  | .link => "Link"

/-- `PW_TYPE_INTERFACE_Node`, `PW_TYPE_INTERFACE_Device` or `PW_TYPE_INTERFACE_Link` -/
def ObjectKind.interface (kind : ObjectKind) : CString :=
  text ("PipeWire:Interface:" ++ kind.title)

/-- `PW_VERSION_NODE`, `PW_VERSION_DEVICE` and `PW_VERSION_LINK` -/
def pwObjectVersion : UInt32 := 3

/-- The signals with which a wrapper clears what it has copied. -/
def PwgObject.clearSignals (self : PwgObject) : List ObjectSignal :=
  let state : List ObjectSignal :=
    (if self.state ≠ none then [.notifyState] else []) ++
      (if self.error ≠ none then [.notifyError] else [])
  let lists : List ObjectSignal := [.paramInfosChanged, .paramsChanged]
  (if self.bound then [.notifyBound] else []) ++
    (if self.running then [.notifyRunning] else []) ++
      match self.kind with
      | .node => state ++ lists
      | .device => lists
      | .link => state

/-- The end of the stop and of the reset of a wrapper. -/
def PwgObject.cleared (self : PwgObject) : PwgObject :=
  { self with
    bound := false
    running := false
    state := none
    error := none
    paramInfos := []
    params := [] }

def objectUpdateState (state : CString) (error : Option CString) (self : PwgObject) :
    PwgObject × List ObjectSignal :=
  ({ self with state := some state, error := error },
    (if self.state ≠ some state then [.notifyState] else []) ++
      (if self.error ≠ error then [.notifyError] else []))

def objectUpdateParamInfos (paramInfos : List ParamInfo) (self : PwgObject) :
    PwgObject × List ObjectSignal :=
  ({ self with paramInfos := paramInfos },
    .paramInfosChanged :: paramInfos.map (fun _ => .paramInfosChanged) ++ [.notifyParamInfos])

/-- What a wrapper does with the info of its object. -/
def objectUpdate (state : Option (CString × Option CString))
    (paramInfos : Option (List ParamInfo)) (self : PwgObject) :
    PwgObject × List ObjectSignal :=
  let updated := fun self : PwgObject =>
    match state with
    | none => (self, [])
    | some s => objectUpdateState s.1 s.2 self
  match self.kind with
  | .node =>
    match paramInfos with
    | none => updated self
    | some paramInfos =>
      let infos := objectUpdateParamInfos paramInfos (updated self).1
      (infos.1, (updated self).2 ++ infos.2)
  | .device => objectUpdateParamInfos (paramInfos.getD []) self
  | .link => updated self

namespace Program

/-- The end of the stop and of the reset of a wrapper. -/
def objectClear (i : Nat) (s : Program) : Program :=
  (s.setObject i PwgObject.cleared).notify ((s.objects i).clearSignals.map (.object i))

/-- `pwg_node_reset`, `pwg_device_reset` and `pwg_link_reset` -/
def objectReset (i : Nat) (s : Program) : Program :=
  let s := s.setHandle (.object i) .registry none
  let s := s.setHandle (.object i) .object none
  let s := s.setObject i fun self => { self with
    hasRegistryListener := false
    hasObjectListener := false
    generation := self.generation + 1 }
  s.objectClear i

def objectOnCoreConnectedNotify (k i : Nat) (s : Program) : Program :=
  if (s.cores k).connected then s else s.objectReset i

/-- `g_object_notify_by_pspec` for `connected`: the handlers of the wrappers run. -/
def notifyConnected (k : Nat) (s : Program) : Program :=
  (s.cores k).handlers.foldl (fun s i => s.objectOnCoreConnectedNotify k i) (s.notify [.core k])

def coreDisconnect (k : Nat) (s : Program) : Program :=
  let wasConnected := (s.cores k).connected
  let s := s.setCore k fun self => { self with connected := false }
  let s := s.stopLoop (.core k)
  let s := s.closeConnection (.core k)
  if wasConnected then s.notifyConnected k else s

def coreConnect (results : PipewireResults) (k : Nat) (s : Program) :
    Option PwgError × Program :=
  if (s.cores k).connected then (none, s)
  else
    let s := s.make (.core k) .threadLoop none results.threadLoopNew
    if s.handle (.core k) .threadLoop = none then
      (some ⟨.pipewire, text "Could not create PipeWire thread loop"⟩, s)
    else
      let s := s.make (.core k) .context (s.handle (.core k) .threadLoop) results.contextNew
      if s.handle (.core k) .context = none then
        (some ⟨.pipewire, text "Could not create PipeWire context"⟩, s.coreDisconnect k)
      else
        let properties := connectProperties (s.cores k)
        if properties.isSome ∧ results.propertiesNew = false then
          (some ⟨.noMemory, text "Could not allocate PipeWire properties"⟩, s.coreDisconnect k)
        else if (properties.getD ∅).entries.any
            (fun entry => results.propertiesSet entry.1 entry.2 < 0) then
          (some ⟨.noMemory, text "Could not copy PipeWire properties"⟩, s.coreDisconnect k)
        else
          let s := s.make (.core k) .core (s.handle (.core k) .context)
            (results.contextConnect properties)
          if s.handle (.core k) .core = none then
            (some ⟨.pipewire, text "Could not connect to PipeWire core"⟩, s.coreDisconnect k)
          else if results.threadLoopStart < 0 then
            (some ⟨.pipewire, text "Could not start PipeWire thread loop"⟩, s.coreDisconnect k)
          else
            let s := s.startLoop (.core k)
            let s := s.setCore k fun self => { self with connected := true }
            (none, s.notifyConnected k)

def streamStop (j : Nat) (s : Program) : Program :=
  let wasRunning := (s.streams j).running
  let s := s.setStream j fun self => { self with running := false }
  let s := s.stopLoop (.stream j)
  let s := s.destroy (.stream j) .stream
  let s := s.closeConnection (.stream j)
  let graphRate := (s.streams j).graphRate
  let s := s.setStream j fun self => { self with
    toStream := { streamClearPending self.toStream with graphRate := 0 } }
  s.notify ((if graphRate = 0 then [] else [.stream j (.notify .graphRate)]) ++
    (if wasRunning then [.stream j (.notify .running)] else []))

/-- `pwg_stream_start` from the making of the stream on. -/
def streamConnect (results : PipewireResults) (format : SpaAudioFormat) (j : Nat)
    (s : Program) : Option PwgError × Program :=
  let self := s.streams j
  let s := s.make (.stream j) .stream (s.handle (.stream j) .core)
    (results.streamNew (streamProperties results self))
  if s.handle (.stream j) .stream = none then
    (some ⟨.pipewire, text "Could not create PipeWire stream"⟩, s.streamStop j)
  else if results.streamConnect format self.requestedRate self.requestedChannels
      (streamChannelPositions self.requestedChannels) < 0 then
    (some ⟨.pipewire, text "Could not connect PipeWire stream"⟩, s.streamStop j)
  else if results.threadLoopStart < 0 then
    (some ⟨.pipewire, text "Could not start PipeWire thread loop"⟩, s.streamStop j)
  else
    let s := s.startLoop (.stream j)
    let s := s.setStream j fun self => { self with threadLoop := true, running := true }
    (none, s.notify [.stream j (.notify .running)])

def streamStart (results : PipewireResults) (j : Nat) (s : Program) :
    Option PwgError × Program :=
  let self := s.streams j
  if self.running then (none, s)
  else
    match streamValidateRequestedFormat (some self.requestedSampleFormat) self.requestedRate
      self.requestedChannels with
    | .error error => (some error, s)
    | .ok format =>
      let s := s.make (.stream j) .threadLoop none results.threadLoopNew
      if s.handle (.stream j) .threadLoop = none then
        (some ⟨.pipewire, text "Could not create PipeWire thread loop"⟩, s)
      else
        let s := s.make (.stream j) .context (s.handle (.stream j) .threadLoop) results.contextNew
        if s.handle (.stream j) .context = none then
          (some ⟨.pipewire, text "Could not create PipeWire context"⟩, s.streamStop j)
        else
          let s := s.make (.stream j) .core (s.handle (.stream j) .context)
            (results.contextConnect none)
          if s.handle (.stream j) .core = none then
            (some ⟨.pipewire, text "Could not connect to PipeWire core"⟩, s.streamStop j)
          else if results.propertiesNew = false then
            (some ⟨.noMemory, text "Could not create PipeWire properties"⟩, s.streamStop j)
          else s.streamConnect results format j

/-- `pwg_node_destroy_pipewire_objects`, and those of the device and the link. -/
def objectDestroyPipewireObjects (i : Nat) (s : Program) : Program :=
  let threadLoop := (s.objects i).core.bind fun k => s.handle (.core k) .threadLoop
  let s := s.lock threadLoop
  let s := s.destroy (.object i) .object
  let s := s.destroy (.object i) .registry
  let s := s.setObject i fun self => { self with
    hasRegistryListener := false
    hasObjectListener := false }
  s.unlock threadLoop

/-- `pwg_node_stop`, `pwg_device_stop` and `pwg_link_stop` -/
def objectStop (i : Nat) (s : Program) : Program :=
  if (s.objects i).running = false ∧ s.handle (.object i) .registry = none ∧
      s.handle (.object i) .object = none then s
  else
    let s := s.setObject i fun self => { self with generation := self.generation + 1 }
    let s := s.objectDestroyPipewireObjects i
    s.objectClear i

/-- The start of a wrapper from the lock on. -/
def objectBind (results : PipewireResults) (i : Nat) (global : Global) (loop core : Handle)
    (s : Program) : Option PwgError × Program :=
  let kind := (s.objects i).kind
  let s := s.lock (some loop)
  let s := s.make (.object i) .registry (some core) results.coreGetRegistry
  if s.handle (.object i) .registry = none then
    (some ⟨.pipewire, text "Could not create PipeWire registry"⟩, s.unlock (some loop))
  else
    let s := s.setObject i fun self => { self with hasRegistryListener := true }
    let version := if global.version < pwObjectVersion then global.version else pwObjectVersion
    let s := s.make (.object i) .object (some core)
      (results.registryBind global.id kind.interface version)
    if s.handle (.object i) .object = none then
      (some ⟨.pipewire, text ("Could not bind PipeWire " ++ kind.word)⟩,
        (s.unlock (some loop)).objectDestroyPipewireObjects i)
    else if results.addListener < 0 then
      (some ⟨.pipewire, text ("Could not listen to PipeWire " ++ kind.word ++ ": ") ++
          results.strerror (-results.addListener)⟩,
        (s.unlock (some loop)).objectDestroyPipewireObjects i)
    else
      let s := s.setObject i fun self => { self with
        hasObjectListener := true
        generation := self.generation + 1
        running := true
        bound := true }
      let s := s.unlock (some loop)
      (none, s.notify [.object i .notifyRunning, .object i .notifyBound])

/-- `pwg_node_start`, `pwg_device_start` and `pwg_link_start` -/
def objectStart (results : PipewireResults) (i : Nat) (s : Program) :
    Option PwgError × Program :=
  let self := s.objects i
  if self.running then (none, s)
  else
    match self.core, self.global with
    | some k, some global =>
      if global.interfaceType ≠ some self.kind.interface then
        (some ⟨.failed, text ("Global is not a PipeWire " ++ self.kind.word)⟩, s)
      else
        match if (s.cores k).connected then (none, s) else s.coreConnect results k with
        | (some error, s) => (some error, s)
        | (none, s) =>
          match s.handle (.core k) .threadLoop, s.handle (.core k) .core with
          | some loop, some core => s.objectBind results i global loop core
          | _, _ => (some ⟨.pipewire, text "PipeWire core is not connected"⟩, s)
    | _, _ =>
      (some ⟨.failed, text (self.kind.title ++ " has no PipeWire core or global")⟩, s)

/-- The `dispatch_event` of a wrapper. -/
def objectDispatchEvent (i : Nat) (event : ObjectEvent) (s : Program) : Program :=
  let self := s.objects i
  if self.running = false ∨ event.generation ≠ self.generation then s
  else
    match event.change with
    | .info state paramInfos =>
      let updated := objectUpdate state paramInfos self
      (s.setObject i fun _ => updated.1).notify (updated.2.map (.object i))
    | .param param =>
      (s.setObject i fun self => { self with params := self.params ++ [param] }).notify
        [.object i .paramsChanged, .object i (.param param)]
    | .removed => s.objectStop i

/-- A new wrapper connects its handler of `notify::connected`. -/
def objectNew (kind : ObjectKind) (core : Option Nat) (global : Option Global) (s : Program) :
    Program :=
  let i := s.objectCount
  let s := { s.setObject i (fun _ => { kind, core, global }) with objectCount := i + 1 }
  match core with
  | none => s
  | some k => s.setCore k fun self => { self with handlers := self.handlers ++ [i] }

/-- `pwg_node_dispose`, and those of the device and the link. -/
def objectDispose (i : Nat) (s : Program) : Program :=
  let s := s.objectStop i
  let core := (s.objects i).core
  let s := s.setObject i fun self => { self with core := none, global := none }
  match core with
  | none => s
  | some k => s.setCore k fun self => { self with handlers := self.handlers.filter (· ≠ i) }

end Program

/-- What the application calls, and what the PipeWire threads and the main context do in
between. -/
inductive ProgramCall
  | coreConnect (core : Nat)
  | coreDisconnect (core : Nat)
  | coreSetPipewireProperty (core : Nat) (key value : Option CString)
  | streamStart (stream : Nat)
  | streamStop (stream : Nat)
  | streamSetPipewireProperty (stream : Nat) (key value : Option CString)
  | streamSetRequestedFormat (stream : Nat) (sampleFormat : Option CString)
      (rate channels : UInt32)
  | streamSetDeliverAudioBlocks (stream : Nat) (deliver : Bool)
  | streamQueue (stream : Nat) (callback : StreamCallback)
  | streamDispatch (stream : Nat)
  | objectNew (kind : ObjectKind) (core : Option Nat) (global : Option Global)
  | objectStart (object : Nat)
  | objectStop (object : Nat)
  | objectDispatch (object : Nat) (event : ObjectEvent)
  | objectDispose (object : Nat)

namespace Program

/-- An operation that sets a record, or refuses to. -/
def setter {α : Type} (change : Except PwgError α) (set : α → Program) (s : Program) :
    Option PwgError × Program :=
  match change with
  | .error error => (some error, s)
  | .ok value => (none, set value)

def call (results : PipewireResults) (s : Program) : ProgramCall → Option PwgError × Program
  | .coreConnect k => s.coreConnect results k
  | .coreDisconnect k => (none, s.coreDisconnect k)
  | .coreSetPipewireProperty k key value =>
    s.setter (PipewireGobject.coreSetPipewireProperty key value (s.cores k))
      fun self => s.setCore k fun _ => self
  | .streamStart j => s.streamStart results j
  | .streamStop j => (none, s.streamStop j)
  | .streamSetPipewireProperty j key value =>
    s.setter (PipewireGobject.streamSetPipewireProperty key value (s.streams j))
      fun self => s.setStream j fun _ => self
  | .streamSetRequestedFormat j sampleFormat rate channels =>
    s.setter (PipewireGobject.streamSetRequestedFormat sampleFormat rate channels (s.streams j))
      fun self => s.setStream j fun _ => self
  | .streamSetDeliverAudioBlocks j deliver =>
    (none,
      if (s.streams j).deliverAudioBlocks = deliver then s
      else
        (s.setStream j fun self => { self with deliverAudioBlocks := deliver }).notify
          [.stream j (.notify .deliverAudioBlocks)])
  | .streamQueue j callback =>
    (none,
      if (s.streams j).threadLoop then
        s.setStream j fun self => { self with
          toStream := PipewireGobject.streamQueue callback self.toStream }
      else s)
  | .streamDispatch j =>
    (none,
      if (s.streams j).sources = 0 then s
      else
        let dispatched := streamDispatchPending
          { (s.streams j).toStream with sources := (s.streams j).sources - 1 }
        (s.setStream j fun self => { self with toStream := dispatched.1 }).notify
          (dispatched.2.map (.stream j)))
  | .objectNew kind core global => (none, s.objectNew kind core global)
  | .objectStart i => s.objectStart results i
  | .objectStop i => (none, s.objectStop i)
  | .objectDispatch i event => (none, s.objectDispatchEvent i event)
  | .objectDispose i => (none, s.objectDispose i)

def step (s : Program) (label : ProgramCall × PipewireResults) : Option Program :=
  some (s.call label.2 label.1).2

/-- Streams with the targets that they were constructed for, and nothing running. -/
def start (targets : Nat → Option CString × Bool) : Program where
  streams j := { targetObject := (targets j).1, monitor := (targets j).2 }

end Program

end PipewireGobject
