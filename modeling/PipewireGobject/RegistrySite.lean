import PipewireGobject.FlatTable
import PipewireGobject.RegistryReentry

namespace PipewireGobject

/-- A global of the server. -/
structure ServerGlobal where
  permissions : UInt32
  type : Option CString
  version : UInt32
  props : Option SpaDict
  deriving DecidableEq

namespace ServerGlobal

def announce (id : UInt32) (global : ServerGlobal) : RegistryCallback :=
  .global id global.permissions global.type global.version global.props

def described (id : UInt32) (global : ServerGlobal) : Global :=
  globalNewFromSpaDict id global.permissions global.type global.version global.props

end ServerGlobal

/-- A source in the main context: an event, or the completion of a roundtrip. -/
inductive RegistrySource
  | event (event : RegistryEvent)
  | completion (slot : Nat)
  deriving DecidableEq

def RegistrySource.waits : RegistrySource → Option RegistryEvent
  | .event waiting => some waiting
  | .completion _ => none

/-- A request of the client. Registries are numbered as the wrapper creates them. -/
inductive RegistryRequest
  | getRegistry (registry : Nat)
  | sync (seq : Nat)
  deriving DecidableEq

inductive RegistryMessage
  | registry (registry : Nat) (callback : RegistryCallback)
  | done (seq : Nat)
  deriving DecidableEq

/-- What is left to run: statements of the registry, and of a roundtrip with its data in the
stack frame at `slot`. -/
inductive RegistrySiteTask
  | task (task : RegistryTask)
  | syncWait (slot : Nat)
  | syncIterate (slot : Nat)
  deriving DecidableEq

/-- A registry on a connected core, and the server. Requests and messages arrive in order. The
events of the registry wait in `sources`, between completions; its own queue stays empty.
`listeners` are those of roundtrips that wait, each with the frame of its data and the sequence
number there, and `done` and `completed` the frames whose data say so.

Of the history, `since` is the first sequence number of the session that runs, `snapshot` the
globals of the server when it handled a roundtrip, and `later` the changes dispatched after the
completion of one. -/
structure RegistrySite where
  session : RegistrySession
  sources : List RegistrySource := []
  completed : List Nat := []
  registry : Nat := 0
  seq : Nat := 0
  requested : Nat → Nat := fun _ => 0
  listeners : List (Nat × Nat) := []
  done : List Nat := []
  outbox : List RegistryRequest := []
  inbox : List RegistryMessage := []
  globals : Table UInt32 ServerGlobal := ∅
  registries : List Nat := []
  since : Nat := 0
  snapshot : Nat → UInt32 → Option Global := fun _ _ => none
  later : Nat → List RegistryChange := fun _ => []

/-- What PipeWire does in a statement: how its calls end, and for a roundtrip the frame of its
data and whether it fails. -/
structure RegistryChoice where
  result : PipewireResult := .succeeded
  slot : Nat := 0
  failed : Bool := false
  deriving DecidableEq

namespace RegistrySite

/-- A registry that has not been started. -/
def start (globals : Table UInt32 ServerGlobal) : RegistrySite where
  session := { connected := true }
  globals := globals

/-- The events that wait in the main context. -/
def events (s : RegistrySite) : List RegistryEvent := s.sources.filterMap RegistrySource.waits

/-- The globals of the server, as the client would describe them. -/
def view (s : RegistrySite) (id : UInt32) : Option Global :=
  (s.globals.lookup id).map (ServerGlobal.described id)

/-- The change of an event that is not stale. -/
def takes (event : RegistryEvent) (s : RegistrySite) : List RegistryChange :=
  if s.session.registry.running = false ∨ event.generation ≠ s.session.registry.generation then []
  else [event.change]

def dispatch (event : RegistryEvent) (s : RegistrySite) : RegistrySite × List RegistrySiteTask :=
  let r := registryDispatch event s.session
  ({ s with session := r.1, later := fun slot => s.later slot ++ s.takes event }, r.2.map .task)

/-- The registry of a new session is requested from the server. -/
def startProxies (result : PipewireResult) (sync : Bool) (s : RegistrySite) :
    RegistrySite × List RegistrySiteTask :=
  let r := registryStart result sync s.session
  (if s.session.connected = true ∧ result ≠ .getRegistryFailed then
      { s with
        session := r.1
        registry := s.registry + 1
        outbox := s.outbox ++ [.getRegistry (s.registry + 1)]
        since := s.seq }
    else { s with session := r.1 },
    r.2.map .task)

/-- `pwg_core_sync_main_context_internal` up to its wait. -/
def syncEnter (slot : Nat) (failed : Bool) (s : RegistrySite) :
    RegistrySite × List RegistrySiteTask :=
  if s.session.connected = false ∨ failed = true then (s, [])
  else
    ({ s with
        completed := s.completed.filter fun k => k ≠ slot
        seq := s.seq + 1
        requested := fun k => if k = slot then s.seq else s.requested k
        listeners := s.listeners ++ [(slot, s.seq)]
        done := s.done.filter fun k => k ≠ slot
        outbox := s.outbox ++ [.sync s.seq] },
      [.syncWait slot])

def syncWait (slot : Nat) (failed : Bool) (s : RegistrySite) :
    RegistrySite × List RegistrySiteTask :=
  let t := { s with listeners := s.listeners.filter fun listener => listener.1 ≠ slot }
  if failed then (t, [])
  else if slot ∈ s.done then (t, [.syncIterate slot])
  else (s, [.syncWait slot])

def exec (choice : RegistryChoice) :
    RegistrySiteTask → RegistrySite → RegistrySite × List RegistrySiteTask
  | .task (.dispatch event), s => s.dispatch event
  | .task (.startProxies sync), s => s.startProxies choice.result sync
  | .task .coreSyncWait, s => s.syncEnter choice.slot choice.failed
  | .task i, s =>
    ({ s with session := (registryExecTask choice.result i s.session).1 },
      (registryExecTask choice.result i s.session).2.map .task)
  | .syncWait slot, s => s.syncWait slot choice.failed
  | .syncIterate slot, s => (s, if slot ∈ s.completed then [] else [.syncIterate slot])

end RegistrySite

def RegistrySiteTask.emission : RegistrySiteTask → Bool
  | .task .handlers | .syncIterate _ => true
  | _ => false

/-- What the application may call while the core is connected. -/
inductive RegistrySiteCall
  | iterate
  | start
  | sync
  | stop
  deriving DecidableEq

/-- What the server and the PipeWire thread do. -/
inductive RegistrySiteEvent
  | handle
  | appear (id : UInt32) (global : ServerGlobal)
  | vanish (id : UInt32)
  | receive
  deriving DecidableEq

namespace RegistrySite

def call : RegistrySiteCall → RegistrySite → Option (RegistrySite × List RegistrySiteTask)
  | .iterate, s =>
    match s.sources with
    | [] => none
    | .event event :: rest => some ({ s with sources := rest }, [.task (.dispatch event)])
    | .completion slot :: rest =>
      some ({ s with
        sources := rest
        completed := slot :: s.completed
        later := fun k => if k = slot then [] else s.later k }, [])
  | .start, s => some (s, [.task (.start false)])
  | .sync, s => some (s, [.task (.start true)])
  | .stop, s => some (s, [.task .stop])

/-- The server handles a request. -/
def handle (s : RegistrySite) : RegistryRequest → RegistrySite
  | .getRegistry registry =>
    { s with
      registries := s.registries ++ [registry]
      inbox := s.inbox ++ s.globals.entries.map fun item =>
        .registry registry (item.2.announce item.1) }
  | .sync seq =>
    { s with
      inbox := s.inbox ++ [.done seq]
      snapshot := fun k => if k = seq then s.view else s.snapshot k }

/-- The server tells all registries. -/
def tell (callback : RegistryCallback) (s : RegistrySite) : List RegistryMessage :=
  s.registries.map fun registry => .registry registry callback

/-- The PipeWire thread of the client receives a message. -/
def receive (s : RegistrySite) : RegistryMessage → RegistrySite
  | .registry registry callback =>
    if s.session.hasRegistry = true ∧ registry = s.registry then
      { s with
        session := { s.session with queued := s.session.queued ++ [registryCallback callback] }
        sources := s.sources ++
          [.event (registryQueueEvent (registryCallback callback) s.session.registry)] }
    else s
  | .done seq =>
    let slots := (s.listeners.filter fun listener => listener.2 = seq).map Prod.fst
    { s with
      sources := s.sources ++ slots.map .completion
      done := s.done ++ slots }

def environment : RegistrySiteEvent → RegistrySite → Option RegistrySite
  | .handle, s =>
    match s.outbox with
    | [] => none
    | request :: rest => some ({ s with outbox := rest }.handle request)
  | .appear id global, s =>
    if id ∈ s.globals then none
    else some { s with
      globals := s.globals.insert id global
      inbox := s.inbox ++ s.tell (global.announce id) }
  | .vanish id, s =>
    if id ∈ s.globals then
      some { s with
        globals := s.globals.erase id
        inbox := s.inbox ++ s.tell (.globalRemove id) }
    else none
  | .receive, s =>
    match s.inbox with
    | [] => none
    | message :: rest => some ({ s with inbox := rest }.receive message)

end RegistrySite

def registrySite : Component RegistrySite RegistrySiteTask RegistrySiteCall RegistryChoice
    RegistrySiteEvent where
  exec := RegistrySite.exec
  emission := RegistrySiteTask.emission
  call := RegistrySite.call
  environment := RegistrySite.environment

/-- The statement of the registry that a statement is seen as. In a roundtrip, handlers may run. -/
def RegistrySiteTask.toTask : RegistrySiteTask → RegistryTask
  | .task i => i
  | .syncWait _ | .syncIterate _ => .handlers

/-- The address of a frame that nothing points to: no listener of the core, and no completion
that is still queued. -/
def RegistrySite.FreeFrame (s : RegistrySite) (slot : Nat) : Prop :=
  (∀ listener ∈ s.listeners, listener.1 ≠ slot) ∧ .completion slot ∉ s.sources

/-- No event has waited in the main context while the generation went all the way round. -/
def RegistrySite.NewGeneration (s : RegistrySite) : Prop :=
  ∀ event ∈ s.events, event.generation ≠ s.session.registry.generation + 1

/-- The statement disturbs nothing that the activations below it do with the list; a session has
a generation of its own, and the data of a roundtrip a place of its own. -/
def RegistrySiteTask.Undisturbed (choice : RegistryChoice) (s : RegistrySite)
    (rest : List RegistrySiteTask) (i : RegistrySiteTask) : Prop :=
  i.toTask.undisturbing choice.result s.session (rest.map toTask) ∧
    match i with
    | .task (.startProxies _) => s.NewGeneration
    | .task .coreSyncWait => s.FreeFrame choice.slot
    | _ => True

def RegistrySiteUndisturbed (c : Config RegistrySite RegistrySiteTask) :
    Label RegistrySiteCall RegistryChoice RegistrySiteEvent → Prop
  | .run choice => ∀ i ∈ c.code.head?, i.Undisturbed choice c.state c.code.tail
  | .call _ | .environment _ => True

instance RegistrySite.freeFrameDecidable (s : RegistrySite) (slot : Nat) :
    Decidable (s.FreeFrame slot) :=
  inferInstanceAs (Decidable (_ ∧ _))

instance RegistrySite.newGenerationDecidable (s : RegistrySite) : Decidable s.NewGeneration :=
  inferInstanceAs (Decidable (∀ event ∈ s.events, _))

instance RegistrySiteTask.undisturbedDecidable (choice : RegistryChoice) (s : RegistrySite)
    (rest : List RegistrySiteTask) :
    (i : RegistrySiteTask) → Decidable (i.Undisturbed choice s rest)
  | .task (.startProxies _) => inferInstanceAs (Decidable (_ ∧ s.NewGeneration))
  | .task .coreSyncWait => inferInstanceAs (Decidable (_ ∧ s.FreeFrame choice.slot))
  | .task .handlers | .task (.emit _) | .task (.dispatch _) | .task (.append _) | .task .connect
  | .task (.start _) | .task .coreSync | .task .stop | .task .coreConnectedNotify
  | .task .clearGlobals | .syncWait _ | .syncIterate _ =>
    inferInstanceAs (Decidable (_ ∧ True))

instance registrySiteUndisturbedDecidable (c : Config RegistrySite RegistrySiteTask) :
    DecidablePred (RegistrySiteUndisturbed c)
  | .run choice => inferInstanceAs (Decidable (∀ i ∈ c.code.head?,
      i.Undisturbed choice c.state c.code.tail))
  | .call _ | .environment _ => .isTrue trivial

end PipewireGobject
