import PipewireGobject.MetadataDiscovery
import PipewireGobject.MetadataExchange

namespace PipewireGobject

/-- A global of the server. The `entries` are those of a metadata object. -/
structure SiteGlobal where
  permissions : UInt32
  type : Option CString
  version : UInt32
  props : Option SpaDict
  entries : MetadataStore

/-- A request of the client. Registries and proxies are numbered as the wrapper creates them. -/
inductive SiteRequest
  | getRegistry (registry : Nat)
  | bind (proxy : Nat) (id : UInt32)
  | sync (seq : Nat)
  | set (proxy : Nat) (change : MetadataChange)
  | clear (proxy : Nat)
  deriving DecidableEq

inductive SiteMessage
  | registry (registry : Nat) (callback : MetadataCallback)
  | property (proxy : Nat) (change : MetadataChange)
  | done (seq : Nat)
  deriving DecidableEq

/-- A metadata wrapper on a connected core, and the server. Requests and messages arrive in
order. `listeners` are those of roundtrips that wait, each with the frame of its data and the
sequence number there, and `done` the frames whose data say so. A binding of the server says
which object the events of a proxy come from.

Of the history, `epoch` counts the binds of the wrapper and its clears, `entered` has the epoch in
which the roundtrip of a frame was requested, `snapshot` what the objects held when the server
handled a roundtrip, and `later` the changes dispatched after the completion of one. -/
structure MetadataSite where
  wrapper : MetadataWrapper
  registry : Nat := 0
  seq : Nat := 0
  requested : Nat → Nat := fun _ => 0
  listeners : List (Nat × Nat) := []
  done : List Nat := []
  outbox : List SiteRequest := []
  inbox : List SiteMessage := []
  globals : Table UInt32 SiteGlobal := ∅
  registries : List Nat := []
  bindings : List (Nat × UInt32) := []
  epoch : Nat := 0
  entered : Nat → Nat := fun _ => 0
  snapshot : Nat → UInt32 → MetadataStore := fun _ _ => ∅
  later : Nat → List MetadataChange := fun _ => []

namespace MetadataWrapper

/-- The change that the dispatch of an event makes in the cache. -/
def cached (event : MetadataEvent) (s : MetadataWrapper) : List MetadataChange :=
  if s.running = false ∨ event.generation ≠ s.generation then []
  else
    match event.news with
    | .changed _ change => [change]
    | _ => []

end MetadataWrapper

namespace MetadataSite

/-- The wrapper dispatches an event, and what it binds is requested from the server. -/
def dispatch (result : PipewireResult) (event : MetadataEvent) (s : MetadataSite) :
    MetadataSite × List MetadataStmt :=
  let r := s.wrapper.dispatchEvent result event
  let binds := r.1.proxies ≠ s.wrapper.proxies
  ({ s with
      wrapper := r.1
      outbox := s.outbox ++ if binds then [.bind r.1.proxies r.1.metadataId] else []
      epoch := if binds then s.epoch + 1 else s.epoch
      later := fun slot => s.later slot ++ s.wrapper.cached event },
    r.2)

def startRegistry (result : PipewireResult) (sync : Bool) (s : MetadataSite) :
    MetadataSite × List MetadataStmt :=
  let r := s.wrapper.startRegistry result sync
  (if r.1.hasRegistry then
      { s with
        wrapper := r.1
        registry := s.registry + 1
        outbox := s.outbox ++ [.getRegistry (s.registry + 1)] }
    else { s with wrapper := r.1 },
    r.2)

def syncEnter (slot : Nat) (failed again : Bool) (s : MetadataSite) :
    MetadataSite × List MetadataStmt :=
  if s.wrapper.connected = false ∨ failed = true then (s, [])
  else
    ({ s with
        wrapper := { s.wrapper with completed := s.wrapper.completed.filter fun k => k ≠ slot }
        seq := s.seq + 1
        requested := Function.update s.requested slot s.seq
        listeners := s.listeners ++ [(slot, s.seq)]
        done := s.done.filter fun k => k ≠ slot
        outbox := s.outbox ++ [.sync s.seq]
        entered := Function.update s.entered slot s.epoch },
      [.syncWait slot again])

def syncWait (slot : Nat) (failed again : Bool) (s : MetadataSite) :
    MetadataSite × List MetadataStmt :=
  let t := { s with listeners := s.listeners.filter fun listener => listener.1 ≠ slot }
  if failed then (t, [])
  else if slot ∈ s.done then (t, [.syncIterate slot again])
  else (s, [.syncWait slot again])

/-- The statements of the wrapper, with their requests. -/
def exec (choice : MetadataChoice) :
    MetadataStmt → MetadataSite → MetadataSite × List MetadataStmt
  | .dispatch event, s => s.dispatch choice.result event
  | .startRegistry sync, s => s.startRegistry choice.result sync
  | .syncEnter again, s => s.syncEnter choice.slot choice.failed again
  | .syncWait slot again, s => s.syncWait slot choice.failed again
  | i, s =>
    ({ s with wrapper := (MetadataWrapper.exec choice i s.wrapper).1 },
      (MetadataWrapper.exec choice i s.wrapper).2)

end MetadataSite

/-- What the application may call while the core is connected. -/
inductive SiteCall
  | iterate
  | start
  | sync
  | stop
  | set (change : MetadataChange) (result : Int)
  | clear (result : Int)
  deriving DecidableEq

namespace MetadataSite

def call : SiteCall → MetadataSite → Option (MetadataSite × List MetadataStmt)
  | .iterate, s =>
    match s.wrapper.queue with
    | [] => none
    | .event event :: rest =>
      some ({ s with wrapper := { s.wrapper with queue := rest } }, [.dispatch event])
    | .completion slot :: rest =>
      some ({ s with
        wrapper := { s.wrapper with queue := rest, completed := slot :: s.wrapper.completed }
        later := Function.update s.later slot [] }, [])
  | .start, s => some (s, [.start false])
  | .sync, s => some (s, [.start true])
  | .stop, s => some (s, [.stop])
  | .set change result, s =>
    some (if s.wrapper.set result then
      { s with outbox := s.outbox ++ [.set s.wrapper.proxies change] } else s, [])
  | .clear result, s =>
    some (if (s.wrapper.clear result).2 then
      { s with
        wrapper := (s.wrapper.clear result).1
        outbox := s.outbox ++ [.clear s.wrapper.proxies]
        epoch := s.epoch + 1 } else s, [])

/-- The properties of an object. -/
def stored (id : UInt32) (s : MetadataSite) : MetadataStore :=
  ((s.globals.lookup id).map SiteGlobal.entries).getD ∅

/-- The server tells all proxies of an object. -/
def tell (id : UInt32) (changes : List MetadataChange) (s : MetadataSite) : List SiteMessage :=
  changes.flatMap fun change =>
    (s.bindings.filter fun binding => binding.2 = id).map fun binding => .property binding.1 change

def setStored (id : UInt32) (global : SiteGlobal) (entries : MetadataStore)
    (changes : List MetadataChange) (s : MetadataSite) : MetadataSite :=
  { s with
    globals := s.globals.insert id { global with entries := entries }
    inbox := s.inbox ++ s.tell id changes }

/-- Some client changes a property of an object. -/
def publish (id : UInt32) (change : MetadataChange) (s : MetadataSite) : Option MetadataSite :=
  (s.globals.lookup id).map fun global =>
    s.setStored id global (storeChange change global.entries) [change]

def announce (id : UInt32) (global : SiteGlobal) : MetadataCallback :=
  .global id global.permissions global.type global.version global.props

/-- The object that the events of a proxy come from. -/
def target (proxy : Nat) (s : MetadataSite) : Option UInt32 :=
  (s.bindings.find? fun binding => binding.1 = proxy).map Prod.snd

/-- The server handles a request. It may refuse to set or clear. For a clear, `subjects` is the
order in which it sends its events. -/
def handle (applied : Bool) (subjects : List UInt32) (s : MetadataSite) :
    SiteRequest → Option MetadataSite
  | .getRegistry registry =>
    some { s with
      registries := s.registries ++ [registry]
      inbox := s.inbox ++
        s.globals.entries.map fun item => .registry registry (announce item.1 item.2) }
  | .bind proxy id =>
    match s.globals.lookup id with
    | none => some s
    | some global =>
      some { s with
        bindings := s.bindings ++ [(proxy, id)]
        inbox := s.inbox ++ global.entries.entries.map fun item =>
          .property proxy ⟨item.1.1, some item.1.2, item.2.1, some item.2.2⟩ }
  | .sync seq =>
    some { s with
      inbox := s.inbox ++ [.done seq]
      snapshot := Function.update s.snapshot seq fun id => s.stored id }
  | .set proxy change =>
    if applied then
      match s.target proxy with
      | none => some s
      | some id => s.publish id change
    else some s
  | .clear proxy =>
    if applied then
      match s.target proxy with
      | none => some s
      | some id =>
        match s.globals.lookup id with
        | none => some s
        | some global =>
          if subjects.Perm (storeSubjects global.entries) then
            some (s.setStored id global ∅ (subjects.map MetadataMap.clearedSubject))
          else none
    else some s

/-- The PipeWire thread of the client receives a message. -/
def receive (name : CString) (s : MetadataSite) : SiteMessage → Option MetadataSite
  | .registry registry callback =>
    if s.wrapper.hasRegistry = true ∧ registry = s.registry then
      (s.wrapper.report name callback).map fun wrapper => { s with wrapper := wrapper }
    else some s
  | .property proxy change =>
    if s.wrapper.hasMetadata = true ∧ proxy = s.wrapper.proxies then
      (s.wrapper.report name (.property change)).map fun wrapper => { s with wrapper := wrapper }
    else some s
  | .done seq =>
    let slots := (s.listeners.filter fun listener => listener.2 = seq).map Prod.fst
    some { s with
      wrapper := { s.wrapper with
        queue := s.wrapper.queue ++ slots.map MetadataSource.completion }
      done := s.done ++ slots }

end MetadataSite

/-- What the server and the PipeWire thread do. -/
inductive SiteEvent
  | handle (applied : Bool) (subjects : List UInt32)
  | appear (id : UInt32) (global : SiteGlobal)
  | vanish (id : UInt32)
  | otherClient (id : UInt32) (change : MetadataChange)
  | receive

namespace MetadataSite

def environment (name : CString) : SiteEvent → MetadataSite → Option MetadataSite
  | .handle applied subjects, s =>
    match s.outbox with
    | [] => none
    | request :: rest => { s with outbox := rest }.handle applied subjects request
  | .appear id global, s =>
    if id ∈ s.globals then none
    else some { s with
      globals := s.globals.insert id global
      inbox := s.inbox ++ s.registries.map fun registry => .registry registry (announce id global) }
  | .vanish id, s =>
    if id ∈ s.globals then
      some { s with
        globals := s.globals.erase id
        bindings := s.bindings.filter fun binding => binding.2 ≠ id
        inbox := s.inbox ++ s.registries.map fun registry => .registry registry (.globalRemove id) }
    else none
  | .otherClient id change, s => s.publish id change
  | .receive, s =>
    match s.inbox with
    | [] => none
    | message :: rest => { s with inbox := rest }.receive name message

end MetadataSite

def metadataSite (name : CString) :
    Component MetadataSite MetadataStmt SiteCall MetadataChoice SiteEvent where
  exec := MetadataSite.exec
  emission := MetadataStmt.emission
  call := MetadataSite.call
  environment := MetadataSite.environment name

end PipewireGobject
