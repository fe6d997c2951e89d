import Mathlib.Logic.Function.Basic
import PipewireGobject.Custody
import PipewireGobject.FlatTable
import PipewireGobject.ObjectWrapper
import PipewireGobject.StreamCapture

namespace PipewireGobject

def text (s : String) : CString := s.toUTF8.data.toList

/-- The codes of `PWG_ERROR`. -/
inductive PwgErrorCode
  | failed
  | noMemory
  | pipewire
  deriving DecidableEq

structure PwgError where
  code : PwgErrorCode
  message : CString
  deriving DecidableEq

/-- The object that a handle is made for: cores, streams and wrappers are numbered. -/
inductive HandleOwner
  | core (core : Nat)
  | stream (stream : Nat)
  | object (object : Nat)
  deriving DecidableEq

/-- The fields that hold handles; `object` is the `node`, `device` or `link` of a wrapper. -/
inductive HandleKind
  | threadLoop
  | context
  | core
  | stream
  | registry
  | object
  deriving DecidableEq

/-- What a handle is made from. -/
def HandleKind.parent : HandleKind → Option HandleKind
  | .threadLoop => none
  | .context => some .threadLoop
  | .core => some .context
  | .stream | .registry | .object => some .core

def HandleKind.isProxy : HandleKind → Bool
  | .registry | .object => true
  | _ => false

/-- The fields that an object has. -/
def HandleOwner.kinds : HandleOwner → List HandleKind
  | .core _ => [.threadLoop, .context, .core]
  | .stream _ => [.threadLoop, .context, .core, .stream]
  | .object _ => [.registry, .object]

/-- Handles are numbered as they are made; `loop` is the number of the thread loop that it
lives on. -/
structure Handle where
  owner : HandleOwner
  kind : HandleKind
  serial : Nat
  loop : Nat
  deriving DecidableEq

def Handle.IsProxy (h : Handle) : Prop := h.kind.isProxy = true

/-- The signals of a stream. -/
inductive StreamSignal
  | notify (property : StreamProperty)
  | level (peak : Magnitude)
  | audioBlock (block : PendingBlock)
  deriving DecidableEq

inductive Notice
  | core (core : Nat)
  | stream (stream : Nat) (signal : StreamSignal)
  | object (object : Nat) (signal : ObjectSignal)
  deriving DecidableEq

inductive AudioChannel
  | mono
  | frontLeft
  | frontRight
  deriving DecidableEq

/-- What the PipeWire calls inside an operation return: whether there is a result, or the
number that is returned. -/
structure PipewireResults where
  threadLoopNew : Bool := true
  contextNew : Bool := true
  propertiesNew : Bool := true
  propertiesSet : CString → CString → Int := fun _ _ => 0
  contextConnect : Option (Table CString CString) → Bool := fun _ => true
  streamNew : Table CString CString → Bool := fun _ => true
  streamConnect : SpaAudioFormat → UInt32 → UInt32 → List AudioChannel → Int := fun _ _ _ _ => 0
  threadLoopStart : Int := 0
  coreGetRegistry : Bool := true
  registryBind : UInt32 → CString → UInt32 → Bool := fun _ _ _ => true
  addListener : Int := 0
  strerror : Int → CString := fun _ => []

/-- `handlers` lists the wrappers whose handlers of `notify::connected` are connected. -/
structure PwgCore where
  connected : Bool := false
  pipewireProperties : Table CString CString := ∅
  handlers : List Nat := []

/-- `PWG_STREAM_DEFAULT_SAMPLE_FORMAT` -/
def streamDefaultSampleFormat : CString := text "F32"

structure PwgStream extends Stream where
  targetObject : Option CString := none
  monitor : Bool := false
  pipewireProperties : Table CString CString := ∅
  requestedSampleFormat : CString := streamDefaultSampleFormat
  requestedRate : UInt32 := 48000
  requestedChannels : UInt32 := 2

/-- A `PwgNode`, `PwgDevice` or `PwgLink`. -/
structure PwgObject where
  kind : ObjectKind := .node
  core : Option Nat := none
  global : Option Global := none
  running : Bool := false
  bound : Bool := false
  state : Option CString := none
  error : Option CString := none
  paramInfos : List ParamInfo := []
  params : List Param := []
  generation : UInt32 := 0
  hasRegistryListener : Bool := false
  hasObjectListener : Bool := false

/-- All cores, streams and wrappers of a program with the handles in their fields, and the
history of the handles and the signals; `objectCount` wrappers have been made. -/
structure Program where
  cores : Nat → PwgCore := fun _ => {}
  streams : Nat → PwgStream := fun _ => {}
  objects : Nat → PwgObject := fun _ => {}
  objectCount : Nat := 0
  handle : HandleOwner → HandleKind → Option Handle := fun _ _ => none
  next : Nat := 0
  custody : List (CustodyEvent Handle Nat) := []
  notices : List Notice := []

namespace Program

def setCore (k : Nat) (f : PwgCore → PwgCore) (s : Program) : Program :=
  { s with cores := Function.update s.cores k (f (s.cores k)) }

def setStream (j : Nat) (f : PwgStream → PwgStream) (s : Program) : Program :=
  { s with streams := Function.update s.streams j (f (s.streams j)) }

def setObject (i : Nat) (f : PwgObject → PwgObject) (s : Program) : Program :=
  { s with objects := Function.update s.objects i (f (s.objects i)) }

def setHandle (owner : HandleOwner) (kind : HandleKind) (h : Option Handle) (s : Program) :
    Program :=
  { s with
    handle := Function.update s.handle owner (Function.update (s.handle owner) kind h) }

def record (events : List (CustodyEvent Handle Nat)) (s : Program) : Program :=
  { s with custody := s.custody ++ events }

def notify (notices : List Notice) (s : Program) : Program :=
  { s with notices := s.notices ++ notices }

/-- The handle that is made next. -/
def fresh (owner : HandleOwner) (kind : HandleKind) (parent : Option Handle) (s : Program) :
    Handle where
  owner := owner
  kind := kind
  serial := s.next
  loop := parent.elim s.next Handle.loop

/-- Make a handle and store it in the field, which becomes `NULL` if that fails. -/
def make (owner : HandleOwner) (kind : HandleKind) (parent : Option Handle) (succeeds : Bool)
    (s : Program) : Program :=
  if succeeds then
    { s.setHandle owner kind (some (s.fresh owner kind parent)) with
      next := s.next + 1
      custody := s.custody ++ [.created (s.fresh owner kind parent) parent] }
  else s.setHandle owner kind none

/-- Destroy what the field holds, if anything, and set the field to `NULL`. -/
def destroy (owner : HandleOwner) (kind : HandleKind) (s : Program) : Program :=
  match s.handle owner kind with
  | none => s
  | some h => (s.record [.destroyed h]).setHandle owner kind none

/-- The proxies of a core that are left. -/
def proxies (core : Handle) (s : Program) : List Handle :=
  s.custody.filterMap fun event =>
    match event with
    | .created h parent =>
      if parent = some core ∧ h.kind.isProxy = true ∧ .destroyed h ∉ s.custody then some h
      else none
    | _ => none

/-- `pw_core_disconnect`, which destroys the proxies that are left, and the field that is set
to `NULL`. -/
def disconnectCore (owner : HandleOwner) (s : Program) : Program :=
  match s.handle owner .core with
  | none => s
  | some core =>
    (s.record ((s.proxies core).map .destroyed ++ [.destroyed core])).setHandle owner .core none

/-- `pw_thread_loop_start`, where it succeeds. -/
def startLoop (owner : HandleOwner) (s : Program) : Program :=
  s.record ((s.handle owner .threadLoop).toList.map fun loop => .started loop.loop)

def stopLoop (owner : HandleOwner) (s : Program) : Program :=
  s.record ((s.handle owner .threadLoop).toList.map fun loop => .stopped loop.loop)

def lock (loop : Option Handle) (s : Program) : Program :=
  s.record (loop.toList.map fun loop => .locked loop.loop)

def unlock (loop : Option Handle) (s : Program) : Program :=
  s.record (loop.toList.map fun loop => .unlocked loop.loop)

/-- What `pwg_core_disconnect` and `pwg_stream_stop` do last with their handles. -/
def closeConnection (owner : HandleOwner) (s : Program) : Program :=
  let s := s.disconnectCore owner
  let s := s.destroy owner .context
  s.destroy owner .threadLoop

end Program

end PipewireGobject
