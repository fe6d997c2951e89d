import PipewireGobject.MainContext
import PipewireGobject.Registry
import PipewireGobject.Wrapper

namespace PipewireGobject

/-- The callbacks of the five kinds of wrappers. Of an info, the flags tell whether it
carries a state and parameters; of a property and a parameter, nothing is looked at. -/
inductive PipewireCallback
  | global (id : UInt32) (type : Option CString) (props : Option SpaDict)
  | globalRemove (id : UInt32)
  | property
  | info (info : Option (Bool × Bool))
  | param (present : Bool)
  deriving DecidableEq

def interfaceMetadata : CString := "PipeWire:Interface:Metadata".toUTF8.data.toList

def keyMetadataName : CString := "metadata.name".toUTF8.data.toList

def metadataLookupSpaDict (dict : Option SpaDict) (key : CString) : Option CString :=
  ((dict.getD []).find? fun item => item.1 = some key).bind fun item => item.2

/-- What a wrapper compares its callbacks with: the name of a metadata, or the id of a node,
device or link. -/
structure WrapperTarget where
  name : CString
  id : UInt32

def registryEvent : PipewireCallback → Option WrapperEvent
  | .global _ _ _ | .globalRemove _ => some .changed
  | _ => none

def metadataEvent (target : WrapperTarget) : PipewireCallback → Option WrapperEvent
  | .global id type props =>
    if type ≠ some interfaceMetadata then none
    else if metadataLookupSpaDict props keyMetadataName ≠ some target.name then none
    else some (.found id)
  | .globalRemove id => some (.removed id)
  | .property => some .changed
  | _ => none

/-- What the callbacks of nodes, devices and links share: `relevant` are the flags of an
info that make it an event. -/
def objectEvent (relevant : Bool × Bool → Bool) (target : WrapperTarget) :
    PipewireCallback → Option WrapperEvent
  | .info info => if info.any relevant then some .changed else none
  | .param present => if present then some .changed else none
  | .globalRemove id => if id ≠ target.id then none else some (.removed id)
  | _ => none

def nodeEvent : WrapperTarget → PipewireCallback → Option WrapperEvent :=
  objectEvent fun info => info.1 || info.2

def deviceEvent : WrapperTarget → PipewireCallback → Option WrapperEvent :=
  objectEvent fun info => info.2

/-- A link has no callback for parameters. -/
def linkEvent (target : WrapperTarget) : PipewireCallback → Option WrapperEvent
  | .param _ => none
  | callback => objectEvent (fun info => info.1) target callback

def wrapperEvent : WrapperKind → WrapperTarget → PipewireCallback → Option WrapperEvent
  | .registry => fun _ => registryEvent
  | .metadata => metadataEvent
  | .node => nodeEvent
  | .device => deviceEvent
  | .link => linkEvent

/-- An event in the context, with its wrapper and the generation of that moment. -/
structure WrapperSource (ω : Type) where
  wrapper : ω
  event : WrapperEvent
  generation : UInt32
  deriving DecidableEq

variable {ω : Type} [DecidableEq ω]

/-- The wrappers of a core and their main context. Whatever the application does to them
besides handling events, it does as a step of its own, with any outcome. -/
def wrapperDispatcher (S : WrapperSet ω) (target : ω → WrapperTarget) :
    Dispatcher (Wrappers ω) (WrapperStmt ω) (WrapperSource ω) (ω × PipewireCallback) (Wrappers ω)
      PipewireResult where
  callback c s := (wrapperEvent (S.kind c.1) (target c.1) c.2).map fun event =>
    ⟨c.1, event, (s.wrapper c.1).generation⟩
  dispatch result source s :=
    dispatchEvent (S.kind source.wrapper) result source.wrapper source.event source.generation s
  exec result i s := wrapperExec S result i s
  handlers i := i = .handlers
  application outcome _ := outcome

variable {S : WrapperSet ω} {target : ω → WrapperTarget} {s : Wrappers ω}

theorem wrapperDispatch_onMain {r : DispatchRun (Wrappers ω) (WrapperStmt ω) (WrapperSource ω)}
    (h : Reach (wrapperDispatcher S target).step (wrapperDispatcher S target).OwnedByMain
      { state := s } r) : Dispatcher.OnMain r :=
  (wrapperDispatcher S target).reach_onMain h

def loneRegistry : WrapperSet Unit where
  kind _ := .registry
  order := [()]
  complete _ := List.mem_singleton.mpr rfl

abbrev LoneLabel :=
  DispatchLabel (Unit × PipewireCallback) (Wrappers Unit) PipewireResult

/-- The registry is running. -/
def loneStarted : LoneLabel := .application { wrapper := fun _ => { running := true } }

def loneDispatcher := wrapperDispatcher loneRegistry fun _ => ⟨[], 0⟩

/-- A global is removed while the main thread iterates the context. -/
def removedIterating : DispatchRun (Wrappers Unit) (WrapperStmt Unit) (WrapperSource Unit) :=
  final loneDispatcher.step { state := {} }
    [loneStarted, .beginIteration, .callback ((), .globalRemove 7) .succeeded,
      .dispatch .succeeded, .run .succeeded, .endIteration]

/-- A global is removed while it does not. -/
def removedBlocked : DispatchRun (Wrappers Unit) (WrapperStmt Unit) (WrapperSource Unit) :=
  final loneDispatcher.step { state := {} }
    [loneStarted, .callback ((), .globalRemove 7) .succeeded]

theorem wrapperDispatch_onMain_removedIterating :
    removedIterating.executed = [(.main, ⟨(), .changed, 0⟩)] ∧
      Dispatcher.OnMain removedIterating :=
  ⟨by decide +kernel,
    wrapperDispatch_onMain (r := removedIterating) (S := loneRegistry) (s := {})
      (reach_final (by decide +kernel))⟩

theorem wrapperDispatch_onMain_fails :
    Reach loneDispatcher.step anyStep { state := {} } removedBlocked ∧
      ¬ Dispatcher.OnMain removedBlocked := by
  refine ⟨reach_final (allAllowed_anyStep _ _), fun h => ?_⟩
  -- the handlers of the signal run on the other thread
  have main := h.executed (.foreign, ⟨(), .changed, 0⟩) (by decide +kernel)
  cases main

end PipewireGobject
