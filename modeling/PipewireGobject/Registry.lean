import PipewireGobject.MainContext

namespace PipewireGobject

/-- The bytes of a string up to its NUL. -/
abbrev CString := List UInt8

abbrev SpaDict := List (Option CString × Option CString)

structure Global where
  id : UInt32
  permissions : UInt32
  interfaceType : Option CString
  version : UInt32
  properties : List (CString × CString)
  deriving DecidableEq

/-- The entries of the variant. `g_variant_builder_add` is undefined for a key or a value that is
not UTF-8: there GLib promises no copy, and the entry stands for the bytes that it was given
(`globalVariantFromSpaDictStrict` has no result there). -/
def globalVariantFromSpaDict (dict : Option SpaDict) : List (CString × CString) :=
  (dict.getD []).filterMap fun item => item.1.bind fun key => item.2.map fun value => (key, value)

def globalNewFromSpaDict (id permissions : UInt32) (interfaceType : Option CString)
    (version : UInt32) (properties : Option SpaDict) : Global :=
  ⟨id, permissions, interfaceType, version, globalVariantFromSpaDict properties⟩

/-- The part of a `PwgRegistryEvent` that its type selects. -/
inductive RegistryChange
  | globalAdded (global : Global)
  | globalRemoved (id : UInt32)
  deriving DecidableEq

structure RegistryEvent where
  generation : UInt32
  change : RegistryChange
  deriving DecidableEq

/-- The callbacks of `pw_registry_events`. -/
inductive RegistryCallback
  | global (id permissions : UInt32) (type : Option CString) (version : UInt32)
    (props : Option SpaDict)
  | globalRemove (id : UInt32)
  deriving DecidableEq

structure Registry where
  running : Bool := false
  generation : UInt32 := 0
  globals : List Global := []
  deriving DecidableEq

/-- What is left to run of `pwg_registry_dispatch_event`. -/
inductive RegistryStmt
  | handlers
  | append (global : Global)
  deriving DecidableEq

def registryFindGlobal (globals : List Global) (id : UInt32) : Option Nat :=
  globals.findIdx? fun global => global.id = id

def registryDispatchEvent (event : RegistryEvent) (s : Registry) :
    Registry × List RegistryStmt :=
  if s.running = false ∨ event.generation ≠ s.generation then (s, [])
  else
    match event.change with
    | .globalAdded global =>
      match registryFindGlobal s.globals global.id with
      | some position =>
        -- the handlers of items-changed run before the new global is in the list
        ({ s with globals := s.globals.eraseIdx position }, [.handlers, .append global])
      | none => (s, [.append global])
    | .globalRemoved id =>
      match registryFindGlobal s.globals id with
      | some position =>
        ({ s with globals := s.globals.eraseIdx position }, [.handlers, .handlers])
      | none => (s, [])

def registryExec : RegistryStmt → Registry → Registry × List RegistryStmt
  | .handlers, s => (s, [])
  | .append global, s => ({ s with globals := s.globals ++ [global] }, [.handlers, .handlers])

def registryQueueEvent (change : RegistryChange) (s : Registry) : RegistryEvent :=
  ⟨s.generation, change⟩

/-- `pwg_registry_on_global` and `pwg_registry_on_global_remove` up to the queueing. -/
def registryCallback : RegistryCallback → RegistryChange
  | .global id permissions type version props =>
    .globalAdded (globalNewFromSpaDict id permissions type version props)
  | .globalRemove id => .globalRemoved id

def registryDispatcher :
    Dispatcher Registry RegistryStmt RegistryEvent RegistryCallback Empty Unit where
  callback event s := some (registryQueueEvent (registryCallback event) s)
  dispatch _ event s := registryDispatchEvent event s
  exec _ i s := registryExec i s
  handlers i := i = .handlers
  application operation _ := nomatch operation

/-- A session has just begun. -/
def registryStarted (generation : UInt32) : DispatchRun Registry RegistryStmt RegistryEvent :=
  { state := ⟨true, generation, []⟩ }

end PipewireGobject
