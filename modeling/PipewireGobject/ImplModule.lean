import Mathlib.Logic.Function.Basic
import Mathlib.Data.List.Induction
import Mathlib.Data.List.Nodup
import PipewireGobject.Reentrant
import PipewireGobject.History

namespace PipewireGobject

/-- The fields of a `PwgImplModule`; modules are numbered as they are loaded, and the
handle of a module has its number. -/
structure ModuleHandle where
  module : Option Nat
  loaded : Bool
  hasModuleListener : Bool
  deriving DecidableEq

/-- What is applied to modules, in order. -/
inductive ModuleEvent
  | listenerAdded (module : Nat)
  | hookRemoved (module : Nat)
  | destroyed (module : Nat)
  | notifiedLoaded (module : Nat)
  | unloadReturned (module : Nat)
  deriving DecidableEq

/-- `up` says that the core has a thread loop and a context, `thread` that the loop runs;
`live` lists the modules of the context, and `listening` says that the listener of a
handle is registered on its module. -/
structure Modules where
  up : Bool := false
  thread : Bool := false
  locked : Bool := false
  live : List Nat := []
  next : Nat := 0
  listening : Nat → Bool := fun _ => false
  handle : Nat → Option ModuleHandle := fun _ => none
  log : List ModuleEvent := []

/-- What is left to run of `pwg_core_load_module`, `pwg_impl_module_unload`, the release
of a handle (`dropped`) and `pwg_core_disconnect`. -/
inductive ModuleStmt
  | load (name : String)
  | loadLock
  | loadModule
  | loadUnlock (module : Option Nat)
  | handleInit (module : Nat)
  | addListener (module : Nat)
  | listenerSet (module : Nat)
  | unload (module : Nat) (dropped : Bool)
  | unloadForget (module : Nat) (dropped : Bool)
  | unloadHook (module : Nat) (wasLoaded dropped : Bool)
  | hookRemove (module : Nat) (wasLoaded dropped : Bool)
  | hookUnset (module : Nat) (wasLoaded dropped : Bool)
  | unloadLock (module : Nat) (wasLoaded dropped : Bool)
  | moduleDestroy (module : Nat) (wasLoaded dropped : Bool)
  | unloadUnlock (module : Nat) (wasLoaded dropped : Bool)
  | unloadReturn (module : Nat) (dropped : Bool)
  | loopStop
  | contextDestroy
  deriving DecidableEq

/-- Whether connecting and loading succeed. -/
structure LoadOutcome where
  connects : Bool
  loads : Bool
  deriving DecidableEq

def Modules.record (s : Modules) (event : ModuleEvent) : Modules :=
  { s with log := s.log ++ [event] }

def Modules.setHandle (s : Modules) (m : Nat) (handle : Option ModuleHandle) : Modules :=
  { s with handle := Function.update s.handle m handle }

def Modules.setListening (s : Modules) (m : Nat) (listening : Bool) : Modules :=
  { s with listening := Function.update s.listening m listening }

/-- `pwg_impl_module_on_free`, called with the handle of module `m`. -/
def implModuleOnFree (m : Nat) (s : Modules) : Modules :=
  match s.handle m with
  | none => s
  | some h =>
    let t := s.setHandle m (some ⟨none, false, false⟩)
    if h.loaded then t.record (.notifiedLoaded m) else t

/-- `pw_impl_module_destroy`: the free event goes to a listener that is registered. -/
def destroyModule (m : Nat) (s : Modules) : Modules :=
  let t := { s.setListening m false with
    live := s.live.erase m
    log := s.log ++ [.destroyed m] }
  if s.listening m then implModuleOnFree m t else t

def moduleExec (outcome : LoadOutcome) : ModuleStmt → Modules → Modules × List ModuleStmt
  | .load name, s =>
    if name = "" then (s, [])
    else if s.up then (s, [.loadLock])
    else if outcome.connects then ({ s with up := true, thread := true }, [.loadLock])
    else (s, [])
  | .loadLock, s => ({ s with locked := true }, [.loadModule])
  | .loadModule, s =>
    if outcome.loads then
      ({ s with live := s.live ++ [s.next], next := s.next + 1 }, [.loadUnlock (some s.next)])
    else (s, [.loadUnlock none])
  | .loadUnlock none, s => ({ s with locked := false }, [])
  | .loadUnlock (some m), s => ({ s with locked := false }, [.handleInit m])
  | .handleInit m, s => (s.setHandle m (some ⟨some m, true, false⟩), [.addListener m])
  | .addListener m, s =>
    -- a module that is gone has no list of listeners left to join
    ((s.setListening m (m ∈ s.live)).record (.listenerAdded m), [.listenerSet m])
  | .listenerSet m, s =>
    (s.setHandle m ((s.handle m).map fun h => { h with hasModuleListener := true }), [])
  | .unload m dropped, s =>
    if (s.handle m).bind ModuleHandle.module = none then (s, [.unloadReturn m dropped])
    else (s, [.unloadForget m dropped])
  | .unloadForget m dropped, s =>
    (s.setHandle m ((s.handle m).map fun h => { h with module := none, loaded := false }),
      [.unloadHook m ((s.handle m).any ModuleHandle.loaded) dropped])
  | .unloadHook m wasLoaded dropped, s =>
    if (s.handle m).any ModuleHandle.hasModuleListener then
      (s, [.hookRemove m wasLoaded dropped])
    else (s, [.unloadLock m wasLoaded dropped])
  | .hookRemove m wasLoaded dropped, s =>
    ((s.setListening m false).record (.hookRemoved m), [.hookUnset m wasLoaded dropped])
  | .hookUnset m wasLoaded dropped, s =>
    (s.setHandle m ((s.handle m).map fun h => { h with hasModuleListener := false }),
      [.unloadLock m wasLoaded dropped])
  | .unloadLock m wasLoaded dropped, s =>
    ({ s with locked := s.up }, [.moduleDestroy m wasLoaded dropped])
  | .moduleDestroy m wasLoaded dropped, s =>
    (destroyModule m s, [.unloadUnlock m wasLoaded dropped])
  | .unloadUnlock m wasLoaded dropped, s =>
    let t := { s with locked := false }
    (if wasLoaded then t.record (.notifiedLoaded m) else t, [.unloadReturn m dropped])
  | .unloadReturn m dropped, s =>
    let t := s.record (.unloadReturned m)
    (if dropped then t.setHandle m none else t, [])
  | .loopStop, s => ({ s with thread := false }, [.contextDestroy])
  | .contextDestroy, s =>
    match s.live with
    | [] => ({ s with up := false }, [])
    | m :: _ => (destroyModule m s, [.contextDestroy])

inductive ModuleCall
  | loadModule (name : String)
  | unload (module : Nat)
  | drop (module : Nat)
  | disconnect
  deriving DecidableEq

def moduleCall : ModuleCall → Modules → Option (Modules × List ModuleStmt)
  | .loadModule name, s => some (s, [.load name])
  | .unload m, s => (s.handle m).map fun _ => (s, [.unload m false])
  | .drop m, s => (s.handle m).map fun _ => (s, [.unload m true])
  | .disconnect, s => some (s, [.loopStop])

/-- The PipeWire thread destroys a module by itself, where the lock is free. -/
def moduleEnvironment (m : Nat) (s : Modules) : Option Modules :=
  if s.thread ∧ ¬s.locked ∧ m ∈ s.live then some (destroyModule m s) else none

/-- Handlers call none of the operations. -/
def moduleComponent : Component Modules ModuleStmt ModuleCall LoadOutcome Nat where
  exec := moduleExec
  emission _ := false
  call := moduleCall
  environment := moduleEnvironment

def moduleInit : Config Modules ModuleStmt := ⟨{}, []⟩

abbrev ModuleRule := Config Modules ModuleStmt → Label ModuleCall LoadOutcome Nat → Prop

/-- The module that a statement is about to use without the lock and without its free
event: it is loaded and no listener is registered, or its handle has let go of it. -/
def ModuleStmt.exposed : ModuleStmt → Option Nat
  | .handleInit m | .addListener m | .unloadForget m _ | .unloadHook m _ _ | .hookRemove m _ _
  | .hookUnset m _ _ | .unloadLock m _ _ => some m
  | _ => none

def destroyedModule : Label ModuleCall LoadOutcome Nat → Option Nat
  | .environment m => some m
  | _ => none

/-- The PipeWire thread destroys no module inside those windows. -/
def OutsideWindows : ModuleRule := fun c label =>
  ∀ m ∈ destroyedModule label, c.code.head?.bind ModuleStmt.exposed ≠ some m

instance (c : Config Modules ModuleStmt) (label : Label ModuleCall LoadOutcome Nat) :
    Decidable (OutsideWindows c label) :=
  inferInstanceAs (Decidable (∀ m ∈ destroyedModule label, _))

/-- What is applied to a module is applied before its destruction. -/
def ModuleEvent.uses : ModuleEvent → Option Nat
  | .listenerAdded m | .hookRemoved m | .destroyed m => some m
  | _ => none

def UsesLive (before : List ModuleEvent) (event : ModuleEvent) : Prop :=
  ∀ m, event.uses = some m → .destroyed m ∉ before

namespace Modules

/-- There is no handle of the module, and no module. -/
def Absent (s : Modules) (m : Nat) : Prop :=
  s.handle m = none ∧ m ∉ s.live ∧ s.listening m = false

def Loaded (s : Modules) (m : Nat) : Prop :=
  (∃ l, s.handle m = some ⟨some m, true, l⟩) ∧ m ∈ s.live ∧ s.listening m = true

def Gone (s : Modules) (m : Nat) : Prop :=
  (∃ l, s.handle m = some ⟨none, false, l⟩) ∧ m ∉ s.live ∧ s.listening m = false

def Settled (s : Modules) (m : Nat) : Prop := s.Absent m ∨ s.Loaded m ∨ s.Gone m

/-- Loaded, and no handle yet. -/
def Fresh (s : Modules) (m : Nat) : Prop :=
  s.handle m = none ∧ m ∈ s.live ∧ s.listening m = false

/-- The handle does not listen yet. -/
def Attaching (s : Modules) (m : Nat) : Prop :=
  (∃ l, s.handle m = some ⟨some m, true, l⟩) ∧ m ∈ s.live ∧ s.listening m = false

/-- The handle has let go of a module that is still there. -/
def Leaving (s : Modules) (m : Nat) : Prop :=
  (∃ l, s.handle m = some ⟨none, false, l⟩) ∧ m ∈ s.live

end Modules

/-- What a statement needs to find. -/
def ModuleStmt.Ready (s : Modules) : ModuleStmt → Prop
  | .loadModule => s.locked = true ∧ s.up = true
  | .loadLock => s.up = true
  | .loadUnlock (some m) => s.locked = true ∧ s.Fresh m
  | .handleInit m => s.Fresh m
  | .addListener m => s.Attaching m
  | .listenerSet m => s.Loaded m ∨ s.Gone m
  | .unload m _ => s.Loaded m ∨ s.Gone m
  | .unloadForget m _ => s.Loaded m
  | .unloadHook m _ _ | .hookRemove m _ _ | .hookUnset m _ _ | .unloadLock m _ _ => s.Leaving m
  | .moduleDestroy m _ _ => s.locked = true ∧ s.Leaving m
  | .unloadUnlock m _ _ | .unloadReturn m _ => s.Gone m
  | .contextDestroy => s.thread = false
  | _ => True

/-- The module that is not settled while the statement is next. -/
def ModuleStmt.subject : ModuleStmt → Option Nat
  | .loadUnlock m => m
  | .handleInit m | .addListener m | .unloadHook m _ _ | .hookRemove m _ _ | .hookUnset m _ _
  | .unloadLock m _ _ | .moduleDestroy m _ _ => some m
  | _ => none

structure ModulesInv (s : Modules) (code : List ModuleStmt) : Prop where
  single : code.length ≤ 1
  nodup : s.live.Nodup
  created : ∀ m, s.next ≤ m → s.Absent m
  destroyed : ∀ m, .destroyed m ∈ s.log ↔ m < s.next ∧ m ∉ s.live
  returned : ∀ m, .unloadReturned m ∈ s.log → m < s.next ∧ m ∉ s.live
  justified : Justified UsesLive s.log
  down : s.up = false → s.live = []
  running : s.thread = true → s.up = true
  ready : ∀ i ∈ code, i.Ready s
  settled : ∀ m, (∀ i ∈ code, i.subject ≠ some m) → s.Settled m

variable {s t : Modules} {code rest : List ModuleStmt} {i : ModuleStmt} {m k : Nat}
  {outcome : LoadOutcome}

/-- The two states agree on a module. -/
structure SameModule (s t : Modules) (m : Nat) : Prop where
  handle : t.handle m = s.handle m
  listening : t.listening m = s.listening m
  live : m ∈ t.live ↔ m ∈ s.live

theorem SameModule.absent (h : SameModule s t m) (ha : s.Absent m) : t.Absent m := by
  simpa only [Modules.Absent, h.handle, h.listening, h.live] using ha

theorem SameModule.settled (h : SameModule s t m) (hs : s.Settled m) : t.Settled m := by
  simpa only [Modules.Settled, Modules.Absent, Modules.Loaded, Modules.Gone, h.handle,
    h.listening, h.live] using hs

/-- Events that may be recorded: they neither destroy a module nor touch one that is gone. -/
def ModuleEvent.Harmless (s : Modules) : ModuleEvent → Prop
  | .listenerAdded m | .hookRemoved m => m ∈ s.live
  | .destroyed _ => False
  | .notifiedLoaded _ => True
  | .unloadReturned m => m < s.next ∧ m ∉ s.live

theorem usesLive_append {log events : List ModuleEvent} (h : Justified UsesLive log)
    (quiet : ∀ e ∈ events, (∀ m, e ≠ .destroyed m) ∧ ∀ m, e.uses = some m → .destroyed m ∉ log) :
    Justified UsesLive (log ++ events) := by
  induction events generalizing log with
  | nil => simpa using h
  | cons e events ih =>
    obtain ⟨first, later⟩ := List.forall_mem_cons.mp quiet
    rw [List.append_cons]
    refine ih (justified_concat.mpr ⟨h, first.2⟩) ?_
    intro x hx
    refine ⟨(later x hx).1, fun m hm hd => ?_⟩
    rcases List.mem_append.mp hd with hd | hd
    · exact (later x hx).2 m hm hd
    · exact first.1 m (List.mem_singleton.mp hd).symm

theorem harmless_quiet {e : ModuleEvent} (h : ModulesInv s code) (he : e.Harmless s) :
    (∀ m, e ≠ .destroyed m) ∧ ∀ m, e.uses = some m → .destroyed m ∉ s.log := by
  cases e with
  | listenerAdded n | hookRemoved n =>
    refine ⟨by simp, fun m hm hd => ?_⟩
    cases hm
    exact ((h.destroyed n).mp hd).2 he
  | destroyed n => exact he.elim
  | notifiedLoaded n | unloadReturned n => exact ⟨by simp, by simp [ModuleEvent.uses]⟩

/-- A step that neither creates nor destroys a module and touches the handle of one at most. -/
theorem ModulesInv.about {code' : List ModuleStmt} {events : List ModuleEvent}
    (h : ModulesInv s (i :: rest)) (k : Nat) (single : code'.length ≤ 1)
    (lists : t.live = s.live ∧ t.next = s.next)
    (log : t.log = s.log ++ events) (harmless : ∀ e ∈ events, e.Harmless s)
    (flags : (t.up = false → t.live = []) ∧ (t.thread = true → t.up = true))
    (others : ∀ m, m ≠ k → t.handle m = s.handle m ∧ t.listening m = s.listening m)
    (subject : ∀ m, i.subject = some m → m = k) (known : s.next ≤ k → t.Absent k)
    (ready : ∀ j ∈ code', j.Ready t)
    (settled : (∀ j ∈ code', j.subject ≠ some k) → t.Settled k) : ModulesInv t code' := by
  have rest_nil : rest = [] := by simpa using h.single
  have same : ∀ m, m ≠ k → SameModule s t m := fun m hm =>
    ⟨(others m hm).1, (others m hm).2, by rw [lists.1]⟩
  exact {
    single := single
    nodup := by
      rw [lists.1]
      exact h.nodup
    created := fun m hm => by
      rw [lists.2] at hm
      by_cases hk : m = k
      · rw [hk] at hm ⊢
        exact known hm
      · exact (same m hk).absent (h.created m hm)
    destroyed := fun m => by
      rw [log, lists.1, lists.2, ← h.destroyed m, List.mem_append]
      refine or_iff_left fun hm => ?_
      exact (harmless_quiet h (harmless _ hm)).1 m rfl
    returned := fun m hm => by
      rw [lists.1, lists.2]
      rw [log] at hm
      rcases List.mem_append.mp hm with hm | hm
      · exact h.returned m hm
      · exact harmless _ hm
    justified := by
      rw [log]
      exact usesLive_append h.justified fun e he => harmless_quiet h (harmless e he)
    down := flags.1
    running := flags.2
    ready := ready
    settled := fun m hm => by
      by_cases hk : m = k
      · subst hk
        exact settled hm
      · refine (same m hk).settled (h.settled m ?_)
        rw [rest_nil]
        intro j hj hs
        rw [List.mem_singleton.mp hj] at hs
        exact hk (subject m hs) }

/-- The modules of live handles and statements have been created. -/
theorem ModulesInv.live_lt (h : ModulesInv s code) (hm : m ∈ s.live) : m < s.next := by
  by_contra hn
  exact (h.created m (by omega)).2.1 hm

theorem ModulesInv.handle_lt (h : ModulesInv s code) (hm : s.handle m ≠ none) : m < s.next := by
  by_contra hn
  exact hm (h.created m (by omega)).1

/-- A step about a module that leaves the flags alone. -/
theorem ModulesInv.focus {code' : List ModuleStmt} {events : List ModuleEvent}
    (h : ModulesInv s (i :: rest)) (k : Nat) (single : code'.length ≤ 1)
    (lists : t.live = s.live ∧ t.next = s.next) (log : t.log = s.log ++ events)
    (harmless : ∀ e ∈ events, e.Harmless s) (flags : t.up = s.up ∧ t.thread = s.thread)
    (others : ∀ m, m ≠ k → t.handle m = s.handle m ∧ t.listening m = s.listening m)
    (subject : ∀ m, i.subject = some m → m = k) (known : k < s.next)
    (ready : ∀ j ∈ code', j.Ready t)
    (settled : (∀ j ∈ code', j.subject ≠ some k) → t.Settled k) : ModulesInv t code' := by
  refine h.about k single lists log harmless ⟨?_, ?_⟩ others subject ?_ ready settled
  · rw [flags.1, lists.1]
    exact h.down
  · rw [flags.1, flags.2]
    exact h.running
  · intro hk
    omega

theorem ModulesInv.setsHandle {code' : List ModuleStmt} (h : ModulesInv s (i :: rest))
    (handle : Option ModuleHandle) (single : code'.length ≤ 1)
    (subject : ∀ k, i.subject = some k → k = m) (known : m < s.next)
    (ready : ∀ j ∈ code', j.Ready (s.setHandle m handle))
    (settled : (∀ j ∈ code', j.subject ≠ some m) → (s.setHandle m handle).Settled m) :
    ModulesInv (s.setHandle m handle) code' :=
  h.focus m single ⟨rfl, rfl⟩ (List.append_nil _).symm (by simp) ⟨rfl, rfl⟩
    (fun _ hk => ⟨Function.update_of_ne hk _ _, rfl⟩) subject known ready settled

theorem ModulesInv.setsListening {code' : List ModuleStmt} (h : ModulesInv s (i :: rest))
    (listening : Bool) {event : ModuleEvent} (harmless : event.Harmless s)
    (single : code'.length ≤ 1) (subject : ∀ k, i.subject = some k → k = m) (known : m < s.next)
    (ready : ∀ j ∈ code', j.Ready ((s.setListening m listening).record event))
    (settled : (∀ j ∈ code', j.subject ≠ some m) →
      ((s.setListening m listening).record event).Settled m) :
    ModulesInv ((s.setListening m listening).record event) code' :=
  h.focus m single ⟨rfl, rfl⟩ rfl (List.forall_mem_singleton.mpr harmless) ⟨rfl, rfl⟩
    (fun _ hk => ⟨rfl, Function.update_of_ne hk _ _⟩) subject known ready settled

theorem ModulesInv.setsLocked {code' : List ModuleStmt} (h : ModulesInv s (i :: rest))
    (locked : Bool) (single : code'.length ≤ 1) (subject : ∀ k, i.subject = some k → k = m)
    (known : m < s.next) (ready : ∀ j ∈ code', j.Ready { s with locked := locked })
    (settled : (∀ j ∈ code', j.subject ≠ some m) → s.Settled m) :
    ModulesInv { s with locked := locked } code' :=
  h.focus m single ⟨rfl, rfl⟩ (List.append_nil _).symm (by simp) ⟨rfl, rfl⟩
    (fun _ _ => ⟨rfl, rfl⟩) subject known ready settled

/-- A step that touches no module at all. -/
theorem ModulesInv.idle {code' : List ModuleStmt} (h : ModulesInv s (i :: rest))
    (single : code'.length ≤ 1)
    (same : t.live = s.live ∧ t.next = s.next ∧ t.log = s.log ∧ t.handle = s.handle ∧
      t.listening = s.listening)
    (flags : (t.up = false → t.live = []) ∧ (t.thread = true → t.up = true))
    (subject : i.subject = none) (ready : ∀ j ∈ code', j.Ready t) : ModulesInv t code' := by
  obtain ⟨live, next, log, handle, listening⟩ := same
  have rest_nil : rest = [] := by simpa using h.single
  have agree : SameModule s t 0 := ⟨by rw [handle], by rw [listening], by rw [live]⟩
  have settled : s.Settled 0 := by
    refine h.settled 0 fun j hj => ?_
    rw [rest_nil] at hj
    rw [List.mem_singleton.mp hj, subject]
    simp
  refine h.about 0 single ⟨live, next⟩ (by rw [log, List.append_nil]) (by simp) flags
    (fun m _ => ⟨by rw [handle], by rw [listening]⟩) ?_ ?_ ready (fun _ => agree.settled settled)
  · intro m hm
    rw [subject] at hm
    cases hm
  · exact fun hk => agree.absent (h.created 0 hk)

/-- What the destruction of a module changes. -/
structure DestroysModule (s t : Modules) (m : Nat) : Prop where
  gone : t.Gone m
  others : ∀ k, k ≠ m → t.handle k = s.handle k ∧ t.listening k = s.listening k
  live : t.live = s.live.erase m
  next : t.next = s.next
  flags : t.up = s.up ∧ t.thread = s.thread ∧ t.locked = s.locked
  log : ∃ events, t.log = s.log ++ [.destroyed m] ++ events ∧ ∀ e ∈ events, e = .notifiedLoaded m

/-- The destruction of a module before its listener hears of it. -/
theorem destroyModule_unheard (nodup : s.live.Nodup) {l : Bool}
    (handle : s.handle m = some ⟨none, false, l⟩) :
    DestroysModule s { s.setListening m false with
      live := s.live.erase m, log := s.log ++ [.destroyed m] } m where
  gone := ⟨⟨l, handle⟩, fun he => (nodup.mem_erase_iff.mp he).1 rfl, Function.update_self ..⟩
  others k hk := ⟨rfl, Function.update_of_ne hk _ _⟩
  live := rfl
  next := rfl
  flags := ⟨rfl, rfl, rfl⟩
  log := ⟨[], by simp, by simp⟩

theorem destroyModule_heard (nodup : s.live.Nodup) {h : ModuleHandle}
    (handle : s.handle m = some h) :
    DestroysModule s (implModuleOnFree m { s.setListening m false with
      live := s.live.erase m, log := s.log ++ [.destroyed m] }) m := by
  have gone : m ∉ s.live.erase m := fun he => (nodup.mem_erase_iff.mp he).1 rfl
  have free : implModuleOnFree m { s.setListening m false with
      live := s.live.erase m, log := s.log ++ [.destroyed m] } =
      { s with
        listening := Function.update s.listening m false
        handle := Function.update s.handle m (some ⟨none, false, false⟩)
        live := s.live.erase m
        log := s.log ++ [.destroyed m] ++ if h.loaded then [.notifiedLoaded m] else [] } := by
    simp only [implModuleOnFree, Modules.setListening, handle]
    split
    · simp [Modules.setHandle, Modules.record]
    · simp [Modules.setHandle]
  rw [free]
  exact {
    gone := ⟨⟨false, Function.update_self ..⟩, gone, Function.update_self ..⟩
    others := fun k hk => ⟨Function.update_of_ne hk _ _, Function.update_of_ne hk _ _⟩
    live := rfl
    next := rfl
    flags := ⟨rfl, rfl, rfl⟩
    log := ⟨_, rfl, by split <;> simp⟩ }

theorem destroyModule_eq (nodup : s.live.Nodup) (hm : s.Loaded m ∨ s.Leaving m) :
    DestroysModule s (destroyModule m s) m := by
  simp only [destroyModule]
  rcases hm with ⟨⟨l, handle⟩, -, listening⟩ | ⟨⟨l, handle⟩, -⟩
  · rw [if_pos listening]
    exact destroyModule_heard nodup handle
  · split
    · exact destroyModule_heard nodup handle
    · exact destroyModule_unheard nodup handle

theorem DestroysModule.same (h : DestroysModule s t m) (hk : k ≠ m) : SameModule s t k :=
  ⟨(h.others k hk).1, (h.others k hk).2, by rw [h.live]; exact List.mem_erase_of_ne hk⟩

theorem ModulesInv.destroy {code' : List ModuleStmt} (h : ModulesInv s code)
    (hd : DestroysModule s t m) (hm : m ∈ s.live) (single : code'.length ≤ 1)
    (ready : ∀ j ∈ code', j.Ready t)
    (settled : ∀ k, k ≠ m → (∀ j ∈ code', j.subject ≠ some k) → s.Settled k) :
    ModulesInv t code' := by
  obtain ⟨events, log, quiet⟩ := hd.log
  have known : m < s.next := h.live_lt hm
  have live : ∀ k, k ∈ t.live ↔ k ≠ m ∧ k ∈ s.live := by
    intro k
    rw [hd.live, h.nodup.mem_erase_iff]
  have recorded : ∀ k, (.destroyed k ∈ t.log ↔ .destroyed k ∈ s.log ∨ k = m) ∧
      (.unloadReturned k ∈ t.log → .unloadReturned k ∈ s.log) := by
    intro k
    have other : ∀ e ∈ events, e ≠ .destroyed k ∧ e ≠ .unloadReturned k := by
      intro e he
      rw [quiet e he]
      simp
    rw [log]
    constructor
    · simp only [List.mem_append, List.mem_singleton, ModuleEvent.destroyed.injEq]
      exact or_iff_left fun he => (other _ he).1 rfl
    · intro hu
      rcases List.mem_append.mp hu with hu | hu
      · simpa using hu
      · exact absurd rfl (other _ hu).2
  exact {
    single := single
    nodup := by
      rw [hd.live]
      exact h.nodup.erase m
    created := fun k hk => by
      rw [hd.next] at hk
      exact (hd.same (by omega)).absent (h.created k hk)
    destroyed := fun k => by
      rw [(recorded k).1, h.destroyed k, live, hd.next]
      by_cases hk : k = m
      · simp [hk, known]
      · simp [hk]
    returned := fun k hk => by
      obtain ⟨hlt, hnot⟩ := h.returned k ((recorded k).2 hk)
      rw [hd.next, live]
      exact ⟨hlt, fun hl => hnot hl.2⟩
    justified := by
      rw [log]
      refine usesLive_append (justified_concat.mpr ⟨h.justified, ?_⟩) ?_
      · intro k hk hl
        cases hk
        exact ((h.destroyed m).mp hl).2 hm
      · intro e he
        rw [quiet e he]
        exact ⟨by simp, by simp [ModuleEvent.uses]⟩
    down := fun hu => by
      rw [hd.flags.1] at hu
      rw [hd.live, h.down hu]
      rfl
    running := fun ht => by
      rw [hd.flags.2.1] at ht
      rw [hd.flags.1]
      exact h.running ht
    ready := ready
    settled := fun k hk => by
      by_cases he : k = m
      · rw [he]
        exact .inr (.inr hd.gone)
      · exact (hd.same he).settled (settled k he hk) }

/-- A module is loaded under a new number. -/
theorem ModulesInv.load (h : ModulesInv s (.loadModule :: rest)) :
    ModulesInv { s with live := s.live ++ [s.next], next := s.next + 1 }
      [.loadUnlock (some s.next)] := by
  obtain ⟨handle, new, listening⟩ := h.created s.next (Nat.le_refl _)
  obtain ⟨locked, up⟩ := h.ready .loadModule (by simp)
  have rest_nil : rest = [] := by simpa using h.single
  have same : ∀ m, m ≠ s.next →
      SameModule s { s with live := s.live ++ [s.next], next := s.next + 1 } m :=
    fun m hm => ⟨rfl, rfl, by simp [hm]⟩
  exact {
    single := Nat.le_refl 1
    nodup := by
      rw [List.nodup_append]
      refine ⟨h.nodup, List.nodup_singleton _, ?_⟩
      intro a ha b hb he
      rw [he, List.mem_singleton.mp hb] at ha
      exact new ha
    created := fun m (hm : s.next + 1 ≤ m) => (same m (by omega)).absent (h.created m (by omega))
    destroyed := fun m => by
      rw [h.destroyed m]
      simp only [List.mem_append, List.mem_singleton, not_or]
      constructor
      · rintro ⟨hlt, hn⟩
        exact ⟨by omega, hn, by omega⟩
      · rintro ⟨hlt, hn, hne⟩
        exact ⟨by omega, hn⟩
    returned := fun m hm => by
      obtain ⟨hlt, hn⟩ := h.returned m hm
      exact ⟨Nat.lt_succ_of_lt hlt, by simp [hn, Nat.ne_of_lt hlt]⟩
    justified := h.justified
    down := fun hu => by
      rw [up] at hu
      cases hu
    running := h.running
    ready := fun j hj => by
      rw [List.mem_singleton.mp hj]
      exact ⟨locked, handle, by simp, listening⟩
    settled := fun m hm => by
      have other : m ≠ s.next := fun he => hm _ (List.mem_singleton.mpr rfl) (by rw [he]; rfl)
      refine (same m other).settled (h.settled m ?_)
      rw [rest_nil]
      simp [ModuleStmt.subject] }

theorem Modules.Gone.settled (h : s.Gone m) : s.Settled m := .inr (.inr h)

theorem Modules.Settled.loaded (h : s.Settled m) (hm : m ∈ s.live) : s.Loaded m := by
  rcases h with absent | loaded | gone
  · exact absurd hm absent.2.1
  · exact loaded
  · exact absurd hm gone.2.1

section Steps

variable {name : String} {wasLoaded dropped : Bool}

theorem ModulesInv.runLoad (h : ModulesInv s [.load name]) :
    ModulesInv (moduleExec outcome (.load name) s).1 (moduleExec outcome (.load name) s).2 := by
  have keeps : (s.up = false → s.live = []) ∧ (s.thread = true → s.up = true) :=
    ⟨h.down, h.running⟩
  simp only [moduleExec]
  split
  · exact h.idle (by simp) ⟨rfl, rfl, rfl, rfl, rfl⟩ keeps rfl (by simp)
  · split
    next hu =>
      exact h.idle (by simp) ⟨rfl, rfl, rfl, rfl, rfl⟩ keeps rfl (by simpa [ModuleStmt.Ready])
    next hu =>
      split
      · exact h.idle (by simp) ⟨rfl, rfl, rfl, rfl, rfl⟩ ⟨by simp, by simp⟩ rfl
          (by simp [ModuleStmt.Ready])
      · exact h.idle (by simp) ⟨rfl, rfl, rfl, rfl, rfl⟩ keeps rfl (by simp)

theorem ModulesInv.runAddListener (h : ModulesInv s [.addListener m]) :
    ModulesInv (moduleExec outcome (.addListener m) s).1
      (moduleExec outcome (.addListener m) s).2 := by
  obtain ⟨handle, live, listening⟩ := h.ready _ List.mem_cons_self
  refine h.setsListening _ live (Nat.le_refl 1) (by simp [ModuleStmt.subject])
    (h.live_lt live) ?_ ?_
  · intro j hj
    rw [List.mem_singleton.mp hj]
    refine .inl ⟨handle, live, ?_⟩
    exact (Function.update_self ..).trans (decide_eq_true live)
  · intro _
    refine .inr (.inl ⟨handle, live, ?_⟩)
    exact (Function.update_self ..).trans (decide_eq_true live)

theorem ModulesInv.runListenerSet (h : ModulesInv s [.listenerSet m]) :
    ModulesInv (moduleExec outcome (.listenerSet m) s).1
      (moduleExec outcome (.listenerSet m) s).2 := by
  have ready := h.ready _ List.mem_cons_self
  have known : s.handle m ≠ none := by
    rcases ready with ⟨⟨l, handle⟩, -⟩ | ⟨⟨l, handle⟩, -⟩ <;> simp [handle]
  refine h.setsHandle _ (Nat.zero_le 1) (by simp [ModuleStmt.subject]) (h.handle_lt known)
    (by simp [moduleExec]) fun _ => ?_
  rcases ready with ⟨⟨l, handle⟩, rest⟩ | ⟨⟨l, handle⟩, rest⟩
  · refine .inr (.inl ⟨⟨true, ?_⟩, rest⟩)
    simp [Modules.setHandle, handle]
  · refine .inr (.inr ⟨⟨true, ?_⟩, rest⟩)
    simp [Modules.setHandle, handle]

theorem ModulesInv.runUnload (h : ModulesInv s [.unload m dropped]) :
    ModulesInv (moduleExec outcome (.unload m dropped) s).1
      (moduleExec outcome (.unload m dropped) s).2 := by
  have keeps : (s.up = false → s.live = []) ∧ (s.thread = true → s.up = true) :=
    ⟨h.down, h.running⟩
  simp only [moduleExec]
  rcases h.ready _ List.mem_cons_self with loaded | gone
  · have handle := loaded.1.choose_spec
    rw [if_neg (by rw [handle]; simp)]
    exact h.idle (by simp) ⟨rfl, rfl, rfl, rfl, rfl⟩ keeps rfl
      (List.forall_mem_singleton.mpr loaded)
  · have handle := gone.1.choose_spec
    rw [if_pos (by rw [handle]; rfl)]
    exact h.idle (by simp) ⟨rfl, rfl, rfl, rfl, rfl⟩ keeps rfl
      (List.forall_mem_singleton.mpr gone)

theorem ModulesInv.runModuleDestroy (h : ModulesInv s [.moduleDestroy m wasLoaded dropped]) :
    ModulesInv (moduleExec outcome (.moduleDestroy m wasLoaded dropped) s).1
      (moduleExec outcome (.moduleDestroy m wasLoaded dropped) s).2 := by
  obtain ⟨-, leaving⟩ := h.ready _ List.mem_cons_self
  have hd := destroyModule_eq h.nodup (.inr leaving)
  refine h.destroy hd leaving.2 (Nat.le_refl 1) ?_ ?_
  · exact List.forall_mem_singleton.mpr hd.gone
  · intro k hk _
    refine h.settled k fun j hj => ?_
    rw [List.mem_singleton.mp hj]
    simpa [ModuleStmt.subject] using hk.symm

theorem ModulesInv.runUnloadUnlock (h : ModulesInv s [.unloadUnlock m wasLoaded dropped]) :
    ModulesInv (moduleExec outcome (.unloadUnlock m wasLoaded dropped) s).1
      (moduleExec outcome (.unloadUnlock m wasLoaded dropped) s).2 := by
  have ready : s.Gone m := h.ready _ List.mem_cons_self
  have known : s.handle m ≠ none := by
    obtain ⟨⟨l, handle⟩, -⟩ := ready
    simp [handle]
  simp only [moduleExec]
  split
  · refine h.focus m (by simp) ⟨rfl, rfl⟩ rfl (by simp [ModuleEvent.Harmless]) ⟨rfl, rfl⟩
      (fun k hk => ⟨rfl, rfl⟩) (by simp [ModuleStmt.subject]) (h.handle_lt known) ?_ ?_
    · exact List.forall_mem_singleton.mpr ready
    · exact fun _ => ready.settled
  · exact h.setsLocked false (Nat.le_refl 1) (by simp [ModuleStmt.subject]) (h.handle_lt known)
      (List.forall_mem_singleton.mpr ready) (fun _ => ready.settled)

theorem ModulesInv.runUnloadReturn (h : ModulesInv s [.unloadReturn m dropped]) :
    ModulesInv (moduleExec outcome (.unloadReturn m dropped) s).1
      (moduleExec outcome (.unloadReturn m dropped) s).2 := by
  obtain ⟨handle, gone, listening⟩ := h.ready _ List.mem_cons_self
  have known : s.handle m ≠ none := by
    obtain ⟨l, handle⟩ := handle
    simp [handle]
  have harmless : m < s.next ∧ m ∉ s.live := ⟨h.handle_lt known, gone⟩
  simp only [moduleExec]
  split
  · exact h.focus m (by simp) ⟨rfl, rfl⟩ rfl (by simpa [ModuleEvent.Harmless]) ⟨rfl, rfl⟩
      (fun k hk => ⟨Function.update_of_ne hk _ _, rfl⟩) (by simp [ModuleStmt.subject])
      harmless.1 (by simp) (fun _ => .inl ⟨Function.update_self .., gone, listening⟩)
  · exact h.focus m (by simp) ⟨rfl, rfl⟩ rfl (by simpa [ModuleEvent.Harmless]) ⟨rfl, rfl⟩
      (fun k hk => ⟨rfl, rfl⟩) (by simp [ModuleStmt.subject])
      harmless.1 (by simp) (fun _ => .inr (.inr ⟨handle, gone, listening⟩))

theorem ModulesInv.runContextDestroy (h : ModulesInv s [.contextDestroy]) :
    ModulesInv (moduleExec outcome .contextDestroy s).1
      (moduleExec outcome .contextDestroy s).2 := by
  have stopped : s.thread = false := h.ready _ List.mem_cons_self
  simp only [moduleExec]
  split
  next empty =>
    refine h.idle (by simp) ⟨rfl, rfl, rfl, rfl, rfl⟩ ⟨fun _ => empty, ?_⟩ rfl (by simp)
    intro ht
    rw [stopped] at ht
    cases ht
  next m live eq =>
    have hm : m ∈ s.live := by simp [eq]
    have idle : ∀ k, s.Settled k := fun k => h.settled k (by simp [ModuleStmt.subject])
    have hd := destroyModule_eq h.nodup (.inl ((idle m).loaded hm))
    refine h.destroy hd hm (Nat.le_refl 1) ?_ (fun k _ _ => idle k)
    intro j hj
    rw [List.mem_singleton.mp hj]
    exact hd.flags.2.1.trans stopped

end Steps

theorem ModulesInv.run (h : ModulesInv s (i :: rest)) :
    ModulesInv (moduleExec outcome i s).1 ((moduleExec outcome i s).2 ++ rest) := by
  obtain rfl : rest = [] := by simpa using h.single
  have ready : i.Ready s := h.ready i List.mem_cons_self
  have keeps : (s.up = false → s.live = []) ∧ (s.thread = true → s.up = true) :=
    ⟨h.down, h.running⟩
  rw [List.append_nil]
  cases i with
  | load name => exact h.runLoad
  | loadLock =>
    refine h.idle (by simp [moduleExec]) ⟨rfl, rfl, rfl, rfl, rfl⟩ keeps rfl ?_
    simpa [moduleExec, ModuleStmt.Ready] using ready
  | loadModule =>
    simp only [moduleExec]
    split
    · exact h.load
    · exact h.idle (by simp) ⟨rfl, rfl, rfl, rfl, rfl⟩ keeps rfl (by simp [ModuleStmt.Ready])
  | loadUnlock module =>
    cases module with
    | none =>
      exact h.idle (by simp [moduleExec]) ⟨rfl, rfl, rfl, rfl, rfl⟩ keeps rfl (by simp [moduleExec])
    | some m =>
      obtain ⟨-, fresh⟩ := ready
      exact h.setsLocked false (Nat.le_refl 1) (by simp [ModuleStmt.subject])
        (h.live_lt fresh.2.1) (List.forall_mem_singleton.mpr fresh)
        (by simp [moduleExec, ModuleStmt.subject])
  | handleInit m =>
    obtain ⟨handle, live, listening⟩ := ready
    refine h.setsHandle _ (Nat.le_refl 1) (by simp [ModuleStmt.subject]) (h.live_lt live) ?_ ?_
    · exact List.forall_mem_singleton.mpr ⟨⟨false, Function.update_self ..⟩, live, listening⟩
    · simp [moduleExec, ModuleStmt.subject]
  | addListener m => exact h.runAddListener
  | listenerSet m => exact h.runListenerSet
  | unload m dropped => exact h.runUnload
  | unloadForget m dropped =>
    obtain ⟨⟨l, handle⟩, live, -⟩ := ready
    refine h.setsHandle _ (Nat.le_refl 1) (by simp [ModuleStmt.subject]) (h.live_lt live) ?_ ?_
    · refine List.forall_mem_singleton.mpr ⟨⟨l, ?_⟩, live⟩
      simp [Modules.setHandle, handle]
    · simp [moduleExec, ModuleStmt.subject]
  | unloadHook m wasLoaded dropped =>
    simp only [moduleExec]
    split <;>
      exact h.focus m (by simp) ⟨rfl, rfl⟩ (List.append_nil _).symm (by simp) ⟨rfl, rfl⟩
        (fun k hk => ⟨rfl, rfl⟩) (by simp [ModuleStmt.subject]) (h.live_lt ready.2)
        (by simpa [ModuleStmt.Ready]) (by simp [ModuleStmt.subject])
  | hookRemove m wasLoaded dropped =>
    obtain ⟨handle, live⟩ := ready
    exact h.setsListening false live (Nat.le_refl 1) (by simp [ModuleStmt.subject])
      (h.live_lt live) (List.forall_mem_singleton.mpr ⟨handle, live⟩)
      (by simp [moduleExec, ModuleStmt.subject])
  | hookUnset m wasLoaded dropped =>
    obtain ⟨⟨l, handle⟩, live⟩ := ready
    refine h.setsHandle _ (Nat.le_refl 1) (by simp [ModuleStmt.subject]) (h.live_lt live) ?_ ?_
    · refine List.forall_mem_singleton.mpr ⟨⟨false, ?_⟩, live⟩
      simp [Modules.setHandle, handle]
    · simp [moduleExec, ModuleStmt.subject]
  | unloadLock m wasLoaded dropped =>
    have up : s.up = true := by
      by_contra hu
      simpa [h.down (by simpa using hu)] using ready.2
    exact h.setsLocked _ (Nat.le_refl 1) (by simp [ModuleStmt.subject]) (h.live_lt ready.2)
      (List.forall_mem_singleton.mpr ⟨up, ready⟩) (by simp [moduleExec, ModuleStmt.subject])
  | moduleDestroy m wasLoaded dropped => exact h.runModuleDestroy
  | unloadUnlock m wasLoaded dropped => exact h.runUnloadUnlock
  | unloadReturn m dropped => exact h.runUnloadReturn
  | loopStop =>
    exact h.idle (by simp [moduleExec]) ⟨rfl, rfl, rfl, rfl, rfl⟩ ⟨h.down, by simp [moduleExec]⟩ rfl
      (by simp [moduleExec, ModuleStmt.Ready])
  | contextDestroy => exact h.runContextDestroy

/-- What the statement that is next needs survives the destruction of a loaded module. -/
theorem DestroysModule.ready (hd : DestroysModule s t m) (outside : i.exposed ≠ some m)
    (unlocked : s.locked = false) (h : i.Ready s) : i.Ready t := by
  obtain ⟨up, thread, locked⟩ := hd.flags
  have held : ∀ k, s.Loaded k ∨ s.Gone k → t.Loaded k ∨ t.Gone k := by
    intro k hk
    by_cases he : k = m
    · rw [he]
      exact .inr hd.gone
    · have same := hd.same he
      simpa only [Modules.Loaded, Modules.Gone, same.handle, same.listening, same.live] using hk
  have gone : ∀ k, s.Gone k → t.Gone k := by
    intro k hk
    by_cases he : k = m
    · rw [he]
      exact hd.gone
    · have same := hd.same he
      simpa only [Modules.Gone, same.handle, same.listening, same.live] using hk
  have other : ∀ k, i.exposed = some k → SameModule s t k := by
    intro k hk
    refine hd.same fun he => outside ?_
    rw [hk, he]
  cases i with
  | load name | loopStop => trivial
  | loadLock => exact up.trans h
  | loadModule => exact ⟨locked.trans h.1, up.trans h.2⟩
  | loadUnlock module =>
    cases module with
    | none => trivial
    | some k => exact absurd h.1 (by simp [unlocked])
  | handleInit k =>
    have same := other k rfl
    simpa only [ModuleStmt.Ready, Modules.Fresh, same.handle, same.listening, same.live] using h
  | addListener k =>
    have same := other k rfl
    simpa only [ModuleStmt.Ready, Modules.Attaching, same.handle, same.listening, same.live] using h
  | listenerSet k | unload k dropped => exact held k h
  | unloadForget k dropped =>
    have same := other k rfl
    simpa only [ModuleStmt.Ready, Modules.Loaded, same.handle, same.listening, same.live] using h
  | unloadHook k wasLoaded dropped | hookRemove k wasLoaded dropped
  | hookUnset k wasLoaded dropped | unloadLock k wasLoaded dropped =>
    have same := other k rfl
    simpa only [ModuleStmt.Ready, Modules.Leaving, same.handle, same.live] using h
  | moduleDestroy k wasLoaded dropped => exact absurd h.1 (by simp [unlocked])
  | unloadUnlock k wasLoaded dropped | unloadReturn k dropped => exact gone k h
  | contextDestroy => exact thread.trans h

theorem ModulesInv.environment (h : ModulesInv s code) (ht : moduleEnvironment m s = some t)
    (outside : code.head?.bind ModuleStmt.exposed ≠ some m) : ModulesInv t code := by
  simp only [moduleEnvironment] at ht
  split at ht
  next free =>
    obtain ⟨-, unlocked, hm⟩ := free
    cases ht
    have unlocked : s.locked = false := by simpa using unlocked
    have next : ∀ i ∈ code, i.exposed ≠ some m := by
      intro i hi
      obtain ⟨j, hj⟩ : ∃ j, code = [j] := by
        refine List.length_eq_one_iff.mp (Nat.le_antisymm h.single ?_)
        exact List.length_pos_of_mem hi
      rw [hj] at hi outside
      rw [List.mem_singleton.mp hi]
      exact outside
    have settled : ∀ i ∈ code, i.subject ≠ some m := by
      intro i hi hs
      have ready := h.ready i hi
      have hn := next i hi
      cases i with
      | loadUnlock module =>
        cases hs
        exact absurd ready.1 (by simp [unlocked])
      | moduleDestroy k wasLoaded dropped => exact absurd ready.1 (by simp [unlocked])
      | _ => first | exact hn hs | cases hs
    have loaded := (h.settled m settled).loaded hm
    have hd := destroyModule_eq h.nodup (.inl loaded)
    refine h.destroy hd hm h.single ?_ (fun k _ hk => h.settled k hk)
    exact fun j hj => hd.ready (next j hj) unlocked (h.ready j hj)
  next => cases ht

theorem ModulesInv.call {operation : ModuleCall} {r : Modules × List ModuleStmt}
    (h : ModulesInv s []) (hr : moduleCall operation s = some r) : ModulesInv r.1 r.2 := by
  -- where nothing runs, every handle is settled
  have handle : ∀ m, s.handle m ≠ none → s.Loaded m ∨ s.Gone m := by
    intro m hm
    rcases h.settled m (by simp) with absent | held
    · exact absurd absent.1 hm
    · exact held
  have begin : ∀ i : ModuleStmt, i.subject = none → i.Ready s → ModulesInv s [i] := by
    intro i hs ready
    exact { h with
      single := Nat.le_refl 1
      ready := List.forall_mem_singleton.mpr ready
      settled := fun m _ => h.settled m (by simp) }
  cases operation with
  | loadModule name =>
    cases hr
    exact begin _ rfl trivial
  | unload m | drop m =>
    obtain ⟨x, hx, he⟩ := Option.map_eq_some_iff.mp hr
    cases he
    exact begin _ rfl (handle m (by simp [hx]))
  | disconnect =>
    cases hr
    exact begin _ rfl trivial

theorem modules_preserved :
    moduleComponent.Preserves OutsideWindows fun s code => ModulesInv s code where
  call operation s code r h hc _ hr := by
    have idle : code = [] := by
      cases code with
      | nil => rfl
      | cons i rest => cases hc
    rw [idle] at h ⊢
    rw [List.append_nil]
    exact h.call hr
  run outcome i s rest h _ := h.run
  environment m s code t h ha ht := h.environment ht (ha m rfl)

theorem modulesInv_init : ModulesInv {} [] where
  single := Nat.zero_le 1
  nodup := List.nodup_nil
  created m _ := ⟨rfl, by simp, rfl⟩
  destroyed m := by simp
  returned m hm := by cases hm
  justified := justified_nil
  down _ := rfl
  running ht := by cases ht
  ready := by simp
  settled m _ := .inl ⟨rfl, by simp, rfl⟩

theorem usesLive_count {log : List ModuleEvent} (h : Justified UsesLive log) (m : Nat) :
    log.count (.destroyed m) ≤ 1 := by
  induction log using List.reverseRecOn with
  | nil => simp
  | append_singleton before event ih =>
    obtain ⟨hb, he⟩ := justified_concat.mp h
    rw [List.count_append]
    by_cases hd : event = .destroyed m
    · have none : before.count (.destroyed m) = 0 := by
        refine List.count_eq_zero.mpr (he m ?_)
        rw [hd]
        rfl
      have one : [event].count (.destroyed m) ≤ 1 := List.count_le_length
      omega
    · have zero : [event].count (.destroyed m) = 0 := by
        refine List.count_eq_zero.mpr fun hm => ?_
        exact hd (List.mem_singleton.mp hm).symm
      have := ih hb
      omega

/-- Neither a load nor an unload is in progress. -/
def Quiescent (code : List ModuleStmt) : Prop :=
  ∀ i ∈ code, i = .loopStop ∨ i = .contextDestroy

/-- The modules that were created and exist no more were destroyed once, nothing is applied
to one after that, and the handles know which exist. -/
structure DestroyedOnce (c : Config Modules ModuleStmt) : Prop where
  uses : Justified UsesLive c.state.log
  once : ∀ m, c.state.log.count (.destroyed m) =
    if m < c.state.next ∧ m ∉ c.state.live then 1 else 0
  loaded : Quiescent c.code → ∀ m h, c.state.handle m = some h →
    (h.loaded = true ↔ m ∈ c.state.live)
  held : Quiescent c.code → ∀ m ∈ c.state.live, c.state.handle m ≠ none
  unloaded : ∀ m, .unloadReturned m ∈ c.state.log → m ∉ c.state.live
  disconnected : c.state.up = false → c.state.live = []

theorem ModulesInv.destroyedOnce {c : Config Modules ModuleStmt}
    (h : ModulesInv c.state c.code) : DestroyedOnce c := by
  have settled : Quiescent c.code → ∀ m, c.state.Settled m := by
    intro hq m
    refine h.settled m fun i hi => ?_
    rcases hq i hi with rfl | rfl <;> simp [ModuleStmt.subject]
  exact {
    uses := h.justified
    once := fun m => by
      split
      next gone =>
        have most := usesLive_count h.justified m
        have least := List.count_pos_iff.mpr ((h.destroyed m).mpr gone)
        omega
      next there => exact List.count_eq_zero.mpr fun hd => there ((h.destroyed m).mp hd)
    loaded := fun hq m x hx => by
      rcases settled hq m with ⟨handle, -⟩ | ⟨⟨l, handle⟩, live, -⟩ |
          ⟨⟨l, handle⟩, gone, -⟩
      · rw [hx] at handle
        cases handle
      · rw [hx] at handle
        cases handle
        simpa using live
      · rw [hx] at handle
        cases handle
        simpa using gone
    held := fun hq m hm hn => by
      obtain ⟨⟨l, handle⟩, -⟩ := (settled hq m).loaded hm
      rw [hn] at handle
      cases handle
    unloaded := fun m hm => (h.returned m hm).2
    disconnected := h.down }

theorem implModule_destroyedOnce {c : Config Modules ModuleStmt}
    (h : Reach moduleComponent.step OutsideWindows moduleInit c) : DestroyedOnce c :=
  (modules_preserved.reach h modulesInv_init).destroyedOnce

def loadRuns : List (Label ModuleCall LoadOutcome Nat) :=
  .call (.loadModule "libpipewire-module-loopback") :: List.replicate 7 (.run ⟨true, true⟩)

/-- One module is unloaded, one goes by itself before its handle is dropped, and one goes
with the context. -/
def modulesSchedule : List (Label ModuleCall LoadOutcome Nat) :=
  loadRuns ++ loadRuns ++ loadRuns ++ [.call (.unload 0)] ++
    List.replicate 9 (.run ⟨true, true⟩) ++ [.environment 1, .call (.drop 1)] ++
    List.replicate 2 (.run ⟨true, true⟩) ++ [.call .disconnect] ++
    List.replicate 3 (.run ⟨true, true⟩)

theorem implModule_destroyedOnce_session :
    DestroyedOnce (final moduleComponent.step moduleInit modulesSchedule) ∧
      (final moduleComponent.step moduleInit modulesSchedule).state.next = 3 :=
  ⟨implModule_destroyedOnce (reach_final (by decide +kernel)), by decide +kernel⟩

/-- The module goes while the handle is being unloaded. -/
def unloadRace : List (Label ModuleCall LoadOutcome Nat) :=
  loadRuns ++ [.call (.unload 0)] ++ List.replicate 2 (.run ⟨true, true⟩) ++ [.environment 0] ++
    List.replicate 5 (.run ⟨true, true⟩)

/-- The module goes before its handle listens. -/
def loadRace : List (Label ModuleCall LoadOutcome Nat) :=
  loadRuns.take 5 ++ [.environment 0] ++ List.replicate 3 (.run ⟨true, true⟩)

theorem implModule_races :
    (∃ c, Reach moduleComponent.step anyStep moduleInit c ∧ ¬DestroyedOnce c ∧
      c.state.log.count (.destroyed 0) = 2) ∧
    ∃ c, Reach moduleComponent.step anyStep moduleInit c ∧ ¬DestroyedOnce c ∧
      c.code = [] ∧ c.state.handle 0 = some ⟨some 0, true, true⟩ ∧ 0 ∉ c.state.live := by
  constructor
  · refine ⟨final moduleComponent.step moduleInit unloadRace,
      reach_final (allAllowed_anyStep _ _), fun h => ?_, by decide +kernel⟩
    exact absurd (h.once 0) (by decide +kernel)
  · refine ⟨final moduleComponent.step moduleInit loadRace,
      reach_final (allAllowed_anyStep _ _), fun h => ?_, by decide +kernel, by decide +kernel,
      by decide +kernel⟩
    have handle : (final moduleComponent.step moduleInit loadRace).state.handle 0 =
        some ⟨some 0, true, true⟩ := by decide +kernel
    have idle : (final moduleComponent.step moduleInit loadRace).code = [] := by decide +kernel
    have live := (h.loaded (by simp [Quiescent, idle]) 0 _ handle).mp rfl
    exact absurd live (by decide +kernel)

end PipewireGobject
