import PipewireGobject.MainContext
import PipewireGobject.Registry
import Mathlib.Logic.Function.Basic

namespace PipewireGobject

/-- `PwgCoreSyncData` -/
structure CoreSyncData (κ : Type) where
  mainContext : Option κ
  seq : Int
  done : Bool := false
  mainContextDone : Bool := false
  errorResult : Int := 0
  errorMessage : Option CString := none
  deriving DecidableEq

inductive CoreEvent
  | done (id : UInt32) (seq : Int)
  | error (id : UInt32) (seq res : Int) (message : Option CString)
  deriving DecidableEq

/-- What a call returns: `TRUE`, or `FALSE` with the error of a failed sync, of a wait that
timed out or failed, or of something before the wait. -/
inductive SyncResult
  | synced
  | failed (errorResult : Int) (message : Option CString)
  | waitFailed (waitResult : Int)
  | notStarted
  deriving DecidableEq

/-- The stack frame of a call in progress on a thread. `call` numbers the calls, and
`processed` are the events its listener has been called for. -/
structure SyncFrame (κ : Type) where
  data : CoreSyncData κ
  timed : Bool
  thread : Nat
  call : Nat
  processed : List CoreEvent := []
  deriving DecidableEq

/-- A source in a context: an event of a wrapper, or the completion of a sync, which points
to the stack frame of the call that attached it. -/
inductive SyncSource
  | event (number : Nat)
  | completion (slot call : Nat)
  deriving DecidableEq

inductive SyncEvent (κ : Type)
  | entered (slot : Nat)
  | handed (context : κ) (number : Nat)
  | dispatched (context : κ) (number : Nat)
  | core (event : CoreEvent)
  | returned (slot : Nat) (frame : SyncFrame κ) (result : SyncResult)
  deriving DecidableEq

/-- What a thread is in: a call, an iteration of a context, or the callback of a source, which
stays attached until its callback has returned `FALSE`. -/
inductive SyncActivity (κ : Type)
  | call (slot : Nat)
  | iteration (context : κ)
  | callback (context : κ) (source : SyncSource)
  deriving DecidableEq

/-- The context that a thread iterates there. -/
def SyncActivity.iterated {κ : Type} : SyncActivity κ → Option κ
  | .call _ => none
  | .iteration c | .callback c _ => some c

/-- The calls of `pwg_core_sync_main_context_internal` on a core, by the address of their
frame, and the contexts they and the wrappers use. `sources` of a context are those whose
callback has not been called, and `pending` is how many of the sources that its innermost
iteration has found ready are still to be dispatched. `threads` are what the threads are in,
innermost first, and `listeners` the frames whose listeners are on the core's hook list. -/
structure CoreSync (κ : Type) where
  contexts : κ → MainContext Nat SyncSource := fun _ => {}
  pending : κ → Option Nat := fun _ => none
  frames : Nat → Option (SyncFrame κ) := fun _ => none
  threads : Nat → List (SyncActivity κ) := fun _ => []
  listeners : List Nat := []
  handed : Nat := 0
  history : List (SyncEvent κ) := []

variable {κ : Type} [DecidableEq κ]

namespace CoreSync

def record (event : SyncEvent κ) (s : CoreSync κ) : CoreSync κ :=
  { s with history := s.history ++ [event] }

def setFrame (slot : Nat) (frame : Option (SyncFrame κ)) (s : CoreSync κ) : CoreSync κ :=
  { s with frames := Function.update s.frames slot frame }

def setContext (c : κ) (context : MainContext Nat SyncSource) (s : CoreSync κ) : CoreSync κ :=
  { s with contexts := Function.update s.contexts c context }

def attach (c : κ) (source : SyncSource) (s : CoreSync κ) : CoreSync κ :=
  s.setContext c ((s.contexts c).attach source)

def setPending (c : κ) (pending : Option Nat) (s : CoreSync κ) : CoreSync κ :=
  { s with pending := Function.update s.pending c pending }

def setStack (thread : Nat) (stack : List (SyncActivity κ)) (s : CoreSync κ) : CoreSync κ :=
  { s with threads := Function.update s.threads thread stack }

def push (thread : Nat) (activity : SyncActivity κ) (s : CoreSync κ) : CoreSync κ :=
  s.setStack thread (activity :: s.threads thread)

def pop (thread : Nat) (s : CoreSync κ) : CoreSync κ :=
  s.setStack thread (s.threads thread).tail

/-- The application has control of a thread: it is in nothing, or in a handler of an event. -/
def runsApplication (thread : Nat) (s : CoreSync κ) : Bool :=
  match s.threads thread with
  | [] | .callback _ (.event _) :: _ => true
  | _ => false

/-- A call has control of its thread. -/
def runsCall (slot : Nat) (frame : SyncFrame κ) (s : CoreSync κ) : Bool :=
  (s.threads frame.thread).head? = some (.call slot)

end CoreSync

open CoreSync

def pwIdCore : UInt32 := 0

def errorIo : Int := 5

def coreSyncOnMainContextDone (slot : Nat) (s : CoreSync κ) : CoreSync κ :=
  match s.frames slot with
  | some frame =>
    s.setFrame slot (some { frame with data := { frame.data with mainContextDone := true } })
  -- no call has its frame there any more
  | none => s

def coreSyncQueueMainContextDone (slot : Nat) (frame : SyncFrame κ) (s : CoreSync κ) :
    CoreSync κ :=
  match frame.data.mainContext with
  | none => s
  | some c => s.attach c (.completion slot frame.call)

def coreSyncOnDone (slot : Nat) (id : UInt32) (seq : Int) (frame : SyncFrame κ)
    (s : CoreSync κ) : CoreSync κ :=
  if id ≠ pwIdCore ∨ seq ≠ frame.data.seq then s
  else
    let frame := { frame with data := { frame.data with done := true } }
    coreSyncQueueMainContextDone slot frame (s.setFrame slot (some frame))

def coreSyncOnError (slot : Nat) (id : UInt32) (seq res : Int) (message : Option CString)
    (frame : SyncFrame κ) (s : CoreSync κ) : CoreSync κ :=
  if id ≠ pwIdCore ∨ seq ≠ frame.data.seq then s
  else
    s.setFrame slot (some { frame with data := { frame.data with
      errorResult := if res < 0 then res else -errorIo, errorMessage := message } })

/-- The listener of one call. -/
def coreSyncListener (event : CoreEvent) (s : CoreSync κ) (slot : Nat) : CoreSync κ :=
  match s.frames slot with
  | none => s
  | some frame =>
    let frame := { frame with processed := frame.processed ++ [event] }
    match event with
    | .done id seq => coreSyncOnDone slot id seq frame (s.setFrame slot (some frame))
    | .error id seq res message =>
      coreSyncOnError slot id seq res message frame (s.setFrame slot (some frame))

/-- The frame of a call is gone once it has returned. -/
def returnSync (slot : Nat) (frame : SyncFrame κ) (result : SyncResult) (s : CoreSync κ) :
    CoreSync κ :=
  ((s.setFrame slot none).pop frame.thread).record (.returned slot frame result)

/-- What follows the wait for the listener, which is removed under the same lock. -/
def leaveWait (slot : Nat) (frame : SyncFrame κ) (waitResult : Int) (s : CoreSync κ) :
    CoreSync κ :=
  let s := { s with listeners := s.listeners.erase slot }
  if frame.data.errorResult < 0 then
    returnSync slot frame (.failed frame.data.errorResult frame.data.errorMessage) s
  else if frame.data.done = false then returnSync slot frame (.waitFailed waitResult) s
  else if frame.data.mainContext = none then returnSync slot frame .synced s
  else s

/-- `ready` tells whether everything before the request has succeeded, and `seq` is what the
request returned. -/
def enterSync (slot thread : Nat) (mainContext : Option κ) (seq : Int) (timed ready : Bool)
    (s : CoreSync κ) : CoreSync κ :=
  let frame := ⟨{ mainContext := mainContext, seq := seq }, timed, thread, s.history.length, []⟩
  if ready ∧ 0 ≤ seq then
    (({ s with listeners := s.listeners ++ [slot] }.setFrame slot (some frame)).push thread
      (.call slot)).record (.entered slot)
  else s.record (.returned slot frame .notStarted)

/-- `g_main_context_invoke_full` for an event of a wrapper, on the PipeWire thread. -/
def handEvent (threadDefault : Bool) (c : κ) (s : CoreSync κ) : CoreSync κ :=
  let t := { s with handed := s.handed + 1 }.record (.handed c s.handed)
  if threadDefault && (s.contexts c).owner = none then t.record (.dispatched c s.handed)
  else t.attach c (.event s.handed)

/-- An iteration of a context begins, which drops what one around it has not dispatched. -/
def beginIteration (thread : Nat) (c : κ) (s : CoreSync κ) : Option (CoreSync κ) :=
  ((s.contexts c).acquire thread).map fun context =>
    ((s.setContext c context).setPending c none).push thread (.iteration c)

/-- The callback of the first source of a context is called. -/
def callSource (thread : Nat) (c : κ) (source : SyncSource) (rest : List SyncSource)
    (pending : Nat) (s : CoreSync κ) : CoreSync κ :=
  ((s.setContext c { s.contexts c with sources := rest }).setPending c (some pending)).push thread
    (.callback c source)

def dispatchSource (c : κ) (source : SyncSource) (s : CoreSync κ) : CoreSync κ :=
  match source with
  | .event number => s.record (.dispatched c number)
  | .completion slot _ => coreSyncOnMainContextDone slot s

inductive SyncLabel (κ : Type)
  | enter (slot thread : Nat) (mainContext : Option κ) (seq : Int) (timed ready : Bool)
  | core (event : CoreEvent)
  | hand (context : κ)
  | wake (slot : Nat)
  | timeout (slot : Nat) (waitResult : Int)
  | iterate (thread : Nat) (context : κ)
  | iterateIn (slot : Nat)
  | check (thread : Nat) (higher : Bool)
  | dispatch (thread : Nat)
  | detach (thread : Nat)
  | iterated (thread : Nat)
  | finish (slot : Nat)
  deriving DecidableEq

/-- Steps of the PipeWire thread (`core`, `hand`), of calls, and of the threads that iterate
contexts, for the application or in a call (`iterateIn`). An iteration checks which sources are
ready: all of them, unless one of a `higher` priority is, which is then dispatched alone.
`threadDefault` tells which context is the default one of the PipeWire thread. -/
def coreSyncStep (threadDefault : κ → Bool) (s : CoreSync κ) : SyncLabel κ → Option (CoreSync κ)
  | .enter slot thread mainContext seq timed ready =>
    if s.frames slot = none ∧ s.runsApplication thread = true then
      some (enterSync slot thread mainContext seq timed ready s)
    else none
  | .core event => some (s.listeners.foldl (coreSyncListener event) (s.record (.core event)))
  | .hand c => some (handEvent (threadDefault c) c s)
  | .wake slot =>
    match s.frames slot with
    | some frame =>
      if slot ∈ s.listeners ∧ s.runsCall slot frame = true then
        if frame.data.done = true ∨ frame.data.errorResult ≠ 0 then
          some (leaveWait slot frame 0 s)
        else some s
      else none
    | none => none
  | .timeout slot waitResult =>
    match s.frames slot with
    | some frame =>
      if slot ∈ s.listeners ∧ s.runsCall slot frame = true ∧ frame.timed = true ∧
          waitResult < 0 then
        some (leaveWait slot frame waitResult s)
      else none
    | none => none
  | .iterate thread c =>
    if s.runsApplication thread = true then beginIteration thread c s else none
  | .iterateIn slot =>
    match s.frames slot with
    | some frame =>
      match frame.data.mainContext with
      | some c =>
        if slot ∉ s.listeners ∧ s.runsCall slot frame = true ∧
            frame.data.mainContextDone = false then
          beginIteration frame.thread c s
        else none
      | none => none
    | none => none
  | .check thread higher =>
    match s.threads thread with
    | .iteration c :: _ =>
      -- what an earlier check has found is dispatched first
      if s.pending c = none ∨ s.pending c = some 0 then
        some (s.setPending c (some (if higher then 0 else (s.contexts c).sources.length)))
      else none
    | _ => none
  | .dispatch thread =>
    match s.threads thread with
    | .iteration c :: _ =>
      match s.pending c, (s.contexts c).sources with
      | some (n + 1), source :: rest =>
        some (dispatchSource c source (callSource thread c source rest n s))
      | _, _ => none
    | _ => none
  | .detach thread =>
    match s.threads thread with
    | .callback _ _ :: _ => some (s.pop thread)
    | _ => none
  | .iterated thread =>
    match s.threads thread with
    | .iteration c :: _ =>
      if s.pending c = some 0 then some ((s.setContext c (s.contexts c).release).pop thread)
      else none
    | _ => none
  | .finish slot =>
    match s.frames slot with
    | some frame =>
      if slot ∉ s.listeners ∧ s.runsCall slot frame = true ∧ frame.data.mainContextDone = true then
        some (returnSync slot frame .synced s)
      else none
    | none => none

variable {threadDefault : κ → Bool} {s t : CoreSync κ}

omit [DecidableEq κ] in
theorem setFrame_frames {slot slot' : Nat} {frame : Option (SyncFrame κ)} {frame' : SyncFrame κ}
    (hf : (s.setFrame slot frame).frames slot' = some frame') :
    slot' = slot ∧ frame = some frame' ∨ slot' ≠ slot ∧ s.frames slot' = some frame' := by
  by_cases he : slot' = slot
  · subst he
    exact .inl ⟨rfl, by simpa [setFrame] using hf⟩
  · exact .inr ⟨he, by simpa [setFrame, he] using hf⟩

theorem attach_self (c : κ) (source : SyncSource) :
    ((s.attach c source).contexts c).sources = (s.contexts c).sources ++ [source] := by
  simp [CoreSync.attach, setContext, MainContext.attach]

theorem attach_of_ne {c c' : κ} (source : SyncSource) (he : c' ≠ c) :
    (s.attach c source).contexts c' = s.contexts c' := by
  simp [CoreSync.attach, setContext, he]

theorem mem_attach {c c' : κ} {source source' : SyncSource}
    (hs : source' ∈ (s.contexts c').sources) :
    source' ∈ ((s.attach c source).contexts c').sources := by
  by_cases he : c' = c
  · subst he
    rw [attach_self]
    exact List.mem_append_left _ hs
  · rwa [attach_of_ne source he]

/-- Who owns a context changes, and not what is attached to it. -/
theorem owned_sources {c : κ} {context : MainContext Nat SyncSource}
    (same : context.sources = (s.contexts c).sources) (c' : κ) :
    ((s.setContext c context).contexts c').sources = (s.contexts c').sources := by
  by_cases he : c' = c
  · subst he
    simpa [setContext] using same
  · simp [setContext, he]

theorem mem_owned {c c' : κ} {context : MainContext Nat SyncSource} {source : SyncSource}
    (same : context.sources = (s.contexts c).sources) :
    source ∈ ((s.setContext c context).contexts c').sources ↔
      source ∈ (s.contexts c').sources := by
  rw [owned_sources same]

/-- The first source of a context is taken off it. -/
theorem popped_sublist {c : κ} {source : SyncSource} {rest : List SyncSource}
    (hs : (s.contexts c).sources = source :: rest) (c' : κ) :
    ((s.setContext c { s.contexts c with sources := rest }).contexts c').sources.Sublist
      (s.contexts c').sources := by
  by_cases he : c' = c
  · subst he
    simp [setContext, hs]
  · simp [setContext, he]

omit [DecidableEq κ] in
theorem coreSyncOnMainContextDone_fields (slot : Nat) (s : CoreSync κ) :
    (coreSyncOnMainContextDone slot s).history = s.history ∧
      (coreSyncOnMainContextDone slot s).contexts = s.contexts ∧
      (coreSyncOnMainContextDone slot s).threads = s.threads := by
  unfold coreSyncOnMainContextDone
  split <;> exact ⟨rfl, rfl, rfl⟩

/-- The event that a call with this sequence number waits for. -/
def CoreEvent.completes (seq : Int) : CoreEvent → Bool
  | .done id doneSeq => id = pwIdCore && doneSeq = seq
  | .error .. => false

def CoreEvent.fails (seq : Int) : CoreEvent → Bool
  | .done .. => false
  | .error id errorSeq _ _ => id = pwIdCore && errorSeq = seq

/-- What a call may return once its listener is removed. -/
def CoreSyncData.MayReturn (data : CoreSyncData κ) : SyncResult → Prop
  | .synced => data.mainContext = none ∨ data.mainContextDone = true
  | .failed _ _ => data.errorResult < 0
  | .waitFailed _ => data.done = false
  | .notStarted => False

/-- What the listener of a call does to its frame. -/
structure SyncFrame.After (event : CoreEvent) (frame after : SyncFrame κ) : Prop where
  call : after.call = frame.call
  thread : after.thread = frame.thread
  seq : after.data.seq = frame.data.seq
  mainContext : after.data.mainContext = frame.data.mainContext
  mainContextDone : after.data.mainContextDone = frame.data.mainContextDone
  processed : after.processed = frame.processed ++ [event]
  done : after.data.done = (frame.data.done || event.completes frame.data.seq)
  error : after.data.errorResult < 0 ↔
    frame.data.errorResult < 0 ∨ event.fails frame.data.seq = true

omit [DecidableEq κ] in
/-- An event that is not for the call only adds to what it has processed. -/
theorem SyncFrame.After.ignored {event : CoreEvent} {frame : SyncFrame κ}
    (incomplete : event.completes frame.data.seq = false)
    (unfailing : event.fails frame.data.seq = false) :
    frame.After event { frame with processed := frame.processed ++ [event] } where
  call := rfl
  thread := rfl
  seq := rfl
  mainContext := rfl
  mainContextDone := rfl
  processed := rfl
  done := by simp [incomplete]
  error := by simp [unfailing]

theorem coreSyncListener_some {slot : Nat} {frame : SyncFrame κ}
    (hf : s.frames slot = some frame) (event : CoreEvent) : ∃ after, frame.After event after ∧
      coreSyncListener event s slot =
        if event.completes frame.data.seq then
          coreSyncQueueMainContextDone slot after (s.setFrame slot (some after))
        else s.setFrame slot (some after) := by
  simp only [coreSyncListener, hf]
  cases event with
  | done id seq =>
    simp only [coreSyncOnDone]
    split
    next hother =>
      have incomplete : (CoreEvent.done id seq).completes frame.data.seq = false := by
        rcases hother with h | h <;> simp [CoreEvent.completes, h]
      exact ⟨_, .ignored incomplete rfl, by simp [incomplete]⟩
    next hours =>
      have completes : (CoreEvent.done id seq).completes frame.data.seq = true := by
        simpa [CoreEvent.completes, not_or] using hours
      refine ⟨{ frame with
        data := { frame.data with done := true }
        processed := frame.processed ++ [.done id seq] }, ?_, ?_⟩
      · exact ⟨rfl, rfl, rfl, rfl, rfl, rfl, by simp [completes], by simp [CoreEvent.fails]⟩
      · rw [if_pos completes]
        simp only [setFrame, Function.update_idem]
  | error id seq res message =>
    have incomplete : (CoreEvent.error id seq res message).completes frame.data.seq = false := rfl
    simp only [coreSyncOnError, incomplete]
    split
    next hother =>
      have unfailing : (CoreEvent.error id seq res message).fails frame.data.seq = false := by
        rcases hother with h | h <;> simp [CoreEvent.fails, h]
      exact ⟨_, .ignored incomplete unfailing, rfl⟩
    next hours =>
      have fails : (CoreEvent.error id seq res message).fails frame.data.seq = true := by
        simpa [CoreEvent.fails, not_or] using hours
      refine ⟨{ frame with
        data := { frame.data with
          errorResult := if res < 0 then res else -errorIo, errorMessage := message }
        processed := frame.processed ++ [.error id seq res message] }, ?_, ?_⟩
      · refine ⟨rfl, rfl, rfl, rfl, rfl, rfl, by simp [incomplete], ?_⟩
        simp only [fails, or_true, iff_true]
        split
        next negative => exact negative
        next => decide
      · simp [setFrame]

/-- What the listener of a call does, where the frame is still there. -/
inductive ListenerEffect (event : CoreEvent) (slot : Nat) (s : CoreSync κ) : CoreSync κ → Prop
  | absent : ListenerEffect event slot s s
  | processed (frame after : SyncFrame κ) : s.frames slot = some frame →
      frame.After event after → ListenerEffect event slot s (s.setFrame slot (some after))
  | attached (frame after : SyncFrame κ) (c : κ) : s.frames slot = some frame →
      frame.After event after → event.completes frame.data.seq = true →
      frame.data.mainContext = some c → ListenerEffect event slot s
        ((s.setFrame slot (some after)).attach c (.completion slot frame.call))

theorem coreSyncListener_effect (event : CoreEvent) (s : CoreSync κ) (slot : Nat) :
    ListenerEffect event slot s (coreSyncListener event s slot) := by
  cases hf : s.frames slot with
  | none =>
    have absent : coreSyncListener event s slot = s := by simp only [coreSyncListener, hf]
    rw [absent]
    exact .absent
  | some frame =>
    obtain ⟨after, ha, heq⟩ := coreSyncListener_some hf event
    rw [heq]
    split
    next completes =>
      unfold coreSyncQueueMainContextDone
      rw [ha.mainContext, ha.call]
      split
      next => exact .processed frame after hf ha
      next c hc => exact .attached frame after c hf ha completes hc
    next => exact .processed frame after hf ha

theorem coreSyncListener_history (event : CoreEvent) (s : CoreSync κ) (slot : Nat) :
    (coreSyncListener event s slot).history = s.history := by
  have effect := coreSyncListener_effect event s slot
  generalize coreSyncListener event s slot = t at effect ⊢
  cases effect <;> rfl

/-- What every listener keeps holds once all of them have been called. -/
theorem listeners_preserve {I : CoreSync κ → Prop} {event : CoreEvent}
    (preserved : ∀ s slot, I s → I (coreSyncListener event s slot)) (listeners : List Nat)
    (h : I s) : I (listeners.foldl (coreSyncListener event) s) := by
  induction listeners generalizing s with
  | nil => exact h
  | cons slot rest ih => exact ih (preserved s slot h)

theorem listeners_history (listeners : List Nat) (event : CoreEvent) (s : CoreSync κ) :
    (listeners.foldl (coreSyncListener event) s).history = s.history :=
  listeners_preserve (I := fun t => t.history = s.history)
    (fun t slot ht => (coreSyncListener_history event t slot).trans ht) listeners rfl

/-- A thread is not in the callback of a completion. -/
def CoreSync.Uncalled (thread : Nat) (s : CoreSync κ) : Prop :=
  ∀ c slot call, (s.threads thread).head? ≠ some (.callback c (.completion slot call))

omit [DecidableEq κ] in
theorem uncalled_of_runsApplication {thread : Nat} (h : s.runsApplication thread = true) :
    s.Uncalled thread := by
  intro c slot call hc
  obtain ⟨rest, hr⟩ := List.head?_eq_some_iff.mp hc
  simp [runsApplication, hr] at h

theorem uncalled_of_runsCall {slot : Nat} {frame : SyncFrame κ} (h : s.runsCall slot frame = true) :
    s.Uncalled frame.thread := by
  intro c slot' call hc
  simp [runsCall, hc] at h

/-- What a step does, and where it can be taken. -/
inductive SyncEffect (threadDefault : κ → Bool) (s : CoreSync κ) :
    SyncLabel κ → CoreSync κ → Prop
  | refused (slot thread : Nat) (mainContext : Option κ) (seq : Int) (timed ready : Bool)
      (frame : SyncFrame κ) : frame.call = s.history.length →
      SyncEffect threadDefault s (.enter slot thread mainContext seq timed ready)
        (s.record (.returned slot frame .notStarted))
  | entered (slot thread : Nat) (mainContext : Option κ) (seq : Int) (timed ready : Bool)
      (data : CoreSyncData κ) : data = { mainContext := mainContext, seq := seq } → 0 ≤ seq →
      s.Uncalled thread →
      SyncEffect threadDefault s (.enter slot thread mainContext seq timed ready)
        ((({ s with listeners := s.listeners ++ [slot] }.setFrame slot
          (some ⟨data, timed, thread, s.history.length, []⟩)).push thread (.call slot)).record
            (.entered slot))
  | core (event : CoreEvent) : SyncEffect threadDefault s (.core event)
      (s.listeners.foldl (coreSyncListener event) (s.record (.core event)))
  | inlined (c : κ) : SyncEffect threadDefault s (.hand c)
      (({ s with handed := s.handed + 1 }.record (.handed c s.handed)).record
        (.dispatched c s.handed))
  | attached (c : κ) : SyncEffect threadDefault s (.hand c)
      (({ s with handed := s.handed + 1 }.record (.handed c s.handed)).attach c
        (.event s.handed))
  | stayed {label : SyncLabel κ} (listeners : List Nat) (pending : κ → Option Nat) :
      SyncEffect threadDefault s label { s with listeners := listeners, pending := pending }
  | returned {label : SyncLabel κ} (slot : Nat) (frame : SyncFrame κ) (result : SyncResult)
      (listeners : List Nat) : s.frames slot = some frame → frame.data.MayReturn result →
      s.runsCall slot frame = true → SyncEffect threadDefault s label
        (returnSync slot frame result { s with listeners := listeners })
  | iterating {label : SyncLabel κ} (thread : Nat) (c : κ) (context : MainContext Nat SyncSource) :
      context.sources = (s.contexts c).sources → s.Uncalled thread →
      SyncEffect threadDefault s label
        (((s.setContext c context).setPending c none).push thread (.iteration c))
  | dispatched (thread : Nat) (c : κ) (source : SyncSource) (rest : List SyncSource)
      (pending : Nat) : s.Uncalled thread → (s.contexts c).sources = source :: rest →
      SyncEffect threadDefault s (.dispatch thread)
        (dispatchSource c source (callSource thread c source rest pending s))
  | ended {label : SyncLabel κ} (thread : Nat) (c : κ) (context : MainContext Nat SyncSource) :
      context.sources = (s.contexts c).sources →
      SyncEffect threadDefault s label ((s.setContext c context).pop thread)

theorem leaveWait_effect {slot : Nat} {frame : SyncFrame κ} {waitResult : Int}
    (hf : s.frames slot = some frame) (runs : s.runsCall slot frame = true)
    (label : SyncLabel κ) :
    SyncEffect threadDefault s label (leaveWait slot frame waitResult s) := by
  unfold leaveWait
  dsimp only
  split
  next failed => exact .returned slot frame _ _ hf failed runs
  next =>
    split
    next undone => exact .returned slot frame _ _ hf undone runs
    next =>
      split
      next noContext => exact .returned slot frame _ _ hf (.inl noContext) runs
      next => exact .stayed _ s.pending

theorem beginIteration_effect {thread : Nat} {c : κ} (uncalled : s.Uncalled thread)
    (h : beginIteration thread c s = some t) (label : SyncLabel κ) :
    SyncEffect threadDefault s label t := by
  obtain ⟨context, hc, rfl⟩ := Option.map_eq_some_iff.mp h
  refine .iterating thread c context ?_ uncalled
  unfold MainContext.acquire at hc
  split at hc
  next =>
    cases Option.some.inj hc
    rfl
  next => cases hc

theorem coreSyncStep_effect {label : SyncLabel κ}
    (h : coreSyncStep threadDefault s label = some t) : SyncEffect threadDefault s label t := by
  cases label with
  | enter slot thread mainContext seq timed ready =>
    simp only [coreSyncStep] at h
    split at h
    next free =>
      cases Option.some.inj h
      unfold enterSync
      dsimp only
      split
      next hready =>
        exact .entered slot thread mainContext seq timed ready _ rfl hready.2
          (uncalled_of_runsApplication free.2)
      next => exact .refused slot thread mainContext seq timed ready _ rfl
    next => cases h
  | core event =>
    cases Option.some.inj h
    exact .core event
  | hand c =>
    cases Option.some.inj h
    unfold handEvent
    dsimp only
    split
    next => exact .inlined c
    next => exact .attached c
  | wake slot =>
    simp only [coreSyncStep] at h
    split at h
    next frame hf =>
      split at h
      next waits =>
        split at h
        next =>
          cases Option.some.inj h
          exact leaveWait_effect hf waits.2 _
        next =>
          cases Option.some.inj h
          exact .stayed s.listeners s.pending
      next => cases h
    next => cases h
  | timeout slot waitResult =>
    simp only [coreSyncStep] at h
    split at h
    next frame hf =>
      split at h
      next waits =>
        cases Option.some.inj h
        exact leaveWait_effect hf waits.2.1 _
      next => cases h
    next => cases h
  | iterate thread c =>
    simp only [coreSyncStep] at h
    split at h
    next free => exact beginIteration_effect (uncalled_of_runsApplication free) h _
    next => cases h
  | iterateIn slot =>
    simp only [coreSyncStep] at h
    split at h
    next frame hf =>
      split at h
      next c hc =>
        split at h
        next runs => exact beginIteration_effect (uncalled_of_runsCall runs.2.1) h _
        next => cases h
      next => cases h
    next => cases h
  | check thread higher =>
    simp only [coreSyncStep] at h
    split at h
    next c below hstack =>
      split at h
      next =>
        cases Option.some.inj h
        exact .stayed s.listeners _
      next => cases h
    next => cases h
  | dispatch thread =>
    simp only [coreSyncStep] at h
    split at h
    next c below hstack =>
      split at h
      next n source rest hn hs =>
        cases Option.some.inj h
        refine .dispatched thread c source rest n ?_ hs
        simp [Uncalled, hstack]
      next => cases h
    next => cases h
  | detach thread =>
    simp only [coreSyncStep] at h
    split at h
    next c source below hstack =>
      cases Option.some.inj h
      have same : s.setContext c (s.contexts c) = s := by simp [setContext]
      simpa only [same] using SyncEffect.ended (s := s) thread c (s.contexts c) rfl
    next => cases h
  | iterated thread =>
    simp only [coreSyncStep] at h
    split at h
    next c below hstack =>
      split at h
      next =>
        cases Option.some.inj h
        exact .ended thread c _ rfl
      next => cases h
    next => cases h
  | finish slot =>
    simp only [coreSyncStep] at h
    split at h
    next frame hf =>
      split at h
      next runs =>
        cases Option.some.inj h
        exact .returned slot frame .synced s.listeners hf (.inr runs.2.2) runs.2.1
      next => cases h
    next => cases h

end PipewireGobject
