import PipewireGobject.SyncSources

namespace PipewireGobject

open CoreSync

/-- A call that has processed these events leaves no source attached that has its frame as data, in
every run in which calls begin on fresh frames and, unless it is `shared`, no other thread iterates
the context of the call. -/
def SyncDetaches {κ : Type} [DecidableEq κ] (threadDefault : κ → Bool) (shared : Bool)
    (mainContext : Option κ) (seq : Int) (events : List CoreEvent) : Prop :=
  ∀ (s : CoreSync κ) (slot : Nat) (frame : SyncFrame κ) (result : SyncResult),
    Reach (coreSyncStep threadDefault) (SyncAllowed shared slot frame.call) {} s →
    s.history.getLast? = some (.returned slot frame result) →
    frame.data.mainContext = mainContext → frame.data.seq = seq → frame.processed = events →
    s.Detached slot frame.call

/-- The sources of a call that begins in the handler of an event, where another event is handed
over after each of its completions. -/
def handedBetween (completions : Nat) : List SyncSource :=
  (List.range completions).flatMap fun i => [.completion 0 2, .event (i + 1)]

theorem handedBetween_succ (n : Nat) :
    handedBetween (n + 1) = handedBetween n ++ [.completion 0 2, .event (n + 1)] := by
  simp [handedBetween, List.range_succ]

theorem handedBetween_cons (n : Nat) :
    ∃ rest, handedBetween (n + 1) = .completion 0 2 :: .event 1 :: rest := by
  simp [handedBetween, List.range_succ_eq_map]

theorem handedBetween_twice (n : Nat) : ∃ rest,
    handedBetween (n + 2) = .completion 0 2 :: .event 1 :: .completion 0 2 :: rest := by
  simp [handedBetween, List.range_succ_eq_map]

variable {κ : Type} {s t : CoreSync κ}

/-- What the threads are in when the first one has called from the handler of an event, or has
called while another thread is in that. -/
def callingThreads (c : κ) (handler : Nat) : Nat → List (SyncActivity κ) :=
  let threads := Function.update (fun _ => []) handler [.callback c (.event 0), .iteration c]
  Function.update threads 0 (.call 0 :: threads 0)

/-- The first call waits and has processed some events. -/
structure SyncWaiting (c : κ) (handler : Nat) (seq : Int) (events : List CoreEvent)
    (frame : SyncFrame κ) (s : CoreSync κ) : Prop where
  frames : s.frames = Function.update (fun _ => none) 0 (some frame)
  threads : s.threads = callingThreads c handler
  listeners : s.listeners = [0]
  thread : frame.thread = 0
  call : frame.call = 2
  mainContext : frame.data.mainContext = some c
  unflagged : frame.data.mainContextDone = false
  sent : frame.data.seq = seq
  processed : frame.processed = events
  done : frame.data.done = events.any (·.completes seq)
  error : frame.data.errorResult < 0 ↔ events.any (·.fails seq) = true
  context : s.contexts c =
    ⟨some handler, 1, handedBetween (events.countP (·.completes seq))⟩
  pending : s.pending c = some 0
  handed : s.handed = events.countP (·.completes seq) + 1

section Waiting

variable {c : κ} {handler : Nat} {seq : Int} {events : List CoreEvent}
  {frame : SyncFrame κ} {shared : Bool}

/-- Only the first thread does anything. -/
structure Alone (s : CoreSync κ) : Prop where
  threads : ∀ thread, thread ≠ 0 → s.threads thread = []
  frames : ∀ slot frame, s.frames slot = some frame → frame.thread = 0

theorem Alone.iteratedByCaller (h : Alone s) (slot call : Nat) :
    IteratedByCaller slot call s := by
  intro frame c hf _ hc thread activity hm he
  rw [h.frames slot frame hf]
  by_contra hne
  simp [h.threads thread hne] at hm

theorem alone_calling (frames : s.frames = Function.update (fun _ => none) 0 (some frame))
    (thread : frame.thread = 0) (threads : s.threads = callingThreads c 0) : Alone s where
  threads thread hne := by simp [threads, callingThreads, hne]
  frames slot frame' hf := by
    rw [frames] at hf
    by_cases he : slot = 0
    · subst he
      cases Option.some.inj (by simpa using hf)
      exact thread
    · simp [he] at hf

theorem SyncWaiting.allowed (h : SyncWaiting c handler seq events frame s)
    (own : shared = false → handler = 0) {label : SyncLabel κ} (fresh : SlotsFresh s label) :
    SyncAllowed shared 0 2 s label := by
  refine ⟨fresh, fun unshared => ?_⟩
  obtain rfl := own unshared
  exact (alone_calling h.frames h.thread h.threads).iteratedByCaller 0 2

theorem SyncWaiting.runsCall [DecidableEq κ] (h : SyncWaiting c handler seq events frame s) :
    s.runsCall 0 frame = true := by
  simp [CoreSync.runsCall, h.thread, h.threads, callingThreads]

variable [DecidableEq κ]

omit [DecidableEq κ] in
/-- The listener has been called for an event. -/
theorem SyncWaiting.after (h : SyncWaiting c handler seq events frame s) {event : CoreEvent}
    {next : SyncFrame κ} (ha : frame.After event next) (incomplete : event.completes seq = false) :
    SyncWaiting c handler seq (events ++ [event]) next
      ((s.record (.core event)).setFrame 0 (some next)) where
  frames := by simp [CoreSync.setFrame, record, h.frames]
  threads := h.threads
  listeners := h.listeners
  thread := ha.thread.trans h.thread
  call := ha.call.trans h.call
  mainContext := ha.mainContext.trans h.mainContext
  unflagged := ha.mainContextDone.trans h.unflagged
  sent := ha.seq.trans h.sent
  processed := by rw [ha.processed, h.processed]
  done := by simp [ha.done, h.done, h.sent]
  error := by simp [ha.error, h.error, h.sent]
  context := by
    rw [List.countP_append, List.countP_singleton, incomplete]
    exact h.context
  pending := h.pending
  handed := by
    rw [List.countP_append, List.countP_singleton, incomplete]
    exact h.handed

/-- The listener has been called for a completion, and then another event has been handed over. -/
theorem SyncWaiting.completed (h : SyncWaiting c handler seq events frame s) {event : CoreEvent}
    {next : SyncFrame κ} (ha : frame.After event next) (completes : event.completes seq = true) :
    SyncWaiting c handler seq (events ++ [event]) next
      (handEvent false c (((s.record (.core event)).setFrame 0 (some next)).attach c
        (.completion 0 next.call))) where
  frames := by simp [CoreSync.setFrame, record, handEvent, CoreSync.attach, setContext, h.frames]
  threads := h.threads
  listeners := h.listeners
  thread := ha.thread.trans h.thread
  call := ha.call.trans h.call
  mainContext := ha.mainContext.trans h.mainContext
  unflagged := ha.mainContextDone.trans h.unflagged
  sent := ha.seq.trans h.sent
  processed := by rw [ha.processed, h.processed]
  done := by simp [ha.done, h.done, h.sent]
  error := by simp [ha.error, h.error, h.sent]
  context := by
    rw [List.countP_append, List.countP_singleton, if_pos completes, handedBetween_succ, ha.call,
      h.call]
    simp [handEvent, CoreSync.attach, setContext, MainContext.attach, record, CoreSync.setFrame,
      h.context, h.handed]
  pending := h.pending
  handed := by
    rw [List.countP_append, List.countP_singleton, if_pos completes]
    simp [handEvent, CoreSync.attach, setContext, record, CoreSync.setFrame, h.handed]

theorem SyncWaiting.core (h : SyncWaiting c handler seq events frame s)
    (own : shared = false → handler = 0) (threadDefault : κ → Bool) (event : CoreEvent) :
    ∃ next t, Reach (coreSyncStep threadDefault) (SyncAllowed shared 0 2) s t ∧
      SyncWaiting c handler seq (events ++ [event]) next t := by
  have inProgress : s.frames 0 = some frame := by simp [h.frames]
  obtain ⟨next, ha, heq⟩ :=
    coreSyncListener_some (s := s.record (.core event)) inProgress event
  have step : coreSyncStep threadDefault s (.core event) =
      some (coreSyncListener event (s.record (.core event)) 0) := by
    simp [coreSyncStep, h.listeners]
  have allowed : SyncAllowed shared 0 2 s (.core event) := h.allowed own trivial
  have first := Reach.next .start allowed step
  rw [heq, h.sent] at first
  cases hcomp : event.completes seq with
  | false =>
    rw [hcomp, if_neg Bool.false_ne_true] at first
    exact ⟨next, _, first, h.after ha hcomp⟩
  | true =>
    have hc : next.data.mainContext = some c := ha.mainContext.trans h.mainContext
    rw [hcomp, if_pos rfl, coreSyncQueueMainContextDone, hc] at first
    dsimp only at first
    let queued := ((s.record (.core event)).setFrame 0 (some next)).attach c
      (.completion 0 next.call)
    have hand : coreSyncStep threadDefault queued (.hand c) = some (handEvent false c queued) := by
      have owner : (queued.contexts c).owner = some handler := by
        simp [queued, CoreSync.attach, setContext, MainContext.attach, record, CoreSync.setFrame,
          h.context]
      simp [coreSyncStep, handEvent, owner]
    have allowed : SyncAllowed shared 0 2 queued (.hand c) := by
      refine ⟨trivial, fun unshared => ?_⟩
      obtain rfl := own unshared
      have frames : queued.frames = Function.update (fun _ => none) 0 (some next) := by
        simp [queued, CoreSync.attach, setContext, record, CoreSync.setFrame, h.frames]
      exact (alone_calling frames (ha.thread.trans h.thread) h.threads).iteratedByCaller 0 2
    exact ⟨next, _, first.next allowed hand, h.completed ha hcomp⟩

/-- No call is in progress, and a thread handles an event. -/
structure SyncHandling (c : κ) (handler : Nat) (s : CoreSync κ) : Prop where
  frames : s.frames = fun _ => none
  threads : s.threads =
    Function.update (fun _ => []) handler [.callback c (.event 0), .iteration c]
  listeners : s.listeners = []
  contexts : s.contexts = Function.update (fun _ => {}) c ⟨some handler, 1, []⟩
  pending : s.pending c = some 0
  handed : s.handed = 1
  recorded : s.history.length = 2

omit [DecidableEq κ] in
theorem syncAllowed_idle (idle : s.frames = fun _ => none) {label : SyncLabel κ}
    (fresh : SlotsFresh s label) : SyncAllowed shared 0 2 s label := by
  refine ⟨fresh, fun _ frame c hf => ?_⟩
  rw [idle] at hf
  cases hf

theorem syncHandling_reach (threadDefault : κ → Bool) (c : κ) (handler : Nat) :
    ∃ s, Reach (coreSyncStep threadDefault) (SyncAllowed shared 0 2) {} s ∧
      SyncHandling c handler s := by
  let iterating : CoreSync κ := (({ : CoreSync κ}.setContext c ⟨some handler, 1, []⟩).setPending c
    none).push handler (.iteration c)
  let handed := ({ iterating with handed := 1 }.record (.handed c 0)).attach c (.event 0)
  let checked := handed.setPending c (some 1)
  let handling := dispatchSource c (.event 0) (callSource handler c (.event 0) [] 0 checked)
  have iterate : coreSyncStep threadDefault {} (.iterate handler c) = some iterating := by
    simp [coreSyncStep, runsApplication, beginIteration, MainContext.acquire, iterating]
  have hand : coreSyncStep threadDefault iterating (.hand c) = some handed := by
    simp [coreSyncStep, handEvent, iterating, handed, push, setStack, setPending, setContext]
  have check : coreSyncStep threadDefault handed (.check handler false) = some checked := by
    simp [coreSyncStep, iterating, handed, checked, push, setStack, setPending, setContext,
      CoreSync.attach, MainContext.attach, record]
  have dispatch : coreSyncStep threadDefault checked (.dispatch handler) = some handling := by
    simp [coreSyncStep, iterating, handed, checked, handling, push, setStack, setPending,
      setContext, CoreSync.attach, MainContext.attach, record]
  refine ⟨handling, ?_, ?_⟩
  · have r₁ : Reach (coreSyncStep threadDefault) (SyncAllowed shared 0 2) {} iterating :=
      .next .start (syncAllowed_idle rfl (show SlotsFresh {} (.iterate handler c) from trivial))
        iterate
    have r₂ := r₁.next
      (syncAllowed_idle rfl (show SlotsFresh iterating (.hand c) from trivial)) hand
    have r₃ := r₂.next
      (syncAllowed_idle rfl (show SlotsFresh handed (.check handler false) from trivial)) check
    exact r₃.next
      (syncAllowed_idle rfl (show SlotsFresh checked (.dispatch handler) from trivial)) dispatch
  · refine ⟨rfl, ?_, rfl, ?_, ?_, rfl, rfl⟩ <;>
      simp [handling, checked, handed, iterating, dispatchSource, callSource, push, setStack,
        setPending, setContext, CoreSync.attach, MainContext.attach, record]

theorem SyncHandling.enter (h : SyncHandling c handler s) (requested : 0 ≤ seq)
    (threadDefault : κ → Bool) : ∃ frame t,
      Reach (coreSyncStep threadDefault) (SyncAllowed shared 0 2) s t ∧
        SyncWaiting c handler seq [] frame t := by
  have free : s.runsApplication 0 = true := by
    unfold runsApplication
    rw [h.threads]
    by_cases he : 0 = handler
    · simp [← he]
    · simp [he]
  have fresh : SlotsFresh s (.enter 0 0 (some c) seq false true) := by
    intro c' source hs
    by_cases he : c' = c
    · simp [h.contexts, he] at hs
    · simp [h.contexts, he] at hs
  have step : coreSyncStep threadDefault s (.enter 0 0 (some c) seq false true) =
      some (enterSync 0 0 (some c) seq false true s) := if_pos ⟨by rw [h.frames], free⟩
  refine ⟨⟨{ mainContext := some c, seq := seq }, false, 0, 2, []⟩, _,
    .next .start (syncAllowed_idle h.frames fresh) step, ?_⟩
  simp only [enterSync, requested, and_self, if_true]
  refine ⟨?_, ?_, ?_, rfl, rfl, rfl, rfl, rfl, rfl, rfl, ?_, ?_, h.pending, h.handed⟩
  · simp [record, push, setStack, CoreSync.setFrame, h.frames, h.recorded]
  · simp [record, push, setStack, CoreSync.setFrame, h.threads, callingThreads]
  · simp [record, push, setStack, CoreSync.setFrame, h.listeners]
  · simp
  · simp [record, push, setStack, CoreSync.setFrame, h.contexts, handedBetween]

theorem syncWaiting_reach (shared : Bool) (handler : Nat) (own : shared = false → handler = 0)
    (requested : 0 ≤ seq) (threadDefault : κ → Bool) (c : κ) (events : List CoreEvent) :
    ∃ frame s,
      Reach (coreSyncStep threadDefault) (SyncAllowed shared 0 2) {} s ∧
        SyncWaiting c handler seq events frame s := by
  induction events using List.reverseRecOn with
  | nil =>
    obtain ⟨s, hs, handling⟩ := syncHandling_reach threadDefault c handler
    obtain ⟨frame, t, ht, waiting⟩ := handling.enter requested threadDefault
    exact ⟨frame, t, hs.trans ht, waiting⟩
  | append_singleton events event ih =>
    obtain ⟨frame, s, hr, waiting⟩ := ih
    obtain ⟨next, t, hs, waits⟩ := waiting.core own threadDefault event
    exact ⟨next, t, hr.trans hs, waits⟩

/-- A call that fails returns at once, whatever is attached. -/
theorem SyncWaiting.fail (h : SyncWaiting c handler seq events frame s)
    (fails : events.any (·.fails seq) = true) (threadDefault : κ → Bool) :
    coreSyncStep threadDefault s (.wake 0) = some (returnSync 0 frame
      (.failed frame.data.errorResult frame.data.errorMessage) { s with listeners := [] }) := by
  have error : frame.data.errorResult < 0 := h.error.mpr fails
  have nonzero : frame.data.errorResult ≠ 0 := by omega
  simp [coreSyncStep, h.frames, h.listeners, h.runsCall, leaveWait, error, nonzero]

/-- A call that succeeds goes on to iterate its context. -/
theorem SyncWaiting.leave (h : SyncWaiting c handler seq events frame s) (threadDefault : κ → Bool)
    (completes : events.countP (·.completes seq) ≠ 0)
    (unfailing : ¬ events.any (·.fails seq) = true) :
    coreSyncStep threadDefault s (.wake 0) = some { s with listeners := [] } := by
  have noError : ¬ frame.data.errorResult < 0 := fun negative => unfailing (h.error.mp negative)
  have done : frame.data.done = true := by
    rw [h.done, List.any_eq_true]
    exact List.countP_pos_iff.mp (Nat.pos_of_ne_zero completes)
  simp [coreSyncStep, h.frames, h.listeners, h.runsCall, leaveWait, noError, done, h.mainContext]

/-- Another thread is in the callback of a completion while the call returns. -/
theorem SyncWaiting.called (h : SyncWaiting c 1 seq events frame s) {n : Nat}
    (completes : events.countP (·.completes seq) = n + 1)
    (unfailing : ¬ events.any (·.fails seq) = true) (threadDefault : κ → Bool) :
    ∃ next t, Reach (coreSyncStep threadDefault) (SyncAllowed true 0 2) s t ∧
      t.history.getLast? = some (.returned 0 next .synced) ∧ next.call = 2 ∧
      next.data.mainContext = some c ∧ next.data.seq = seq ∧ next.processed = events ∧
      t.Attached c (.completion 0 2) := by
  obtain ⟨rest, hrest⟩ := handedBetween_cons n
  let flagged : SyncFrame κ := { frame with data := { frame.data with mainContextDone := true } }
  let woken := { s with listeners := [] }
  let handled := woken.pop 1
  let checked := handled.setPending c (some (rest.length + 2))
  let called := dispatchSource c (.completion 0 2)
    (callSource 1 c (.completion 0 2) (.event 1 :: rest) (rest.length + 1) checked)
  have wake : coreSyncStep threadDefault s (.wake 0) = some woken :=
    h.leave threadDefault (by omega) unfailing
  have detach : coreSyncStep threadDefault woken (.detach 1) = some handled := by
    simp [coreSyncStep, h.threads, callingThreads, woken, handled]
  have check : coreSyncStep threadDefault handled (.check 1 false) = some checked := by
    simp [coreSyncStep, woken, handled, checked, pop, setStack, h.threads, callingThreads,
      h.pending, h.context, completes, hrest]
  have dispatch : coreSyncStep threadDefault checked (.dispatch 1) = some called := by
    simp [coreSyncStep, woken, handled, checked, called, pop, setStack, setPending, h.threads,
      callingThreads, h.context, completes, hrest]
  have finish : coreSyncStep threadDefault called (.finish 0) =
      some (returnSync 0 flagged .synced called) := by
    simp [coreSyncStep, called, dispatch_completion, coreSyncOnMainContextDone, checked, handled,
      woken, h.frames, CoreSync.setFrame, callSource, push, pop, setStack, setPending, setContext,
      CoreSync.runsCall, h.thread, h.threads, callingThreads, flagged]
  refine ⟨flagged, returnSync 0 flagged .synced called, ?_, ?_, h.call, h.mainContext, h.sent,
    h.processed, .inr ⟨1, ?_⟩⟩
  · have allowed : ∀ (u : CoreSync κ) label, SlotsFresh u label → SyncAllowed true 0 2 u label :=
      fun u label fresh => ⟨fresh, fun unshared => by cases unshared⟩
    have r₁ := Reach.next .start (allowed s (.wake 0) trivial) wake
    have r₂ := r₁.next (allowed woken (.detach 1) trivial) detach
    have r₃ := r₂.next (allowed handled (.check 1 false) trivial) check
    have r₄ := r₃.next (allowed checked (.dispatch 1) trivial) dispatch
    exact r₄.next (allowed called (.finish 0) trivial) finish
  · simp [returnSync, record]
  · simp [returnSync, record, pop, setStack, CoreSync.setFrame, called, dispatch_completion,
      coreSyncOnMainContextDone, callSource, push, setPending, setContext, flagged, h.thread,
      checked, handled, woken, h.frames]

end Waiting

/-- What goes on in a call of the first thread: its frame, what the thread is in, and what is
left in the context of the call. -/
structure FirstThread (κ : Type) where
  frame : SyncFrame κ
  stack : List (SyncActivity κ)
  depth : Nat
  sources : List SyncSource
  pending : Option Nat
  recorded : List (SyncEvent κ) := []

section FirstThread

variable [DecidableEq κ] {threadDefault : κ → Bool} {c : κ} {x : FirstThread κ}
  {below : List (SyncActivity κ)} {shared : Bool}

def FirstThread.goesOn (c : κ) (x : FirstThread κ) (s : CoreSync κ) : CoreSync κ :=
  { s with
    contexts := Function.update s.contexts c ⟨some 0, x.depth, x.sources⟩
    pending := Function.update s.pending c x.pending
    frames := Function.update s.frames 0 (some x.frame)
    threads := Function.update s.threads 0 x.stack
    listeners := []
    history := s.history ++ x.recorded }

theorem Alone.goesOn (h : Alone s) (thread : x.frame.thread = 0) : Alone (x.goesOn c s) where
  threads thread hne := by simpa [FirstThread.goesOn, hne] using h.threads thread hne
  frames slot frame hf := by
    by_cases he : slot = 0
    · subst he
      cases Option.some.inj (by simpa [FirstThread.goesOn] using hf)
      exact thread
    · exact h.frames slot frame (by simpa [FirstThread.goesOn, he] using hf)

theorem FirstThread.iterateIn (thread : x.frame.thread = 0) (hc : x.frame.data.mainContext = some c)
    (unflagged : x.frame.data.mainContextDone = false) (stack : x.stack = .call 0 :: below) :
    coreSyncStep threadDefault (x.goesOn c s) (.iterateIn 0) = some
      ({ x with stack := .iteration c :: x.stack, depth := x.depth + 1, pending := none }.goesOn c
        s) := by
  simp [coreSyncStep, goesOn, CoreSync.runsCall, thread, hc, unflagged, stack, beginIteration,
    MainContext.acquire, push, setStack, setPending, setContext]

theorem FirstThread.iterate {number : Nat}
    (stack : x.stack = .callback c (.event number) :: below) :
    coreSyncStep threadDefault (x.goesOn c s) (.iterate 0 c) = some
      ({ x with stack := .iteration c :: x.stack, depth := x.depth + 1, pending := none }.goesOn c
        s) := by
  simp [coreSyncStep, goesOn, runsApplication, stack, beginIteration, MainContext.acquire, push,
    setStack, setPending, setContext]

theorem FirstThread.check (stack : x.stack = .iteration c :: below) (unchecked : x.pending = none)
    (higher : Bool) : coreSyncStep threadDefault (x.goesOn c s) (.check 0 higher) = some
      ({ x with pending := some (if higher then 0 else x.sources.length) }.goesOn c s) := by
  simp [coreSyncStep, goesOn, stack, unchecked, setPending]

theorem FirstThread.complete {call n : Nat} {rest : List SyncSource}
    (stack : x.stack = .iteration c :: below) (pending : x.pending = some (n + 1))
    (sources : x.sources = .completion 0 call :: rest) :
    coreSyncStep threadDefault (x.goesOn c s) (.dispatch 0) = some
      ({ x with
        frame := { x.frame with data := { x.frame.data with mainContextDone := true } }
        stack := .callback c (.completion 0 call) :: x.stack
        sources := rest
        pending := some n }.goesOn c s) := by
  simp [coreSyncStep, goesOn, stack, pending, sources, dispatchSource, callSource,
    coreSyncOnMainContextDone, CoreSync.setFrame, push, setStack, setPending, setContext]

theorem FirstThread.handle {number n : Nat} {rest : List SyncSource}
    (stack : x.stack = .iteration c :: below) (pending : x.pending = some (n + 1))
    (sources : x.sources = .event number :: rest) :
    coreSyncStep threadDefault (x.goesOn c s) (.dispatch 0) = some
      ({ x with
        stack := .callback c (.event number) :: x.stack
        sources := rest
        pending := some n
        recorded := x.recorded ++ [SyncEvent.dispatched c number] }.goesOn c s) := by
  simp [coreSyncStep, goesOn, stack, pending, sources, dispatchSource, callSource, record, push,
    setStack, setPending, setContext]

theorem FirstThread.detach {source : SyncSource} (stack : x.stack = .callback c source :: below) :
    coreSyncStep threadDefault (x.goesOn c s) (.detach 0) = some
      ({ x with stack := below }.goesOn c s) := by
  simp [coreSyncStep, goesOn, stack, pop, setStack]

theorem FirstThread.iterated {depth : Nat} (stack : x.stack = .iteration c :: below)
    (drained : x.pending = some 0) (nested : x.depth = depth + 2) :
    coreSyncStep threadDefault (x.goesOn c s) (.iterated 0) = some
      ({ x with stack := below, depth := depth + 1 }.goesOn c s) := by
  simp [coreSyncStep, goesOn, stack, drained, nested, pop, setStack, setContext,
    MainContext.release]

theorem FirstThread.finish (thread : x.frame.thread = 0) (stack : x.stack = .call 0 :: below)
    (flagged : x.frame.data.mainContextDone = true) :
    coreSyncStep threadDefault (x.goesOn c s) (.finish 0) =
      some (returnSync 0 x.frame .synced (x.goesOn c s)) := by
  simp [coreSyncStep, goesOn, CoreSync.runsCall, thread, flagged, stack]

theorem FirstThread.step (alone : Alone s) {t : CoreSync κ} (thread : x.frame.thread = 0)
    {label : SyncLabel κ} (fresh : SlotsFresh (x.goesOn c s) label)
    (step : coreSyncStep threadDefault (x.goesOn c s) label = some t)
    (h : Reach (coreSyncStep threadDefault) (SyncAllowed shared 0 2) s (x.goesOn c s)) :
    Reach (coreSyncStep threadDefault) (SyncAllowed shared 0 2) s t :=
  h.next ⟨fresh, fun _ => (alone.goesOn thread).iteratedByCaller 0 2⟩ step

/-- The handler of an event between two completions iterates the context, where a source of a higher
priority is ready, and so the second completion is not dispatched before the call returns. -/
theorem SyncWaiting.dropped {seq : Int} {events : List CoreEvent} {frame : SyncFrame κ}
    (h : SyncWaiting c 0 seq events frame s) {n : Nat}
    (completes : events.countP (·.completes seq) = n + 2)
    (unfailing : ¬ events.any (·.fails seq) = true) :
    ∃ next t, Reach (coreSyncStep threadDefault) (SyncAllowed shared 0 2) s t ∧
      t.history.getLast? = some (.returned 0 next .synced) ∧ next.call = 2 ∧
      next.data.mainContext = some c ∧ next.data.seq = seq ∧ next.processed = events ∧
      t.Attached c (.completion 0 2) := by
  obtain ⟨rest, hrest⟩ := handedBetween_twice n
  let x : FirstThread κ := ⟨frame, [.call 0, .callback c (.event 0), .iteration c], 1,
    .completion 0 2 :: .event 1 :: .completion 0 2 :: rest, some 0, []⟩
  have alone := alone_calling h.frames h.thread h.threads
  have leave : coreSyncStep threadDefault s (.wake 0) = some (x.goesOn c s) := by
    have goes : { s with listeners := [] } = x.goesOn c s := by
      simp [FirstThread.goesOn, x, h.frames, h.pending, h.context, completes, hrest, h.threads,
        callingThreads]
    rw [← goes]
    exact h.leave threadDefault (by omega) unfailing
  have r₀ : Reach (coreSyncStep threadDefault) (SyncAllowed shared 0 2) s (x.goesOn c s) :=
    .next .start (h.allowed (fun _ => rfl) (show SlotsFresh s (.wake 0) from trivial)) leave
  have r₁ := FirstThread.step alone h.thread (show SlotsFresh _ (.iterateIn 0) from trivial)
    (FirstThread.iterateIn h.thread h.mainContext h.unflagged rfl) r₀
  have r₂ := FirstThread.step alone h.thread (show SlotsFresh _ (.check 0 false) from trivial)
    (FirstThread.check rfl rfl false) r₁
  have r₃ := FirstThread.step alone h.thread (show SlotsFresh _ (.dispatch 0) from trivial)
    (FirstThread.complete rfl rfl rfl) r₂
  have r₄ := FirstThread.step alone h.thread (show SlotsFresh _ (.detach 0) from trivial)
    (FirstThread.detach rfl) r₃
  have r₅ := FirstThread.step alone h.thread (show SlotsFresh _ (.dispatch 0) from trivial)
    (FirstThread.handle rfl rfl rfl) r₄
  have r₆ := FirstThread.step alone h.thread (show SlotsFresh _ (.iterate 0 c) from trivial)
    (FirstThread.iterate rfl) r₅
  have r₇ := FirstThread.step alone h.thread (show SlotsFresh _ (.check 0 true) from trivial)
    (FirstThread.check rfl rfl true) r₆
  have r₈ := FirstThread.step alone h.thread (show SlotsFresh _ (.iterated 0) from trivial)
    (FirstThread.iterated rfl rfl rfl) r₇
  have r₉ := FirstThread.step alone h.thread (show SlotsFresh _ (.detach 0) from trivial)
    (FirstThread.detach rfl) r₈
  have r₁₀ := FirstThread.step alone h.thread (show SlotsFresh _ (.iterated 0) from trivial)
    (FirstThread.iterated rfl rfl rfl) r₉
  have r₁₁ := FirstThread.step alone h.thread (show SlotsFresh _ (.finish 0) from trivial)
    (FirstThread.finish h.thread rfl rfl) r₁₀
  refine ⟨_, _, r₁₁, List.getLast?_concat .., h.call, h.mainContext, h.sent, h.processed,
    .inl ?_⟩
  simp [returnSync, record, pop, setStack, CoreSync.setFrame, FirstThread.goesOn]

end FirstThread


theorem syncSources_detached [DecidableEq κ] {threadDefault : κ → Bool} {shared : Bool}
    {mainContext : Option κ} {seq : Int} {events : List CoreEvent} :
    SyncDetaches threadDefault shared mainContext seq events ↔
      SyncClean shared mainContext seq events := by
  constructor
  · intro detaches
    by_contra dirty
    simp only [SyncClean, not_or, not_and] at dirty
    obtain ⟨hctx, hseq, hattached, honce⟩ := dirty
    obtain ⟨c, rfl⟩ := Option.ne_none_iff_exists'.mp hctx
    have requested := Int.not_lt.mp hseq
    obtain ⟨n, hn⟩ := Nat.exists_eq_succ_of_ne_zero hattached
    by_cases fails : events.any (·.fails seq) = true
    · obtain ⟨frame, s, hr, waiting⟩ := syncWaiting_reach shared 0 (fun _ => rfl) requested
        threadDefault c events
      have failed := hr.next
        (waiting.allowed (fun _ => rfl) (show SlotsFresh s (.wake 0) from trivial))
        (waiting.fail fails threadDefault)
      rw [← waiting.call] at failed
      obtain ⟨rest, hrest⟩ := handedBetween_cons n
      refine detaches _ 0 frame _ failed (List.getLast?_concat ..) waiting.mainContext
        waiting.sent waiting.processed c (.inl ?_)
      simp [returnSync, record, pop, setStack, CoreSync.setFrame, waiting.context, hn, hrest,
        waiting.call]
    · have unfailing : events.countP (·.fails seq) = 0 := by
        rw [List.countP_eq_zero]
        simpa using fails
      cases shared with
      | true =>
        obtain ⟨frame, s, hr, waiting⟩ := syncWaiting_reach true 1 (fun h => by cases h)
          requested threadDefault c events
        obtain ⟨next, t, ht, last, call, hc, sent, processed, left⟩ :=
          waiting.called hn fails threadDefault
        have reached := hr.trans ht
        rw [← call] at reached left
        exact detaches t 0 next _ reached last hc sent processed c left
      | false =>
        obtain ⟨m, rfl⟩ : ∃ m, n = m + 1 :=
          Nat.exists_eq_succ_of_ne_zero fun hz => honce rfl (by omega) unfailing
        obtain ⟨frame, s, hr, waiting⟩ := syncWaiting_reach false 0 (fun _ => rfl)
          requested threadDefault c events
        obtain ⟨next, t, ht, last, call, hc, sent, processed, left⟩ := waiting.dropped hn fails
        have reached := hr.trans ht
        rw [← call] at reached left
        exact detaches t 0 next _ reached last hc sent processed c left
  · rintro clean s slot frame result hr last rfl rfl rfl
    exact reach_returnsDetached hr frame result last rfl clean

/-- The completion and an error of a call are processed before it gets the lock back. -/
def failedAfterDone : CoreSync Unit :=
  final (coreSyncStep fun _ => true) {}
    [.enter 0 0 (some ()) 1 true true, .core (.done 0 1), .core (.error 0 1 (-32) none), .wake 0]

theorem syncSources_detached_fails :
    Reach (coreSyncStep fun _ => true) anyStep {} failedAfterDone ∧
      failedAfterDone.history.getLast? = some (.returned 0
        ⟨⟨some (), 1, true, false, -32, none⟩, true, 0, 0, [.done 0 1, .error 0 1 (-32) none]⟩
        (.failed (-32) none)) ∧
      failedAfterDone.Attached () (.completion 0 0) :=
  ⟨reach_final (allAllowed_anyStep _ _), by decide +kernel, .inl (by decide +kernel)⟩

end PipewireGobject
