import PipewireGobject.StreamPhase
import PipewireGobject.BatchQueue

namespace PipewireGobject

variable {s : StreamRun} {rest : List StreamStmt} {i : StreamStmt} {outcome : StartOutcome}
  {c d : Config StreamRun StreamStmt} {label : Label StreamCall StartOutcome StreamCallback}

def StreamEvent.queueEvent : StreamEvent → Option QueueEvent
  | .blockQueued sequence => some (.queued sequence)
  | .blockDropped sequence => some (.dropped sequence)
  | .blockDiscarded sequence => some (.discarded sequence)
  | .taken batch => some (.taken batch)
  | .cleared => some .cleared
  | .audioBlock block => some (.delivered block.sequence)
  | _ => none

def blockLog (history : List StreamEvent) : List QueueEvent :=
  history.filterMap StreamEvent.queueEvent

/-- The blocks that a dispatch has taken and not handed out yet. -/
def StreamStmt.inFlight : StreamStmt → List Nat
  | .dispatchBlocks blocks => sequences blocks
  | _ => []

def inFlight (code : List StreamStmt) : List Nat := code.flatMap StreamStmt.inFlight

/-- The audio blocks of a stream as a queue of sequence numbers. -/
def streamBatchQueue (c : Config StreamRun StreamStmt) : BatchQueue where
  pending := sequences c.state.stream.pendingBlocks
  inFlight := inFlight c.code
  next := c.state.stream.nextSequence
  log := blockLog c.state.history

@[simp] theorem sequences_nil : sequences [] = [] := rfl

@[simp] theorem sequences_cons (block : PendingBlock) (blocks : List PendingBlock) :
    sequences (block :: blocks) = block.sequence :: sequences blocks := rfl

@[simp] theorem inFlight_nil : inFlight [] = [] := rfl

@[simp] theorem inFlight_cons : inFlight (i :: rest) = i.inFlight ++ inFlight rest := rfl

@[simp] theorem blockLog_nil : blockLog [] = [] := rfl

@[simp] theorem blockLog_append (xs ys : List StreamEvent) :
    blockLog (xs ++ ys) = blockLog xs ++ blockLog ys := List.filterMap_append

@[simp] theorem blockLog_cons (event : StreamEvent) (history : List StreamEvent) :
    blockLog (event :: history) = event.queueEvent.toList ++ blockLog history := by
  cases h : event.queueEvent <;> simp [blockLog, h]

@[simp] theorem blockLog_discarded (entries : List Nat) :
    blockLog (entries.map .blockDiscarded) = entries.map .discarded := by
  induction entries <;> simp_all [StreamEvent.queueEvent]

@[simp] theorem blockLog_dropped (entries : List Nat) :
    blockLog (entries.map .blockDropped) = entries.map .dropped := by
  induction entries <;> simp_all [StreamEvent.queueEvent]

theorem blockLog_ofEmission {events : List StreamEvent}
    (silent : ∀ e ∈ events, e.ofEmission = true) : blockLog events = [] := by
  refine List.filterMap_eq_nil_iff.mpr fun e he => ?_
  cases e with
  | notified | emitted => rfl
  | _ => cases silent _ he

theorem dropOldest_eq {α : Type} (limit : Nat) (entries : List α) :
    dropOldest limit entries = (newest limit entries, overflow limit entries) := by
  induction entries with
  | nil => simp [dropOldest, newest, overflow]
  | cons x xs ih =>
    unfold dropOldest
    split
    next h =>
      have hl : (x :: xs).length - limit = xs.length - limit + 1 := by
        simp only [List.length_cons] at h ⊢
        omega
      simp only [newest, overflow, hl, ih, List.drop_succ_cons, List.take_succ_cons]
    next h =>
      have hl : (x :: xs).length - limit = 0 := by omega
      simp only [newest, overflow, hl, List.drop_zero, List.take_zero]

theorem sequences_newest (limit : Nat) (blocks : List PendingBlock) :
    sequences (newest limit blocks) = newest limit (sequences blocks) := by
  simp [sequences, newest]

theorem sequences_overflow (limit : Nat) (blocks : List PendingBlock) :
    sequences (overflow limit blocks) = overflow limit (sequences blocks) := by
  simp [sequences, overflow]

/-- What one statement means for the queue of blocks. -/
theorem streamExec_batchQueue (choice : StartOutcome) (s : StreamRun) (i : StreamStmt)
    (rest : List StreamStmt) :
    streamBatchQueue ⟨(streamExec choice i s).1, (streamExec choice i s).2 ++ rest⟩ =
        streamBatchQueue ⟨s, i :: rest⟩ ∨
      ∃ label, (label = .take → i = .dispatchTake) ∧
        (streamBatchQueue ⟨s, i :: rest⟩).step maxPendingBlocks label = some
          (streamBatchQueue ⟨(streamExec choice i s).1, (streamExec choice i s).2 ++ rest⟩) := by
  by_cases he : i.ofEmission = true
  · obtain ⟨emissions, events, code, heq, silent, hcode⟩ := streamExec_ofEmission choice s he
    left
    rw [heq]
    have log : blockLog events = [] := blockLog_ofEmission silent
    have held : i.inFlight = [] := by
      cases i with
      | handlers | notify => rfl
      | _ => cases he
    rcases hcode with rfl | ⟨property, rfl⟩
    · simp [streamBatchQueue, log, held]
    · have none_held : (StreamStmt.handlers (some property)).inFlight = [] := rfl
      simp [streamBatchQueue, log, held, none_held]
  cases i with
  | handlers | notify => exact absurd rfl he
  | dispatchTake =>
    refine .inr ⟨.take, fun _ => rfl, ?_⟩
    simp [BatchQueue.step, streamBatchQueue, streamExec, streamTakePending, StreamStmt.inFlight,
      StreamEvent.queueEvent]
  | dispatchFormat format =>
    cases format <;> simp [streamBatchQueue, streamExec, StreamStmt.inFlight]
  | dispatchPeak peak =>
    cases peak with
    | none => simp [streamBatchQueue, streamExec, StreamStmt.inFlight]
    | some peak =>
      simp only [streamExec]
      split <;> simp [streamBatchQueue, StreamStmt.inFlight, StreamEvent.queueEvent]
  | dispatchGraphRate hasGraphRate graphRate revision =>
    simp only [streamExec]
    split <;> simp [streamBatchQueue, StreamStmt.inFlight, StreamEvent.queueEvent]
  | dispatchBlocks blocks =>
    cases blocks with
    | nil => simp [streamBatchQueue, streamExec, StreamStmt.inFlight]
    | cons block blocks =>
      simp only [streamExec]
      split
      · refine .inr ⟨.deliver, by simp, ?_⟩
        simp [BatchQueue.step, streamBatchQueue, StreamStmt.inFlight, StreamEvent.queueEvent]
      · refine .inr ⟨.discard, by simp, ?_⟩
        simp [BatchQueue.step, streamBatchQueue, StreamStmt.inFlight, StreamEvent.queueEvent]
  | start =>
    simp only [streamExec]
    split
    · simp [streamBatchQueue, StreamStmt.inFlight]
    · cases choice <;> simp [streamBatchQueue, StreamStmt.inFlight]
  | stopLoop wasRunning mark =>
    refine .inr ⟨.clear, by simp, ?_⟩
    simp only [streamExec, clearEvents]
    split <;> split <;>
      simp [BatchQueue.step, streamBatchQueue, StreamStmt.inFlight, streamClearPending,
        StreamEvent.queueEvent]
  | setDeliverAudioBlocks deliver =>
    simp only [streamExec]
    split <;> simp [streamBatchQueue, StreamStmt.inFlight]
  | _ => simp [streamBatchQueue, streamExec, StreamStmt.inFlight, StreamEvent.queueEvent]

/-- What the PipeWire thread does to the queue of blocks. -/
theorem streamCallback_batchQueue (event : StreamCallback) (s : StreamRun)
    (code : List StreamStmt) :
    streamBatchQueue ⟨streamCallback event s, code⟩ = streamBatchQueue ⟨s, code⟩ ∨
      (streamBatchQueue ⟨s, code⟩).step maxPendingBlocks .push =
        some (streamBatchQueue ⟨streamCallback event s, code⟩) := by
  cases event with
  | queuePeak peak =>
    simp [streamBatchQueue, streamCallback, streamQueuePeak, streamQueueDispatchLocked_eq,
      StreamEvent.queueEvent]
  | queueGraphRate rate =>
    simp only [streamCallback, streamQueueGraphRate]
    split <;> simp [streamBatchQueue, streamQueueDispatchLocked_eq]
  | queueFormat format =>
    simp [streamBatchQueue, streamCallback, streamQueueFormat, streamQueueDispatchLocked_eq]
  | queueAudioBlock block =>
    simp only [streamCallback]
    split
    next => exact .inl rfl
    next hd =>
      right
      have hs : sequences [{ block with sequence := s.stream.nextSequence }] =
          [s.stream.nextSequence] := rfl
      simp only [BatchQueue.step, streamBatchQueue, streamQueueAudioBlock, hd, if_false,
        dropOldest_eq, streamQueueDispatchLocked_eq, sequences_newest, sequences_overflow]
      simp [sequences, StreamEvent.queueEvent]

theorem streamComponent_batchQueue (h : streamComponent.step c label = some d) :
    streamBatchQueue d = streamBatchQueue c ∨
      ∃ label', (label' = .take → (∃ choice, label = .run choice) ∧
          c.code.head? = some .dispatchTake) ∧
        (streamBatchQueue c).step maxPendingBlocks label' = some (streamBatchQueue d) := by
  obtain ⟨s, code⟩ := c
  cases label with
  | call operation =>
    obtain ⟨-, r, hr, rfl⟩ := Component.step_call h
    obtain ⟨sources, rfl⟩ := streamCall_eq hr
    left
    cases operation <;> simp [streamBatchQueue, StreamStmt.inFlight, StreamCall.stmt]
  | run choice =>
    obtain ⟨i, rest, hc, rfl⟩ := Component.step_run h
    cases hc
    rcases streamExec_batchQueue choice s i rest with he | ⟨label', take, hs⟩
    · exact .inl he
    · exact .inr ⟨label', fun ht => ⟨⟨choice, rfl⟩, by simp [take ht]⟩, hs⟩
  | environment event =>
    obtain ⟨t, ht, rfl⟩ := Component.step_environment h
    obtain ⟨-, rfl⟩ := streamEnvironment_eq ht
    rcases streamCallback_batchQueue event s code with he | hs
    · exact .inl he
    · exact .inr ⟨.push, by simp, hs⟩

theorem streamBatchQueue_init : streamBatchQueue streamInit = {} := rfl

/-- Every run of a stream is a run of its queue of blocks. -/
theorem streamBatchQueue_reach {allowed : StreamRule}
    (h : Reach streamComponent.step allowed streamInit c) :
    Reach (BatchQueue.step maxPendingBlocks) anyStep {} (streamBatchQueue c) := by
  rw [← streamBatchQueue_init]
  refine h.simulate streamBatchQueue fun s label t _ _ hs => ?_
  rcases streamComponent_batchQueue hs with same | ⟨l, -, ht⟩
  · exact .inl same
  · exact .inr ⟨l, trivial, ht⟩

theorem streamExec_take_not_new : .dispatchTake ∉ (streamExec outcome i s).2 := by
  by_cases hp : i.publishes = true
  · intro hm
    simpa [StreamStmt.publishes] using
      (streamExec_publishes outcome s hp).2 _ hm
  cases i with
  | start =>
    simp only [streamExec]
    split
    · simp
    · cases outcome <;> simp
  | dispatchGraphRate hasGraphRate graphRate revision =>
    simp only [streamExec]
    split <;> simp
  | stopLoop wasRunning mark =>
    simp only [streamExec]
    split <;> split <;> simp
  | dispatchTake | startRunning | stop => simp [streamExec]
  | _ => simp [StreamStmt.publishes] at hp

/-- No handler iterates the main context: a dispatch starts where nothing else runs. -/
def FlatRun : StreamRule := fun c label => label = .call .iterate → c.code = []

instance (c : Config StreamRun StreamStmt)
    (label : Label StreamCall StartOutcome StreamCallback) : Decidable (FlatRun c label) :=
  inferInstanceAs (Decidable (_ → _))

theorem flatRun_take (h : Reach streamComponent.step FlatRun streamInit c)
    (ht : .dispatchTake ∈ c.code) : c.code = [.dispatchTake] := by
  refine h.invariant (I := fun c => .dispatchTake ∈ c.code → c.code = [.dispatchTake])
    (by simp [streamInit]) ?_ ht
  rintro ⟨s, code⟩ label d ih flat hs hm
  cases label with
  | call operation =>
    obtain ⟨ha, r, hr, rfl⟩ := Component.step_call hs
    have hno : .dispatchTake ∉ code := fun hm => by
      have hc : code = [.dispatchTake] := ih hm
      simp [hc, Component.applicationRuns, streamComponent] at ha
    obtain ⟨sources, rfl⟩ := streamCall_eq hr
    cases operation with
    | iterate =>
      have hc : code = [] := flat rfl
      simp [hc, StreamCall.stmt]
    | _ => simp [hno, StreamCall.stmt] at hm
  | run choice =>
    obtain ⟨i, rest, hc, rfl⟩ := Component.step_run hs
    cases hc
    have hno : .dispatchTake ∉ rest := fun hm => by
      have hc : i :: rest = [.dispatchTake] := ih (by simp [hm])
      simp_all
    exact absurd hm (by simp [streamComponent, hno, streamExec_take_not_new])
  | environment event =>
    obtain ⟨t, -, rfl⟩ := Component.step_environment hs
    exact ih hm

/-- In a flat run a batch is taken only where the one before has been handed out. -/
theorem streamBatchQueue_inOrder (h : Reach streamComponent.step FlatRun streamInit c) :
    Reach (BatchQueue.step maxPendingBlocks) BatchQueue.InOrder {} (streamBatchQueue c) := by
  rw [← streamBatchQueue_init]
  refine h.simulate streamBatchQueue fun s label t hr _ hs => ?_
  rcases streamComponent_batchQueue hs with same | ⟨l, take, ht⟩
  · exact .inl same
  refine .inr ⟨l, fun hl => ?_, ht⟩
  have hc : s.code = [.dispatchTake] := flatRun_take hr (List.mem_of_mem_head? (take hl).2)
  exact .inl (by simp [streamBatchQueue, hc, StreamStmt.inFlight])

def audioBlockOf (data : List UInt8) : PendingBlock :=
  ⟨data, "F32", 48000, 2, 4, 1, 0, .number 0⟩

/-- A session with one block more than there is room for, and a stop before the last two. -/
def overflowingSession : List (Label StreamCall StartOutcome StreamCallback) :=
  .call .start :: List.replicate 4 (.run .started) ++
    List.replicate 65 (.environment (.queueAudioBlock (audioBlockOf [0]))) ++
    .call .iterate :: List.replicate 127 (.run .started) ++
    [.call .stop] ++ List.replicate 9 (.run .started)

def overflowed : Config StreamRun StreamStmt :=
  final streamComponent.step streamInit overflowingSession

end PipewireGobject
