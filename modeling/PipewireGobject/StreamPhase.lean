import PipewireGobject.Stream

namespace PipewireGobject

/-- A restriction on the steps of a stream. -/
abbrev StreamRule :=
  Config StreamRun StreamStmt → Label StreamCall StartOutcome StreamCallback → Prop

variable {allowed : StreamRule}
variable {s t : StreamRun} {code rest : List StreamStmt} {i : StreamStmt} {outcome : StartOutcome}

/-- Statements that notify of a property, or end the handlers of a signal. -/
def StreamStmt.ofEmission : StreamStmt → Bool
  | .handlers _ | .notify _ => true
  | _ => false

def StreamEvent.ofEmission : StreamEvent → Bool
  | .notified _ | .emitted _ _ => true
  | _ => false

/-- They tell of emissions only, and at most hand control to handlers. -/
theorem streamExec_ofEmission (outcome : StartOutcome) (s : StreamRun)
    (hi : i.ofEmission = true) : ∃ emissions events code,
      streamExec outcome i s = ({ s with emissions := emissions }.record events, code) ∧
      (∀ e ∈ events, e.ofEmission = true) ∧
      (code = [] ∨ ∃ property, code = [.handlers (some property)]) := by
  cases i with
  | handlers notified =>
    cases notified with
    | none => exact ⟨s.emissions, [], [], by simp [streamExec, StreamRun.record], by simp, .inl rfl⟩
    | some property =>
      refine ⟨_, _, _, rfl, ?_, ?_⟩ <;> split <;> simp [StreamEvent.ofEmission]
  | notify property =>
    refine ⟨_, _, _, rfl, ?_, ?_⟩ <;> split <;> simp [StreamEvent.ofEmission]
  | _ => cases hi

/-- Statements that only publish what earlier ones took, and hand control to handlers. -/
def StreamStmt.publishes : StreamStmt → Bool
  | .handlers _ | .notify _ | .dispatchFormat _ | .dispatchPeak _ | .emitLevel _ | .dispatchBlocks _
  | .stopReturn _ | .setDeliverAudioBlocks _ => true
  | _ => false

/-- What the two threads share, and the counters, are the same in both states. -/
structure SameQueue (s t : StreamRun) : Prop where
  running : t.stream.running = s.stream.running
  threadLoop : t.stream.threadLoop = s.stream.threadLoop
  graphRate : t.stream.graphRate = s.stream.graphRate
  observedGraphRate : t.stream.observedGraphRate = s.stream.observedGraphRate
  hasPendingGraphRate : t.stream.hasPendingGraphRate = s.stream.hasPendingGraphRate
  pendingGraphRate : t.stream.pendingGraphRate = s.stream.pendingGraphRate
  graphRateRevision : t.stream.graphRateRevision = s.stream.graphRateRevision
  hasPendingPeak : t.stream.hasPendingPeak = s.stream.hasPendingPeak
  pendingBlocks : t.stream.pendingBlocks = s.stream.pendingBlocks
  nextSequence : t.stream.nextSequence = s.stream.nextSequence
  peaksQueued : t.peaksQueued = s.peaksQueued
  oldestPeak : t.oldestPeak = s.oldestPeak
  snapshots : t.snapshots = s.snapshots
  observed : t.observed = s.observed

theorem streamExec_publishes (outcome : StartOutcome) (s : StreamRun)
    (hi : i.publishes = true) :
    SameQueue s (streamExec outcome i s).1 ∧
      ∀ j ∈ (streamExec outcome i s).2, j.publishes = true := by
  have same : SameQueue s s := by constructor <;> rfl
  by_cases he : i.ofEmission = true
  · obtain ⟨emissions, events, code, heq, -, hcode⟩ := streamExec_ofEmission outcome s he
    rw [heq]
    refine ⟨by constructor <;> rfl, ?_⟩
    rcases hcode with rfl | ⟨property, rfl⟩ <;> simp [StreamStmt.publishes]
  cases i with
  | dispatchFormat format =>
    cases format with
    | none => exact ⟨same, by simp [streamExec]⟩
    | some format => exact ⟨by constructor <;> rfl, by simp [streamExec, StreamStmt.publishes]⟩
  | dispatchPeak peak =>
    cases peak with
    | none => exact ⟨same, by simp [streamExec]⟩
    | some peak =>
      simp only [streamExec]
      split
      · exact ⟨by constructor <;> rfl, by simp [StreamStmt.publishes]⟩
      · exact ⟨same, by simp⟩
  | emitLevel peak => exact ⟨by constructor <;> rfl, by simp [streamExec, StreamStmt.publishes]⟩
  | dispatchBlocks blocks =>
    cases blocks with
    | nil => exact ⟨same, by simp [streamExec]⟩
    | cons block blocks =>
      simp only [streamExec]
      split <;> exact ⟨by constructor <;> rfl, by simp [StreamStmt.publishes]⟩
  | stopReturn mark => exact ⟨by constructor <;> rfl, by simp [streamExec]⟩
  | setDeliverAudioBlocks deliver =>
    simp only [streamExec]
    split
    · exact ⟨same, by simp⟩
    · exact ⟨by constructor <;> rfl, by simp [StreamStmt.publishes]⟩
  | handlers notified | notify property => exact absurd rfl he
  | _ => simp [StreamStmt.publishes] at hi

/-- The thread loop has changed and `running` has not, or the other way round; only the
PipeWire thread can interfere. -/
def StreamStmt.midway : StreamStmt → Bool
  | .startRunning | .stopLoop _ _ => true
  | _ => false

structure StreamPhase (s : StreamRun) (code : List StreamStmt) : Prop where
  settled : (∀ i ∈ code, i.midway = false) → s.stream.running = s.stream.threadLoop
  midway_next : ∀ i ∈ code.tail, i.midway = false
  starting : .startRunning ∈ code → s.stream.threadLoop = true
  stopping : ∀ wasRunning mark, .stopLoop wasRunning mark ∈ code → s.stream.running = false

theorem StreamPhase.running_loop (h : StreamPhase s code) (hr : s.stream.running = true) :
    s.stream.threadLoop = true := by
  by_cases hs : .startRunning ∈ code
  · exact h.starting hs
  · rw [← hr]
    refine (h.settled ?_).symm
    intro i hi
    cases i with
    | startRunning => exact absurd hi hs
    | stopLoop wasRunning mark => simp [h.stopping wasRunning mark hi] at hr
    | _ => rfl

/-- A statement that is not midway leaves the stream settled, whatever it puts in its place. -/
theorem StreamPhase.of_settled
    (quiet : ∀ i ∈ code, i.midway = false) (same : s.stream.running = s.stream.threadLoop) :
    StreamPhase s code where
  settled _ := same
  midway_next i hi := quiet i (List.mem_of_mem_tail hi)
  starting h := by simpa [StreamStmt.midway] using quiet _ h
  stopping wasRunning mark h := by simpa [StreamStmt.midway] using quiet _ h

theorem StreamPhase.head_settled (h : StreamPhase s (i :: rest)) (hi : i.midway = false) :
    s.stream.running = s.stream.threadLoop := by
  refine h.settled ?_
  intro j hj
  rcases List.mem_cons.mp hj with rfl | hj
  · exact hi
  · exact h.midway_next j hj

theorem midway_of_publishes (hi : i.publishes = true) : i.midway = false := by
  cases i <;> simp_all [StreamStmt.publishes, StreamStmt.midway]

theorem StreamPhase.run (h : StreamPhase s (i :: rest)) :
    StreamPhase (streamExec outcome i s).1 ((streamExec outcome i s).2 ++ rest) := by
  have quiet : ∀ j ∈ rest, j.midway = false := h.midway_next
  by_cases hp : i.publishes = true
  · obtain ⟨hsame, hnew⟩ := streamExec_publishes outcome s hp
    refine .of_settled ?_ ?_
    · intro j hj
      exact (List.mem_append.mp hj).elim (fun hj => midway_of_publishes (hnew j hj)) (quiet j)
    · rw [hsame.running, hsame.threadLoop, h.head_settled (midway_of_publishes hp)]
  cases i with
  | dispatchTake =>
    exact .of_settled (by simpa [streamExec, StreamStmt.midway] using quiet) (h.head_settled rfl)
  | dispatchGraphRate hasGraphRate graphRate revision =>
    have same := h.head_settled rfl
    simp only [streamExec]
    split
    · exact .of_settled (by simpa [StreamStmt.midway] using quiet) same
    · exact .of_settled quiet same
  | start =>
    have same := h.head_settled rfl
    simp only [streamExec]
    split
    next => exact .of_settled quiet same
    next hr =>
      cases outcome with
      | nothingCreated => exact .of_settled quiet same
      | failed => exact .of_settled (by simpa [StreamStmt.midway] using quiet) same
      | started =>
        exact {
          settled := fun hq => by simpa [StreamStmt.midway] using hq .startRunning (by simp)
          midway_next := by simpa using quiet
          starting := fun _ => rfl
          stopping := fun _ _ _ => by simpa using hr }
  | startRunning =>
    refine .of_settled (by simpa [StreamStmt.midway, streamExec] using quiet) ?_
    exact (h.starting (by simp)).symm
  | stop =>
    exact {
      settled := fun hq => by
        have := hq (.stopLoop s.stream.running s.mark) (by simp [streamExec])
        simp [StreamStmt.midway] at this
      midway_next := by simpa [streamExec] using quiet
      starting := fun hm => by
        have := quiet .startRunning (by simpa [streamExec] using hm)
        simp [StreamStmt.midway] at this
      stopping := fun _ _ _ => rfl }
  | stopLoop wasRunning mark =>
    refine .of_settled ?_ (h.stopping wasRunning mark (by simp))
    simp only [streamExec]
    split <;> split <;> simpa [StreamStmt.midway] using quiet
  | _ => simp [StreamStmt.publishes] at hp

/-- The application has control at the start and while handlers run. -/
theorem applicationRuns_code (ha : streamComponent.applicationRuns code = true) :
    code = [] ∨ ∃ notified rest, code = .handlers notified :: rest := by
  cases code with
  | nil => exact .inl rfl
  | cons i rest =>
    cases i with
    | handlers notified => exact .inr ⟨notified, rest, rfl⟩
    | _ => cases ha

theorem StreamPhase.quiet (h : StreamPhase s code)
    (ha : streamComponent.applicationRuns code = true) : ∀ i ∈ code, i.midway = false := by
  rcases applicationRuns_code ha with rfl | ⟨notified, rest, rfl⟩
  · simp
  · simpa [StreamStmt.midway] using h.midway_next

/-- The statement an operation begins with. -/
def StreamCall.stmt : StreamCall → StreamStmt
  | .iterate => .dispatchTake
  | .start => .start
  | .stop => .stop
  | .setDeliverAudioBlocks deliver => .setDeliverAudioBlocks deliver

theorem StreamCall.stmt_midway (operation : StreamCall) : operation.stmt.midway = false := by
  cases operation <;> rfl

theorem streamCall_eq {r : StreamRun × List StreamStmt} {operation : StreamCall}
    (hr : streamComponent.call operation s = some r) :
    ∃ sources, r = ({ s with stream := { s.stream with sources := sources } },
      [operation.stmt]) := by
  cases operation with
  | iterate =>
    simp only [streamComponent, streamCall] at hr
    split at hr
    next => simp at hr
    next => exact ⟨_, (Option.some.inj hr).symm⟩
  | _ => exact ⟨_, (Option.some.inj hr).symm⟩

theorem streamEnvironment_eq {event : StreamCallback}
    (ht : streamComponent.environment event s = some t) :
    s.stream.threadLoop = true ∧ t = streamCallback event s := by
  simp only [streamComponent, streamEnvironment] at ht
  split at ht
  next hl => exact ⟨hl, (Option.some.inj ht).symm⟩
  next => simp at ht

theorem streamQueueDispatchLocked_eq (s : Stream) :
    streamQueueDispatchLocked s = { s with
      dispatchPending := true
      sources := if s.dispatchPending then s.sources else s.sources + 1 } := by
  unfold streamQueueDispatchLocked
  split
  next h => cases s; simp_all
  next => rfl

/-- The PipeWire thread only queues. -/
theorem streamCallback_frame (event : StreamCallback) :
    (streamCallback event s).stream.running = s.stream.running ∧
      (streamCallback event s).stream.threadLoop = s.stream.threadLoop ∧
      (streamCallback event s).stream.deliverAudioBlocks = s.stream.deliverAudioBlocks := by
  cases event with
  | queuePeak peak => simp [streamCallback, streamQueuePeak, streamQueueDispatchLocked_eq]
  | queueGraphRate rate =>
    simp only [streamCallback, streamQueueGraphRate]
    split <;> simp [streamQueueDispatchLocked_eq]
  | queueFormat format => simp [streamCallback, streamQueueFormat, streamQueueDispatchLocked_eq]
  | queueAudioBlock block =>
    simp only [streamCallback]
    split
    · simp
    · simp [streamQueueAudioBlock, streamQueueDispatchLocked_eq, *]

theorem streamPhase_preserves : streamComponent.Preserves allowed StreamPhase where
  call operation s code r h ha _ hr := by
    obtain ⟨sources, rfl⟩ := streamCall_eq hr
    refine .of_settled ?_ (h.settled (h.quiet ha))
    simpa [operation.stmt_midway] using h.quiet ha
  run _ _ _ _ h _ := h.run
  environment event s code t h _ ht := by
    obtain ⟨-, rfl⟩ := streamEnvironment_eq ht
    obtain ⟨hr, hl, -⟩ := streamCallback_frame (s := s) event
    exact { h with
      settled := by rw [hr, hl]; exact h.settled
      starting := by rw [hl]; exact h.starting
      stopping := by rw [hr]; exact h.stopping }

theorem streamPhase_init : StreamPhase streamInit.state streamInit.code :=
  .of_settled (by simp [streamInit]) rfl

/-- The notification whose handlers a statement stands for. -/
def StreamStmt.emission : StreamStmt → Option StreamProperty
  | .handlers notified => notified
  | _ => none

theorem streamExec_unemitted (outcome : StartOutcome) (s : StreamRun)
    (hi : i.ofEmission = false) : (streamExec outcome i s).1.emissions = s.emissions ∧
      (streamExec outcome i s).2.filterMap StreamStmt.emission = [] := by
  cases i with
  | handlers | notify => cases hi
  | dispatchFormat format => cases format <;> exact ⟨rfl, rfl⟩
  | dispatchGraphRate hasGraphRate graphRate revision =>
    simp only [streamExec]
    split <;> exact ⟨rfl, rfl⟩
  | dispatchPeak peak =>
    cases peak with
    | none => exact ⟨rfl, rfl⟩
    | some peak =>
      simp only [streamExec]
      split <;> exact ⟨rfl, rfl⟩
  | dispatchBlocks blocks =>
    cases blocks with
    | nil => exact ⟨rfl, rfl⟩
    | cons block blocks =>
      simp only [streamExec]
      split <;> exact ⟨rfl, rfl⟩
  | start =>
    simp only [streamExec]
    split
    · exact ⟨rfl, rfl⟩
    · cases outcome <;> exact ⟨rfl, rfl⟩
  | stopLoop wasRunning mark =>
    refine ⟨rfl, ?_⟩
    simp only [streamExec]
    split <;> split <;> rfl
  | setDeliverAudioBlocks deliver =>
    simp only [streamExec]
    split <;> exact ⟨rfl, rfl⟩
  | dispatchTake | emitLevel | startRunning | stop | stopReturn => exact ⟨rfl, rfl⟩

/-- The emissions in progress are those whose handlers the code stands for. -/
def StreamEmitting (s : StreamRun) (code : List StreamStmt) : Prop :=
  s.emissions.Follows (code.filterMap StreamStmt.emission)

theorem StreamEmitting.run (h : StreamEmitting s (i :: rest)) :
    StreamEmitting (streamExec outcome i s).1 ((streamExec outcome i s).2 ++ rest) := by
  unfold StreamEmitting at h ⊢
  rw [List.filterMap_append]
  by_cases he : i.ofEmission = true
  · cases i with
    | notify property =>
      have began : s.emissions.Follows (rest.filterMap StreamStmt.emission) := h
      have follows := began.emit (p := property)
      simp only [streamExec, streamNotify]
      split at follows
      next runs =>
        rw [if_pos runs, if_pos runs]
        exact follows
      next restarts =>
        rw [if_neg restarts, if_neg restarts]
        exact follows
    | handlers notified =>
      cases notified with
      | none => exact h
      | some property =>
        have inside : s.emissions.Follows (property :: rest.filterMap StreamStmt.emission) := h
        have follows := inside.handled
        simp only [streamExec, streamHandled]
        split at follows
        next again =>
          rw [if_pos again, if_pos again]
          exact follows
        next unrestarted =>
          rw [if_neg unrestarted, if_neg unrestarted]
          exact follows
    | _ => cases he
  · rw [Bool.not_eq_true] at he
    obtain ⟨same, none_new⟩ := streamExec_unemitted outcome s he
    have unemitted : i.emission = none := by
      cases i with
      | handlers => cases he
      | _ => rfl
    rw [List.filterMap_cons_none unemitted] at h
    rw [same, none_new]
    exact h

theorem streamCallback_emissions (event : StreamCallback) (s : StreamRun) :
    (streamCallback event s).emissions = s.emissions := by
  cases event with
  | queueAudioBlock block =>
    simp only [streamCallback]
    split <;> rfl
  | _ => rfl

theorem streamEmitting_preserves : streamComponent.Preserves allowed StreamEmitting where
  call operation s code r h _ _ hr := by
    obtain ⟨sources, rfl⟩ := streamCall_eq hr
    cases operation <;> exact h
  run _ _ _ _ h _ := h.run
  environment event s code t h _ ht := by
    obtain ⟨-, rfl⟩ := streamEnvironment_eq ht
    unfold StreamEmitting
    rw [streamCallback_emissions]
    exact h

theorem streamEmitting_init : StreamEmitting streamInit.state streamInit.code :=
  Emissions.follows_nil

end PipewireGobject
