import PipewireGobject.StreamPhase

namespace PipewireGobject

/-- A peak, a format, a graph rate or a block waits to be dispatched. -/
def Stream.hasPending (s : Stream) : Bool :=
  s.hasPendingPeak || s.hasPendingFormat || s.hasPendingGraphRate || !s.pendingBlocks.isEmpty

/-- The dispatches to come: a source that is still attached, or one whose dispatch has not
taken the lock yet. -/
def unstartedDispatches (s : StreamRun) (code : List StreamStmt) : Nat :=
  s.stream.sources + code.count .dispatchTake

/-- One dispatch is to come while `dispatch_pending` is set, and none otherwise; it is set as
long as anything is pending. -/
structure StreamAwake (s : StreamRun) (code : List StreamStmt) : Prop where
  unstarted : unstartedDispatches s code = if s.stream.dispatchPending then 1 else 0
  awake : s.stream.hasPending = true → s.stream.dispatchPending = true

variable {s t : StreamRun} {code rest : List StreamStmt} {i : StreamStmt} {outcome : StartOutcome}
variable {allowed : StreamRule}

/-- Nothing is attached or queued between the two states. -/
structure SameDispatch (s t : Stream) : Prop where
  sources : t.sources = s.sources
  dispatchPending : t.dispatchPending = s.dispatchPending
  hasPending : t.hasPending = true → s.hasPending = true

theorem SameDispatch.refl (s : Stream) : SameDispatch s s where
  sources := rfl
  dispatchPending := rfl
  hasPending h := h

theorem streamExec_sameDispatch (outcome : StartOutcome) (s : StreamRun)
    (hi : i ≠ .dispatchTake) :
    SameDispatch s.stream (streamExec outcome i s).1.stream ∧
      (streamExec outcome i s).2.count .dispatchTake = 0 := by
  by_cases he : i.ofEmission = true
  · obtain ⟨emissions, events, code, heq, -, hcode⟩ := streamExec_ofEmission outcome s he
    rw [heq]
    refine ⟨.refl _, ?_⟩
    rcases hcode with rfl | ⟨property, rfl⟩ <;> simp
  cases i with
  | dispatchTake => exact absurd rfl hi
  | handlers | notify => exact absurd rfl he
  | dispatchFormat format =>
    cases format with
    | none => exact ⟨.refl _, by simp [streamExec]⟩
    | some format => exact ⟨⟨rfl, rfl, fun h => h⟩, by simp [streamExec]⟩
  | dispatchGraphRate hasGraphRate graphRate revision =>
    simp only [streamExec]
    split <;> exact ⟨⟨rfl, rfl, fun h => h⟩, by simp⟩
  | dispatchPeak peak =>
    cases peak with
    | none => exact ⟨.refl _, by simp [streamExec]⟩
    | some peak =>
      simp only [streamExec]
      split <;> exact ⟨⟨rfl, rfl, fun h => h⟩, by simp⟩
  | emitLevel peak => exact ⟨.refl _, by simp [streamExec]⟩
  | dispatchBlocks blocks =>
    cases blocks with
    | nil => exact ⟨.refl _, by simp [streamExec]⟩
    | cons block blocks =>
      simp only [streamExec]
      split <;> exact ⟨.refl _, by simp⟩
  | start =>
    simp only [streamExec]
    split
    · exact ⟨.refl _, by simp⟩
    · cases outcome <;> exact ⟨⟨rfl, rfl, fun h => h⟩, by simp⟩
  | startRunning => exact ⟨⟨rfl, rfl, fun h => h⟩, by simp [streamExec]⟩
  | stop => exact ⟨⟨rfl, rfl, fun h => h⟩, by simp [streamExec]⟩
  | stopLoop wasRunning mark =>
    -- dispatch_pending stays as it is, although nothing is pending any more
    refine ⟨⟨rfl, rfl, ?_⟩, ?_⟩
    · simp [streamExec, streamClearPending, Stream.hasPending]
    · simp only [streamExec]
      split <;> split <;> simp
  | stopReturn mark => exact ⟨.refl _, by simp [streamExec]⟩
  | setDeliverAudioBlocks deliver =>
    simp only [streamExec]
    split
    · exact ⟨.refl _, by simp⟩
    · exact ⟨⟨rfl, rfl, fun h => h⟩, by simp⟩

theorem StreamAwake.run (h : StreamAwake s (i :: rest)) :
    StreamAwake (streamExec outcome i s).1 ((streamExec outcome i s).2 ++ rest) := by
  have unstarted := h.unstarted
  unfold unstartedDispatches at unstarted
  by_cases hi : i = .dispatchTake
  · subst hi
    rw [List.count_cons_self] at unstarted
    have none : s.stream.sources + rest.count .dispatchTake = 0 := by
      split at unstarted <;> omega
    refine ⟨?_, ?_⟩
    · simpa [streamExec, streamTakePending, unstartedDispatches] using none
    · simp [streamExec, streamTakePending, Stream.hasPending]
  · obtain ⟨same, quiet⟩ := streamExec_sameDispatch outcome s hi
    rw [List.count_cons_of_ne (by simpa using hi)] at unstarted
    refine ⟨?_, ?_⟩
    · unfold unstartedDispatches
      rw [List.count_append, quiet, same.sources, same.dispatchPending, Nat.zero_add]
      exact unstarted
    · intro hp
      rw [same.dispatchPending]
      exact h.awake (same.hasPending hp)

/-- The source of a dispatch is taken off the context when the dispatch begins. -/
theorem StreamAwake.call {operation : StreamCall} {r : StreamRun × List StreamStmt}
    (h : StreamAwake s code) (hr : streamComponent.call operation s = some r) :
    StreamAwake r.1 (r.2 ++ code) := by
  have unstarted := h.unstarted
  unfold unstartedDispatches at unstarted
  cases operation with
  | iterate =>
    simp only [streamComponent, streamCall] at hr
    split at hr
    next => simp at hr
    next attached =>
      cases Option.some.inj hr
      refine ⟨?_, h.awake⟩
      show s.stream.sources - 1 + List.count _ (.dispatchTake :: code) = _
      rw [List.count_cons_self]
      show _ = if s.stream.dispatchPending then 1 else 0
      omega
  | start | stop | setDeliverAudioBlocks deliver =>
    cases Option.some.inj hr
    exact ⟨by simpa [unstartedDispatches] using unstarted, h.awake⟩

theorem StreamAwake.congr (h : StreamAwake s code) (same : t.stream = s.stream) :
    StreamAwake t code where
  unstarted := by
    unfold unstartedDispatches
    rw [same]
    exact h.unstarted
  awake := by
    rw [same]
    exact h.awake

/-- However a producer has changed what is pending, it then sees to a dispatch. -/
theorem StreamAwake.queue {stream : Stream} (h : StreamAwake s code)
    (ht : t.stream = streamQueueDispatchLocked stream)
    (sources : stream.sources = s.stream.sources)
    (dispatchPending : stream.dispatchPending = s.stream.dispatchPending) :
    StreamAwake t code := by
  have unstarted := h.unstarted
  unfold unstartedDispatches at unstarted
  have set : t.stream.dispatchPending = true := by rw [ht, streamQueueDispatchLocked_eq]
  have attached : t.stream.sources =
      if s.stream.dispatchPending then s.stream.sources else s.stream.sources + 1 := by
    rw [ht, streamQueueDispatchLocked_eq, ← sources, ← dispatchPending]
  refine ⟨?_, fun _ => set⟩
  unfold unstartedDispatches
  rw [set, attached, if_pos rfl]
  split at unstarted
  next hp => rwa [if_pos hp]
  next hp =>
    rw [if_neg hp]
    omega

theorem StreamAwake.callback {event : StreamCallback} (h : StreamAwake s code) :
    StreamAwake (streamCallback event s) code := by
  cases event with
  | queuePeak peak => exact h.queue rfl rfl rfl
  | queueGraphRate rate =>
    by_cases hr : s.stream.observedGraphRate = rate
    · have same : (streamCallback (.queueGraphRate rate) s).stream = s.stream := if_pos hr
      exact h.congr same
    · exact h.queue (if_neg hr) rfl rfl
  | queueFormat format => exact h.queue rfl rfl rfl
  | queueAudioBlock block =>
    simp only [streamCallback]
    split
    next => exact h
    next hd =>
      have queued : (streamQueueAudioBlock block s.stream).1 = streamQueueDispatchLocked
          { s.stream with
            nextSequence := s.stream.nextSequence + 1
            pendingBlocks := (dropOldest maxPendingBlocks (s.stream.pendingBlocks ++
              [{ block with sequence := s.stream.nextSequence }])).1 } := by
        rw [streamQueueAudioBlock, if_neg hd]
      exact h.queue queued rfl rfl

theorem streamAwake_preserves : streamComponent.Preserves allowed StreamAwake where
  call _ _ _ _ h _ _ hr := h.call hr
  run _ _ _ _ h _ := h.run
  environment event s code t h _ ht := by
    obtain ⟨-, rfl⟩ := streamEnvironment_eq ht
    exact h.callback

theorem streamAwake_init : StreamAwake streamInit.state streamInit.code where
  unstarted := rfl
  awake := by simp [streamInit, Stream.hasPending]

/-- What a producer has queued is always about to be dispatched, and by one dispatch only. -/
theorem streamDispatch_wakes {c : Config StreamRun StreamStmt}
    (h : Reach streamComponent.step allowed streamInit c) :
    unstartedDispatches c.state c.code = (if c.state.stream.dispatchPending then 1 else 0) ∧
      (c.state.stream.hasPending = true → c.state.stream.dispatchPending = true) := by
  have awake := streamAwake_preserves.reach h streamAwake_init
  exact ⟨awake.unstarted, awake.awake⟩

/-- A format is queued while the source of the first dispatch has been taken off the context,
and a peak while its handlers run; the stream is stopped before the peak is dispatched. -/
def queuedWhileDispatching : Config StreamRun StreamStmt :=
  final streamComponent.step streamInit
    (.call .start :: List.replicate 4 (.run .started) ++
      [.environment (.queuePeak (.number 1)), .call .iterate,
        .environment (.queueFormat ⟨"F32", 48000, 2, 4⟩)] ++ List.replicate 3 (.run .started) ++
      .environment (.queuePeak (.number 2)) :: .call .stop :: List.replicate 2 (.run .started))

theorem streamDispatch_wakes_queuedWhileDispatching :
    queuedWhileDispatching.state.stream.running = false ∧
      unstartedDispatches queuedWhileDispatching.state queuedWhileDispatching.code =
        (if queuedWhileDispatching.state.stream.dispatchPending then 1 else 0) :=
  ⟨by decide, (streamDispatch_wakes (c := queuedWhileDispatching)
    (reach_final (allAllowed_anyStep _ _))).1⟩

end PipewireGobject
