import PipewireGobject.ProgramCores

namespace PipewireGobject

/-- What the handlers of a stream hear of its history. -/
def StreamEvent.signal : StreamEvent → Option StreamSignal
  | .emitted property _ => some (.notify property)
  | .level peak => some (.level peak.value)
  | .audioBlock block => some (.audioBlock block)
  | _ => none

def StreamRun.signals (x : StreamRun) : List StreamSignal := x.history.filterMap StreamEvent.signal

/-- Between calls, statements that run without a call in between leave the stream like `after`, and
emit `signals`. -/
def StreamDoes (x : StreamRun) (code : List StreamStmt) (after : Stream)
    (signals : List StreamSignal) : Prop :=
  x.emissions = {} → ∃ y, streamComponent.Completes x code y ∧ y.emissions = {} ∧
    y.stream = after ∧ y.signals = x.signals ++ signals

section

variable {x y : StreamRun} {code later : List StreamStmt} {after after' : Stream}
  {signals signals' : List StreamSignal} {i : StreamStmt}

theorem record_signals (events : List StreamEvent) :
    (x.record events).signals = x.signals ++ events.filterMap StreamEvent.signal :=
  List.filterMap_append

theorem StreamDoes.nil (x : StreamRun) : StreamDoes x [] x.stream [] :=
  fun still => ⟨x, .nil x, still, rfl, (List.append_nil _).symm⟩

theorem StreamDoes.append (h : StreamDoes x code after signals)
    (h' : ∀ y, y.stream = after → StreamDoes y later after' signals') :
    StreamDoes x (code ++ later) after' (signals ++ signals') := by
  intro still
  obtain ⟨y, completes, still', stream, heard⟩ := h still
  obtain ⟨z, completes', still'', stream', heard'⟩ := h' y stream still'
  refine ⟨z, completes.append completes', still'', stream', ?_⟩
  rw [heard', heard, List.append_assoc]

/-- Statements that only emit signals leave the stream as it is. -/
theorem StreamDoes.emitting (h : StreamDoes x code x.stream signals)
    (h' : ∀ y, StreamDoes y later y.stream signals') :
    StreamDoes x (code ++ later) x.stream (signals ++ signals') := by
  refine h.append fun y hy => ?_
  rw [← hy]
  exact h' y

theorem StreamDoes.cons (h : StreamDoes x [i] after signals)
    (h' : ∀ y, y.stream = after → StreamDoes y later after' signals') :
    StreamDoes x (i :: later) after' (signals ++ signals') :=
  h.append h'

/-- What happens between the two is seen in the stream only. -/
structure Unnotified (x y : StreamRun) : Prop where
  history : y.history = x.history
  emissions : y.emissions = x.emissions

/-- A statement runs, and then what it leaves to run. -/
theorem StreamDoes.exec (outcome : StartOutcome) {events : List StreamEvent}
    (he : streamExec outcome i x = (y.record events, code)) (unheard : Unnotified x y)
    (h : StreamDoes (y.record events) code after signals) :
    StreamDoes x [i] after (events.filterMap StreamEvent.signal ++ signals) := by
  intro still
  obtain ⟨z, completes, still', stream, heard⟩ := h (unheard.emissions.trans still)
  refine ⟨z, .exec outcome ?_, still', stream, ?_⟩
  · rw [List.append_nil]
    show streamComponent.Completes (streamExec outcome i x).1 (streamExec outcome i x).2 z
    rw [he]
    exact completes
  · rw [heard, record_signals, StreamRun.signals, unheard.history, ← StreamRun.signals,
      List.append_assoc]

theorem StreamDoes.quiet (outcome : StartOutcome) (he : streamExec outcome i x = (y, code))
    (unheard : Unnotified x y) (h : StreamDoes y code after signals) :
    StreamDoes x [i] after signals := by
  have unrecorded : y.record [] = y := by
    rw [StreamRun.record, List.append_nil]
  rw [← unrecorded] at he h
  exact h.exec outcome he unheard

theorem handles (x : StreamRun) : StreamDoes x [.handlers none] x.stream [] :=
  (StreamDoes.nil x).quiet .started rfl ⟨rfl, rfl⟩

/-- The handlers run once, as nothing is notified meanwhile. -/
theorem notifies (x : StreamRun) (property : StreamProperty) :
    StreamDoes x [.notify property] x.stream [.notify property] := by
  intro still
  let events : List StreamEvent := [.notified property, .emitted property false]
  have called : streamExec .started (.notify property) x =
      ({ x with emissions := ⟨[property], []⟩ }.record events, [.handlers (some property)]) := by
    simp [streamExec, streamNotify, Emissions.emit, still, events]
  have returned : streamExec .started (.handlers (some property))
      ({ x with emissions := ⟨[property], []⟩ }.record events) = (x.record events, []) := by
    simp [streamExec, streamHandled, Emissions.handled, StreamRun.record, still]
  refine ⟨x.record events, .exec .started ?_, still, rfl, record_signals events⟩
  show streamComponent.Completes (streamExec .started (.notify property) x).1
    ((streamExec .started (.notify property) x).2 ++ []) _
  rw [called]
  refine .exec .started ?_
  show streamComponent.Completes (streamExec .started (.handlers (some property)) _).1
    ((streamExec .started (.handlers (some property)) _).2 ++ []) _
  rw [returned]
  exact .nil _

theorem notifies_all (x : StreamRun) (properties : List StreamProperty) :
    StreamDoes x (properties.map .notify) x.stream (properties.map .notify) := by
  induction properties generalizing x with
  | nil => exact .nil x
  | cons property properties ih => exact (notifies x property).emitting ih

theorem dispatches_blocks (x : StreamRun) (blocks : List PendingBlock) :
    StreamDoes x [.dispatchBlocks blocks] x.stream
      (if x.stream.running then blocks.map .audioBlock else []) := by
  induction blocks generalizing x with
  | nil =>
    rw [List.map_nil, ite_self]
    exact (StreamDoes.nil x).quiet .started rfl ⟨rfl, rfl⟩
  | cons block blocks ih =>
    cases hr : x.stream.running with
    | true =>
      have first : streamExec .started (.dispatchBlocks (block :: blocks)) x =
          (x.record [.audioBlock block], [.handlers none, .dispatchBlocks blocks]) := if_pos hr
      have handled := handles (x.record [.audioBlock block])
      refine StreamDoes.exec .started first ⟨rfl, rfl⟩ (handled.append fun y hy => ?_)
      have later := ih y
      rw [hy, StreamRun.record_stream, hr] at later
      exact later
    | false =>
      have first : streamExec .started (.dispatchBlocks (block :: blocks)) x =
          (x.record [.blockDiscarded block.sequence], [.dispatchBlocks blocks]) :=
        if_neg (by simp [hr])
      have later := ih (x.record [.blockDiscarded block.sequence])
      rw [StreamRun.record_stream, hr] at later
      exact later.exec .started first ⟨rfl, rfl⟩

theorem dispatches_rate (before : Stream) (x : StreamRun) :
    StreamDoes x [.dispatchGraphRate before.hasPendingGraphRate before.pendingGraphRate
        before.graphRateRevision] (streamDispatchRate before x.stream).1
      (streamDispatchRate before x.stream).2 := by
  by_cases hr : before.hasPendingGraphRate ∧ x.stream.running ∧
      before.graphRateRevision = x.stream.graphRateRevision ∧
      x.stream.graphRate ≠ before.pendingGraphRate
  · have first : streamExec .started (.dispatchGraphRate before.hasPendingGraphRate
        before.pendingGraphRate before.graphRateRevision) x =
        ({ x with stream := { x.stream with graphRate := before.pendingGraphRate } }.record
          [.graphRateChanged x.stream.graphRate before.pendingGraphRate], [.notify .graphRate]) :=
      if_pos hr
    rw [streamDispatchRate, if_pos hr]
    exact StreamDoes.exec .started first ⟨rfl, rfl⟩ (notifies _ .graphRate)
  · have first : streamExec .started (.dispatchGraphRate before.hasPendingGraphRate
        before.pendingGraphRate before.graphRateRevision) x = (x, []) := if_neg hr
    rw [streamDispatchRate, if_neg hr]
    exact (StreamDoes.nil x).quiet .started first ⟨rfl, rfl⟩

theorem emits_level (x : StreamRun) (peak : TakenPeak) :
    StreamDoes x [.emitLevel peak] x.stream [.level peak.value] :=
  StreamDoes.exec .started rfl ⟨rfl, rfl⟩ (handles (x.record [.level peak]))

theorem dispatches_peak (before x : StreamRun) :
    StreamDoes x [.dispatchPeak before.takenPeak] (streamDispatchPeak before.stream x.stream).1
      (streamDispatchPeak before.stream x.stream).2 := by
  unfold StreamRun.takenPeak streamDispatchPeak
  by_cases hp : before.stream.hasPendingPeak = true
  · rw [if_pos hp]
    by_cases hr : x.stream.running = true
    · rw [if_pos ⟨hp, hr⟩]
      have first : streamExec .started (.dispatchPeak
          (some ⟨before.stream.pendingPeak, before.snapshots, before.oldestPeak⟩)) x =
          ({ x with stream := { x.stream with peak := before.stream.pendingPeak } }.record
            [.peakStored ⟨before.stream.pendingPeak, before.snapshots, before.oldestPeak⟩],
          [.notify .peak,
            .emitLevel ⟨before.stream.pendingPeak, before.snapshots, before.oldestPeak⟩]) :=
        if_pos hr
      refine StreamDoes.exec .started first ⟨rfl, rfl⟩ ((notifies _ .peak).append fun y hy => ?_)
      have level := emits_level y
        ⟨before.stream.pendingPeak, before.snapshots, before.oldestPeak⟩
      rw [hy] at level
      exact level
    · have first : streamExec .started (.dispatchPeak
          (some ⟨before.stream.pendingPeak, before.snapshots, before.oldestPeak⟩)) x = (x, []) :=
        if_neg hr
      rw [if_neg fun both => hr both.2]
      exact (StreamDoes.nil x).quiet .started first ⟨rfl, rfl⟩
  · rw [if_neg hp, if_neg fun both => hp both.1]
    exact (StreamDoes.nil x).quiet .started rfl ⟨rfl, rfl⟩

/-- `pwg_stream_dispatch_pending` in one step does what its statements do. -/
theorem dispatches (x : StreamRun) :
    StreamDoes x [.dispatchTake] (streamDispatchPending x.stream).1
      (streamDispatchPending x.stream).2 := by
  have rest : ∀ y, StreamDoes y
      [.dispatchGraphRate x.stream.hasPendingGraphRate x.stream.pendingGraphRate
          x.stream.graphRateRevision, .dispatchPeak x.takenPeak,
        .dispatchBlocks x.stream.pendingBlocks]
      (streamDispatchPeak x.stream (streamDispatchRate x.stream y.stream).1).1
      ((streamDispatchRate x.stream y.stream).2 ++
        ((streamDispatchPeak x.stream (streamDispatchRate x.stream y.stream).1).2 ++
          if (streamDispatchPeak x.stream (streamDispatchRate x.stream y.stream).1).1.running then
            x.stream.pendingBlocks.map .audioBlock else [])) := by
    intro y
    refine (dispatches_rate x.stream y).append fun z hz => ?_
    rw [← hz]
    refine (dispatches_peak x z).append fun w hw => ?_
    rw [← hw]
    exact dispatches_blocks w _
  have first : streamExec .started .dispatchTake x = ({ x with
      stream := streamTakePending x.stream, snapshots := x.snapshots + 1 }.record
        [.taken (sequences x.stream.pendingBlocks)],
      [.dispatchFormat x.stream.pendingFormat,
        .dispatchGraphRate x.stream.hasPendingGraphRate x.stream.pendingGraphRate
          x.stream.graphRateRevision,
        .dispatchPeak x.takenPeak,
        .dispatchBlocks x.stream.pendingBlocks]) := rfl
  rw [← List.nil_append (streamDispatchPending x.stream).2]
  refine StreamDoes.exec .started first ⟨rfl, rfl⟩ ?_
  unfold streamDispatchPending
  simp only [List.append_assoc]
  cases x.stream.pendingFormat with
  | none =>
    refine ((StreamDoes.nil _).quiet .started rfl ⟨rfl, rfl⟩).cons fun y hy => ?_
    have later := rest y
    rw [hy] at later
    exact later
  | some format =>
    refine ((notifies_all _ [.rate, .channels, .audioFormat]).quiet .started rfl ⟨rfl, rfl⟩).cons
      fun y hy => ?_
    have later := rest y
    rw [hy] at later
    exact later

/-- The signals with which a stream stops. -/
def Stream.stopSignals (s : Stream) : List StreamSignal :=
  (if s.graphRate ≠ 0 then [.notify .graphRate] else []) ++
    (if s.running then [.notify .running] else [])

def Stream.stopped (s : Stream) : Stream :=
  { streamClearPending { s with running := false } with graphRate := 0 }

theorem clearEvents_silent (s : Stream) : (clearEvents s).filterMap StreamEvent.signal = [] := by
  refine List.filterMap_eq_nil_iff.mpr fun event he => ?_
  unfold clearEvents at he
  rcases List.mem_append.mp he with he | he
  · obtain ⟨sequence, -, rfl⟩ := List.mem_map.mp he
    rfl
  · rcases List.mem_cons.mp he with rfl | he
    · rfl
    · split at he
      · cases he
      · rw [List.mem_singleton.mp he]
        rfl

theorem notifies_if (x : StreamRun) (p : Prop) [Decidable p] (property : StreamProperty) :
    StreamDoes x (if p then [.notify property] else []) x.stream
      (if p then [.notify property] else []) := by
  split
  next => exact notifies x property
  next => exact .nil x

theorem stops_loop (x : StreamRun) (wasRunning : Bool) (mark : QueueMark) :
    StreamDoes x [.stopLoop wasRunning mark] { streamClearPending x.stream with graphRate := 0 }
      ((if x.stream.graphRate ≠ 0 then [.notify .graphRate] else []) ++
        (if wasRunning then [.notify .running] else [])) := by
  have first : streamExec .started (.stopLoop wasRunning mark) x =
      ({ x with stream := { streamClearPending x.stream with graphRate := 0 } }.record
        (clearEvents x.stream),
      (if x.stream.graphRate ≠ 0 then [.notify .graphRate] else []) ++
        (if wasRunning then [.notify .running] else []) ++ [.stopReturn mark]) := by
    rw [ite_not]
    rfl
  have returned : ∀ y : StreamRun, StreamDoes y [.stopReturn mark] y.stream [] := fun y =>
    StreamDoes.exec .started rfl ⟨rfl, rfl⟩ (.nil (y.record [.stopReturned mark]))
  have loop := StreamDoes.exec .started first ⟨rfl, rfl⟩
    (((notifies_if _ _ _).emitting fun y => notifies_if y _ _).emitting returned)
  rw [clearEvents_silent, List.nil_append, List.append_nil] at loop
  exact loop

theorem stops (x : StreamRun) : StreamDoes x [.stop] x.stream.stopped x.stream.stopSignals := by
  have first : streamExec .started .stop x =
      ({ x with stream := { x.stream with running := false } }.record [.stopCalled x.mark],
        [.stopLoop x.stream.running x.mark]) := rfl
  exact StreamDoes.exec .started first ⟨rfl, rfl⟩ (stops_loop _ _ _)

/-- A start that fails once it has created something stops the stream. -/
theorem starts_failing (x : StreamRun) (stopped : x.stream.running = false) :
    StreamDoes x [.start] x.stream.stopped x.stream.stopSignals := by
  have first : streamExec .failed .start x = (x, [.stop]) := if_neg (by simp [stopped])
  exact (stops x).quiet .failed first ⟨rfl, rfl⟩

theorem starts_not (x : StreamRun) : StreamDoes x [.start] x.stream [] := by
  have first : streamExec .nothingCreated .start x = (x, []) := by
    simp only [streamExec]
    split <;> rfl
  exact (StreamDoes.nil x).quiet .nothingCreated first ⟨rfl, rfl⟩

theorem starts (x : StreamRun) (stopped : x.stream.running = false) :
    StreamDoes x [.start] { x.stream with threadLoop := true, running := true }
      [.notify .running] := by
  have first : streamExec .started .start x =
      ({ x with stream := { x.stream with threadLoop := true }, observed := [] },
        [.startRunning]) := if_neg (by simp [stopped])
  have second : ∀ y, streamExec .started .startRunning y =
      ({ y with stream := { y.stream with running := true } }, [.notify .running]) :=
    fun _ => rfl
  exact StreamDoes.quiet .started first ⟨rfl, rfl⟩
    (StreamDoes.quiet .started (second _) ⟨rfl, rfl⟩ (notifies _ .running))

theorem sets_deliver (x : StreamRun) (deliver : Bool) :
    StreamDoes x [.setDeliverAudioBlocks deliver]
      { x.stream with deliverAudioBlocks := deliver }
      (if x.stream.deliverAudioBlocks = deliver then [] else [.notify .deliverAudioBlocks]) := by
  by_cases hd : x.stream.deliverAudioBlocks = deliver
  · subst hd
    have first : streamExec .started (.setDeliverAudioBlocks x.stream.deliverAudioBlocks) x =
        (x, []) := if_pos rfl
    rw [if_pos rfl]
    exact (StreamDoes.nil x).quiet .started first ⟨rfl, rfl⟩
  · have first : streamExec .started (.setDeliverAudioBlocks deliver) x =
        ({ x with stream := { x.stream with deliverAudioBlocks := deliver } },
          [.notify .deliverAudioBlocks]) := if_neg hd
    rw [if_neg hd]
    exact StreamDoes.quiet .started first ⟨rfl, rfl⟩ (notifies _ .deliverAudioBlocks)

/-- What the PipeWire thread queues is heard of later. -/
theorem queues (x : StreamRun) (callback : StreamCallback) :
    (streamCallback callback x).stream = streamQueue callback x.stream ∧
      (streamCallback callback x).signals = x.signals := by
  cases callback with
  | queuePeak peak => exact ⟨rfl, (List.filterMap_append).trans (List.append_nil _)⟩
  | queueGraphRate rate | queueFormat format => exact ⟨rfl, rfl⟩
  | queueAudioBlock block =>
    by_cases hd : block.data = []
    · simp [streamCallback, streamQueue, streamQueueAudioBlock, hd]
    · have dropped : ((sequences (streamQueueAudioBlock block x.stream).2).map
          StreamEvent.blockDropped).filterMap StreamEvent.signal = [] := by
        refine List.filterMap_eq_nil_iff.mpr fun event he => ?_
        obtain ⟨sequence, -, rfl⟩ := List.mem_map.mp he
        rfl
      rw [streamCallback, if_neg hd]
      refine ⟨rfl, (List.filterMap_append).trans ?_⟩
      rw [List.filterMap_cons_none rfl, dropped, List.append_nil]
      rfl

end

variable {s t : Program} {j k : Nat} {o : HandleOwner} {results : PipewireResults}
  {changed : PwgStream}

/-- Of the streams only `j` changes, to `changed`, and it emits `signals`. -/
structure OnlyStream (j : Nat) (changed : PwgStream) (signals : List StreamSignal)
    (s t : Program) : Prop where
  streams : t.streams = Function.update s.streams j changed
  notices : t.notices = s.notices ++ signals.map (.stream j)

/-- What a call does to stream `j` is what the statements do. -/
def DoesLike (j : Nat) (code : List StreamStmt) (s t : Program) : Prop :=
  ∃ changed signals, OnlyStream j changed signals s t ∧ ∀ x : StreamRun,
    x.stream = (s.streams j).toStream → StreamDoes x code changed.toStream signals

theorem OnlyHandles.doesLike (only : OnlyHandles o s t) (code : List StreamStmt)
    (h : ∀ x : StreamRun, StreamDoes x code x.stream []) : DoesLike j code s t := by
  refine ⟨s.streams j, [], ⟨?_, ?_⟩, fun x hx => ?_⟩
  · rw [only.streams, Function.update_eq_self]
  · rw [only.notices, List.map_nil, List.append_nil]
  · rw [← hx]
    exact h x

theorem streamStop_only (only : OnlyHandles o s t) : OnlyStream j
    { s.streams j with toStream := (s.streams j).toStream.stopped }
    (s.streams j).toStream.stopSignals s (t.streamStop j) := by
  unfold Program.streamStop
  simp only
  generalize hu : (((t.setStream j fun self => { self with running := false }).stopLoop
    (.stream j)).destroy (.stream j) .stream).closeConnection (.stream j) = u
  have only' : OnlyHandles (.stream j)
      (t.setStream j fun self => { self with running := false }) u :=
    hu ▸ (OnlyHandles.stopLoop.trans .destroy).trans .closeConnection
  have streams : u.streams =
      Function.update s.streams j { s.streams j with running := false } := by
    rw [only'.streams, Program.setStream, only.streams]
  have self : u.streams j = { s.streams j with running := false } := by
    rw [streams, Function.update_self]
  refine ⟨?_, ?_⟩
  · show Function.update u.streams j _ = _
    rw [self, streams, Function.update_idem]
    rfl
  · show u.notices ++ _ = _
    rw [only'.notices, self]
    show t.notices ++ _ = _
    rw [only.notices, only.streams, Stream.stopSignals, List.map_append, ite_not]
    congr 2 <;> split <;> rfl

theorem OnlyHandles.startFails (only : OnlyHandles o s t)
    (stopped : (s.streams j).running = false) : DoesLike j [.start] s (t.streamStop j) := by
  refine ⟨_, _, streamStop_only only, fun x hx => ?_⟩
  rw [← hx]
  exact starts_failing x (by rw [hx]; exact stopped)

theorem streamConnect_doesLike {format : SpaAudioFormat} (only : OnlyHandles (.stream j) s t)
    (stopped : (s.streams j).running = false) :
    DoesLike j [.start] s (t.streamConnect results format j).2 := by
  unfold Program.streamConnect
  simp only
  generalize hu : t.make (.stream j) .stream _ _ = u
  have only' : OnlyHandles (.stream j) s u := hu ▸ only.trans .make
  split
  next => exact only'.startFails stopped
  next =>
    split
    next => exact only'.startFails stopped
    next =>
      split
      next => exact only'.startFails stopped
      next =>
        have started := only'.trans (.startLoop (o := .stream j))
        refine ⟨{ s.streams j with threadLoop := true, running := true }, [.notify .running],
          ⟨?_, ?_⟩, fun x hx => ?_⟩
        · show Function.update (u.startLoop (.stream j)).streams j _ = _
          rw [started.streams]
        · show (u.startLoop (.stream j)).notices ++ _ = _
          rw [started.notices]
          rfl
        · have does := starts x (by rw [hx]; exact stopped)
          rw [hx] at does
          exact does

/-- `pwg_stream_start`, whatever fails. -/
theorem streamStart_doesLike : DoesLike j [.start] s (s.streamStart results j).2 := by
  have unchanged : ∀ {t}, OnlyHandles (.stream j) s t → DoesLike j [.start] s t :=
    fun only => only.doesLike _ starts_not
  unfold Program.streamStart
  simp only
  split
  next => exact unchanged (.refl _ s)
  next running =>
    have stopped : (s.streams j).running = false := by simpa using running
    split
    next => exact unchanged (.refl _ s)
    next =>
      generalize ht₁ : s.make (.stream j) .threadLoop none results.threadLoopNew = t₁
      have only₁ : OnlyHandles (.stream j) s t₁ := ht₁ ▸ .make
      split
      next => exact unchanged only₁
      next =>
        generalize ht₂ : t₁.make (.stream j) .context _ _ = t₂
        have only₂ : OnlyHandles (.stream j) s t₂ := ht₂ ▸ only₁.trans .make
        split
        next => exact only₂.startFails stopped
        next =>
          generalize ht₃ : t₂.make (.stream j) .core _ _ = t₃
          have only₃ : OnlyHandles (.stream j) s t₃ := ht₃ ▸ only₂.trans .make
          split
          next => exact only₃.startFails stopped
          next =>
            split
            next => exact only₃.startFails stopped
            next => exact streamConnect_doesLike only₃ stopped

/-- Stream `j` of the program is where a run of the stream is between calls, and has emitted the
same. -/
structure StreamFollows (j : Nat) (s : Program) (x : StreamRun) : Prop where
  still : x.emissions = {}
  stream : x.stream = (s.streams j).toStream
  signals : x.signals = s.notices.filterMap (Notice.heardOf j)

/-- A run of stream `j` that has come as far as `s` can go on to `t`. -/
def StreamSimulates (j : Nat) (s t : Program) : Prop :=
  ∀ x, StreamFollows j s x →
    ∃ y, Reach streamComponent.step anyStep ⟨x, []⟩ ⟨y, []⟩ ∧ StreamFollows j t y

/-- Nothing happens to any stream. -/
structure SameStreams (s t : Program) : Prop where
  streams : ∀ j, (t.streams j).toStream = (s.streams j).toStream
  notices : ∀ j, t.notices.filterMap (Notice.heardOf j) = s.notices.filterMap (Notice.heardOf j)

theorem SameStreams.refl (s : Program) : SameStreams s s := ⟨fun _ => rfl, fun _ => rfl⟩

theorem SameStreams.simulates (h : SameStreams s t) : StreamSimulates j s t := by
  intro x follows
  refine ⟨x, .start, follows.still, ?_, ?_⟩
  · rw [h.streams]
    exact follows.stream
  · rw [h.notices]
    exact follows.signals

theorem CoresKept.sameStreams (h : CoresKept (fun _ => True) s t) : SameStreams s t :=
  ⟨fun _ => by rw [h.streams], h.heard⟩

theorem SameStreams.setCore {f : PwgCore → PwgCore} : SameStreams s (s.setCore k f) :=
  ⟨fun _ => rfl, fun _ => rfl⟩

theorem heardOf_own (signals : List StreamSignal) :
    (signals.map (Notice.stream j)).filterMap (Notice.heardOf j) = signals := by
  simp [List.filterMap_map, Function.comp_def, Notice.heardOf]

theorem heardOf_other (signals : List StreamSignal) (hk : k ≠ j) :
    (signals.map (Notice.stream k)).filterMap (Notice.heardOf j) = [] := by
  refine List.filterMap_eq_nil_iff.mpr fun n hn => ?_
  obtain ⟨signal, -, rfl⟩ := List.mem_map.mp hn
  exact if_neg hk

/-- A call about stream `k` does what an operation of the stream does. -/
theorem OnlyStream.simulates {signals : List StreamSignal}
    (only : OnlyStream k changed signals s t) (operation : StreamCall)
    (called : ∀ x : StreamRun, x.stream = (s.streams k).toStream →
      ∃ z code, streamCall operation x = some (z, code) ∧ Unnotified x z ∧
        StreamDoes z code changed.toStream signals) : StreamSimulates j s t := by
  intro x follows
  by_cases hk : k = j
  · subst hk
    obtain ⟨z, code, hc, unheard, does⟩ := called x follows.stream
    obtain ⟨y, completes, still, stream, heard⟩ := does (unheard.emissions.trans follows.still)
    have entered : streamComponent.step ⟨x, []⟩ (.call operation) = some ⟨z, code ++ []⟩ := by
      show (streamCall operation x).map _ = _
      rw [hc]
      rfl
    refine ⟨y, (Reach.next .start trivial entered).trans (completes []), still, ?_, ?_⟩
    · rw [only.streams, Function.update_self, stream]
    · rw [only.notices, List.filterMap_append, heardOf_own, ← follows.signals, heard,
        StreamRun.signals, unheard.history, StreamRun.signals]
  · refine ⟨x, .start, follows.still, ?_, ?_⟩
    · rw [only.streams, Function.update_of_ne (Ne.symm hk)]
      exact follows.stream
    · rw [only.notices, List.filterMap_append, heardOf_other _ hk, List.append_nil]
      exact follows.signals

theorem DoesLike.simulates {code : List StreamStmt} (h : DoesLike k code s t)
    (operation : StreamCall) (hc : ∀ x, streamCall operation x = some (x, code)) :
    StreamSimulates j s t := by
  obtain ⟨changed, signals, only, does⟩ := h
  exact only.simulates operation fun x hx => ⟨x, code, hc x, ⟨rfl, rfl⟩, does x hx⟩

theorem SameStreams.setStream {f : PwgStream → PwgStream}
    (same : (f (s.streams k)).toStream = (s.streams k).toStream) :
    SameStreams s (s.setStream k f) := by
  refine ⟨fun j => ?_, fun _ => rfl⟩
  rw [setStream_streams]
  split
  next hj => rw [hj, same]
  next => rfl

theorem SameStreams.setter {α : Type} {change : Except PwgError α} {set : α → Program}
    (sets : ∀ value, change = .ok value → SameStreams s (set value)) :
    SameStreams s (s.setter change set).2 := by
  unfold Program.setter
  split
  next => exact .refl s
  next value => exact sets value rfl

theorem streamQueue_simulates {callback : StreamCallback} :
    StreamSimulates j s (s.call results (.streamQueue k callback)).2 := by
  simp only [Program.call]
  split
  next loop =>
    intro x follows
    by_cases hk : k = j
    · subst hk
      obtain ⟨stream, signals⟩ := queues x callback
      have queued : streamComponent.step ⟨x, []⟩ (.environment callback) =
          some ⟨streamCallback callback x, []⟩ := by
        have running : x.stream.threadLoop = true := by rw [follows.stream]; exact loop
        show (if x.stream.threadLoop then some (streamCallback callback x) else none).map _ = _
        rw [if_pos running]
        rfl
      refine ⟨_, .next .start trivial queued, ?_, ?_, ?_⟩
      · rw [streamCallback_emissions]
        exact follows.still
      · rw [stream, follows.stream]
        simp [Program.setStream]
      · rw [signals]
        exact follows.signals
    · refine ⟨x, .start, follows.still, ?_, follows.signals⟩
      rw [setStream_streams, if_neg (Ne.symm hk)]
      exact follows.stream
  next => exact (SameStreams.refl s).simulates

theorem streamDispatch_simulates :
    StreamSimulates j s (s.call results (.streamDispatch k)).2 := by
  simp only [Program.call]
  split
  next => exact (SameStreams.refl s).simulates
  next attached =>
    refine OnlyStream.simulates ⟨rfl, rfl⟩ .iterate fun x hx => ?_
    rw [← hx] at attached ⊢
    exact ⟨_, _, if_neg attached, ⟨rfl, rfl⟩, dispatches _⟩

theorem streamSetDeliver_doesLike {deliver : Bool} : DoesLike j [.setDeliverAudioBlocks deliver] s
    (s.call results (.streamSetDeliverAudioBlocks j deliver)).2 := by
  simp only [Program.call]
  by_cases hd : (s.streams j).deliverAudioBlocks = deliver
  · rw [if_pos hd]
    refine ⟨s.streams j, [], ⟨(Function.update_eq_self ..).symm, (List.append_nil _).symm⟩,
      fun x hx => ?_⟩
    have does := sets_deliver x deliver
    rw [hx, if_pos hd] at does
    rw [← hd] at does ⊢
    exact does
  · rw [if_neg hd]
    refine ⟨_, [.notify .deliverAudioBlocks], ⟨rfl, rfl⟩, fun x hx => ?_⟩
    have does := sets_deliver x deliver
    rw [hx, if_neg hd] at does
    exact does

theorem call_simulates (call : ProgramCall) : StreamSimulates j s (s.call results call).2 := by
  cases call with
  | coreConnect k => exact (coreConnect_coresKept fun _ => trivial).sameStreams.simulates
  | coreDisconnect k => exact coreDisconnect_coresKept.sameStreams.simulates
  | coreSetPipewireProperty k key value =>
    exact (SameStreams.setter fun _ _ => .setCore).simulates
  | streamStart k => exact streamStart_doesLike.simulates .start fun _ => rfl
  | streamStop k =>
    refine (streamStop_only (.refl (.stream k) s)).simulates .stop fun x hx => ?_
    rw [← hx]
    exact ⟨x, [.stop], rfl, ⟨rfl, rfl⟩, stops x⟩
  | streamSetPipewireProperty k key value =>
    refine (SameStreams.setter fun self hs => ?_).simulates
    obtain ⟨properties, -, rfl⟩ := except_map_ok hs
    exact .setStream rfl
  | streamSetRequestedFormat k sampleFormat rate channels =>
    refine (SameStreams.setter fun self hs => ?_).simulates
    unfold PipewireGobject.streamSetRequestedFormat at hs
    split at hs
    next => cases hs
    next =>
      obtain ⟨format, -, rfl⟩ := except_map_ok hs
      exact .setStream rfl
  | streamSetDeliverAudioBlocks k deliver =>
    exact streamSetDeliver_doesLike.simulates (.setDeliverAudioBlocks deliver) fun _ => rfl
  | streamQueue k callback => exact streamQueue_simulates
  | streamDispatch k => exact streamDispatch_simulates
  | objectNew kind core global => exact objectNew_coresKept.sameStreams.simulates
  | objectStart i => exact (objectStart_coresKept fun _ _ _ => trivial).sameStreams.simulates
  | objectStop i => exact objectStop_coresKept.sameStreams.simulates
  | objectDispatch i event => exact objectDispatch_coresKept.sameStreams.simulates
  | objectDispose i => exact objectDispose_coresKept.sameStreams.simulates

/-- Whatever is called, stream `j` can be followed by a run of the stream. -/
theorem streamFollows_reach {targets : Nat → Option CString × Bool}
    (h : Reach Program.step anyStep (Program.start targets) s) (j : Nat) :
    ∃ x, Reach streamComponent.step anyStep streamInit ⟨x, []⟩ ∧ StreamFollows j s x := by
  have start : ∃ x, Reach streamComponent.step anyStep streamInit ⟨x, []⟩ ∧
      StreamFollows j (Program.start targets) x := ⟨{}, .start, rfl, rfl, rfl⟩
  refine h.invariant (I := fun s => ∃ x, Reach streamComponent.step anyStep streamInit ⟨x, []⟩ ∧
    StreamFollows j s x) start fun s label t hs _ ht => ?_
  obtain ⟨x, reached, follows⟩ := hs
  cases ht
  obtain ⟨y, later, follows'⟩ := call_simulates label.1 x follows
  exact ⟨y, reached.trans later, follows'⟩

/-- Each stream of a program goes through a run of the stream, is between calls there and has
emitted the same signals; its thread loop exists where the stream runs. -/
theorem program_refines_stream {targets : Nat → Option CString × Bool}
    (h : Reach Program.step anyStep (Program.start targets) s) (j : Nat) :
    (∃ x, Reach streamComponent.step anyStep streamInit ⟨x, []⟩ ∧ StreamFollows j s x) ∧
      (s.streams j).threadLoop = (s.streams j).running := by
  obtain ⟨x, reached, follows⟩ := streamFollows_reach h j
  have phase := streamPhase_preserves.reach reached streamPhase_init
  have settled := phase.settled (by simp)
  rw [follows.stream] at settled
  exact ⟨⟨x, reached, follows⟩, settled.symm⟩

/-- Two streams of which one fails to start and the other observes a graph rate and a peak while
a core connects and disconnects. -/
def streamsApart : Program :=
  final Program.step (Program.start fun _ => (none, false)) [
    (.streamStart 0, {}),
    (.streamQueue 0 (.queueGraphRate 48000), {}),
    (.streamStart 1, { streamConnect := fun _ _ _ _ => -1 }),
    (.coreConnect 0, {}),
    (.streamQueue 0 (.queuePeak (.number 1)), {}),
    (.coreDisconnect 0, {}),
    (.streamDispatch 0, {})]

theorem program_refines_stream_apart :
    (∃ x, Reach streamComponent.step anyStep streamInit ⟨x, []⟩ ∧ StreamFollows 0 streamsApart x) ∧
      (streamsApart.streams 0).threadLoop = true ∧ (streamsApart.streams 1).threadLoop = false ∧
      streamsApart.notices.filterMap (Notice.heardOf 0) =
        [.notify .running, .notify .graphRate, .notify .peak, .level (.number 1)] := by
  have reached : Reach Program.step anyStep _ streamsApart := reach_final (allAllowed_anyStep _ _)
  have first := program_refines_stream reached 0
  have second := program_refines_stream reached 1
  exact ⟨first.1, first.2.trans (by decide +kernel), second.2.trans (by decide +kernel),
    by decide +kernel⟩

end PipewireGobject
