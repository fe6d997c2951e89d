import PipewireGobject.Emission
import PipewireGobject.Reentrant

namespace PipewireGobject

/-- A sample magnitude: NaN, or a number given by its bit pattern. The bit
patterns of the non-negative floats are ordered as the numbers are. -/
inductive Magnitude
  | nan
  | number (bits : Nat)
  deriving DecidableEq

/-- `MAX (a, b)`, that is `a > b ? a : b`: a comparison with NaN is false. -/
def Magnitude.max : Magnitude → Magnitude → Magnitude
  | .number a, .number b => if b < a then .number a else .number b
  | _, b => b

structure AudioFormat where
  sampleFormat : String
  rate : UInt32
  channels : UInt32
  bytesPerSample : UInt32
  deriving DecidableEq

structure PendingBlock where
  data : List UInt8
  sampleFormat : String
  rate : UInt32
  channels : UInt32
  bytesPerSample : UInt32
  nFrames : UInt32
  sequence : Nat
  peak : Magnitude
  deriving DecidableEq

/-- `threadLoop` says that the PipeWire thread of the stream runs; `sources` counts
the dispatch sources attached to the main context and not dispatched yet. -/
structure Stream where
  deliverAudioBlocks : Bool := false
  running : Bool := false
  graphRate : UInt32 := 0
  observedGraphRate : UInt32 := 0
  pendingGraphRate : UInt32 := 0
  hasPendingGraphRate : Bool := false
  graphRateRevision : Nat := 0
  rate : UInt32 := 0
  channels : UInt32 := 0
  peak : Magnitude := .number 0
  audioFormat : Option AudioFormat := none
  threadLoop : Bool := false
  dispatchPending : Bool := false
  hasPendingPeak : Bool := false
  pendingPeak : Magnitude := .number 0
  hasPendingFormat : Bool := false
  pendingSampleFormat : Option String := none
  pendingRate : UInt32 := 0
  pendingChannels : UInt32 := 0
  pendingBytesPerSample : UInt32 := 0
  pendingBlocks : List PendingBlock := []
  nextSequence : Nat := 0
  sources : Nat := 0
  deriving DecidableEq

/-- `PWG_STREAM_MAX_PENDING_BLOCKS` -/
def maxPendingBlocks : Nat := 64

def streamQueueDispatchLocked (s : Stream) : Stream :=
  if s.dispatchPending then s
  else { s with dispatchPending := true, sources := s.sources + 1 }

def streamQueuePeak (peak : Magnitude) (s : Stream) : Stream :=
  streamQueueDispatchLocked { s with
    pendingPeak := if s.hasPendingPeak then s.pendingPeak.max peak else peak
    hasPendingPeak := true }

def streamQueueGraphRate (rate : UInt32) (s : Stream) : Stream :=
  if s.observedGraphRate = rate then s
  else
    streamQueueDispatchLocked { s with
      observedGraphRate := rate
      graphRateRevision := s.graphRateRevision + 1
      pendingGraphRate := rate
      hasPendingGraphRate := true }

def streamQueueFormat (format : AudioFormat) (s : Stream) : Stream :=
  streamQueueDispatchLocked { s with
    pendingSampleFormat := some format.sampleFormat
    pendingRate := format.rate
    pendingChannels := format.channels
    pendingBytesPerSample := format.bytesPerSample
    hasPendingFormat := true }

/-- Pop the head while more than `limit` entries are queued: what stays, and
what is dropped. -/
def dropOldest {α : Type} (limit : Nat) : List α → List α × List α
  | [] => ([], [])
  | x :: xs =>
    if limit < (x :: xs).length then
      ((dropOldest limit xs).1, x :: (dropOldest limit xs).2)
    else (x :: xs, [])

/-- The block is given without its sequence number, which the queue assigns. The
second component lists the blocks that the queue had no room for. -/
def streamQueueAudioBlock (block : PendingBlock) (s : Stream) : Stream × List PendingBlock :=
  if block.data = [] then (s, [])
  else
    let queue := dropOldest maxPendingBlocks
      (s.pendingBlocks ++ [{ block with sequence := s.nextSequence }])
    (streamQueueDispatchLocked
      { s with nextSequence := s.nextSequence + 1, pendingBlocks := queue.1 }, queue.2)

/-- The format that a dispatch publishes, if one is pending. -/
def Stream.pendingFormat (s : Stream) : Option AudioFormat :=
  if s.hasPendingFormat then
    some ⟨s.pendingSampleFormat.getD "unknown", s.pendingRate, s.pendingChannels,
      s.pendingBytesPerSample⟩
  else none

/-- The first critical section of `pwg_stream_dispatch_pending`: everything pending
has been copied and leaves the stream. -/
def streamTakePending (s : Stream) : Stream :=
  { s with
    hasPendingGraphRate := false
    pendingSampleFormat := none
    pendingBlocks := []
    dispatchPending := false
    hasPendingPeak := false
    pendingPeak := .number 0
    hasPendingFormat := false }

/-- The thread loop is gone and the critical section of `pwg_stream_stop` has run. -/
def streamClearPending (s : Stream) : Stream :=
  { s with
    threadLoop := false
    hasPendingPeak := false
    hasPendingGraphRate := false
    observedGraphRate := 0
    graphRateRevision := s.graphRateRevision + 1
    pendingPeak := .number 0
    hasPendingFormat := false
    pendingSampleFormat := none
    pendingBlocks := [] }

inductive StreamProperty
  | rate
  | channels
  | audioFormat
  | graphRate
  | peak
  | running
  | deliverAudioBlocks
  deriving DecidableEq

/-- How far peaks and blocks had been numbered at some moment. -/
structure QueueMark where
  peaks : Nat
  blocks : Nat
  deriving DecidableEq

/-- A peak on its way through dispatch number `snapshot`; `oldest` numbers the
first of the queued peaks that it is the maximum of. -/
structure TakenPeak where
  value : Magnitude
  snapshot : Nat
  oldest : Nat
  deriving DecidableEq

inductive StreamEvent
  | peakQueued (index : Nat)
  | blockQueued (sequence : Nat)
  | blockDropped (sequence : Nat)
  | blockDiscarded (sequence : Nat)
  | taken (sequences : List Nat)
  | cleared
  | graphRateChanged (old new : UInt32)
  | notified (property : StreamProperty)
  | emitted (property : StreamProperty) (again : Bool)
  | peakStored (peak : TakenPeak)
  | level (peak : TakenPeak)
  | audioBlock (block : PendingBlock)
  | stopCalled (mark : QueueMark)
  | stopReturned (mark : QueueMark)
  deriving DecidableEq

/-- A stream with the emissions of its `notify` signals that are in progress and the history of
what happened to it, oldest first. The other fields number peaks and dispatches and list the rates
observed in the session. -/
structure StreamRun where
  stream : Stream := {}
  emissions : Emissions StreamProperty := {}
  history : List StreamEvent := []
  peaksQueued : Nat := 0
  oldestPeak : Nat := 0
  snapshots : Nat := 0
  observed : List UInt32 := []
  deriving DecidableEq

/-- What is left to run of `pwg_stream_dispatch_pending`, `pwg_stream_start`,
`pwg_stream_stop` and `pwg_stream_set_deliver_audio_blocks`. A statement ends where
the lock is released, the thread loop changes or a signal is emitted, whose `handlers` are
those of a notification or of another signal. -/
inductive StreamStmt
  | handlers (notified : Option StreamProperty)
  | notify (property : StreamProperty)
  | dispatchTake
  | dispatchFormat (format : Option AudioFormat)
  | dispatchGraphRate (hasGraphRate : Bool) (graphRate : UInt32) (revision : Nat)
  | dispatchPeak (peak : Option TakenPeak)
  | emitLevel (peak : TakenPeak)
  | dispatchBlocks (blocks : List PendingBlock)
  | start
  | startRunning
  | stop
  | stopLoop (wasRunning : Bool) (mark : QueueMark)
  | stopReturn (mark : QueueMark)
  | setDeliverAudioBlocks (deliver : Bool)
  deriving DecidableEq

/-- How far `pwg_stream_start` gets: nothing created, a later call failed, or success. -/
inductive StartOutcome
  | nothingCreated
  | failed
  | started
  deriving DecidableEq

def StreamRun.record (s : StreamRun) (events : List StreamEvent) : StreamRun :=
  { s with history := s.history ++ events }

@[simp] theorem StreamRun.record_stream (s : StreamRun) (events : List StreamEvent) :
    (s.record events).stream = s.stream := rfl

@[simp] theorem StreamRun.record_history (s : StreamRun) (events : List StreamEvent) :
    (s.record events).history = s.history ++ events := rfl

@[simp] theorem StreamRun.record_emissions (s : StreamRun) (events : List StreamEvent) :
    (s.record events).emissions = s.emissions := rfl

@[simp] theorem StreamRun.record_snapshots (s : StreamRun) (events : List StreamEvent) :
    (s.record events).snapshots = s.snapshots := rfl

/-- `g_object_notify_by_pspec`: the handlers run, or once more when those that run have returned. -/
def streamNotify (property : StreamProperty) (s : StreamRun) : StreamRun × List StreamStmt :=
  let r := s.emissions.emit property
  ({ s with emissions := r.1 }.record
      (.notified property :: if r.2 then [.emitted property false] else []),
    if r.2 then [.handlers (some property)] else [])

/-- The handlers of a notification have returned. -/
def streamHandled (property : StreamProperty) (s : StreamRun) : StreamRun × List StreamStmt :=
  let r := s.emissions.handled property
  ({ s with emissions := r.1 }.record (if r.2 then [.emitted property true] else []),
    if r.2 then [.handlers (some property)] else [])

def StreamRun.takenPeak (s : StreamRun) : Option TakenPeak :=
  if s.stream.hasPendingPeak then some ⟨s.stream.pendingPeak, s.snapshots, s.oldestPeak⟩
  else none

def StreamRun.mark (s : StreamRun) : QueueMark := ⟨s.peaksQueued, s.stream.nextSequence⟩

def sequences (blocks : List PendingBlock) : List Nat := blocks.map PendingBlock.sequence

/-- What `pwg_stream_stop` does between stopping the thread loop and its first signal. -/
def clearEvents (s : Stream) : List StreamEvent :=
  (sequences s.pendingBlocks).map .blockDiscarded ++
    .cleared :: if s.graphRate = 0 then [] else [.graphRateChanged s.graphRate 0]

def streamExec (outcome : StartOutcome) : StreamStmt → StreamRun → StreamRun × List StreamStmt
  | .handlers none, s => (s, [])
  | .handlers (some property), s => streamHandled property s
  | .notify property, s => streamNotify property s
  | .dispatchTake, s =>
    ({ s with stream := streamTakePending s.stream, snapshots := s.snapshots + 1 }.record
        [.taken (sequences s.stream.pendingBlocks)],
      [.dispatchFormat s.stream.pendingFormat,
        .dispatchGraphRate s.stream.hasPendingGraphRate s.stream.pendingGraphRate
          s.stream.graphRateRevision,
        .dispatchPeak s.takenPeak,
        .dispatchBlocks s.stream.pendingBlocks])
  | .dispatchFormat none, s => (s, [])
  | .dispatchFormat (some format), s =>
    ({ s with stream := { s.stream with
        rate := format.rate, channels := format.channels, audioFormat := some format } },
      [.notify .rate, .notify .channels, .notify .audioFormat])
  | .dispatchGraphRate hasGraphRate graphRate revision, s =>
    if hasGraphRate ∧ s.stream.running ∧ revision = s.stream.graphRateRevision ∧
        s.stream.graphRate ≠ graphRate then
      ({ s with stream := { s.stream with graphRate := graphRate } }.record
        [.graphRateChanged s.stream.graphRate graphRate], [.notify .graphRate])
    else (s, [])
  | .dispatchPeak none, s => (s, [])
  | .dispatchPeak (some peak), s =>
    if s.stream.running then
      -- pwg_stream_emit_peak: the level signal follows the notification unchecked
      ({ s with stream := { s.stream with peak := peak.value } }.record [.peakStored peak],
        [.notify .peak, .emitLevel peak])
    else (s, [])
  | .emitLevel peak, s => (s.record [.level peak], [.handlers none])
  | .dispatchBlocks [], s => (s, [])
  | .dispatchBlocks (block :: blocks), s =>
    if s.stream.running then
      (s.record [.audioBlock block], [.handlers none, .dispatchBlocks blocks])
    else (s.record [.blockDiscarded block.sequence], [.dispatchBlocks blocks])
  | .start, s =>
    if s.stream.running then (s, [])
    else
      match outcome with
      | .nothingCreated => (s, [])
      | .failed => (s, [.stop])
      | .started =>
        -- pw_thread_loop_start: callbacks may run before running is set
        ({ s with stream := { s.stream with threadLoop := true }, observed := [] },
          [.startRunning])
  | .startRunning, s =>
    ({ s with stream := { s.stream with running := true } }, [.notify .running])
  | .stop, s =>
    ({ s with stream := { s.stream with running := false } }.record [.stopCalled s.mark],
      [.stopLoop s.stream.running s.mark])
  | .stopLoop wasRunning mark, s =>
    ({ s with stream := { streamClearPending s.stream with graphRate := 0 } }.record
        (clearEvents s.stream),
      (if s.stream.graphRate = 0 then [] else [.notify .graphRate]) ++
        (if wasRunning then [.notify .running] else []) ++ [.stopReturn mark])
  | .stopReturn mark, s => (s.record [.stopReturned mark], [])
  | .setDeliverAudioBlocks deliver, s =>
    if s.stream.deliverAudioBlocks = deliver then (s, [])
    else
      ({ s with stream := { s.stream with deliverAudioBlocks := deliver } },
        [.notify .deliverAudioBlocks])

/-- What the application may call; `iterate` is an iteration of the main context
that dispatches one attached source of the stream. -/
inductive StreamCall
  | iterate
  | start
  | stop
  | setDeliverAudioBlocks (deliver : Bool)
  deriving DecidableEq

def streamCall : StreamCall → StreamRun → Option (StreamRun × List StreamStmt)
  | .iterate, s =>
    if s.stream.sources = 0 then none
    else some ({ s with stream := { s.stream with sources := s.stream.sources - 1 } },
      [.dispatchTake])
  | .start, s => some (s, [.start])
  | .stop, s => some (s, [.stop])
  | .setDeliverAudioBlocks deliver, s => some (s, [.setDeliverAudioBlocks deliver])

/-- What the PipeWire thread calls while its loop runs, each under `dispatch_lock`. -/
inductive StreamCallback
  | queuePeak (peak : Magnitude)
  | queueGraphRate (rate : UInt32)
  | queueFormat (format : AudioFormat)
  | queueAudioBlock (block : PendingBlock)
  deriving DecidableEq

def streamCallback : StreamCallback → StreamRun → StreamRun
  | .queuePeak peak, s =>
    { s with
      stream := streamQueuePeak peak s.stream
      history := s.history ++ [.peakQueued s.peaksQueued]
      peaksQueued := s.peaksQueued + 1
      oldestPeak := if s.stream.hasPendingPeak then s.oldestPeak else s.peaksQueued }
  | .queueGraphRate rate, s =>
    { s with stream := streamQueueGraphRate rate s.stream, observed := s.observed ++ [rate] }
  | .queueFormat format, s => { s with stream := streamQueueFormat format s.stream }
  | .queueAudioBlock block, s =>
    if block.data = [] then s
    else
      { s with
        stream := (streamQueueAudioBlock block s.stream).1
        history := s.history ++ .blockQueued s.stream.nextSequence ::
          (sequences (streamQueueAudioBlock block s.stream).2).map .blockDropped }

def streamEnvironment (event : StreamCallback) (s : StreamRun) : Option StreamRun :=
  if s.stream.threadLoop then some (streamCallback event s) else none

def streamComponent :
    Component StreamRun StreamStmt StreamCall StartOutcome StreamCallback where
  exec := streamExec
  emission
    | .handlers _ => true
    | _ => false
  call := streamCall
  environment := streamEnvironment

/-- A stream as `pwg_stream_init` leaves it, with nothing running. -/
def streamInit : Config StreamRun StreamStmt := ⟨{}, []⟩

end PipewireGobject
