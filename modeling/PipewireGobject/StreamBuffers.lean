import PipewireGobject.StreamCapture
import PipewireGobject.StreamBlocks

namespace PipewireGobject

/-- One call of `pwg_stream_handle_f32_audio`. -/
structure AudioBuffer where
  memory : Nat → UInt8
  data : Nat
  size : UInt32
  rate : UInt32
  channels : UInt32

namespace AudioBuffer

def callbacks (deliver : Bool) (b : AudioBuffer) : List StreamCallback :=
  (streamHandleF32Audio deliver (some b.memory) b.data b.size.toUInt64 b.rate b.channels).value

def nSamples (b : AudioBuffer) : Nat := b.size.toNat / 4

def sample (b : AudioBuffer) (n : Nat) : Magnitude :=
  magnitudeF32 ((List.range 4).map fun i => b.memory (b.data + 4 * n + i))

def samples (b : AudioBuffer) : List Magnitude := (List.range b.nSamples).map b.sample

def peak (b : AudioBuffer) : Magnitude := b.samples.foldl Magnitude.max (.number 0)

/-- The buffer holds a frame. -/
def accepted (b : AudioBuffer) : Bool := b.channels ≠ 0 ∧ b.channels.toNat ≤ b.nSamples

/-- The block of the buffer, before the queue numbers it. -/
def block (b : AudioBuffer) : PendingBlock where
  data := (List.range (4 * b.nSamples)).map fun i => b.memory (b.data + i)
  sampleFormat := "F32"
  rate := b.rate
  channels := b.channels
  bytesPerSample := 4
  nFrames := b.size / 4 / b.channels
  sequence := 0
  peak := b.peak

end AudioBuffer

theorem streamPeakLoop_value {memory : Nat → UInt8} {samples left : Nat} {n : UInt32}
    {peak : Magnitude} (bound : n.toNat + left < 4294967296) :
    (streamPeakLoop memory samples left n peak).value =
      ((List.range' n.toNat left).map fun n =>
        magnitudeF32 ((List.range 4).map fun i => memory (samples + 4 * n + i))).foldl
          Magnitude.max peak := by
  induction left generalizing n peak with
  | zero => rfl
  | succ left ih =>
    have next : (n + 1).toNat = n.toNat + 1 := toNat_succ (by omega)
    simp only [streamPeakLoop, Traced.bind_value, Traced.load_value, Traced.succ_value]
    rw [ih (by omega), next]
    rfl

namespace AudioBuffer

variable {b : AudioBuffer}

theorem nSamples_word (b : AudioBuffer) :
    (b.size.toUInt64 / 4).toUInt32 = b.size / 4 ∧ (b.size / 4).toNat = b.nSamples := by
  have small : b.size.toUInt64.toNat < 4294967296 := by
    rw [UInt32.toNat_toUInt64]
    exact b.size.toNat_lt
  have word : (b.size / 4).toNat = b.nSamples := UInt32.toNat_div b.size 4
  refine ⟨?_, word⟩
  rw [← UInt32.toNat_inj, (nSamples_toNat small).2, UInt32.toNat_toUInt64, word]
  rfl

theorem nFrames_toNat (b : AudioBuffer) :
    (b.size / 4 / b.channels).toNat = b.nSamples / b.channels.toNat := by
  rw [UInt32.toNat_div, (nSamples_word b).2]

theorem accepted_iff : b.accepted = true ↔
    b.channels ≠ 0 ∧ b.channels.toNat ≤ b.nSamples := by
  simp [accepted]

theorem nSamples_small (b : AudioBuffer) : b.nSamples < 1073741824 := by
  have h := b.size.toNat_lt
  simp only [nSamples]
  omega

theorem channels_pos (h : b.accepted = true) : 0 < b.channels.toNat := by
  have hc := (Traced.toNat_ne_zero b.channels).mpr (accepted_iff.mp h).1
  omega

theorem rejected_small (h : b.size.toUInt64 < 4 ∨ b.channels = 0) : b.accepted = false := by
  rw [← Bool.not_eq_true, accepted_iff]
  intro ha
  have hc := (Traced.toNat_ne_zero b.channels).mpr ha.1
  rcases h with h | h
  · have small : b.size.toNat < 4 := by
      rw [← UInt32.toNat_toUInt64]
      exact UInt64.lt_iff_toNat_lt.mp h
    have none_left : b.nSamples = 0 := Nat.div_eq_of_lt small
    omega
  · exact ha.1 h

theorem rejected_iff (hc : b.channels ≠ 0) :
    b.size / 4 / b.channels = 0 ↔ b.accepted = false := by
  have pos := (Traced.toNat_ne_zero b.channels).mpr hc
  rw [← UInt32.toNat_inj, nFrames_toNat, ← Bool.not_eq_true, accepted_iff]
  show b.nSamples / b.channels.toNat = 0 ↔ _
  rw [Nat.div_eq_zero_iff_lt (by omega)]
  constructor
  · intro h ha
    omega
  · intro h
    by_contra hn
    exact h ⟨hc, by omega⟩

theorem callbacks_eq (deliver : Bool) (b : AudioBuffer) :
    b.callbacks deliver =
      if b.accepted then
        .queuePeak b.peak :: if deliver then [.queueAudioBlock b.block] else []
      else [] := by
  obtain ⟨narrow, word⟩ := nSamples_word b
  have loop : (streamPeakLoop b.memory b.data (b.size / 4).toNat 0 (.number 0)).value = b.peak := by
    have small := b.nSamples_small
    have start : (0 : UInt32).toNat = 0 := rfl
    rw [streamPeakLoop_value (by omega), word, start, ← List.range_eq_range']
    rfl
  have bytes : (b.size / 4 * 4).toNat = 4 * b.nSamples := by
    have small := b.nSamples_small
    have four : (4 : UInt32).toNat = 4 := rfl
    rw [UInt32.toNat_mul, word, four, Nat.mod_eq_of_lt (by omega)]
    omega
  simp only [callbacks, streamHandleF32Audio]
  split
  next h => rw [rejected_small h]; rfl
  next h =>
    have hc : b.channels ≠ 0 := fun hc => h (.inr hc)
    simp only [Traced.bind_value]
    split
    next hf =>
      have rejected : b.size / 4 / b.channels = 0 := by
        rw [← narrow]
        exact hf
      rw [(rejected_iff hc).mp rejected]
      rfl
    next hf =>
      have ha : b.accepted = true := by
        rw [← Bool.not_eq_false, ← rejected_iff hc, ← narrow]
        exact hf
      rw [if_pos ha]
      cases deliver with
      | false =>
        simp only [Traced.bind_value, Traced.pure_value, Traced.divNarrow_value, narrow, loop,
          Bool.false_eq_true, if_false]
      | true =>
        simp only [if_true, Traced.bind_value, Traced.pure_value, Traced.divNarrow_value,
          Traced.div_value, Traced.mul_value, Traced.load_value, narrow, loop, bytes]
        rfl

end AudioBuffer

/-- The level of a dispatch: the first peak is stored, later ones are combined with it. -/
def levelOf (buffers : List AudioBuffer) : Magnitude :=
  (buffers.map AudioBuffer.peak).foldl Magnitude.max (.number 0)

theorem Magnitude.zero_max (peak : Magnitude) : (Magnitude.number 0).max peak = peak := by
  cases peak <;> simp [Magnitude.max]

theorem levelOf_append (buffers : List AudioBuffer) (b : AudioBuffer) :
    levelOf (buffers ++ [b]) = (levelOf buffers).max b.peak := by
  simp [levelOf]

/-- A stream with the buffers behind what it holds: those whose peak is `waiting` for a
dispatch, those that each dispatch took, and those of the blocks in queueing order. -/
structure CaptureRun where
  run : StreamRun := {}
  waiting : List AudioBuffer := []
  batches : List (List AudioBuffer) := []
  carried : List AudioBuffer := []

inductive CaptureEvent
  | queuePeak (buffer : AudioBuffer)
  | queueAudioBlock (buffer : AudioBuffer)
  | queueGraphRate (rate : UInt32)
  | queueFormat (format : AudioFormat)

/-- A buffer makes the two calls, in this order, that its handling makes. -/
def CaptureEvent.callback : CaptureEvent → Option StreamCallback
  | .queuePeak buffer => (buffer.callbacks true)[0]?
  | .queueAudioBlock buffer => (buffer.callbacks true)[1]?
  | .queueGraphRate rate => some (.queueGraphRate rate)
  | .queueFormat format => some (.queueFormat format)

def CaptureRun.settle (s : CaptureRun) : StreamStmt → CaptureRun
  | .dispatchTake => { s with batches := s.batches ++ [s.waiting], waiting := [] }
  | .stopLoop _ _ => { s with waiting := [] }
  | _ => s

def CaptureRun.heard (s : CaptureRun) : CaptureEvent → CaptureRun
  | .queuePeak buffer => { s with waiting := s.waiting ++ [buffer] }
  | .queueAudioBlock buffer => { s with carried := s.carried ++ [buffer] }
  | _ => s

def captureComponent :
    Component CaptureRun StreamStmt StreamCall StartOutcome CaptureEvent where
  exec outcome i s :=
    ({ s.settle i with run := (streamExec outcome i s.run).1 }, (streamExec outcome i s.run).2)
  emission := streamComponent.emission
  call operation s :=
    (streamCall operation s.run).map fun r => ({ s with run := r.1 }, r.2)
  environment event s :=
    event.callback.bind fun callback => (streamEnvironment callback s.run).map fun t =>
      { s.heard event with run := t }

def captureInit : Config CaptureRun StreamStmt := ⟨{}, []⟩

/-- The statement hands out only peaks and blocks of these kinds. -/
def StreamStmt.Holds (P : TakenPeak → Prop) (B : PendingBlock → Prop) : StreamStmt → Prop
  | .dispatchPeak (some peak) | .emitLevel peak => P peak
  | .dispatchBlocks blocks => ∀ block ∈ blocks, B block
  | _ => True

def StreamEvent.Holds (P : TakenPeak → Prop) (B : PendingBlock → Prop) : StreamEvent → Prop
  | .level peak => P peak
  | .audioBlock block => B block
  | _ => True

section Holds

variable {P Q : TakenPeak → Prop} {B D : PendingBlock → Prop} {i : StreamStmt}
  {s : StreamRun}

theorem StreamStmt.Holds.mono (h : i.Holds P B) (peaks : ∀ peak, P peak → Q peak)
    (blocks : ∀ block, B block → D block) : i.Holds Q D := by
  cases i with
  | dispatchPeak peak =>
    cases peak with
    | none => trivial
    | some peak => exact peaks peak h
  | emitLevel peak => exact peaks peak h
  | dispatchBlocks queue => exact fun block hb => blocks block (h block hb)
  | _ => trivial

theorem StreamEvent.Holds.mono {event : StreamEvent} (h : event.Holds P B)
    (peaks : ∀ peak, P peak → Q peak) (blocks : ∀ block, B block → D block) :
    event.Holds Q D := by
  cases event with
  | level peak => exact peaks peak h
  | audioBlock block => exact blocks block h
  | _ => trivial

theorem clearEvents_holds (s : Stream) : ∀ e ∈ clearEvents s, e.Holds P B := by
  intro e he
  rcases List.mem_append.mp he with he | he
  · obtain ⟨n, -, rfl⟩ := List.mem_map.mp he
    trivial
  · rcases List.mem_cons.mp he with rfl | he
    · trivial
    · split at he
      · simp at he
      · rw [List.mem_singleton.mp he]
        trivial

/-- A statement hands on what it holds; only the start of a dispatch finds more. -/
theorem streamExec_holds (outcome : StartOutcome) (s : StreamRun) (h : i.Holds P B)
    (hi : i ≠ .dispatchTake) :
    ∃ events, (streamExec outcome i s).1.history = s.history ++ events ∧
      (∀ e ∈ events, e.Holds P B) ∧ ∀ j ∈ (streamExec outcome i s).2, j.Holds P B := by
  by_cases he : i.ofEmission = true
  · obtain ⟨emissions, events, code, heq, silent, hcode⟩ := streamExec_ofEmission outcome s he
    rw [heq]
    refine ⟨events, rfl, fun e hm => ?_, ?_⟩
    · cases e with
      | level | audioBlock => cases silent _ hm
      | _ => trivial
    · rcases hcode with rfl | ⟨property, rfl⟩ <;> simp [StreamStmt.Holds]
  cases i with
  | handlers | notify => exact absurd rfl he
  | dispatchFormat format =>
    cases format <;> exact ⟨[], by simp [streamExec, StreamStmt.Holds]⟩
  | dispatchGraphRate hasGraphRate graphRate revision =>
    simp only [streamExec]
    split
    · exact ⟨[.graphRateChanged s.stream.graphRate graphRate], rfl, by simp [StreamEvent.Holds],
        by simp [StreamStmt.Holds]⟩
    · exact ⟨[], by simp⟩
  | dispatchPeak peak =>
    cases peak with
    | none => exact ⟨[], by simp [streamExec]⟩
    | some peak =>
      simp only [streamExec]
      split
      · exact ⟨[.peakStored peak], rfl, by simp [StreamEvent.Holds],
          by simpa [StreamStmt.Holds] using h⟩
      · exact ⟨[], by simp⟩
  | emitLevel peak =>
    exact ⟨[.level peak], rfl, by simpa [StreamEvent.Holds, StreamStmt.Holds] using h,
      by simp [streamExec, StreamStmt.Holds]⟩
  | dispatchBlocks blocks =>
    cases blocks with
    | nil => exact ⟨[], by simp [streamExec]⟩
    | cons block blocks =>
      obtain ⟨first, later⟩ := List.forall_mem_cons.mp h
      simp only [streamExec]
      split
      · exact ⟨[.audioBlock block], rfl, by simpa [StreamEvent.Holds] using first,
          by simpa [StreamStmt.Holds] using later⟩
      · exact ⟨[.blockDiscarded block.sequence], rfl, by simp [StreamEvent.Holds],
          by simpa [StreamStmt.Holds] using later⟩
  | start =>
    simp only [streamExec]
    split
    · exact ⟨[], by simp⟩
    · cases outcome <;> exact ⟨[], by simp [StreamStmt.Holds]⟩
  | startRunning => exact ⟨[], by simp [streamExec, StreamStmt.Holds]⟩
  | stop =>
    exact ⟨[.stopCalled s.mark], rfl, by simp [StreamEvent.Holds],
      by simp [streamExec, StreamStmt.Holds]⟩
  | stopLoop wasRunning mark =>
    refine ⟨clearEvents s.stream, rfl, clearEvents_holds s.stream, ?_⟩
    simp only [streamExec]
    split <;> split <;> simp [StreamStmt.Holds]
  | stopReturn mark =>
    exact ⟨[.stopReturned mark], rfl, by simp [StreamEvent.Holds], by simp [streamExec]⟩
  | setDeliverAudioBlocks deliver =>
    simp only [streamExec]
    split <;> exact ⟨[], by simp [StreamStmt.Holds]⟩
  | dispatchTake => exact absurd rfl hi

/-- Statements that take or clear the queue. -/
def StreamStmt.ofQueue : StreamStmt → Bool
  | .dispatchTake | .stopLoop _ _ => true
  | _ => false

/-- The other statements leave the queue to the PipeWire thread. -/
theorem streamExec_queue (outcome : StartOutcome) (s : StreamRun) (hi : i.ofQueue = false) :
    (streamExec outcome i s).1.stream.hasPendingPeak = s.stream.hasPendingPeak ∧
    (streamExec outcome i s).1.stream.pendingPeak = s.stream.pendingPeak ∧
    (streamExec outcome i s).1.stream.pendingBlocks = s.stream.pendingBlocks ∧
    (streamExec outcome i s).1.stream.nextSequence = s.stream.nextSequence ∧
    (streamExec outcome i s).1.snapshots = s.snapshots := by
  have same : s.stream.hasPendingPeak = s.stream.hasPendingPeak ∧
    s.stream.pendingPeak = s.stream.pendingPeak ∧
    s.stream.pendingBlocks = s.stream.pendingBlocks ∧
    s.stream.nextSequence = s.stream.nextSequence ∧ s.snapshots = s.snapshots := by simp
  by_cases he : i.ofEmission = true
  · obtain ⟨emissions, events, code, heq, -⟩ := streamExec_ofEmission outcome s he
    rw [heq]
    exact same
  cases i with
  | handlers | notify => exact absurd rfl he
  | dispatchFormat format => cases format <;> exact same
  | dispatchGraphRate hasGraphRate graphRate revision =>
    simp only [streamExec]
    split <;> exact same
  | dispatchPeak peak =>
    cases peak with
    | none => exact same
    | some peak =>
      simp only [streamExec]
      split <;> exact same
  | dispatchBlocks blocks =>
    cases blocks with
    | nil => exact same
    | cons block blocks =>
      simp only [streamExec]
      split <;> exact same
  | start =>
    simp only [streamExec]
    split
    · exact same
    · cases outcome <;> exact same
  | setDeliverAudioBlocks deliver =>
    simp only [streamExec]
    split <;> exact same
  | dispatchTake | stopLoop wasRunning mark => simp [StreamStmt.ofQueue] at hi
  | _ => exact same

end Holds

variable {s t : CaptureRun} {code rest : List StreamStmt} {i : StreamStmt}
  {outcome : StartOutcome} {c : Config CaptureRun StreamStmt}

/-- The peak of a dispatch combines those of the buffers the dispatch took. -/
def CaptureRun.Taken (s : CaptureRun) (peak : TakenPeak) : Prop :=
  ∃ batch, s.batches[peak.snapshot]? = some batch ∧ batch ≠ [] ∧
    (∀ buffer ∈ batch, buffer.accepted = true) ∧ peak.value = levelOf batch

/-- The block numbered so is that of the buffer numbered so. -/
def CaptureRun.Carried (s : CaptureRun) (block : PendingBlock) : Prop :=
  ∃ buffer, s.carried[block.sequence]? = some buffer ∧ buffer.accepted = true ∧
    block = { buffer.block with sequence := block.sequence }

theorem getElem?_append_of_some {α : Type} {xs : List α} {n : Nat} {x : α}
    (h : xs[n]? = some x) (ys : List α) : (xs ++ ys)[n]? = some x := by
  obtain ⟨hn, -⟩ := List.getElem?_eq_some_iff.mp h
  rw [List.getElem?_append_left hn, h]

theorem CaptureRun.Taken.append {peak : TakenPeak} {batches : List (List AudioBuffer)}
    (h : s.Taken peak) (grown : t.batches = s.batches ++ batches) : t.Taken peak := by
  obtain ⟨batch, hb, valid⟩ := h
  exact ⟨batch, by rw [grown]; exact getElem?_append_of_some hb batches, valid⟩

theorem CaptureRun.Carried.append {block : PendingBlock} {buffers : List AudioBuffer}
    (h : s.Carried block) (grown : t.carried = s.carried ++ buffers) : t.Carried block := by
  obtain ⟨buffer, hb, valid⟩ := h
  exact ⟨buffer, by rw [grown]; exact getElem?_append_of_some hb buffers, valid⟩

structure CaptureInv (s : CaptureRun) (code : List StreamStmt) : Prop where
  pending : s.run.stream.hasPendingPeak = !s.waiting.isEmpty
  level : s.waiting ≠ [] → s.run.stream.pendingPeak = levelOf s.waiting
  accepted : ∀ buffer ∈ s.waiting, buffer.accepted = true
  batches : s.batches.length = s.run.snapshots
  carried : s.carried.length = s.run.stream.nextSequence
  queued : ∀ block ∈ s.run.stream.pendingBlocks, s.Carried block
  held : ∀ i ∈ code, i.Holds s.Taken s.Carried
  emitted : ∀ e ∈ s.run.history, e.Holds s.Taken s.Carried

theorem CaptureInv.grow {batches : List (List AudioBuffer)} {buffers : List AudioBuffer}
    (h : CaptureInv s code) (taken : t.batches = s.batches ++ batches)
    (carried : t.carried = s.carried ++ buffers) :
    (∀ block ∈ s.run.stream.pendingBlocks, t.Carried block) ∧
      (∀ i ∈ code, i.Holds t.Taken t.Carried) ∧
      ∀ e ∈ s.run.history, e.Holds t.Taken t.Carried := by
  refine ⟨fun block hb => (h.queued block hb).append carried, fun i hi => ?_, fun e he => ?_⟩
  · exact (h.held i hi).mono (fun _ hp => hp.append taken) fun _ hb => hb.append carried
  · exact (h.emitted e he).mono (fun _ hp => hp.append taken) fun _ hb => hb.append carried

/-- A statement that neither takes nor clears the queue. -/
theorem CaptureInv.run_other (h : CaptureInv s (i :: rest)) (hi : i.ofQueue = false) :
    CaptureInv (captureComponent.exec outcome i s).1
      ((captureComponent.exec outcome i s).2 ++ rest) := by
  obtain ⟨first, later⟩ := List.forall_mem_cons.mp h.held
  have not_take : i ≠ .dispatchTake := fun he => by simp [he, StreamStmt.ofQueue] at hi
  obtain ⟨events, history, new_events, new_code⟩ := streamExec_holds outcome s.run first not_take
  obtain ⟨hasPeak, peak, blocks, next, snapshots⟩ := streamExec_queue outcome s.run hi
  have settled : s.settle i = s := by
    cases i <;> first | rfl | simp [StreamStmt.ofQueue] at hi
  simp only [captureComponent, settled]
  exact {
    pending := by rw [hasPeak, h.pending]
    level := fun hw => by rw [peak, h.level hw]
    accepted := h.accepted
    batches := by rw [snapshots, h.batches]
    carried := by rw [next, h.carried]
    queued := fun block hb => h.queued block (by rwa [blocks] at hb)
    held := fun j hj => (List.mem_append.mp hj).elim (new_code j) (later j)
    emitted := fun e he => by
      rw [history] at he
      exact (List.mem_append.mp he).elim (h.emitted e) (new_events e) }

theorem CaptureInv.take (h : CaptureInv s (.dispatchTake :: rest)) :
    CaptureInv (captureComponent.exec outcome .dispatchTake s).1
      ((captureComponent.exec outcome .dispatchTake s).2 ++ rest) := by
  have later : ∀ i ∈ rest, i.Holds s.Taken s.Carried := (List.forall_mem_cons.mp h.held).2
  have rest_inv : CaptureInv s rest := { h with held := later }
  obtain ⟨queued, held, emitted⟩ :=
    rest_inv.grow (t := (captureComponent.exec outcome .dispatchTake s).1) rfl
      (List.append_nil _).symm
  have taken : ∀ peak, s.run.takenPeak = some peak →
      (captureComponent.exec outcome .dispatchTake s).1.Taken peak := by
    intro peak hp
    simp only [StreamRun.takenPeak, h.pending] at hp
    split at hp
    next hw =>
      have nonempty : s.waiting ≠ [] := by simpa using hw
      rw [← Option.some.inj hp]
      refine ⟨s.waiting, ?_, nonempty, h.accepted, h.level nonempty⟩
      show (s.batches ++ [s.waiting])[s.run.snapshots]? = some s.waiting
      rw [← h.batches, List.getElem?_concat_length]
    next => simp at hp
  exact {
    pending := rfl
    level := fun hw => absurd rfl hw
    accepted := fun _ hb => absurd hb List.not_mem_nil
    batches := by simp [captureComponent, CaptureRun.settle, streamExec, h.batches]
    carried := h.carried
    queued := fun block hb => by simp [captureComponent, streamExec, streamTakePending] at hb
    held := fun j hj => by
      rcases List.mem_append.mp hj with hj | hj
      · simp only [captureComponent, streamExec, List.mem_cons, List.not_mem_nil, or_false] at hj
        rcases hj with rfl | rfl | rfl | rfl
        · trivial
        · trivial
        · cases hp : s.run.takenPeak with
          | none => trivial
          | some peak => exact taken peak hp
        · exact queued
      · exact held j hj
    emitted := fun e he => by
      rcases List.mem_append.mp he with he | he
      · exact emitted e he
      · rw [List.mem_singleton.mp he]
        trivial }

theorem CaptureInv.clear {wasRunning : Bool} {mark : QueueMark}
    (h : CaptureInv s (.stopLoop wasRunning mark :: rest)) :
    CaptureInv (captureComponent.exec outcome (.stopLoop wasRunning mark) s).1
      ((captureComponent.exec outcome (.stopLoop wasRunning mark) s).2 ++ rest) := by
  obtain ⟨first, later⟩ := List.forall_mem_cons.mp h.held
  obtain ⟨events, history, new_events, new_code⟩ :=
    streamExec_holds outcome s.run first (by simp)
  exact {
    pending := rfl
    level := fun hw => absurd rfl hw
    accepted := fun _ hb => absurd hb List.not_mem_nil
    batches := h.batches
    carried := h.carried
    queued := fun block hb => by simp [captureComponent, streamExec, streamClearPending] at hb
    held := fun j hj => (List.mem_append.mp hj).elim (new_code j) (later j)
    emitted := fun e he => by
      simp only [captureComponent, history] at he
      exact (List.mem_append.mp he).elim (h.emitted e) (new_events e) }

theorem CaptureInv.run (h : CaptureInv s (i :: rest)) :
    CaptureInv (captureComponent.exec outcome i s).1
      ((captureComponent.exec outcome i s).2 ++ rest) := by
  by_cases hi : i.ofQueue = false
  · exact h.run_other hi
  cases i with
  | dispatchTake => exact h.take
  | stopLoop wasRunning mark => exact h.clear
  | _ => simp [StreamStmt.ofQueue] at hi

/-- The calls that handling a buffer makes, in order. -/
theorem callback_buffer {buffer : AudioBuffer} {n : Nat} {callback : StreamCallback}
    (h : (buffer.callbacks true)[n]? = some callback) :
    buffer.accepted = true ∧
      (n = 0 → callback = .queuePeak buffer.peak) ∧
      (n = 1 → callback = .queueAudioBlock buffer.block) := by
  rw [AudioBuffer.callbacks_eq] at h
  split at h
  next ha =>
    refine ⟨ha, fun hn => ?_, fun hn => ?_⟩
    · subst hn
      simpa using h.symm
    · subst hn
      simpa using h.symm
  next => simp at h

theorem AudioBuffer.block_data (b : AudioBuffer) : b.block.data.length = 4 * b.nSamples := by
  simp [block]

theorem AudioBuffer.block_nonempty {b : AudioBuffer} (h : b.accepted = true) :
    b.block.data ≠ [] := by
  have pos := channels_pos h
  have bound := (accepted_iff.mp h).2
  intro he
  have := b.block_data
  rw [he, List.length_nil] at this
  omega

theorem streamQueuePeak_blocks (peak : Magnitude) (s : StreamRun) :
    (streamCallback (.queuePeak peak) s).stream.pendingBlocks = s.stream.pendingBlocks ∧
      (streamCallback (.queuePeak peak) s).stream.nextSequence = s.stream.nextSequence := by
  simp [streamCallback, streamQueuePeak, streamQueueDispatchLocked_eq]

theorem CaptureInv.queuePeak {buffer : AudioBuffer} (h : CaptureInv s code)
    (ha : buffer.accepted = true) :
    CaptureInv { s.heard (.queuePeak buffer) with
      run := streamCallback (.queuePeak buffer.peak) s.run } code where
  pending := by
    simp [streamCallback, streamQueuePeak, streamQueueDispatchLocked_eq, CaptureRun.heard]
  level hw := by
    have value : (streamCallback (.queuePeak buffer.peak) s.run).stream.pendingPeak =
        if s.run.stream.hasPendingPeak then s.run.stream.pendingPeak.max buffer.peak
        else buffer.peak := by
      simp [streamCallback, streamQueuePeak, streamQueueDispatchLocked_eq]
    show _ = levelOf (s.waiting ++ [buffer])
    rw [levelOf_append, value, h.pending]
    by_cases hw : s.waiting = []
    · rw [hw]
      exact (Magnitude.zero_max _).symm
    · rw [← h.level hw]
      simp [hw]
  accepted b hb := by
    rcases List.mem_append.mp hb with hb | hb
    · exact h.accepted b hb
    · rwa [List.mem_singleton.mp hb]
  batches := h.batches
  carried := by
    rw [(streamQueuePeak_blocks buffer.peak s.run).2]
    exact h.carried
  queued block hb := by
    rw [(streamQueuePeak_blocks buffer.peak s.run).1] at hb
    exact h.queued block hb
  held := h.held
  emitted e he := by
    rcases List.mem_append.mp he with he | he
    · exact h.emitted e he
    · rw [List.mem_singleton.mp he]
      trivial

theorem CaptureInv.queueAudioBlock {buffer : AudioBuffer} (h : CaptureInv s code)
    (ha : buffer.accepted = true) :
    CaptureInv { s.heard (.queueAudioBlock buffer) with
      run := streamCallback (.queueAudioBlock buffer.block) s.run } code := by
  obtain ⟨queued, held, emitted⟩ :=
    h.grow (t := s.heard (.queueAudioBlock buffer)) (List.append_nil _).symm rfl
  have nonempty := AudioBuffer.block_nonempty ha
  have numbered : (s.heard (.queueAudioBlock buffer)).Carried
      { buffer.block with sequence := s.run.stream.nextSequence } := by
    refine ⟨buffer, ?_, ha, rfl⟩
    show (s.carried ++ [buffer])[s.run.stream.nextSequence]? = some buffer
    rw [← h.carried, List.getElem?_concat_length]
  simp only [streamCallback, if_neg nonempty, streamQueueAudioBlock, dropOldest_eq,
    streamQueueDispatchLocked_eq]
  exact {
    pending := h.pending
    level := h.level
    accepted := h.accepted
    batches := h.batches
    carried := by simp [CaptureRun.heard, h.carried]
    queued := fun block hb => by
      rcases List.mem_append.mp (List.mem_of_mem_drop hb) with hb | hb
      · exact queued block hb
      · rw [List.mem_singleton.mp hb]
        exact numbered
    held := held
    emitted := fun e he => by
      rcases List.mem_append.mp he with he | he
      · exact emitted e he
      · rcases List.mem_cons.mp he with rfl | he
        · trivial
        · obtain ⟨n, -, rfl⟩ := List.mem_map.mp he
          trivial }

theorem CaptureInv.queueOther {callback : StreamCallback} (h : CaptureInv s code)
    (hc : (∃ rate, callback = .queueGraphRate rate) ∨ ∃ format, callback = .queueFormat format) :
    CaptureInv { s with run := streamCallback callback s.run } code := by
  rcases hc with ⟨rate, rfl⟩ | ⟨format, rfl⟩
  · simp only [streamCallback, streamQueueGraphRate]
    split
    · exact { h with }
    · rw [streamQueueDispatchLocked_eq]
      exact { h with }
  · simp only [streamCallback, streamQueueFormat, streamQueueDispatchLocked_eq]
    exact { h with }

theorem capture_preserves {allowed : Config CaptureRun StreamStmt →
    Label StreamCall StartOutcome CaptureEvent → Prop} :
    captureComponent.Preserves allowed CaptureInv where
  call operation s code r h ha _ hr := by
    obtain ⟨u, hu, rfl⟩ := Option.map_eq_some_iff.mp hr
    obtain ⟨sources, rfl⟩ := streamCall_eq hu
    refine { h with held := fun i hi => ?_ }
    rcases List.mem_cons.mp hi with rfl | hi
    · cases operation <;> trivial
    · exact h.held i hi
  run _ _ _ _ h _ := h.run
  environment event s code t h _ ht := by
    obtain ⟨callback, hc, hs⟩ := Option.bind_eq_some_iff.mp ht
    obtain ⟨u, hu, rfl⟩ := Option.map_eq_some_iff.mp hs
    obtain ⟨-, rfl⟩ := streamEnvironment_eq hu
    cases event with
    | queuePeak buffer =>
      obtain ⟨ha, he, -⟩ := callback_buffer hc
      rw [he rfl]
      exact h.queuePeak ha
    | queueAudioBlock buffer =>
      obtain ⟨ha, -, he⟩ := callback_buffer hc
      rw [he rfl]
      exact h.queueAudioBlock ha
    | queueGraphRate rate => exact h.queueOther (.inl ⟨rate, (Option.some.inj hc).symm⟩)
    | queueFormat format => exact h.queueOther (.inr ⟨format, (Option.some.inj hc).symm⟩)

theorem capture_init : CaptureInv captureInit.state captureInit.code where
  pending := rfl
  level hw := absurd rfl hw
  accepted := by simp [captureInit]
  batches := rfl
  carried := rfl
  queued := by simp [captureInit]
  held := by simp [captureInit]
  emitted := by simp [captureInit]

theorem captureInv_reach (h : Reach captureComponent.step anyStep captureInit c) :
    CaptureInv c.state c.code :=
  capture_preserves.reach h capture_init

/-- The format that `pwg_stream_emit_audio_block` builds for a block. -/
def PendingBlock.format (block : PendingBlock) : AudioFormat :=
  ⟨block.sampleFormat, block.rate, block.channels, block.bytesPerSample⟩

def AudioFormat.calculateBytesPerFrame (self : AudioFormat) : UInt32 :=
  if self.channels ≠ 0 ∧ 0xffffffff / self.channels < self.bytesPerSample then 0
  else self.bytesPerSample * self.channels

/-- The block holds whole frames, as many as it says. -/
def PendingBlock.consistent (block : PendingBlock) : Prop :=
  1 ≤ block.nFrames.toNat ∧ block.format.calculateBytesPerFrame ≠ 0 ∧
    block.data.length = block.nFrames.toNat * block.format.calculateBytesPerFrame.toNat

instance (block : PendingBlock) : Decidable block.consistent :=
  inferInstanceAs (Decidable (_ ∧ _ ∧ _))

/-- A frame that fits into a chunk has a size that fits into 32 bits. -/
theorem calculateBytesPerFrame_toNat {format : AudioFormat} (hs : format.bytesPerSample = 4)
    (pos : 0 < format.channels.toNat) (bound : format.channels.toNat < 1073741824) :
    format.calculateBytesPerFrame.toNat = 4 * format.channels.toNat := by
  have max : (0xffffffff : UInt32).toNat = 4294967295 := rfl
  have four : (4 : UInt32).toNat = 4 := rfl
  have room : ¬0xffffffff / format.channels < format.bytesPerSample := by
    rw [hs, UInt32.lt_iff_toNat_lt, UInt32.toNat_div, max, four, Nat.not_lt,
      Nat.le_div_iff_mul_le pos]
    omega
  rw [AudioFormat.calculateBytesPerFrame, if_neg fun h => room h.2, hs, UInt32.toNat_mul, four]
  exact Nat.mod_eq_of_lt (by omega)

theorem AudioBuffer.block_frames {b : AudioBuffer} (h : b.accepted = true) :
    1 ≤ b.block.nFrames.toNat ∧ b.block.format.calculateBytesPerFrame ≠ 0 ∧
      (b.block.consistent ↔ b.channels.toNat ∣ b.size.toNat / 4) := by
  have pos := channels_pos h
  have room := (accepted_iff.mp h).2
  have small := b.nSamples_small
  have bytes : b.block.format.calculateBytesPerFrame.toNat = 4 * b.channels.toNat :=
    calculateBytesPerFrame_toNat rfl pos (show b.channels.toNat < _ by omega)
  have frames : b.block.nFrames.toNat = b.nSamples / b.channels.toNat := b.nFrames_toNat
  have first : 1 ≤ b.block.nFrames.toNat := by
    rw [frames]
    exact Nat.div_pos room pos
  have second : b.block.format.calculateBytesPerFrame ≠ 0 := by
    rw [← Traced.toNat_ne_zero]
    omega
  refine ⟨first, second, ?_⟩
  have size : b.block.nFrames.toNat * b.block.format.calculateBytesPerFrame.toNat =
      4 * (b.nSamples / b.channels.toNat * b.channels.toNat) := by
    rw [frames, bytes, Nat.mul_left_comm]
  rw [PendingBlock.consistent, size, b.block_data]
  constructor
  · rintro ⟨-, -, he⟩
    exact ⟨b.nSamples / b.channels.toNat, by rw [Nat.mul_comm]; show b.nSamples = _; omega⟩
  · intro hd
    exact ⟨first, second, by rw [Nat.div_mul_cancel (show _ ∣ b.nSamples from hd)]⟩

theorem audioBlock_consistent (h : Reach captureComponent.step anyStep captureInit c)
    {block : PendingBlock} (hb : .audioBlock block ∈ c.state.run.history) :
    ∃ buffer, c.state.carried[block.sequence]? = some buffer ∧
      1 ≤ block.nFrames.toNat ∧ block.format.calculateBytesPerFrame ≠ 0 ∧
      (block.consistent ↔ buffer.channels.toNat ∣ buffer.size.toNat / 4) := by
  obtain ⟨buffer, numbered, ha, he⟩ := (captureInv_reach h).emitted _ hb
  refine ⟨buffer, numbered, ?_⟩
  rw [he]
  exact AudioBuffer.block_frames ha

/-- A stream that delivers blocks handles one buffer and dispatches. -/
def blockSession (buffer : AudioBuffer) : List (Label StreamCall StartOutcome CaptureEvent) :=
  .call (.setDeliverAudioBlocks true) :: List.replicate 3 (.run .started) ++
    .call .start :: List.replicate 4 (.run .started) ++
    [.environment (.queuePeak buffer), .environment (.queueAudioBlock buffer), .call .iterate] ++
    List.replicate 11 (.run .started)

def stereoBuffer (size : UInt32) : AudioBuffer := ⟨fun _ => 0, 0, size, 48000, 2⟩

theorem audioBlock_consistent_stereo :
    ∃ buffer, (final captureComponent.step captureInit
        (blockSession (stereoBuffer 16))).state.carried[0]? = some buffer ∧
      1 ≤ (stereoBuffer 16).block.nFrames.toNat ∧
      (stereoBuffer 16).block.format.calculateBytesPerFrame ≠ 0 ∧
      ((stereoBuffer 16).block.consistent ↔ buffer.channels.toNat ∣ buffer.size.toNat / 4) := by
  have emitted : .audioBlock (stereoBuffer 16).block ∈ (final captureComponent.step captureInit
      (blockSession (stereoBuffer 16))).state.run.history := by decide +kernel
  exact audioBlock_consistent (reach_final (allAllowed_anyStep _ _)) emitted

/-- Three samples of two channels are one frame and a half. -/
theorem audioBlock_partialFrame :
    ∃ c, Reach captureComponent.step anyStep captureInit c ∧
      ∃ block, .audioBlock block ∈ c.state.run.history ∧ ¬block.consistent :=
  ⟨final captureComponent.step captureInit (blockSession (stereoBuffer 12)),
    reach_final (allAllowed_anyStep _ _), (stereoBuffer 12).block, by decide +kernel,
    by decide +kernel⟩

end PipewireGobject
