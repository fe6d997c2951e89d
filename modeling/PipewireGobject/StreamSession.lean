import PipewireGobject.StreamOrder

namespace PipewireGobject

variable {s t : StreamRun} {code rest : List StreamStmt} {i : StreamStmt}
  {outcome : StartOutcome} {c : Config StreamRun StreamStmt} {mark : QueueMark}

/-- A stop that has returned bounds from below what the signals after it carry. -/
def EndsSession (before : List StreamEvent) (event : StreamEvent) : Prop :=
  ∀ mark, .stopReturned mark ∈ before →
    (∀ peak, event = .level peak → mark.peaks ≤ peak.oldest) ∧
    (∀ block, event = .audioBlock block → mark.blocks ≤ block.sequence)

/-- A peak or blocks of a dispatch that will test `running` before it hands them out. -/
def StreamStmt.undelivered : StreamStmt → Bool
  | .dispatchPeak (some _) | .dispatchBlocks (_ :: _) => true
  | _ => false

def StreamStmt.emitsLevel : StreamStmt → Bool
  | .emitLevel _ => true
  | _ => false

/-- No start succeeds while a dispatch holds a peak or blocks, and no stop runs
between a notification of the peak and its level signal. -/
def SessionsSeparate : StreamRule := fun c label =>
  (label = .run .started → c.code.head? = some .start → c.state.stream.running = false →
    ∀ i ∈ c.code, i.undelivered = false) ∧
  (label.isRun = true → c.code.head? = some .stop → ∀ i ∈ c.code, i.emitsLevel = false)

instance (c : Config StreamRun StreamStmt)
    (label : Label StreamCall StartOutcome StreamCallback) :
    Decidable (SessionsSeparate c label) :=
  inferInstanceAs (Decidable (_ ∧ _))

/-- `mark` was taken by a stop that has cleared the queue. -/
def Ended (s : StreamRun) (code : List StreamStmt) (mark : QueueMark) : Prop :=
  .stopReturned mark ∈ s.history ∨ .stopReturn mark ∈ code

/-- Nothing queued before `mark` gets out of this statement. -/
def StreamStmt.freshFrom (running : Bool) (mark : QueueMark) : StreamStmt → Prop
  | .dispatchPeak (some peak) => running = true → mark.peaks ≤ peak.oldest
  | .dispatchBlocks blocks => running = true → ∀ b ∈ blocks, mark.blocks ≤ b.sequence
  | .emitLevel peak => mark.peaks ≤ peak.oldest
  | _ => True

/-- Nothing queued before `mark` is pending. -/
structure PendingFrom (s : StreamRun) (mark : QueueMark) : Prop where
  peak : s.stream.hasPendingPeak = true → mark.peaks ≤ s.oldestPeak
  blocks : ∀ b ∈ s.stream.pendingBlocks, mark.blocks ≤ b.sequence

structure SessionInv (s : StreamRun) (code : List StreamStmt) : Prop where
  bounded : ∀ mark, Ended s code mark ∨ (∃ wasRunning, .stopLoop wasRunning mark ∈ code) →
    mark.peaks ≤ s.peaksQueued ∧ mark.blocks ≤ s.stream.nextSequence
  pending : ∀ mark, Ended s code mark → PendingFrom s mark
  fresh : ∀ mark, Ended s code mark → ∀ i ∈ code, i.freshFrom s.stream.running mark
  starting : .startRunning ∈ code → ∀ i ∈ code, i.undelivered = false
  stopping : ∀ wasRunning mark, .stopLoop wasRunning mark ∈ code →
    ∀ i ∈ code, i.emitsLevel = false
  justified : Justified EndsSession s.history

theorem freshFrom_of_not_undelivered {running running' : Bool} (hu : i.undelivered = false)
    (h : i.freshFrom running mark) : i.freshFrom running' mark := by
  cases i with
  | dispatchPeak peak =>
    cases peak with
    | none => trivial
    | some peak => simp [StreamStmt.undelivered] at hu
  | dispatchBlocks blocks =>
    cases blocks with
    | nil => simp [StreamStmt.freshFrom]
    | cons block blocks => simp [StreamStmt.undelivered] at hu
  | emitLevel peak => exact h
  | _ => trivial

/-- A stream that does not run hands out nothing but a level signal. -/
theorem freshFrom_of_stopped (hl : i.emitsLevel = false) : i.freshFrom false mark := by
  cases i with
  | dispatchPeak peak => cases peak <;> simp [StreamStmt.freshFrom]
  | dispatchBlocks blocks => simp [StreamStmt.freshFrom]
  | emitLevel peak => simp [StreamStmt.emitsLevel] at hl
  | _ => trivial

/-- Where no operation is halfway, no start and no stop has more to do. -/
theorem midway_not_mem {code : List StreamStmt} (quiet : ∀ j ∈ code, j.midway = false) :
    .startRunning ∉ code ∧ ∀ wasRunning mark, .stopLoop wasRunning mark ∉ code := by
  refine ⟨fun hm => ?_, fun wasRunning mark hm => ?_⟩
  · simpa [StreamStmt.midway] using quiet _ hm
  · simpa [StreamStmt.midway] using quiet _ hm

/-- A step that leaves the queue and `running` alone. -/
theorem SessionInv.of_same {code' : List StreamStmt} (h : SessionInv s code)
    (running : t.stream.running = s.stream.running)
    (counters : t.peaksQueued = s.peaksQueued ∧ t.stream.nextSequence = s.stream.nextSequence)
    (peak : t.stream.hasPendingPeak = s.stream.hasPendingPeak ∧ t.oldestPeak = s.oldestPeak)
    (blocks : t.stream.pendingBlocks = s.stream.pendingBlocks)
    (quiet : ∀ i ∈ code', i.midway = false)
    (ended : ∀ mark, Ended t code' mark → Ended s code mark)
    (fresh : ∀ i ∈ code', i ∈ code ∨
      ∀ mark, Ended s code mark → i.freshFrom s.stream.running mark)
    (justified : Justified EndsSession t.history) : SessionInv t code' where
  bounded mark hm := by
    rw [counters.1, counters.2]
    rcases hm with hm | ⟨wasRunning, hm⟩
    · exact h.bounded mark (.inl (ended mark hm))
    · simpa [StreamStmt.midway] using quiet _ hm
  pending mark hm := by
    obtain ⟨hp, hb⟩ := h.pending mark (ended mark hm)
    exact ⟨by rw [peak.1, peak.2]; exact hp, by rw [blocks]; exact hb⟩
  fresh mark hm i hi := by
    rw [running]
    rcases fresh i hi with hc | hf
    · exact h.fresh mark (ended mark hm) i hc
    · exact hf mark (ended mark hm)
  starting hm := absurd hm (midway_not_mem quiet).1
  stopping wasRunning mark hm := absurd hm ((midway_not_mem quiet).2 wasRunning mark)
  justified := justified

/-- Events other than the two signals are justified whatever came before. -/
theorem endsSession_silent {events : List StreamEvent} (h : Justified EndsSession s.history)
    (levels : ∀ peak, .level peak ∉ events) (blocks : ∀ block, .audioBlock block ∉ events) :
    Justified EndsSession (s.history ++ events) := by
  refine h.append fun e he before mark _ => ⟨?_, ?_⟩
  · rintro peak rfl
    exact absurd he (levels peak)
  · rintro block rfl
    exact absurd he (blocks block)

/-- A statement that records at most one event and leaves the queue and `running` alone. -/
theorem SessionInv.of_event {code' : List StreamStmt} (event : Option StreamEvent)
    (h : SessionInv s (i :: rest)) (phase : StreamPhase s (i :: rest))
    (history : t.history = s.history ++ event.toList)
    (running : t.stream.running = s.stream.running)
    (counters : t.peaksQueued = s.peaksQueued ∧ t.stream.nextSequence = s.stream.nextSequence)
    (peak : t.stream.hasPendingPeak = s.stream.hasPendingPeak ∧ t.oldestPeak = s.oldestPeak)
    (blocks : t.stream.pendingBlocks = s.stream.pendingBlocks)
    (quiet : ∀ j ∈ code', j.midway = false)
    (marks : ∀ mark, .stopReturn mark ∉ code')
    (fresh : ∀ mark, i.freshFrom s.stream.running mark →
      ∀ j ∈ code', j.freshFrom s.stream.running mark)
    (returned : ∀ mark, event = some (.stopReturned mark) → i = .stopReturn mark)
    (level : ∀ peak, event = some (.level peak) → i = .emitLevel peak)
    (block : ∀ b, event = some (.audioBlock b) →
      s.stream.running = true ∧ ∃ later, i = .dispatchBlocks (b :: later)) :
    SessionInv t (code' ++ rest) := by
  have head : ∀ mark, Ended s (i :: rest) mark → i.freshFrom s.stream.running mark :=
    fun mark hm => h.fresh mark hm i List.mem_cons_self
  refine h.of_same running counters peak blocks ?_ ?_ ?_ ?_
  · intro j hj
    exact (List.mem_append.mp hj).elim (quiet j) (phase.midway_next j)
  · rintro mark (hm | hm)
    · rw [history] at hm
      rcases List.mem_append.mp hm with hm | hm
      · exact .inl hm
      · rw [returned mark (by simpa using hm)]
        exact .inr List.mem_cons_self
    · exact .inr (List.mem_cons_of_mem _ ((List.mem_append.mp hm).resolve_left (marks mark)))
  · intro j hj
    rcases List.mem_append.mp hj with hj | hj
    · exact .inr fun mark hm => fresh mark (head mark hm) j hj
    · exact .inl (List.mem_cons_of_mem _ hj)
  · rw [history]
    cases event with
    | none => simpa using h.justified
    | some event =>
      refine justified_concat.mpr ⟨h.justified, fun mark hm => ⟨?_, ?_⟩⟩
      · rintro peak rfl
        have he := level peak rfl
        subst he
        exact head mark (.inl hm)
      · rintro b rfl
        obtain ⟨hr, later, rfl⟩ := block b rfl
        exact head mark (.inl hm) hr b List.mem_cons_self

/-- Emissions of notifications. -/
theorem SessionInv.emit (h : SessionInv s (i :: rest)) (phase : StreamPhase s (i :: rest))
    (hi : i.ofEmission = true) :
    SessionInv (streamExec outcome i s).1 ((streamExec outcome i s).2 ++ rest) := by
  obtain ⟨emissions, events, code, heq, silent, hcode⟩ := streamExec_ofEmission outcome s hi
  have handlers : ∀ j ∈ code, ∃ notified, j = .handlers notified := by
    rcases hcode with rfl | ⟨property, rfl⟩ <;> simp
  rw [heq]
  refine h.of_same rfl ⟨rfl, rfl⟩ ⟨rfl, rfl⟩ rfl ?_ ?_ ?_ (endsSession_silent h.justified ?_ ?_)
  · intro j hj
    rcases List.mem_append.mp hj with hj | hj
    · obtain ⟨notified, rfl⟩ := handlers j hj
      rfl
    · exact phase.midway_next j hj
  · rintro mark (hm | hm)
    · rcases List.mem_append.mp hm with hm | hm
      · exact .inl hm
      · cases silent _ hm
    · rcases List.mem_append.mp hm with hm | hm
      · obtain ⟨notified, he⟩ := handlers _ hm
        cases he
      · exact .inr (List.mem_cons_of_mem _ hm)
  · intro j hj
    rcases List.mem_append.mp hj with hj | hj
    · obtain ⟨notified, rfl⟩ := handlers j hj
      exact .inr fun _ _ => trivial
    · exact .inl (List.mem_cons_of_mem _ hj)
  · intro peak hm
    cases silent _ hm
  · intro block hm
    cases silent _ hm

theorem SessionInv.publish (h : SessionInv s (i :: rest)) (phase : StreamPhase s (i :: rest))
    (hp : i.publishes = true) :
    SessionInv (streamExec outcome i s).1 ((streamExec outcome i s).2 ++ rest) := by
  obtain ⟨same, hnew⟩ := streamExec_publishes outcome s hp
  have keep : ∀ event : Option StreamEvent,
      (streamExec outcome i s).1.history = s.history ++ event.toList →
      (∀ mark, .stopReturn mark ∉ (streamExec outcome i s).2) →
      (∀ mark, i.freshFrom s.stream.running mark →
        ∀ j ∈ (streamExec outcome i s).2, j.freshFrom s.stream.running mark) →
      (∀ mark, event = some (.stopReturned mark) → i = .stopReturn mark) →
      (∀ peak, event = some (.level peak) → i = .emitLevel peak) →
      (∀ b, event = some (.audioBlock b) →
        s.stream.running = true ∧ ∃ later, i = .dispatchBlocks (b :: later)) →
      SessionInv (streamExec outcome i s).1 ((streamExec outcome i s).2 ++ rest) :=
    fun event history marks fresh returned level block =>
      h.of_event event phase history same.running ⟨same.peaksQueued, same.nextSequence⟩
        ⟨same.hasPendingPeak, same.oldestPeak⟩ same.pendingBlocks
        (fun j hj => midway_of_publishes (hnew j hj)) marks fresh returned level block
  by_cases he : i.ofEmission = true
  · exact h.emit phase he
  cases i with
  | handlers | notify => exact absurd rfl he
  | dispatchFormat format =>
    cases format <;> apply keep none <;> simp [streamExec, StreamStmt.freshFrom]
  | dispatchPeak peak =>
    cases peak with
    | none => apply keep none <;> simp [streamExec]
    | some peak =>
      by_cases hr : s.stream.running = true
      · apply keep (some (.peakStored peak)) <;> simp [streamExec, StreamStmt.freshFrom, hr]
      · apply keep none <;> simp [streamExec, hr]
  | emitLevel peak =>
    apply keep (some (.level peak)) <;> simp [streamExec, StreamStmt.freshFrom]
  | dispatchBlocks blocks =>
    cases blocks with
    | nil => apply keep none <;> simp [streamExec]
    | cons block blocks =>
      by_cases hr : s.stream.running = true
      · apply keep (some (.audioBlock block)) <;> simp [streamExec, StreamStmt.freshFrom, hr]
      · apply keep (some (.blockDiscarded block.sequence)) <;>
          simp [streamExec, StreamStmt.freshFrom, hr]
  | stopReturn mark => apply keep (some (.stopReturned mark)) <;> simp [streamExec]
  | setDeliverAudioBlocks deliver =>
    by_cases hd : s.stream.deliverAudioBlocks = deliver
    · apply keep none <;> simp [streamExec, hd]
    · apply keep none <;> simp [streamExec, StreamStmt.freshFrom, hd]
  | _ => simp [StreamStmt.publishes] at hp

/-- What was pending is in flight. -/
theorem SessionInv.take (h : SessionInv s (.dispatchTake :: rest))
    (phase : StreamPhase s (.dispatchTake :: rest)) :
    SessionInv (streamExec outcome .dispatchTake s).1
      ((streamExec outcome .dispatchTake s).2 ++ rest) := by
  have quiet : ∀ j ∈ rest, j.midway = false := phase.midway_next
  have same : ∀ mark, Ended (streamExec outcome .dispatchTake s).1
      ((streamExec outcome .dispatchTake s).2 ++ rest) mark →
        Ended s (.dispatchTake :: rest) mark := by
    intro mark hm
    simpa [Ended, streamExec] using hm
  exact {
    bounded := fun mark hm => h.bounded mark (hm.imp (same mark)
      (Exists.imp fun w hw => by simpa [streamExec] using hw))
    pending := fun mark _ => ⟨by simp [streamExec, streamTakePending],
      by simp [streamExec, streamTakePending]⟩
    fresh := fun mark hm j hj => by
      have hpending := h.pending mark (same mark hm)
      simp only [streamExec, List.cons_append, List.nil_append, List.mem_cons] at hj
      rcases hj with rfl | rfl | rfl | rfl | hj
      · trivial
      · trivial
      · unfold StreamRun.takenPeak
        split
        next hp => exact fun _ => hpending.peak hp
        next => trivial
      · exact fun _ => hpending.blocks
      · exact h.fresh mark (same mark hm) j (List.mem_cons_of_mem _ hj)
    starting := fun hm => absurd (by simpa [streamExec] using hm) (midway_not_mem quiet).1
    stopping := fun wasRunning mark hm =>
      absurd (by simpa [streamExec] using hm) ((midway_not_mem quiet).2 wasRunning mark)
    justified := endsSession_silent h.justified (by simp) (by simp) }

/-- A thread loop is up and no dispatch holds anything that was queued before. -/
theorem SessionInv.start (h : SessionInv s (.start :: rest))
    (phase : StreamPhase s (.start :: rest))
    (separate : SessionsSeparate ⟨s, .start :: rest⟩ (.run outcome)) :
    SessionInv (streamExec outcome .start s).1 ((streamExec outcome .start s).2 ++ rest) := by
  have quiet : ∀ j ∈ rest, j.midway = false := phase.midway_next
  have ended : ∀ code' mark, (∀ m, .stopReturn m ∉ code') →
      Ended s (code' ++ rest) mark → Ended s (.start :: rest) mark := by
    rintro code' mark hno (hm | hm)
    · exact .inl hm
    · exact .inr (List.mem_cons_of_mem _ ((List.mem_append.mp hm).resolve_left (hno mark)))
  simp only [streamExec]
  split
  next =>
    exact h.of_event none phase (by simp) rfl ⟨rfl, rfl⟩ ⟨rfl, rfl⟩ rfl (by simp) (by simp)
      (by simp) (by simp) (by simp) (by simp)
  next hr =>
    cases outcome with
    | nothingCreated =>
      exact h.of_event none phase (by simp) rfl ⟨rfl, rfl⟩ ⟨rfl, rfl⟩ rfl (by simp) (by simp)
        (by simp) (by simp) (by simp) (by simp)
    | failed =>
      exact h.of_event none phase (by simp) rfl ⟨rfl, rfl⟩ ⟨rfl, rfl⟩ rfl
        (by simp [StreamStmt.midway]) (by simp) (by simp [StreamStmt.freshFrom]) (by simp)
        (by simp) (by simp)
    | started =>
      have nothing_held := separate.1 rfl rfl (by simpa using hr)
      exact {
        bounded := fun mark hm => h.bounded mark (hm.imp
          (fun hm => ended [.startRunning] mark (by simp) hm)
          (Exists.imp fun w hw => by simpa using hw))
        pending := fun mark hm => by
          obtain ⟨hp, hb⟩ := h.pending mark (ended [.startRunning] mark (by simp) hm)
          exact ⟨hp, hb⟩
        fresh := fun mark hm j hj => by
          rcases List.mem_cons.mp hj with rfl | hj
          · trivial
          · exact h.fresh mark (ended [.startRunning] mark (by simp) hm) j
              (List.mem_cons_of_mem _ hj)
        starting := fun _ j hj => by
          rcases List.mem_cons.mp hj with rfl | hj
          · rfl
          · exact nothing_held j (List.mem_cons_of_mem _ hj)
        stopping := fun wasRunning mark hm =>
          absurd (by simpa using hm) ((midway_not_mem quiet).2 wasRunning mark)
        justified := h.justified }

theorem SessionInv.startRunning (h : SessionInv s (.startRunning :: rest))
    (phase : StreamPhase s (.startRunning :: rest)) :
    SessionInv (streamExec outcome .startRunning s).1
      ((streamExec outcome .startRunning s).2 ++ rest) := by
  have quiet : ∀ j ∈ rest, j.midway = false := phase.midway_next
  have same : ∀ mark, Ended (streamExec outcome .startRunning s).1
      ((streamExec outcome .startRunning s).2 ++ rest) mark →
        Ended s (.startRunning :: rest) mark := by
    intro mark hm
    simpa [Ended, streamExec] using hm
  exact {
    bounded := fun mark hm => h.bounded mark (hm.imp (same mark)
      (Exists.imp fun w hw => by simpa [streamExec] using hw))
    pending := fun mark hm => by
      obtain ⟨hp, hb⟩ := h.pending mark (same mark hm)
      exact ⟨hp, hb⟩
    fresh := fun mark hm j hj => by
      rcases List.mem_cons.mp hj with rfl | hj
      · trivial
      · have hc : j ∈ StreamStmt.startRunning :: rest := List.mem_cons_of_mem _ hj
        exact freshFrom_of_not_undelivered (h.starting List.mem_cons_self j hc)
          (h.fresh mark (same mark hm) j hc)
    starting := fun hm => absurd (by simpa [streamExec] using hm) (midway_not_mem quiet).1
    stopping := fun wasRunning mark hm =>
      absurd (by simpa [streamExec] using hm) ((midway_not_mem quiet).2 wasRunning mark)
    justified := h.justified }

theorem SessionInv.stop (h : SessionInv s (.stop :: rest)) (phase : StreamPhase s (.stop :: rest))
    (separate : SessionsSeparate ⟨s, .stop :: rest⟩ (.run outcome)) :
    SessionInv (streamExec outcome .stop s).1 ((streamExec outcome .stop s).2 ++ rest) := by
  have quiet : ∀ j ∈ rest, j.midway = false := phase.midway_next
  have no_level : ∀ j ∈ rest, j.emitsLevel = false :=
    fun j hj => separate.2 rfl rfl j (List.mem_cons_of_mem _ hj)
  have same : ∀ mark, Ended (streamExec outcome .stop s).1
      ((streamExec outcome .stop s).2 ++ rest) mark → Ended s (.stop :: rest) mark := by
    intro mark hm
    simpa [Ended, streamExec] using hm
  exact {
    bounded := fun mark hm => by
      rcases hm with hm | ⟨w, hw⟩
      · exact h.bounded mark (.inl (same mark hm))
      · rcases List.mem_cons.mp hw with he | hw
        · cases he
          exact ⟨Nat.le_refl _, Nat.le_refl _⟩
        · exact h.bounded mark (.inr ⟨w, List.mem_cons_of_mem _ hw⟩)
    pending := fun mark hm => by
      obtain ⟨hp, hb⟩ := h.pending mark (same mark hm)
      exact ⟨hp, hb⟩
    fresh := fun mark hm j hj => by
      rcases List.mem_cons.mp hj with rfl | hj
      · trivial
      · exact freshFrom_of_stopped (no_level j hj)
    starting := fun hm => absurd (by simpa [streamExec] using hm) (midway_not_mem quiet).1
    stopping := fun _ _ _ j hj => by
      rcases List.mem_cons.mp hj with rfl | hj
      · rfl
      · exact no_level j hj
    justified := endsSession_silent h.justified (by simp) (by simp) }

/-- The mark of the stop counts from here on: the queue is empty and nothing runs. -/
theorem SessionInv.stopLoop {wasRunning : Bool}
    (h : SessionInv s (.stopLoop wasRunning mark :: rest))
    (phase : StreamPhase s (.stopLoop wasRunning mark :: rest)) :
    SessionInv (streamExec outcome (.stopLoop wasRunning mark) s).1
      ((streamExec outcome (.stopLoop wasRunning mark) s).2 ++ rest) := by
  have stopped : s.stream.running = false := phase.stopping wasRunning mark List.mem_cons_self
  have new : ∀ j ∈ (streamExec outcome (.stopLoop wasRunning mark) s).2,
      j.midway = false ∧ j.emitsLevel = false ∧ ∀ m, j = .stopReturn m → m = mark := by
    simp only [streamExec]
    split <;> split <;> simp [StreamStmt.midway, StreamStmt.emitsLevel]
  have quiet : ∀ j ∈ (streamExec outcome (.stopLoop wasRunning mark) s).2 ++ rest,
      j.midway = false := by
    intro j hj
    exact (List.mem_append.mp hj).elim (fun hj => (new j hj).1) (phase.midway_next j)
  have silent : ∀ event ∈ clearEvents s.stream, (∀ m, event ≠ .stopReturned m) ∧
      (∀ peak, event ≠ .level peak) ∧ ∀ block, event ≠ .audioBlock block := by
    intro event he
    simp only [clearEvents, List.mem_append, List.mem_map, List.mem_cons] at he
    rcases he with ⟨n, -, rfl⟩ | rfl | he
    · simp
    · simp
    · split at he <;> simp_all
  have ended : ∀ m, Ended (streamExec outcome (.stopLoop wasRunning mark) s).1
      ((streamExec outcome (.stopLoop wasRunning mark) s).2 ++ rest) m →
      Ended s (.stopLoop wasRunning mark :: rest) m ∨ m = mark := by
    rintro m (hm | hm)
    · rcases List.mem_append.mp hm with hm | hm
      · exact .inl (.inl hm)
      · exact absurd rfl ((silent _ hm).1 m)
    · rcases List.mem_append.mp hm with hm | hm
      · exact .inr ((new _ hm).2.2 m rfl)
      · exact .inl (.inr (List.mem_cons_of_mem _ hm))
  exact {
    bounded := fun m hm => by
      rcases hm with hm | ⟨w, hw⟩
      · rcases ended m hm with hm | rfl
        · exact h.bounded m (.inl hm)
        · exact h.bounded m (.inr ⟨wasRunning, List.mem_cons_self⟩)
      · simpa [StreamStmt.midway] using quiet _ hw
    pending := fun m _ => ⟨by simp [streamExec, StreamRun.record, streamClearPending],
      by simp [streamExec, StreamRun.record, streamClearPending]⟩
    fresh := fun m _ j hj => by
      have no_level : j.emitsLevel = false := by
        rcases List.mem_append.mp hj with hj | hj
        · exact (new j hj).2.1
        · exact h.stopping wasRunning mark List.mem_cons_self j (List.mem_cons_of_mem _ hj)
      have running : (streamExec outcome (.stopLoop wasRunning mark) s).1.stream.running = false :=
        stopped
      rw [running]
      exact freshFrom_of_stopped no_level
    starting := fun hm => absurd hm (midway_not_mem quiet).1
    stopping := fun w m hm => absurd hm ((midway_not_mem quiet).2 w m)
    justified := endsSession_silent h.justified (fun peak he => (silent _ he).2.1 peak rfl)
      (fun block he => (silent _ he).2.2 block rfl) }

theorem SessionInv.run (h : SessionInv s (i :: rest)) (phase : StreamPhase s (i :: rest))
    (separate : SessionsSeparate ⟨s, i :: rest⟩ (.run outcome)) :
    SessionInv (streamExec outcome i s).1 ((streamExec outcome i s).2 ++ rest) := by
  by_cases hp : i.publishes = true
  · exact h.publish phase hp
  cases i with
  | dispatchTake => exact h.take phase
  | dispatchGraphRate hasGraphRate graphRate revision =>
    simp only [streamExec]
    split
    · exact h.of_event (some (.graphRateChanged s.stream.graphRate graphRate)) phase rfl rfl
        ⟨rfl, rfl⟩ ⟨rfl, rfl⟩ rfl (by simp [StreamStmt.midway]) (by simp)
        (by simp [StreamStmt.freshFrom]) (by simp) (by simp) (by simp)
    · exact h.of_event none phase (by simp) rfl ⟨rfl, rfl⟩ ⟨rfl, rfl⟩ rfl (by simp) (by simp)
        (by simp) (by simp) (by simp) (by simp)
  | start => exact h.start phase separate
  | startRunning => exact h.startRunning phase
  | stop => exact h.stop phase separate
  | stopLoop wasRunning mark => exact h.stopLoop phase
  | _ => simp [StreamStmt.publishes] at hp

/-- What the PipeWire thread queues is newer than every mark. -/
theorem SessionInv.queue (events : List StreamEvent) (h : SessionInv s code)
    (history : t.history = s.history ++ events)
    (silent : ∀ event ∈ events, (∀ m, event ≠ .stopReturned m) ∧
      (∀ peak, event ≠ .level peak) ∧ ∀ block, event ≠ .audioBlock block)
    (running : t.stream.running = s.stream.running)
    (peaks : s.peaksQueued ≤ t.peaksQueued)
    (sequence : s.stream.nextSequence ≤ t.stream.nextSequence)
    (pending : ∀ m : QueueMark, m.peaks ≤ s.peaksQueued → m.blocks ≤ s.stream.nextSequence →
      PendingFrom s m → PendingFrom t m) : SessionInv t code := by
  have ended : ∀ m, Ended t code m → Ended s code m := by
    rintro m (hm | hm)
    · rw [history] at hm
      rcases List.mem_append.mp hm with hm | hm
      · exact .inl hm
      · exact absurd rfl ((silent _ hm).1 m)
    · exact .inr hm
  exact {
    bounded := fun m hm => by
      obtain ⟨hp, hb⟩ := h.bounded m (hm.imp_left (ended m))
      exact ⟨hp.trans peaks, hb.trans sequence⟩
    pending := fun m hm => by
      obtain ⟨hp, hb⟩ := h.bounded m (.inl (ended m hm))
      exact pending m hp hb (h.pending m (ended m hm))
    fresh := fun m hm => by
      rw [running]
      exact h.fresh m (ended m hm)
    starting := h.starting
    stopping := h.stopping
    justified := by
      rw [history]
      exact endsSession_silent h.justified (fun peak he => (silent _ he).2.1 peak rfl)
        (fun block he => (silent _ he).2.2 block rfl) }

theorem SessionInv.callback (h : SessionInv s code) (event : StreamCallback) :
    SessionInv (streamCallback event s) code := by
  have running := (streamCallback_frame (s := s) event).1
  cases event with
  | queuePeak peak =>
    refine h.queue [.peakQueued s.peaksQueued] rfl (by simp) running (Nat.le_succ _) (by
      simp [streamCallback, streamQueuePeak, streamQueueDispatchLocked_eq]) ?_
    intro m hp _ hm
    refine ⟨fun _ => ?_, ?_⟩
    · simp only [streamCallback]
      split
      next hh => exact hm.peak hh
      next => exact hp
    · simpa [streamCallback, streamQueuePeak, streamQueueDispatchLocked_eq] using hm.blocks
  | queueGraphRate rate =>
    refine h.queue [] (List.append_nil _).symm (by simp) running (Nat.le_refl _) ?_ ?_
    all_goals simp only [streamCallback, streamQueueGraphRate]
    · split <;> simp [streamQueueDispatchLocked_eq]
    · rintro m - - ⟨hp, hb⟩
      split
      · exact ⟨hp, hb⟩
      · exact ⟨by simpa [streamQueueDispatchLocked_eq] using hp,
          by simpa [streamQueueDispatchLocked_eq] using hb⟩
  | queueFormat format =>
    refine h.queue [] (List.append_nil _).symm (by simp) running (Nat.le_refl _) (by
      simp [streamCallback, streamQueueFormat, streamQueueDispatchLocked_eq]) ?_
    rintro m - - ⟨hp, hb⟩
    exact ⟨by simpa [streamCallback, streamQueueFormat, streamQueueDispatchLocked_eq] using hp,
      by simpa [streamCallback, streamQueueFormat, streamQueueDispatchLocked_eq] using hb⟩
  | queueAudioBlock block =>
    by_cases hd : block.data = []
    · simpa [streamCallback, hd] using h
    · have fields : ∀ (p : StreamRun → Prop),
          p (streamCallback (.queueAudioBlock block) s) ↔ p { s with
            stream := (streamQueueAudioBlock block s.stream).1
            history := s.history ++ .blockQueued s.stream.nextSequence ::
              (sequences (streamQueueAudioBlock block s.stream).2).map .blockDropped } := by
        intro p
        simp [streamCallback, hd]
      rw [fields (SessionInv · code)]
      refine h.queue _ rfl ?_ (by simpa [streamCallback, hd] using running) (Nat.le_refl _) ?_ ?_
      · intro event he
        rcases List.mem_cons.mp he with rfl | he
        · simp
        · obtain ⟨n, -, rfl⟩ := List.mem_map.mp he
          simp
      · simp [streamQueueAudioBlock, hd, streamQueueDispatchLocked_eq]
      · rintro m - hn ⟨hp, hb⟩
        refine ⟨by simpa [streamQueueAudioBlock, hd, streamQueueDispatchLocked_eq] using hp, ?_⟩
        intro b hm
        have hb' : b ∈ s.stream.pendingBlocks ++
            [{ block with sequence := s.stream.nextSequence }] := by
          simp only [streamQueueAudioBlock, hd, if_false, streamQueueDispatchLocked_eq,
            dropOldest_eq] at hm
          exact List.mem_of_mem_drop hm
        rcases List.mem_append.mp hb' with hb' | hb'
        · exact hb b hb'
        · cases List.mem_singleton.mp hb'
          exact hn

theorem session_preserves : streamComponent.Preserves SessionsSeparate
    fun s code => StreamPhase s code ∧ SessionInv s code := by
  refine streamPhase_preserves.under {
    call := ?_
    run := fun outcome i s rest h ha => h.run ha.2 ha.1
    environment := ?_ }
  · intro operation s code r h happ ha hr
    obtain ⟨sources, rfl⟩ := streamCall_eq hr
    refine h.of_same rfl ⟨rfl, rfl⟩ ⟨rfl, rfl⟩ rfl ?_ ?_ ?_ h.justified
    · simpa [operation.stmt_midway] using ha.2.quiet happ
    · cases operation <;> simp [Ended, StreamCall.stmt]
    · intro i hi
      rcases List.mem_cons.mp hi with rfl | hi
      · right
        cases operation <;> exact fun _ _ => trivial
      · exact .inl hi
  · intro event s code t h _ ht
    obtain ⟨-, rfl⟩ := streamEnvironment_eq ht
    exact h.callback event

theorem streamStop_endsSession (h : Reach streamComponent.step SessionsSeparate streamInit c) :
    Justified EndsSession c.state.history := by
  refine (session_preserves.reach h ⟨streamPhase_init, ?_⟩).2.justified
  constructor <;> simp [streamInit, Ended, justified_nil]

/-- A handler stops the stream in the middle of a dispatch; the next session starts after it. -/
def restartedLater : Config StreamRun StreamStmt :=
  final streamComponent.step streamInit
    (.call .start :: List.replicate 4 (.run .started) ++
      [.environment (.queueAudioBlock (audioBlockOf [0])),
        .environment (.queueAudioBlock (audioBlockOf [1])), .call .iterate] ++
      List.replicate 5 (.run .started) ++ .call .stop :: List.replicate 8 (.run .started) ++
      .call .start :: List.replicate 4 (.run .started) ++
      [.environment (.queueAudioBlock (audioBlockOf [2])), .call .iterate] ++
      List.replicate 7 (.run .started))

/-- A handler of the format stops the stream and starts it again. -/
def restartedInside : Config StreamRun StreamStmt :=
  final streamComponent.step streamInit
    (halfPublished ++ .call .stop :: List.replicate 5 (.run .started) ++
      .call .start :: List.replicate 20 (.run .started))

/-- A handler of the peak stops the stream. -/
def stoppedByPeak : Config StreamRun StreamStmt :=
  final streamComponent.step streamInit
    (.call .start :: List.replicate 4 (.run .started) ++
      [.environment (.queuePeak (.number 7)), .call .iterate] ++ List.replicate 5 (.run .started) ++
      .call .stop :: List.replicate 9 (.run .started))

theorem streamStop_endsSession_restartedLater :
    deliveredEntries (blockLog restartedLater.state.history) = [0, 2] ∧
      Justified EndsSession restartedLater.state.history :=
  ⟨by decide +kernel,
    streamStop_endsSession (c := restartedLater) (reach_final (by decide +kernel))⟩

theorem streamStop_endsSession_fails :
    (Reach streamComponent.step anyStep streamInit restartedInside ∧
      ¬ Justified EndsSession restartedInside.state.history) ∧
    Reach streamComponent.step anyStep streamInit stoppedByPeak ∧
      ¬ Justified EndsSession stoppedByPeak.state.history := by
  refine ⟨⟨reach_final (allAllowed_anyStep _ _), fun h => ?_⟩,
    reach_final (allAllowed_anyStep _ _), fun h => ?_⟩
  · -- block 0 was queued before the stop and is emitted after it
    have ends := h (restartedInside.state.history.take 26)
      (.audioBlock { audioBlockOf [0] with sequence := 0 })
      (restartedInside.state.history.drop 27) (by decide +kernel) ⟨2, 3⟩ (by decide +kernel)
    exact absurd (ends.2 _ rfl) (by decide)
  · have ends := h (stoppedByPeak.state.history.take 12) (.level ⟨.number 7, 0, 0⟩)
      (stoppedByPeak.state.history.drop 13) (by decide +kernel) ⟨1, 0⟩ (by decide +kernel)
    exact absurd (ends.1 _ rfl) (by decide)

end PipewireGobject
