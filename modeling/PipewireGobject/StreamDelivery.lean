import PipewireGobject.StreamBuffers

namespace PipewireGobject

/-- The blocks of the `audio-block` signals of a statement, one at most. -/
def StreamStmt.emits (x : StreamRun) : StreamStmt → List PendingBlock
  | .dispatchBlocks (block :: _) => if x.stream.running then [block] else []
  | _ => []

/-- How far the PipeWire thread is in `pwg_stream_handle_f32_audio`: not in it, past
`pwg_stream_queue_peak`, or past an atomic read of `deliver_audio_blocks` that found it set. -/
inductive CapturePhase
  | idle
  | peakQueued (buffer : AudioBuffer)
  | copying (buffer : AudioBuffer)

/-- A stream with the PipeWire thread's place in the capture of a buffer. `delivered` lists
the blocks of the `audio-block` signals, each with `deliver_audio_blocks` at its emission. -/
structure DeliveryRun where
  run : StreamRun := {}
  capture : CapturePhase := .idle
  delivered : List (PendingBlock × Bool) := []

namespace DeliveryRun

def delivers (s : DeliveryRun) : Bool := s.run.stream.deliverAudioBlocks

/-- The PipeWire thread tells the stream something and gets to this place. -/
def tell (callback : StreamCallback) (capture : CapturePhase) (s : DeliveryRun) :
    Option DeliveryRun :=
  (streamEnvironment callback s.run).map fun run => { s with run, capture }

end DeliveryRun

/-- What the PipeWire thread does, one critical section or atomic access at a time. -/
inductive DeliveryEvent
  | handleF32Audio (buffer : AudioBuffer)
  | readDeliver
  | queueAudioBlock
  | queueGraphRate (rate : UInt32)
  | queueFormat (format : AudioFormat)

def deliveryEnvironment (event : DeliveryEvent) (s : DeliveryRun) : Option DeliveryRun :=
  match event, s.capture with
  | .handleF32Audio buffer, .idle =>
    if buffer.accepted then s.tell (.queuePeak buffer.peak) (.peakQueued buffer) else none
  | .readDeliver, .peakQueued buffer =>
    some { s with capture := if s.delivers then .copying buffer else .idle }
  | .queueAudioBlock, .copying buffer => s.tell (.queueAudioBlock buffer.block) .idle
  | .queueGraphRate rate, .idle => s.tell (.queueGraphRate rate) .idle
  | .queueFormat format, .idle => s.tell (.queueFormat format) .idle
  | _, _ => none

def deliveryExec (outcome : StartOutcome) (i : StreamStmt) (s : DeliveryRun) :
    DeliveryRun × List StreamStmt :=
  match i, s.capture with
  | .stopLoop wasRunning mark, .peakQueued _ | .stopLoop wasRunning mark, .copying _ =>
    -- pw_thread_loop_stop joins the thread, which is in the middle of a callback
    (s, [.stopLoop wasRunning mark])
  | i, _ =>
    ({ s with
        run := (streamExec outcome i s.run).1
        delivered := s.delivered ++ (i.emits s.run).map fun block => (block, s.delivers) },
      (streamExec outcome i s.run).2)

def deliveryComponent :
    Component DeliveryRun StreamStmt StreamCall StartOutcome DeliveryEvent where
  exec := deliveryExec
  emission := streamComponent.emission
  call operation s := (streamCall operation s.run).map fun r => ({ s with run := r.1 }, r.2)
  environment := deliveryEnvironment

def deliveryInit : Config DeliveryRun StreamStmt := ⟨{}, []⟩

abbrev DeliveryLabel := Label StreamCall StartOutcome DeliveryEvent

/-- No dispatch takes blocks while `deliver_audio_blocks` is not set, and it is not cleared
while a dispatch has taken blocks that it has not handed out. -/
def SwitchedBetween (c : Config DeliveryRun StreamStmt) (label : DeliveryLabel) : Prop :=
  label.isRun = true →
    (c.code.head? = some .dispatchTake →
      c.state.run.stream.pendingBlocks = [] ∨ c.state.delivers = true) ∧
    (c.code.head? = some (.setDeliverAudioBlocks false) →
      inFlight c.code = [] ∨ c.state.delivers = false)

instance (c : Config DeliveryRun StreamStmt) (label : DeliveryLabel) :
    Decidable (SwitchedBetween c label) :=
  inferInstanceAs (Decidable (_ → (_ → _ ∨ _) ∧ (_ → _ ∨ _)))

variable {s : DeliveryRun} {x : StreamRun} {i : StreamStmt} {code rest : List StreamStmt}
  {outcome : StartOutcome} {c d : Config DeliveryRun StreamStmt} {label : DeliveryLabel}

/-- A statement runs as in the stream alone, or waits for the PipeWire thread. -/
theorem deliveryExec_cases (outcome : StartOutcome) (i : StreamStmt) (s : DeliveryRun) :
    (i.midway = true ∧ deliveryExec outcome i s = (s, [i])) ∨
      deliveryExec outcome i s =
        ({ s with
            run := (streamExec outcome i s.run).1
            delivered := s.delivered ++ (i.emits s.run).map fun block => (block, s.delivers) },
          (streamExec outcome i s.run).2) := by
  unfold deliveryExec
  split
  next => exact .inl ⟨rfl, rfl⟩
  next => exact .inl ⟨rfl, rfl⟩
  next => exact .inr rfl

def StreamEvent.block : StreamEvent → Option PendingBlock
  | .audioBlock block => some block
  | _ => none

/-- Statements that an activation goes on with when a call inside it has returned. -/
def StreamStmt.continues : StreamStmt → Bool
  | .handlers _ | .notify _ | .dispatchFormat _ | .dispatchGraphRate _ _ _ | .dispatchPeak _
  | .emitLevel _ | .dispatchBlocks _ | .stopReturn _ => true
  | _ => false

/-- What a statement that leads from `x` to `y`, with `code` left to run, does to the switch
and to the blocks on their way. -/
structure BlockStep (x : StreamRun) (i : StreamStmt) (y : StreamRun) (code : List StreamStmt) :
    Prop where
  deliver : (∀ deliver, i ≠ .setDeliverAudioBlocks deliver) →
    y.stream.deliverAudioBlocks = x.stream.deliverAudioBlocks
  held : i ≠ .dispatchTake → inFlight code ≠ [] → i.inFlight ≠ []
  emitted : y.history.filterMap StreamEvent.block =
    x.history.filterMap StreamEvent.block ++ i.emits x
  continues : ∀ j ∈ code.tail, j.continues = true
  uncalled : ∀ deliver, .setDeliverAudioBlocks deliver ∉ code
  idle : (x.stream.threadLoop = false → x.stream.pendingBlocks = []) →
    y.stream.threadLoop = false → y.stream.pendingBlocks = []

theorem streamExec_blockStep (outcome : StartOutcome) (i : StreamStmt) (x : StreamRun) :
    BlockStep x i (streamExec outcome i x).1 (streamExec outcome i x).2 := by
  by_cases he : i.ofEmission = true
  · obtain ⟨emissions, events, code, heq, silent, hcode⟩ := streamExec_ofEmission outcome x he
    rw [heq]
    have emitted : i.emits x = [] := by
      cases i with
      | handlers | notify => rfl
      | _ => cases he
    have no_blocks : events.filterMap StreamEvent.block = [] := by
      refine List.filterMap_eq_nil_iff.mpr fun e hm => ?_
      cases e with
      | audioBlock => cases silent _ hm
      | _ => rfl
    rcases hcode with rfl | ⟨property, rfl⟩ <;> constructor <;>
      simp [emitted, no_blocks, StreamStmt.inFlight]
  cases i with
  | handlers | notify => exact absurd rfl he
  | dispatchFormat format =>
    cases format <;> constructor <;>
      simp [streamExec, StreamStmt.inFlight, StreamStmt.emits, StreamStmt.continues]
  | dispatchGraphRate hasGraphRate graphRate revision =>
    simp only [streamExec]
    split <;> constructor <;> simp [StreamStmt.inFlight, StreamStmt.emits, StreamEvent.block]
  | dispatchPeak peak =>
    cases peak with
    | none => constructor <;> simp [streamExec, StreamStmt.emits]
    | some peak =>
      simp only [streamExec]
      split <;> constructor <;>
        simp [StreamStmt.inFlight, StreamStmt.emits, StreamStmt.continues, StreamEvent.block]
  | dispatchBlocks blocks =>
    cases blocks with
    | nil => constructor <;> simp [streamExec, StreamStmt.emits]
    | cons block blocks =>
      simp only [streamExec]
      split
      next running =>
        constructor <;> simp [StreamStmt.inFlight, StreamStmt.emits, StreamStmt.continues,
          StreamEvent.block, running]
      next stopped =>
        constructor <;> simp [StreamStmt.inFlight, StreamStmt.emits, StreamEvent.block, stopped]
  | start =>
    simp only [streamExec]
    split
    · constructor <;> simp [StreamStmt.emits]
    · cases outcome <;> constructor <;> simp [StreamStmt.inFlight, StreamStmt.emits]
  | stopLoop wasRunning mark =>
    simp only [streamExec, clearEvents]
    split <;> split <;> constructor <;>
      simp [StreamStmt.inFlight, StreamStmt.emits, StreamStmt.continues, StreamEvent.block,
        streamClearPending]
  | setDeliverAudioBlocks deliver =>
    simp only [streamExec]
    split <;> constructor <;> simp [StreamStmt.inFlight, StreamStmt.emits]
  | _ =>
    constructor <;>
      simp [streamExec, StreamStmt.inFlight, StreamStmt.emits, StreamStmt.continues,
        StreamEvent.block, streamTakePending]

theorem streamExec_set (deliver : Bool) (x : StreamRun) :
    (streamExec outcome (.setDeliverAudioBlocks deliver) x).1.stream.deliverAudioBlocks =
      deliver := by
  simp only [streamExec]
  split
  next same => exact same
  next => rfl

theorem emits_inFlight {block : PendingBlock} (h : block ∈ i.emits x) : i.inFlight ≠ [] := by
  unfold StreamStmt.emits at h
  split at h
  next block blocks => simp [StreamStmt.inFlight]
  next => simp at h

/-- While a dispatch holds blocks they are wanted, and so were all that were delivered. -/
structure DeliveryInv (s : DeliveryRun) (code : List StreamStmt) : Prop where
  wanted : inFlight code ≠ [] → s.delivers = true
  emitted : ∀ e ∈ s.delivered, e.2 = true

/-- Blocks that a dispatch holds after a statement were wanted when it began. -/
theorem DeliveryInv.wanted_before (h : DeliveryInv s (i :: rest))
    (allowed : SwitchedBetween ⟨s, i :: rest⟩ (.run outcome))
    (held : inFlight ((streamExec outcome i s.run).2 ++ rest) ≠ []) : s.delivers = true := by
  have effect := streamExec_blockStep outcome i s.run
  rw [inFlight, List.flatMap_append, ← inFlight, ← inFlight] at held
  by_cases take : i = .dispatchTake
  · subst take
    rcases (allowed rfl).1 rfl with nothing | wanted
    · have empty : s.run.stream.pendingBlocks = [] := nothing
      apply h.wanted
      simpa [streamExec, StreamStmt.inFlight, empty] using held
    · exact wanted
  · apply h.wanted
    intro none_held
    rw [inFlight_cons, List.append_eq_nil_iff] at none_held
    rw [none_held.2, List.append_nil] at held
    exact effect.held take held none_held.1

theorem DeliveryInv.run (h : DeliveryInv s (i :: rest))
    (allowed : SwitchedBetween ⟨s, i :: rest⟩ (.run outcome)) :
    DeliveryInv (deliveryExec outcome i s).1 ((deliveryExec outcome i s).2 ++ rest) := by
  rcases deliveryExec_cases outcome i s with ⟨-, waits⟩ | runs
  · rw [waits]
    exact h
  rw [runs]
  refine ⟨?_, ?_⟩
  · intro held
    have wanted := h.wanted_before allowed held
    by_cases set : ∃ deliver, i = .setDeliverAudioBlocks deliver
    · obtain ⟨deliver, rfl⟩ := set
      cases deliver with
      | true => exact streamExec_set true s.run
      | false =>
        rcases (allowed rfl).2 rfl with nothing | unwanted
        · have cleared : s.run.stream.deliverAudioBlocks = true := wanted
          have empty : inFlight rest = [] := nothing
          simp [streamExec, cleared, StreamStmt.inFlight, empty] at held
        · exact absurd (wanted.symm.trans unwanted) (by simp)
    · have effect := streamExec_blockStep outcome i s.run
      exact (effect.deliver fun deliver he => set ⟨deliver, he⟩).trans wanted
  · intro e he
    rcases List.mem_append.mp he with he | he
    · exact h.emitted e he
    · obtain ⟨block, hb, rfl⟩ := List.mem_map.mp he
      apply h.wanted
      intro none_held
      rw [inFlight_cons, List.append_eq_nil_iff] at none_held
      exact emits_inFlight hb none_held.1

/-- What the PipeWire thread does: it tells the stream something, or moves on unseen. -/
theorem deliveryEnvironment_cases {event : DeliveryEvent} {t : DeliveryRun}
    (h : deliveryEnvironment event s = some t) :
    t.delivered = s.delivered ∧
      (t.run = s.run ∨ ∃ callback, streamEnvironment callback s.run = some t.run) := by
  have told : ∀ {callback : StreamCallback} {capture : CapturePhase},
      s.tell callback capture = some t → t.delivered = s.delivered ∧
        (t.run = s.run ∨ ∃ callback, streamEnvironment callback s.run = some t.run) := by
    intro callback capture told
    obtain ⟨run, heard, rfl⟩ := Option.map_eq_some_iff.mp told
    exact ⟨rfl, .inr ⟨callback, heard⟩⟩
  unfold deliveryEnvironment at h
  split at h
  next =>
    split at h
    · exact told h
    · simp at h
  next =>
    cases Option.some.inj h
    exact ⟨rfl, .inl rfl⟩
  next => exact told h
  next => exact told h
  next => exact told h
  next => simp at h

theorem deliveryEnvironment_delivers {event : DeliveryEvent} {t : DeliveryRun}
    (h : deliveryEnvironment event s = some t) : t.delivers = s.delivers := by
  rcases (deliveryEnvironment_cases h).2 with same | ⟨callback, heard⟩
  · rw [DeliveryRun.delivers, same, DeliveryRun.delivers]
  · obtain ⟨-, hears⟩ := streamEnvironment_eq heard
    rw [DeliveryRun.delivers, hears, (streamCallback_frame callback).2.2, DeliveryRun.delivers]

/-- Where nothing comes in between, the PipeWire thread does for a buffer what
`pwg_stream_handle_f32_audio` calls for it. -/
theorem handled_callbacks {buffer : AudioBuffer} (idle : s.capture = .idle)
    (loop : s.run.stream.threadLoop = true) (ha : buffer.accepted = true) :
    run (fun s event => deliveryEnvironment event s) s
        (.handleF32Audio buffer :: .readDeliver ::
          if s.delivers then [.queueAudioBlock] else []) =
      some { s with
        run := (buffer.callbacks s.delivers).foldl (fun x callback => streamCallback callback x)
          s.run } := by
  have told : ∀ (callback : StreamCallback) (x : StreamRun), x.stream.threadLoop = true →
      streamEnvironment callback x = some (streamCallback callback x) := by
    intro callback x hl
    simp only [streamEnvironment, hl, if_true]
  have first := told (.queuePeak buffer.peak) s.run loop
  have later : (streamCallback (.queuePeak buffer.peak) s.run).stream.threadLoop = true :=
    (streamCallback_frame _).2.1.trans loop
  have flag := (streamCallback_frame (s := s.run) (.queuePeak buffer.peak)).2.2
  rw [AudioBuffer.callbacks_eq, if_pos ha]
  cases hd : s.run.stream.deliverAudioBlocks with
  | true =>
    simp [run, deliveryEnvironment, idle, ha, DeliveryRun.tell, first, DeliveryRun.delivers,
      flag, hd, told _ _ later]
  | false =>
    simp [run, deliveryEnvironment, idle, ha, DeliveryRun.tell, first, DeliveryRun.delivers,
      flag, hd]

theorem deliveryCall_eq {operation : StreamCall} {r : DeliveryRun × List StreamStmt}
    (h : deliveryComponent.call operation s = some r) :
    ∃ sources, r = ({ s with run := { s.run with
      stream := { s.run.stream with sources := sources } } }, [operation.stmt]) := by
  obtain ⟨called, hc, rfl⟩ := Option.map_eq_some_iff.mp h
  obtain ⟨sources, rfl⟩ := streamCall_eq hc
  exact ⟨sources, rfl⟩

theorem StreamCall.stmt_inFlight (operation : StreamCall) : operation.stmt.inFlight = [] := by
  cases operation <;> rfl

theorem delivery_preserves : deliveryComponent.Preserves SwitchedBetween DeliveryInv where
  call operation s code r h _ _ hr := by
    obtain ⟨sources, rfl⟩ := deliveryCall_eq hr
    refine ⟨?_, h.emitted⟩
    intro held
    apply h.wanted
    simpa [operation.stmt_inFlight] using held
  run _ _ _ _ h allowed := h.run allowed
  environment event s code t h _ ht := by
    refine ⟨?_, ?_⟩
    · rw [deliveryEnvironment_delivers ht]
      exact h.wanted
    · rw [(deliveryEnvironment_cases ht).1]
      exact h.emitted

/-- The run of the stream itself. -/
def streamOf (c : Config DeliveryRun StreamStmt) : Config StreamRun StreamStmt :=
  ⟨c.state.run, c.code⟩

theorem delivery_refines_stream (h : Reach deliveryComponent.step anyStep deliveryInit c) :
    Reach streamComponent.step anyStep streamInit (streamOf c) := by
  refine h.simulate streamOf ?_
  rintro ⟨s, code⟩ label d - - hs
  cases label with
  | call operation =>
    obtain ⟨happ, r, hr, rfl⟩ := Component.step_call hs
    obtain ⟨called, hc, rfl⟩ := Option.map_eq_some_iff.mp hr
    refine .inr ⟨.call operation, trivial, ?_⟩
    have control : streamComponent.applicationRuns code = true := happ
    have result : streamComponent.call operation s.run = some called := hc
    simp only [streamOf, Component.step, control, result, if_true, Option.map_some]
  | run choice =>
    obtain ⟨i, rest, hcode, rfl⟩ := Component.step_run hs
    cases hcode
    rcases deliveryExec_cases choice i s with ⟨-, waits⟩ | runs
    · left
      simp only [streamOf, deliveryComponent, waits, List.cons_append, List.nil_append]
    · refine .inr ⟨.run choice, trivial, ?_⟩
      simp only [streamOf, deliveryComponent, runs, streamComponent, Component.step]
  | environment event =>
    obtain ⟨t, ht, rfl⟩ := Component.step_environment hs
    rcases (deliveryEnvironment_cases ht).2 with same | ⟨callback, heard⟩
    · left
      simp only [streamOf, same]
    · refine .inr ⟨.environment callback, trivial, ?_⟩
      have result : streamComponent.environment callback s.run = some t.run := heard
      simp only [streamOf, Component.step, result, Option.map_some]

theorem streamCallback_blocks (callback : StreamCallback) (x : StreamRun) :
    (streamCallback callback x).history.filterMap StreamEvent.block =
      x.history.filterMap StreamEvent.block := by
  cases callback with
  | queueAudioBlock block =>
    simp only [streamCallback]
    split
    · rfl
    · simp [StreamEvent.block]
  | _ => simp [streamCallback, StreamEvent.block]

/-- `delivered` leaves out no `audio-block` signal. -/
theorem delivered_blocks (h : Reach deliveryComponent.step anyStep deliveryInit c) :
    c.state.delivered.map (·.1) = c.state.run.history.filterMap StreamEvent.block := by
  have kept : deliveryComponent.Preserves anyStep fun s _ =>
      s.delivered.map (·.1) = s.run.history.filterMap StreamEvent.block := {
    call := by
      intro operation s code r same _ _ hr
      obtain ⟨sources, rfl⟩ := deliveryCall_eq hr
      exact same
    run := by
      intro outcome i s rest same _
      rcases deliveryExec_cases outcome i s with ⟨-, waits⟩ | runs
      · simp only [deliveryComponent, waits, same]
      · have effect := streamExec_blockStep outcome i s.run
        simp only [deliveryComponent, runs, effect.emitted, List.map_append, same]
        rw [List.map_map]
        exact congrArg _ (List.map_id _)
    environment := by
      intro event s code t same _ ht
      obtain ⟨delivered, told⟩ := deliveryEnvironment_cases ht
      rw [delivered, same]
      rcases told with unseen | ⟨callback, heard⟩
      · rw [unseen]
      · rw [(streamEnvironment_eq heard).2, streamCallback_blocks] }
  exact kept.reach h rfl

theorem audioBlocks_onlyWanted (h : Reach deliveryComponent.step SwitchedBetween deliveryInit c) :
    ∀ e ∈ c.state.delivered, e.2 = true := by
  refine (delivery_preserves.reach h ?_).emitted
  constructor <;> simp [deliveryInit]

def oneFrame : AudioBuffer := ⟨fun _ => 0, 0, 4, 48000, 1⟩

/-- The PipeWire thread handles a buffer without a pause. -/
def handled (buffer : AudioBuffer) : List DeliveryLabel :=
  [.environment (.handleF32Audio buffer), .environment .readDeliver,
    .environment .queueAudioBlock]

/-- A stream that delivers blocks runs. -/
def delivering : List DeliveryLabel :=
  .call (.setDeliverAudioBlocks true) :: List.replicate 3 (.run .started) ++
    .call .start :: List.replicate 4 (.run .started)

/-- The application switches the blocks off when a dispatch has returned. -/
def switchedLater : Config DeliveryRun StreamStmt :=
  final deliveryComponent.step deliveryInit
    (delivering ++ handled oneFrame ++ handled oneFrame ++
      .call .iterate :: List.replicate 13 (.run .started) ++
      .call (.setDeliverAudioBlocks false) :: List.replicate 3 (.run .started))

theorem audioBlocks_onlyWanted_switchedLater :
    (switchedLater.state.delivered.map (·.2) = [true, true] ∧
      switchedLater.state.delivers = false) ∧ ∀ e ∈ switchedLater.state.delivered, e.2 = true :=
  ⟨by decide +kernel,
    audioBlocks_onlyWanted (c := switchedLater) (reach_final (by decide +kernel))⟩

/-- A handler of the first of two blocks switches them off. -/
def switchedByHandler : Config DeliveryRun StreamStmt :=
  final deliveryComponent.step deliveryInit
    (delivering ++ handled oneFrame ++ handled oneFrame ++
      .call .iterate :: List.replicate 9 (.run .started) ++
      .call (.setDeliverAudioBlocks false) :: List.replicate 5 (.run .started))

/-- The blocks are switched off between the PipeWire thread's look and its copy. -/
def switchedDuringCopy : Config DeliveryRun StreamStmt :=
  final deliveryComponent.step deliveryInit
    (delivering ++ [.environment (.handleF32Audio oneFrame), .environment .readDeliver,
        .call (.setDeliverAudioBlocks false)] ++ List.replicate 3 (.run .started) ++
      [.environment .queueAudioBlock, .call .iterate] ++ List.replicate 9 (.run .started))

theorem audioBlocks_unwanted :
    (Reach deliveryComponent.step anyStep deliveryInit switchedByHandler ∧
      ¬ ∀ e ∈ switchedByHandler.state.delivered, e.2 = true) ∧
    Reach deliveryComponent.step anyStep deliveryInit switchedDuringCopy ∧
      ¬ ∀ e ∈ switchedDuringCopy.state.delivered, e.2 = true :=
  ⟨⟨reach_final (allAllowed_anyStep _ _), by decide +kernel⟩,
    reach_final (allAllowed_anyStep _ _), by decide +kernel⟩

section Unwanted

theorem midway_of_continues (hi : i.continues = true) : i.midway = false := by
  cases i <;> simp_all [StreamStmt.continues, StreamStmt.midway]

theorem streamExec_running (outcome : StartOutcome) (x : StreamRun) (hi : i.continues = true) :
    (streamExec outcome i x).1.stream.running = x.stream.running := by
  cases i with
  | dispatchGraphRate hasGraphRate graphRate revision =>
    simp only [streamExec]
    split <;> rfl
  | _ =>
    first
    | exact (streamExec_publishes outcome x rfl).1.running
    | simp [StreamStmt.continues] at hi

/-- The stream runs as before, with the same switch, and no block has been delivered. -/
structure Unseen (s t : DeliveryRun) : Prop where
  running : t.run.stream.running = s.run.stream.running
  delivers : t.delivers = s.delivers
  delivered : t.delivered = s.delivered

theorem Unseen.trans {t u : DeliveryRun} (h : Unseen s t) (h' : Unseen t u) : Unseen s u where
  running := h'.running.trans h.running
  delivers := h'.delivers.trans h.delivers
  delivered := h'.delivered.trans h.delivered

/-- The code runs to its end without a call, and delivers nothing. -/
def Passes (s : DeliveryRun) (code : List StreamStmt) : Prop :=
  ∃ t, deliveryComponent.Completes s code t ∧ Unseen s t

theorem Passes.nil (s : DeliveryRun) : Passes s [] := ⟨s, .nil s, rfl, rfl, rfl⟩

theorem Passes.append (h : Passes s code) (h' : ∀ t, Passes t rest) : Passes s (code ++ rest) := by
  obtain ⟨t, completes, unseen⟩ := h
  obtain ⟨u, completes', unseen'⟩ := h' t
  exact ⟨u, completes.append completes', unseen.trans unseen'⟩

theorem deliveryExec_continues (outcome : StartOutcome) (hi : i.continues = true)
    (held : i.inFlight = []) :
    (deliveryExec outcome i s).2 = (streamExec outcome i s.run).2 ∧
      Unseen s (deliveryExec outcome i s).1 := by
  have silent : i.emits s.run = [] := by
    by_contra emits
    obtain ⟨block, hb⟩ := List.exists_mem_of_ne_nil _ emits
    exact emits_inFlight hb held
  have other : ∀ deliver, i ≠ .setDeliverAudioBlocks deliver := by
    rintro deliver rfl
    simp [StreamStmt.continues] at hi
  rcases deliveryExec_cases outcome i s with ⟨waits, -⟩ | runs
  · simp [midway_of_continues hi] at waits
  · rw [runs, silent]
    refine ⟨rfl, streamExec_running outcome s.run hi, ?_, List.append_nil _⟩
    exact (streamExec_blockStep outcome i s.run).deliver other

theorem Passes.run (hi : i.continues = true) (held : i.inFlight = [])
    (later : Passes (deliveryExec .started i s).1 (streamExec .started i s.run).2) :
    Passes s [i] := by
  obtain ⟨leaves, unseen⟩ := deliveryExec_continues (s := s) .started hi held
  obtain ⟨t, completes, unseen'⟩ := later
  refine ⟨t, .exec .started ?_, unseen.trans unseen'⟩
  have left : (deliveryComponent.exec .started i s).2 ++ [] = (streamExec .started i s.run).2 := by
    rw [List.append_nil]
    exact leaves
  rw [left]
  exact completes

theorem Passes.exec (hi : i.continues = true) (held : i.inFlight = [])
    (later : ∀ t, Passes t (streamExec .started i s.run).2) : Passes s [i] :=
  .run hi held (later _)

/-- Handlers that are to run again do so once, when nothing is called. -/
theorem passes_handlers (notified : Option StreamProperty) (s : DeliveryRun) :
    Passes s [.handlers notified] := by
  cases notified with
  | none => exact .exec rfl rfl .nil
  | some property =>
    have ends (t : DeliveryRun) (unrestarted : property ∉ t.run.emissions.restarted) :
        Passes t [.handlers (some property)] := by
      refine .run rfl rfl ?_
      rw [← Emissions.handled_again] at unrestarted
      simp only [streamExec, streamHandled, if_neg unrestarted]
      exact .nil _
    by_cases again : property ∈ s.run.emissions.restarted
    · refine .run rfl rfl ?_
      rw [← Emissions.handled_again] at again
      simp only [streamExec, streamHandled, if_pos again]
      refine ends _ fun hm => ?_
      exact (Emissions.mem_restarted_handled.mp hm).2 rfl
    · exact ends s again

theorem passes_notify (property : StreamProperty) (s : DeliveryRun) :
    Passes s [.notify property] := by
  refine .exec rfl rfl fun t => ?_
  simp only [streamExec, streamNotify]
  split
  next => exact passes_handlers (some property) t
  next => exact .nil t

theorem passes_continues (hi : i.continues = true) (held : i.inFlight = [])
    (s : DeliveryRun) : Passes s [i] := by
  cases i with
  | handlers notified => exact passes_handlers notified s
  | notify property => exact passes_notify property s
  | dispatchFormat format =>
    refine .exec hi held fun t => ?_
    cases format with
    | none => exact .nil t
    | some format =>
      have later : ∀ u, Passes u [.notify .channels, .notify .audioFormat] := fun u =>
        (passes_notify .channels u).append (passes_notify .audioFormat)
      exact (passes_notify .rate t).append later
  | dispatchGraphRate hasGraphRate graphRate revision =>
    refine .exec hi held fun t => ?_
    simp only [streamExec]
    split
    · exact passes_notify .graphRate t
    · exact .nil t
  | dispatchPeak peak =>
    refine .exec hi held fun t => ?_
    cases peak with
    | none => exact .nil t
    | some peak =>
      simp only [streamExec]
      split
      · have later : ∀ u, Passes u [.emitLevel peak] := fun _ =>
          .exec rfl rfl (passes_handlers none)
        exact (passes_notify .peak t).append later
      · exact .nil t
  | emitLevel peak => exact .exec hi held (passes_handlers none)
  | dispatchBlocks blocks =>
    cases blocks with
    | nil => exact .exec hi held .nil
    | cons block blocks => simp [StreamStmt.inFlight] at held
  | stopReturn mark => exact .exec hi held .nil
  | _ => simp [StreamStmt.continues] at hi

theorem passes_code (continuing : ∀ i ∈ code, i.continues = true) (held : inFlight code = [])
    (s : DeliveryRun) : Passes s code := by
  induction code generalizing s with
  | nil => exact .nil s
  | cons i rest ih =>
    rw [inFlight_cons, List.append_eq_nil_iff] at held
    have first := passes_continues (continuing i (by simp)) held.1 s
    exact first.append (ih (fun j hj => continuing j (by simp [hj])) held.2)

/-- The first dispatch on the stack that holds blocks. -/
theorem exists_holding (held : inFlight code ≠ []) :
    ∃ above block blocks below, code = above ++ .dispatchBlocks (block :: blocks) :: below ∧
      inFlight above = [] := by
  induction code with
  | nil => exact absurd rfl held
  | cons i rest ih =>
    by_cases first : i.inFlight = []
    · rw [inFlight_cons, first, List.nil_append] at held
      obtain ⟨above, block, blocks, below, rfl, empty⟩ := ih held
      exact ⟨i :: above, block, blocks, below, rfl, by simp [first, empty]⟩
    · cases i with
      | dispatchBlocks blocks =>
        cases blocks with
        | nil => exact absurd rfl first
        | cons block blocks => exact ⟨[], block, blocks, rest, rfl, rfl⟩
      | _ => exact absurd rfl first

/-- A run from here goes on to an `audio-block` signal that is not wanted. -/
def Unwanted (c : Config DeliveryRun StreamStmt) : Prop :=
  ∃ d block, Reach deliveryComponent.step anyStep c d ∧
    d.state.delivered = c.state.delivered ++ [(block, false)]

theorem Unwanted.after (reach : Reach deliveryComponent.step anyStep ⟨s, code⟩ d)
    (unseen : d.state.delivered = s.delivered) (h : Unwanted d) : Unwanted ⟨s, code⟩ := by
  obtain ⟨e, block, later, delivered⟩ := h
  exact ⟨e, block, reach.trans later, by rw [delivered, unseen]⟩

theorem unwanted_of_held (continuing : ∀ i ∈ code, i.continues = true)
    (held : inFlight code ≠ []) (hr : s.run.stream.running = true) (hd : s.delivers = false) :
    Unwanted ⟨s, code⟩ := by
  obtain ⟨above, block, blocks, below, rfl, empty⟩ := exists_holding held
  obtain ⟨t, completes, unseen⟩ :=
    passes_code (fun i hi => continuing i (by simp [hi])) empty s
  have emits : StreamStmt.emits t.run (.dispatchBlocks (block :: blocks)) = [block] :=
    if_pos (unseen.running.trans hr)
  have emitted : deliveryComponent.step ⟨t, .dispatchBlocks (block :: blocks) :: below⟩
      (.run .started) = some ⟨(deliveryExec .started (.dispatchBlocks (block :: blocks)) t).1,
        (deliveryExec .started (.dispatchBlocks (block :: blocks)) t).2 ++ below⟩ := rfl
  refine ⟨_, block, (completes _).next trivial emitted, ?_⟩
  show t.delivered ++ (StreamStmt.emits t.run _).map _ = _
  rw [emits, unseen.delivered, unseen.delivers, hd]
  rfl

theorem start_completes (hr : s.run.stream.running = false) :
    ∃ t, deliveryComponent.Completes s [.start] t ∧ t.run.stream.running = true ∧
      t.delivers = s.delivers ∧ t.delivered = s.delivered := by
  have start : ∃ t, deliveryExec .started .start s = (t, [.startRunning]) ∧
      t.delivers = s.delivers ∧ t.delivered = s.delivered := by
    simp [deliveryExec, streamExec, hr, StreamStmt.emits, DeliveryRun.delivers]
  obtain ⟨t, loops, delivers, delivered⟩ := start
  have startRunning : ∃ u, deliveryExec .started .startRunning t = (u, [.notify .running]) ∧
      u.run.stream.running = true ∧ u.delivers = t.delivers ∧ u.delivered = t.delivered := by
    simp [deliveryExec, streamExec, StreamStmt.emits, DeliveryRun.delivers]
  obtain ⟨u, runs, running, delivers', delivered'⟩ := startRunning
  obtain ⟨v, notified, unseen⟩ := passes_notify .running u
  refine ⟨v, .exec .started ?_, unseen.running.trans running, ?_, ?_⟩
  · simp only [deliveryComponent, loops]
    refine .exec .started ?_
    simp only [runs]
    exact notified
  · exact unseen.delivers.trans (delivers'.trans delivers)
  · exact unseen.delivered.trans (delivered'.trans delivered)

/-- A handler can start a stopped stream again. -/
theorem unwanted_of_stopped (control : deliveryComponent.applicationRuns code = true)
    (continuing : ∀ i ∈ code, i.continues = true) (held : inFlight code ≠ [])
    (hr : s.run.stream.running = false) (hd : s.delivers = false) : Unwanted ⟨s, code⟩ := by
  obtain ⟨t, completes, running, delivers, delivered⟩ := start_completes hr
  have called : deliveryComponent.step ⟨s, code⟩ (.call .start) = some ⟨s, .start :: code⟩ := by
    simp only [Component.step, control, if_true]
    rfl
  have started : Reach deliveryComponent.step anyStep ⟨s, code⟩ ⟨s, .start :: code⟩ :=
    .next .start trivial called
  exact .after (started.trans (completes _)) delivered
    (unwanted_of_held continuing held running (delivers.trans hd))

/-- A notification leads to handlers that run, its own or those it is called from. -/
theorem unwanted_of_notified (property : StreamProperty)
    (control : deliveryComponent.applicationRuns rest = true)
    (continuing : ∀ i ∈ rest, i.continues = true) (held : inFlight rest ≠ [])
    (hd : s.delivers = false) : Unwanted ⟨s, .notify property :: rest⟩ := by
  cases hr : s.run.stream.running with
  | true =>
    refine unwanted_of_held ?_ held hr hd
    simpa [StreamStmt.continues] using continuing
  | false =>
    obtain ⟨leaves, unseen⟩ := deliveryExec_continues (s := s) .started
      (i := .notify property) rfl rfl
    have notified : deliveryComponent.step ⟨s, .notify property :: rest⟩ (.run .started) =
        some ⟨(deliveryExec .started (.notify property) s).1,
          (deliveryExec .started (.notify property) s).2 ++ rest⟩ := rfl
    refine .after (.next .start trivial notified) unseen.delivered ?_
    have stopped := unseen.running.trans hr
    have unwanted := unseen.delivers.trans hd
    rw [leaves]
    simp only [streamExec, streamNotify]
    split
    next =>
      refine unwanted_of_stopped rfl ?_ held stopped unwanted
      simpa [StreamStmt.continues] using continuing
    next => exact unwanted_of_stopped control continuing held stopped unwanted

/-- Only the statement that is next can be the first of an operation, whoever calls that is in
control, and only while the thread loop exists do blocks wait. -/
structure StreamRests (x : StreamRun) (code : List StreamStmt) : Prop where
  later : ∀ i ∈ code.tail, i.continues = true
  control : ∀ deliver, code.head? = some (.setDeliverAudioBlocks deliver) →
    streamComponent.applicationRuns code.tail = true
  idle : x.stream.threadLoop = false → x.stream.pendingBlocks = []

theorem streamRests_preserves : streamComponent.Preserves anyStep StreamRests where
  call operation x code r h happ _ hr := by
    obtain ⟨sources, rfl⟩ := streamCall_eq hr
    refine ⟨?_, fun _ _ => happ, h.idle⟩
    rcases applicationRuns_code happ with rfl | ⟨notified, rest, rfl⟩
    · simp
    · simpa [StreamStmt.continues] using h.later
  run outcome i x rest h _ := by
    have effect := streamExec_blockStep outcome i x
    have leaves := effect.continues
    have uncalled := effect.uncalled
    refine ⟨fun j hj => ?_, fun deliver hd => ?_, effect.idle h.idle⟩
    · cases new : (streamExec outcome i x).2 with
      | nil =>
        have hj' : j ∈ (streamExec outcome i x).2 ++ rest := List.mem_of_mem_tail hj
        rw [new, List.nil_append] at hj'
        exact h.later j hj'
      | cons first more =>
        have hj' : j ∈ ((streamExec outcome i x).2 ++ rest).tail := hj
        rw [new, List.cons_append, List.tail_cons] at hj'
        rw [new, List.tail_cons] at leaves
        exact (List.mem_append.mp hj').elim (leaves j) (h.later j)
    · -- no statement goes on into an operation
      rcases List.mem_append.mp (List.mem_of_mem_head? hd) with hm | hm
      · exact absurd hm (uncalled deliver)
      · cases h.later _ hm
  environment event x code t h _ ht := by
    obtain ⟨loop, rfl⟩ := streamEnvironment_eq ht
    refine ⟨h.later, h.control, ?_⟩
    intro gone
    rw [(streamCallback_frame event).2.1, loop] at gone
    cases gone

theorem streamRests_init : StreamRests streamInit.state streamInit.code where
  later := by simp [streamInit]
  control := by simp [streamInit]
  idle _ := rfl

/-- The two ways to break the condition. -/
theorem not_switchedBetween (broken : ¬SwitchedBetween ⟨s, i :: rest⟩ (.run outcome)) :
    (i = .dispatchTake ∧ s.run.stream.pendingBlocks ≠ [] ∧ s.delivers = false) ∨
      (i = .setDeliverAudioBlocks false ∧ inFlight (i :: rest) ≠ [] ∧ s.delivers = true) := by
  simp only [SwitchedBetween, Label.isRun, List.head?_cons, Option.some.injEq] at broken
  grind

/-- Every step that breaks the condition leads to an `audio-block` signal that is not
wanted, however the run got there. -/
theorem unwanted_of_not_switchedBetween
    (h : Reach deliveryComponent.step anyStep deliveryInit c)
    (hs : deliveryComponent.step c label = some d) (broken : ¬SwitchedBetween c label) :
    Unwanted d := by
  have stream := delivery_refines_stream h
  have rests : StreamRests c.state.run c.code :=
    streamRests_preserves.reach stream streamRests_init
  have phase : StreamPhase c.state.run c.code :=
    streamPhase_preserves.reach stream streamPhase_init
  cases label with
  | call operation => exact absurd (fun isRun => by cases isRun) broken
  | environment event => exact absurd (fun isRun => by cases isRun) broken
  | run choice =>
    obtain ⟨s, code⟩ := c
    obtain ⟨i, rest, hcode, rfl⟩ := Component.step_run hs
    cases hcode
    have continuing : ∀ j ∈ rest, j.continues = true := rests.later
    rcases not_switchedBetween broken with ⟨rfl, waiting, hd⟩ | ⟨rfl, held, hd⟩
    · have settled := phase.head_settled rfl
      have running : s.run.stream.running = true := by
        by_contra stopped
        rw [Bool.not_eq_true] at stopped
        exact waiting (rests.idle (settled.symm.trans stopped))
      refine unwanted_of_held ?_ ?_ running hd
      · simpa [deliveryComponent, deliveryExec, streamExec, StreamStmt.continues] using continuing
      · simp [deliveryComponent, deliveryExec, streamExec, StreamStmt.inFlight, sequences, waiting]
    · have cleared : ∃ t, deliveryExec choice (.setDeliverAudioBlocks false) s =
          (t, [.notify .deliverAudioBlocks]) ∧ t.delivers = false := by
        have set : s.run.stream.deliverAudioBlocks = true := hd
        simp [deliveryExec, streamExec, set, DeliveryRun.delivers]
      obtain ⟨t, clears, unset⟩ := cleared
      simp only [deliveryComponent, clears]
      have control : deliveryComponent.applicationRuns rest = true := rests.control false rfl
      exact unwanted_of_notified .deliverAudioBlocks control continuing held unset

end Unwanted

end PipewireGobject
