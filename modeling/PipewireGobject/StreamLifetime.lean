import PipewireGobject.RefCounted
import PipewireGobject.StreamPhase

namespace PipewireGobject

variable {s t : StreamRun} {i : StreamStmt} {outcome : StartOutcome}

theorem streamExec_sources (outcome : StartOutcome) (i : StreamStmt) (s : StreamRun) :
    (streamExec outcome i s).1.stream.sources = s.stream.sources := by
  by_cases he : i.ofEmission = true
  · obtain ⟨emissions, events, code, heq, -⟩ := streamExec_ofEmission outcome s he
    rw [heq]
    rfl
  cases i with
  | handlers | notify => exact absurd rfl he
  | dispatchFormat format => cases format <;> rfl
  | dispatchGraphRate hasGraphRate graphRate revision =>
    simp only [streamExec]
    split <;> rfl
  | dispatchPeak peak =>
    cases peak with
    | none => rfl
    | some peak =>
      simp only [streamExec]
      split <;> rfl
  | dispatchBlocks blocks =>
    cases blocks with
    | nil => rfl
    | cons block blocks =>
      simp only [streamExec]
      split <;> rfl
  | start =>
    simp only [streamExec]
    split
    next => rfl
    next => cases outcome <;> rfl
  | setDeliverAudioBlocks deliver =>
    simp only [streamExec]
    split <;> rfl
  | _ => rfl

theorem streamQueueDispatchLocked_sources {s t : Stream} (same : t.sources = s.sources) :
    s.sources ≤ (streamQueueDispatchLocked t).sources := by
  rw [streamQueueDispatchLocked_eq]
  dsimp only
  split <;> omega

theorem streamCallback_sources (event : StreamCallback) (s : StreamRun) :
    s.stream.sources ≤ (streamCallback event s).stream.sources := by
  cases event with
  | queuePeak peak => exact streamQueueDispatchLocked_sources rfl
  | queueGraphRate rate =>
    simp only [streamCallback, streamQueueGraphRate]
    split
    next => exact Nat.le_refl _
    next => exact streamQueueDispatchLocked_sources rfl
  | queueFormat format => exact streamQueueDispatchLocked_sources rfl
  | queueAudioBlock block =>
    simp only [streamCallback]
    split
    next => exact Nat.le_refl _
    next filled =>
      simp only [streamQueueAudioBlock, filled, if_false]
      exact streamQueueDispatchLocked_sources rfl

/-- A stream as an object with a reference count: a source of its dispatch holds a reference. A
dispose stops the stream. -/
def streamObject :
    RefCountedObject StreamRun StreamStmt StreamCall StartOutcome StreamCallback where
  component := streamComponent
  sources s := s.stream.sources
  dispatches
    | .iterate => true
    | _ => false
  survives _ := true
  disposal := [.stop]
  clear s := s
  cleared := []
  exec_sources := streamExec_sources
  call_sources operation s r hr := by
    cases operation with
    | iterate =>
      simp only [streamComponent, streamCall] at hr
      split at hr
      next => cases hr
      next some_left =>
        cases Option.some.inj hr
        rw [if_pos rfl]
        dsimp only
        omega
    | _ =>
      cases Option.some.inj hr
      rfl
  environment_sources event s t ht := by
    obtain ⟨-, rfl⟩ := streamEnvironment_eq ht
    exact streamCallback_sources event s
  clear_sources _ := rfl
  dispatches_survive _ _ := rfl

/-- The thread loop is gone after this statement, or after what it adds. -/
def StreamStmt.endsLoop : StreamStmt → Bool
  | .stop | .stopLoop _ _ => true
  | _ => false

def RefStmt.startsApart (outcome : StartOutcome) (disposing : Bool) : RefStmt StreamStmt → Bool
  | .run .start => outcome ≠ .started || !disposing
  | _ => true

/-- No start succeeds below a disposal. -/
def StartsApart (c : Config (RefCounted StreamRun) (RefStmt StreamStmt)) :
    Label (RefCall StreamCall) StartOutcome StreamCallback → Prop
  | .run outcome => ∀ i ∈ c.code.head?, i.startsApart outcome (disposing c.code) = true
  | .call _ | .environment _ => True

instance (c : Config (RefCounted StreamRun) (RefStmt StreamStmt)) : DecidablePred (StartsApart c)
  | .run _ => inferInstanceAs (Decidable (∀ i ∈ c.code.head?, i.startsApart _ _ = true))
  | .call _ | .environment _ => .isTrue trivial

structure StreamHeard (s : RefCounted StreamRun) (code : List (RefStmt StreamStmt)) : Prop where
  closing : disposing code = true → s.object.stream.threadLoop = true →
    ∃ i, .run i ∈ code ∧ i.endsLoop = true
  closed : ∀ before, code = before ++ [.decrement] → disposing code = false →
    before = [] ∧ s.object.stream.threadLoop = false

theorem endsLoop_of_publishes (hp : i.publishes = true) : i.endsLoop = false := by
  cases i <;> simp_all [StreamStmt.publishes, StreamStmt.endsLoop]

/-- A loop that runs has run before, and what ends it has not. -/
theorem streamExec_loop (apart : (RefStmt.run i).startsApart outcome true = true)
    (up : (streamExec outcome i s).1.stream.threadLoop = true) :
    s.stream.threadLoop = true ∧
      (i.endsLoop = true → ∃ j ∈ (streamExec outcome i s).2, j.endsLoop = true) := by
  by_cases hp : i.publishes = true
  · have same := (streamExec_publishes outcome s hp).1.threadLoop
    rw [same] at up
    refine ⟨up, fun he => ?_⟩
    rw [endsLoop_of_publishes hp] at he
    cases he
  cases i with
  | dispatchTake => exact ⟨up, fun he => absurd he Bool.false_ne_true⟩
  | dispatchGraphRate hasGraphRate graphRate revision =>
    refine ⟨?_, fun he => absurd he Bool.false_ne_true⟩
    simp only [streamExec] at up
    split at up <;> exact up
  | start =>
    refine ⟨?_, fun he => absurd he Bool.false_ne_true⟩
    simp only [streamExec] at up
    split at up
    next => exact up
    next =>
      cases outcome with
      | started => cases apart
      | _ => exact up
  | startRunning => exact ⟨up, fun he => absurd he Bool.false_ne_true⟩
  | stop => exact ⟨up, fun _ => ⟨.stopLoop s.stream.running s.mark, by simp [streamExec], rfl⟩⟩
  | stopLoop wasRunning mark => cases up
  | _ => exact absurd rfl hp

variable {r : RefCounted StreamRun} {code rest : List (RefStmt StreamStmt)}

/-- Statements on top of code in which no disposal is at its end. -/
theorem StreamHeard.push {new : List (RefStmt StreamStmt)} {t : RefCounted StreamRun}
    (open_below : ∀ before, code = before ++ [.decrement] → disposing code = true)
    (open_new : ∀ before, new = before ++ [.decrement] → disposing new = true)
    (closing : disposing (new ++ code) = true → t.object.stream.threadLoop = true →
      ∃ i, .run i ∈ new ++ code ∧ i.endsLoop = true) : StreamHeard t (new ++ code) where
  closing := closing
  closed before layout idle := by
    rw [disposing_append, Bool.or_eq_false_iff] at idle
    rcases List.eq_nil_or_concat code with rfl | ⟨xs, i, rfl⟩
    · rw [List.append_nil] at layout
      rw [open_new before layout] at idle
      cases idle.1
    · rw [List.concat_eq_append] at layout idle open_below
      rw [← List.append_assoc] at layout
      have last := (List.append_inj' layout rfl).2
      rw [open_below xs (by rw [last])] at idle
      cases idle.2

/-- Where something else is next, a disposal is not at its end. -/
theorem StreamHeard.open_tail {i : RefStmt StreamStmt} (h : StreamHeard r (i :: rest))
    (plain : i.plain = true) :
    ∀ before, rest = before ++ [.decrement] → disposing rest = true := by
  intro before layout
  by_contra idle
  have quiet : disposing (i :: rest) = false := by
    have here : disposing [i] = false :=
      disposing_plain fun j hj => by rwa [List.mem_singleton.mp hj]
    have parts := disposing_append [i] rest
    rw [here, Bool.false_or, Bool.eq_false_iff.mpr idle] at parts
    exact parts
  have empty := (h.closed (i :: before) (by rw [layout]; rfl) quiet).1
  cases empty

theorem StreamHeard.open_code (h : StreamHeard r code)
    (runs : streamObject.refComponent.applicationRuns code = true) :
    ∀ before, code = before ++ [.decrement] → disposing code = true := by
  intro before layout
  by_contra idle
  obtain ⟨rfl, -⟩ := h.closed before layout (Bool.eq_false_iff.mpr idle)
  rw [layout] at runs
  cases runs

theorem StreamHeard.run (h : StreamHeard r (.run i :: rest))
    (apart : (RefStmt.run i).startsApart outcome (disposing (.run i :: rest)) = true) :
    StreamHeard { r with object := (streamExec outcome i r.object).1 }
      ((streamExec outcome i r.object).2.map .run ++ rest) := by
  refine .push (h.open_tail rfl) (fun before layout => ?_) fun hc up => ?_
  · have last : RefStmt.decrement ∈ (streamExec outcome i r.object).2.map RefStmt.run := by
      rw [layout]
      simp
    simp at last
  · rw [disposing_append, disposing_plain (run_plain _), Bool.false_or] at hc
    have below : disposing (.run i :: rest) = true := hc
    rw [below] at apart
    obtain ⟨ran, added⟩ := streamExec_loop apart up
    obtain ⟨k, hk, ends⟩ := h.closing below ran
    rcases List.mem_cons.mp hk with he | hk
    · cases he
      obtain ⟨j, hj, ends⟩ := added ends
      exact ⟨j, List.mem_append_left _ (List.mem_map.mpr ⟨j, hj, rfl⟩), ends⟩
    · exact ⟨k, List.mem_append_right _ hk, ends⟩

theorem StreamHeard.unref (owned : Nat)
    (open_below : ∀ before, code = before ++ [.decrement] → disposing code = true)
    (closing : disposing code = true → r.object.stream.threadLoop = true →
      ∃ i, .run i ∈ code ∧ i.endsLoop = true) :
    StreamHeard (streamObject.unref { r with owned := owned }).1
      ((streamObject.unref { r with owned := owned }).2 ++ code) := by
  unfold RefCountedObject.unref
  split
  next =>
    refine .push open_below (fun _ _ => rfl) fun _ _ => ⟨.stop, ?_, rfl⟩
    simp [RefCountedObject.dispose, streamObject]
  next => exact .push open_below (by simp) closing

theorem StreamHeard.call {operation : StreamCall} {u : StreamRun × List StreamStmt}
    {tail : List (RefStmt StreamStmt)} (h : StreamHeard r code)
    (open_below : ∀ before, code = before ++ [.decrement] → disposing code = true)
    (hu : streamComponent.call operation r.object = some u) (returns : ∀ j ∈ tail, j = .unref) :
    StreamHeard { r with object := u.1 } (u.2.map .run ++ tail ++ code) := by
  obtain ⟨sources, rfl⟩ := streamCall_eq hu
  have plain : ∀ j ∈ [operation.stmt].map RefStmt.run ++ tail, j.plain = true := by
    intro j hj
    rcases List.mem_append.mp hj with hj | hj
    · exact run_plain _ j hj
    · rw [returns j hj]
      rfl
  refine .push open_below (fun before layout => ?_) fun hc up => ?_
  · have last : RefStmt.decrement ∈ [operation.stmt].map RefStmt.run ++ tail := by
      rw [layout]
      simp
    cases plain _ last
  · rw [disposing_append, disposing_plain plain, Bool.false_or] at hc
    obtain ⟨j, hj, ends⟩ := h.closing hc up
    exact ⟨j, List.mem_append_right _ hj, ends⟩

/-- Once the object is cleared, the thread loop is gone. -/
theorem StreamHeard.clear (h : StreamHeard r (.clear :: streamObject.finish)) :
    StreamHeard { r with disposed := true } streamObject.finish where
  closing hc := by cases hc
  closed before layout _ := by
    have one : [RefStmt.decrement] = before ++ [RefStmt.decrement] := layout
    refine ⟨by simpa using one, ?_⟩
    by_contra up
    obtain ⟨j, hj, ends⟩ := h.closing rfl (by simpa using up)
    simp [RefCountedObject.finish, streamObject] at hj

theorem StreamHeard.nil (r : RefCounted StreamRun) : StreamHeard r [] :=
  ⟨fun hc => (nomatch hc), by simp⟩

theorem streamShuts : Shuts streamObject StartsApart StreamHeard where
  call operation s code r _ h runs _ hr := by
    have open_below := h.open_code runs
    cases operation with
    | call operation =>
      rcases RefCountedObject.call_cases hr with rfl | ⟨u, tail, hu, returns, -, rfl⟩
      · exact h
      · exact h.call open_below hu returns
    | ref =>
      cases hr
      exact ⟨h.closing, h.closed⟩
    | unref =>
      cases hr
      exact .unref _ open_below h.closing
  run outcome i s rest counted h apart := by
    cases i with
    | run i => exact h.run (apart (.run i) rfl)
    | unref =>
      have open_below := h.open_tail rfl
      exact .unref s.owned open_below fun hc up => by
        obtain ⟨j, hj, ends⟩ := h.closing hc up
        exact ⟨j, by simpa using hj, ends⟩
    | clear =>
      rw [counted.clear_rest] at h ⊢
      exact h.clear
    | decrement =>
      rw [counted.finished.1]
      exact .nil _
  environment event s code t h ht := by
    obtain ⟨u, hu, rfl⟩ := Option.map_eq_some_iff.mp ht
    obtain ⟨-, rfl⟩ := streamEnvironment_eq hu
    have same := (streamCallback_frame (s := s.object) event).2.1
    exact ⟨fun hc up => h.closing hc (same.symm.trans up), fun before layout idle =>
      ⟨(h.closed before layout idle).1, same.trans (h.closed before layout idle).2⟩⟩
  unheard s _ h event := by
    have closed := (h.closed [] rfl rfl).2
    simp [streamObject, streamComponent, streamEnvironment, closed]

/-- A stream that the application has created. -/
def streamCreated : Config (RefCounted StreamRun) (RefStmt StreamStmt) :=
  ⟨⟨{}, 1, 1, false, false⟩, []⟩

/-- A stream lives exactly as long as the application, a source of its dispatch or a function of
its own refers to it, and once it is finalized its PipeWire thread is gone. -/
theorem stream_managed {c : Config (RefCounted StreamRun) (RefStmt StreamStmt)}
    (h : Reach streamObject.refComponent.step
      (fun c label => KeepsReference streamObject c label ∧ StartsApart c label)
      streamCreated c) :
    (c.state.finalized = false →
      c.state.refCount = c.state.owned + c.state.object.stream.sources + held c.code) ∧
    (c.state.finalized = true ↔
      c.state.owned = 0 ∧ c.state.object.stream.sources = 0 ∧ c.code = []) ∧
    (c.state.finalized = true → c.state.object.stream.threadLoop = false) := by
  obtain ⟨managed, -⟩ := streamShuts.managed rfl (.nil _) h
  refine ⟨managed.live, managed.finalized, fun hf => ?_⟩
  have unheard := (managed.unheard hf).2 (.queueGraphRate 0)
  by_contra up
  simp [streamObject, streamComponent, streamEnvironment, up] at unheard

abbrev StreamLifeLabel := Label (RefCall StreamCall) StartOutcome StreamCallback

def streamRunning : List StreamLifeLabel := .call (.call .start) :: List.replicate 4 (.run .started)

/-- A graph rate is queued while the last reference of the application is dropped, before the
thread loop stops. Its source keeps the disposed stream until it is dispatched. -/
def rateDisposing : Config (RefCounted StreamRun) (RefStmt StreamStmt) :=
  final streamObject.refComponent.step streamCreated
    (streamRunning ++ [.call .unref, .run .started, .environment (.queueGraphRate 48000)] ++
      List.replicate 6 (.run .started) ++
      .call (.call .iterate) :: List.replicate 11 (.run .started))

theorem stream_managed_rateDisposing :
    rateDisposing.state.finalized = true ∧ rateDisposing.state.object.stream.sources = 0 ∧
      rateDisposing.state.object.stream.threadLoop = false := by
  have managed := @stream_managed rateDisposing (reach_final (by decide +kernel))
  have finalized : rateDisposing.state.finalized = true := by decide +kernel
  exact ⟨finalized, (managed.2.1.mp finalized).2.1, managed.2.2 finalized⟩

/-- A handler of the last `notify::running` starts the stream again. -/
def restartedDisposing : Config (RefCounted StreamRun) (RefStmt StreamStmt) :=
  final streamObject.refComponent.step streamCreated
    (streamRunning ++ .call .unref :: List.replicate 3 (.run .started) ++
      .call (.call .start) :: List.replicate 8 (.run .started))

/-- Without the condition, the PipeWire thread outlives its stream. -/
theorem stream_managed_fails :
    Reach streamObject.refComponent.step (KeepsReference streamObject) streamCreated
        restartedDisposing ∧
      restartedDisposing.state.finalized = true ∧
      restartedDisposing.state.object.stream.threadLoop = true :=
  ⟨reach_final (by decide +kernel), by decide +kernel, by decide +kernel⟩

end PipewireGobject
