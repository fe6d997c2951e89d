import PipewireGobject.ObjectStopped
import PipewireGobject.Recording

namespace PipewireGobject

/-- Why a session ends: the application stops the wrapper, the core is found disconnected, or the
global of the object is removed. -/
inductive SessionEnd
  | stopped
  | disconnected
  | removed
  deriving DecidableEq

def ObjectStmt.disconnects (s : ObjectWrapper) : ObjectStmt → Bool
  | .coreConnectedNotify => !s.connected
  | _ => false

/-- What has come since a session began that is to end it. -/
def sessionEndObserver (objectId : UInt32) :
    Observer ObjectWrapper ObjectStmt ObjectCall ObjectCallback (List SessionEnd) where
  asked operation causes := if operation = .stop then causes ++ [.stopped] else causes
  sees i s t causes :=
    if s.running = false ∧ t.running = true then []
    else if i.disconnects s then causes ++ [.disconnected]
    else causes
  hears callback causes :=
    match callback with
    | .globalRemove id => if id = objectId then causes ++ [.removed] else causes
    | _ => causes

def sessionEndWatched (kind : ObjectKind) (objectId : UInt32) :
    Component (ObjectWrapper × List SessionEnd) ObjectStmt ObjectCall ObjectChoice
      ObjectCallback :=
  (objectComponent kind objectId).observed (sessionEndObserver objectId)

/-- The statements that go on into the end of the session of `generation`. -/
def ObjectStmt.endsSession (generation : UInt32) : ObjectStmt → Bool
  | .stop | .clearBound | .clearRunning => true
  | .dispatch event => event = ⟨generation, .removed⟩
  | _ => false

/-- A session begins after another one has ended, and nothing that is left of that one is taken for
the end of the new one. -/
def ObjectStmt.beginsAfterwards (choice : ObjectChoice) (s : ObjectWrapper)
    (rest : List ObjectStmt) : ObjectStmt → Bool
  | .startProxies next =>
    (objectStart choice.result next s).1.generation = s.generation ||
      !s.running && rest.all (fun j => !j.endsSession (s.generation + 1)) &&
        .event ⟨s.generation + 1, .removed⟩ ∉ s.queue
  | _ => true

def ObjectSessionsApart (c : Config (ObjectWrapper × List SessionEnd) ObjectStmt) :
    Label ObjectCall ObjectChoice ObjectCallback → Prop
  | .run choice => ∀ i ∈ c.code.head?, i.beginsAfterwards choice c.state.1 c.code.tail = true
  | .call _ | .environment _ => True

instance objectSessionsApartDecidable (c : Config (ObjectWrapper × List SessionEnd) ObjectStmt) :
    DecidablePred (ObjectSessionsApart c)
  | .run choice => inferInstanceAs (Decidable (∀ i ∈ c.code.head?,
      i.beginsAfterwards choice c.state.1 c.code.tail = true))
  | .call _ | .environment _ => .isTrue trivial

/-- Nothing that ends the session of `generation` is left to run. -/
def GoesOn (generation : UInt32) (code : List ObjectStmt) : Prop :=
  ∀ j ∈ code, j.endsSession generation = false

/-- The session goes on as long as nothing has come that is to end it, and while it goes on, only a
removal can have come, which waits. -/
structure SessionCaused (s : ObjectWrapper × List SessionEnd) (code : List ObjectStmt) :
    Prop where
  uncaused : s.2 = [] → GoesOn s.1.generation code ∧
    .event ⟨s.1.generation, .removed⟩ ∉ s.1.queue
  goesOn : GoesOn s.1.generation code → ∀ cause ∈ s.2, cause = .removed ∧
    .event ⟨s.1.generation, .removed⟩ ∈ s.1.queue

/-- This holds while the wrapper runs. -/
def RunningCaused (s : ObjectWrapper × List SessionEnd) (code : List ObjectStmt) : Prop :=
  s.1.running = true → SessionCaused s code

/-- What a statement can do to the session that runs. -/
inductive SessionProgress (s : ObjectWrapper) (i : ObjectStmt) (t : ObjectWrapper)
    (new : List ObjectStmt) : Prop
  | ended (clears : i = .clearRunning) (stopped : t.running = false)
  | ends (cause : i.endsSession s.generation = true ∨ i.disconnects s = true)
    (pending : ¬GoesOn t.generation new)
  | goesOn (running : t.running = true) (generation : t.generation = s.generation)
    (plain : i.endsSession s.generation = false) (connected : i.disconnects s = false)
    (new : GoesOn s.generation new)
    (queue : .event ⟨s.generation, .removed⟩ ∈ t.queue ↔
      .event ⟨s.generation, .removed⟩ ∈ s.queue)

variable {kind : ObjectKind} {objectId : UInt32} {generation : UInt32}
variable {s t : ObjectWrapper} {code new rest : List ObjectStmt} {i : ObjectStmt}
variable {choice : ObjectChoice} {causes : List SessionEnd}

theorem GoesOn.append (h : GoesOn generation new) (h' : GoesOn generation rest) :
    GoesOn generation (new ++ rest) := fun j hj =>
  (List.mem_append.mp hj).elim (h j) (h' j)

theorem GoesOn.below (h : GoesOn generation (new ++ rest)) : GoesOn generation rest := fun j hj =>
  h j (List.mem_append_right new hj)

theorem GoesOn.above (h : GoesOn generation (new ++ rest)) : GoesOn generation new := fun j hj =>
  h j (List.mem_append_left rest hj)

/-- A statement that neither ends the session nor begins one, and queues nothing. -/
theorem SessionProgress.keeps (running : s.running = true) (same : t.running = s.running)
    (generation : t.generation = s.generation) (queue : t.queue = s.queue)
    (plain : i.endsSession s.generation = false) (connected : i.disconnects s = false)
    (added : GoesOn s.generation new) : SessionProgress s i t new :=
  .goesOn (same.trans running) generation plain connected added (by rw [queue])

theorem afterStart_goesOn (next : AfterStart) : GoesOn generation next.code := by
  cases next <;> simp [GoesOn, AfterStart.code, ObjectStmt.endsSession]

theorem objectUpdates_goesOn (state : Option (CString × Option CString))
    (paramInfos : Option (List ParamInfo)) :
    GoesOn generation (objectUpdates kind state paramInfos) := by
  cases kind <;> cases state <;> cases paramInfos <;>
    simp [GoesOn, objectUpdates, ObjectStmt.endsSession]

theorem objectDispatch_session (running : s.running = true) (event : ObjectEvent) :
    SessionProgress s (.dispatch event) (objectDispatch kind event s).1
      (objectDispatch kind event s).2 := by
  obtain ⟨generation, change⟩ := event
  unfold objectDispatch
  by_cases live : generation = s.generation
  · rw [if_neg (by simp [running, live])]
    cases change with
    | info state paramInfos =>
      exact .keeps running rfl rfl rfl (by simp [ObjectStmt.endsSession]) rfl
        (objectUpdates_goesOn state paramInfos)
    | param param =>
      exact .keeps running rfl rfl rfl (by simp [ObjectStmt.endsSession]) rfl
        (by simp [GoesOn, ObjectStmt.endsSession])
    | removed =>
      refine .ends (.inl (by simp [ObjectStmt.endsSession, live])) fun going => ?_
      exact absurd (going .stop List.mem_cons_self) (by simp [ObjectStmt.endsSession])
  · rw [if_pos (.inr live)]
    exact .keeps running rfl rfl rfl (by simp [ObjectStmt.endsSession, live]) rfl (by simp [GoesOn])

/-- What a statement can do while the wrapper runs. -/
theorem objectExec_session (kind : ObjectKind) (choice : ObjectChoice) (running : s.running = true)
    (apart : i.beginsAfterwards choice s rest = true) :
    SessionProgress s i (objectExec kind choice i s).1 (objectExec kind choice i s).2 := by
  have ending : ¬GoesOn (s.generation + 1) [.clearBound] := fun going =>
    absurd (going .clearBound List.mem_cons_self) (by simp [ObjectStmt.endsSession])
  cases i with
  | dispatch event => exact objectDispatch_session running event
  | updateState | updateError | connect | clearState | clearError | enumParams | coreSync
  | syncEnter =>
    simp only [objectExec]
    split <;> exact .keeps running rfl rfl rfl rfl rfl (by simp [GoesOn, ObjectStmt.endsSession])
  | updateParamInfos paramInfos =>
    refine .keeps running rfl rfl rfl rfl rfl fun j hj => ?_
    rcases List.mem_cons.mp hj with rfl | hj
    · rfl
    rcases List.mem_append.mp hj with hj | hj
    · obtain ⟨paramInfo, -, rfl⟩ := List.mem_map.mp hj
      rfl
    · rw [List.mem_singleton.mp hj]
      rfl
  | start next =>
    simp only [objectExec, running, if_true]
    exact .keeps running rfl rfl rfl rfl rfl (afterStart_goesOn next)
  | startProxies next =>
    simp only [objectExec]
    obtain ⟨hasRegistry, hasObject, hs⟩ | hs := objectStart_cases choice.result next s
    · rw [hs]
      exact .keeps running rfl rfl rfl rfl rfl (by simp [GoesOn])
    · simp [ObjectStmt.beginsAfterwards, hs, running] at apart
  | syncWait slot caller =>
    refine .goesOn running rfl rfl rfl ?_ ?_
    · simp only [objectExec, objectSyncWait]
      split
      · simp [GoesOn]
      · cases caller <;> simp [GoesOn, ObjectStmt.endsSession]
    · simp [objectExec, objectSyncWait, List.mem_replicate]
  | syncIterate slot request =>
    simp only [objectExec]
    split
    · exact .keeps running rfl rfl rfl rfl rfl (by simp [GoesOn, ObjectStmt.endsSession])
    · cases request <;> exact .keeps running rfl rfl rfl rfl rfl (by simp [GoesOn])
  | stop =>
    simp only [objectExec, objectStopSession, running, Bool.true_eq_false, false_and, if_false]
    exact .ends (.inl rfl) ending
  | coreConnectedNotify =>
    simp only [objectExec]
    split
    next connected =>
      exact .keeps running rfl rfl rfl rfl (by simp [ObjectStmt.disconnects, connected])
        (by simp [GoesOn])
    next disconnected =>
      exact .ends (.inr (by simp [ObjectStmt.disconnects, disconnected])) ending
  | clearBound =>
    refine .ends (.inl rfl) fun going => ?_
    have pending : .clearRunning ∈ (objectExec kind choice .clearBound s).2 := by
      simp only [objectExec]
      split <;> simp
    exact absurd (going _ pending) (by simp [ObjectStmt.endsSession])
  | clearRunning =>
    refine .ended rfl ?_
    simp only [objectExec, running, if_true]
  | enumParamsCall sync =>
    simp only [objectExec, objectEnumParamsCall]
    split
    · exact .keeps running rfl rfl rfl rfl rfl (by simp [GoesOn])
    · exact .keeps running rfl rfl rfl rfl rfl
        (by cases sync <;> simp [GoesOn, ObjectStmt.endsSession])
  | _ =>
    exact .keeps running rfl rfl rfl rfl rfl (by simp [objectExec, GoesOn, ObjectStmt.endsSession])

/-- The session is the same, and its removal waits or does not as before. -/
theorem SessionCaused.congr (h : SessionCaused (s, causes) code)
    (generation : t.generation = s.generation)
    (queue : .event ⟨s.generation, .removed⟩ ∈ t.queue ↔
      .event ⟨s.generation, .removed⟩ ∈ s.queue) : SessionCaused (t, causes) code where
  uncaused none := by
    dsimp only
    rw [generation, queue]
    exact h.uncaused none
  goesOn going := by
    dsimp only at going ⊢
    rw [generation] at going ⊢
    rw [queue]
    exact h.goesOn going

/-- What the observer knows after a statement. -/
theorem sees_running (running : s.running = true) :
    (sessionEndObserver objectId).sees i s t causes =
      if i.disconnects s then causes ++ [.disconnected] else causes := by
  simp [sessionEndObserver, running]

/-- A session has begun. -/
theorem RunningCaused.begins {next : AfterStart} (stopped : s.running = false)
    (apart : (ObjectStmt.startProxies next).beginsAfterwards choice s rest = true) :
    RunningCaused ((objectExec kind choice (.startProxies next) s).1,
        (sessionEndObserver objectId).sees (.startProxies next) s
          (objectExec kind choice (.startProxies next) s).1 causes)
      ((objectExec kind choice (.startProxies next) s).2 ++ rest) := by
  intro running
  dsimp only at running
  have known : (sessionEndObserver objectId).sees (.startProxies next) s
      (objectExec kind choice (.startProxies next) s).1 causes = [] := by
    simp [sessionEndObserver, stopped, running]
  rw [known]
  simp only [objectExec] at running ⊢
  simp only [ObjectStmt.beginsAfterwards] at apart
  obtain ⟨hasRegistry, hasObject, hs⟩ | hs := objectStart_cases choice.result next s
  · rw [hs] at running
    exact absurd running (by simp [stopped])
  · rw [hs] at apart ⊢
    have other : s.generation + 1 ≠ s.generation := by simp
    simp only [other, decide_false, Bool.false_or, Bool.and_eq_true, Bool.not_eq_true',
      List.all_eq_true, decide_eq_true_eq] at apart
    obtain ⟨⟨-, below⟩, none⟩ := apart
    refine ⟨fun _ => ⟨?_, none⟩, fun _ cause hc => absurd hc List.not_mem_nil⟩
    have added : GoesOn (s.generation + 1) (.emit .notifyRunning :: .emit .notifyBound ::
        next.code) :=
      List.forall_mem_cons.mpr ⟨rfl, List.forall_mem_cons.mpr ⟨rfl, afterStart_goesOn next⟩⟩
    exact added.append below

theorem RunningCaused.run (h : RunningCaused (s, causes) (i :: rest))
    (apart : i.beginsAfterwards choice s rest = true) :
    RunningCaused ((objectExec kind choice i s).1,
        (sessionEndObserver objectId).sees i s (objectExec kind choice i s).1 causes)
      ((objectExec kind choice i s).2 ++ rest) := by
  cases up : s.running with
  | true =>
    obtain ⟨uncaused, goesOn⟩ := h up
    dsimp only at uncaused goesOn
    rw [sees_running up]
    intro running
    rcases objectExec_session kind choice up apart with
      ⟨-, stopped⟩ | ⟨cause, pending⟩ | ⟨-, generation, plain, connected, new, queue⟩
    · exact absurd running (by simp [stopped])
    · refine ⟨fun none => ?_, fun going => absurd going.above pending⟩
      split at none
      next => simp at none
      next connected =>
        have going := (uncaused none).1 i List.mem_cons_self
        rw [going] at cause
        exact absurd cause (by simp [connected])
    · rw [connected, if_neg Bool.false_ne_true]
      refine ⟨fun none => ?_, fun going => ?_⟩
      · obtain ⟨going, waiting⟩ := uncaused none
        dsimp only
        rw [generation, queue]
        exact ⟨new.append fun j hj => going j (List.mem_cons_of_mem _ hj), waiting⟩
      · dsimp only at going ⊢
        rw [generation] at going ⊢
        rw [queue]
        exact goesOn (List.forall_mem_cons.mpr ⟨plain, going.below⟩)
  | false =>
    intro running
    dsimp only at running
    by_cases keeps : i.keepsRunning = true
    · have same := (objectExec_keepsRunning kind choice s keeps).1
      rw [same, up] at running
      cases running
    cases i with
    | startProxies next => exact RunningCaused.begins up apart running
    | clearRunning => simp [objectExec, up] at running
    | _ => simp [ObjectStmt.keepsRunning] at keeps

theorem RunningCaused.call {operation : ObjectCall} {r : ObjectWrapper × List ObjectStmt}
    (h : RunningCaused (s, causes) code) (hr : objectCall kind operation s = some r) :
    RunningCaused (r.1, (sessionEndObserver objectId).asked operation causes) (r.2 ++ code) := by
  have adds : ∀ {j : ObjectStmt}, (∀ generation, j.endsSession generation = false) →
      RunningCaused (s, causes) (j :: code) := by
    intro j plain running
    obtain ⟨uncaused, goesOn⟩ := h running
    exact ⟨fun none => ⟨List.forall_mem_cons.mpr ⟨plain _, (uncaused none).1⟩, (uncaused none).2⟩,
      fun going => goesOn (List.forall_mem_cons.mp going).2⟩
  cases operation with
  | iterate =>
    simp only [objectCall] at hr
    split at hr
    next => simp at hr
    next event queue hq =>
      cases Option.some.inj hr
      intro running
      obtain ⟨uncaused, goesOn⟩ := h running
      dsimp only at uncaused goesOn
      rw [hq] at uncaused goesOn
      refine ⟨fun none => ?_, fun going cause hc => ?_⟩
      · obtain ⟨going, waiting⟩ := uncaused none
        rw [List.mem_cons, not_or] at waiting
        refine ⟨List.forall_mem_cons.mpr ⟨?_, going⟩, waiting.2⟩
        simpa [ObjectStmt.endsSession, eq_comm] using waiting.1
      · obtain ⟨plain, going⟩ := List.forall_mem_cons.mp going
        obtain ⟨rfl, waiting⟩ := goesOn going cause hc
        refine ⟨rfl, (List.mem_cons.mp waiting).resolve_left fun same => ?_⟩
        cases same
        simp [ObjectStmt.endsSession] at plain
    next slot queue hq =>
      cases Option.some.inj hr
      exact fun running => (h running).congr rfl (by simp [hq])
  | stop =>
    cases Option.some.inj hr
    intro running
    refine ⟨fun none => ?_, fun going => ?_⟩
    · simp [sessionEndObserver] at none
    · exact absurd (going .stop List.mem_cons_self) (by simp [ObjectStmt.endsSession])
  | enumParams | enumParamsSync =>
    simp only [objectCall] at hr
    split at hr
    next => simp at hr
    next =>
      cases Option.some.inj hr
      exact adds fun _ => rfl
  | subscribeParams =>
    simp only [objectCall] at hr
    split at hr
    next => simp at hr
    next =>
      cases Option.some.inj hr
      exact h
  | setConnected connected =>
    cases Option.some.inj hr
    exact fun running => (h running).congr rfl Iff.rfl
  | _ =>
    cases Option.some.inj hr
    exact adds fun _ => rfl

theorem objectOnInfo_info {info : ObjectInfo} {change : ObjectChange}
    (h : objectOnInfo kind info = some change) :
    ∃ state paramInfos, change = .info state paramInfos := by
  cases kind <;> simp only [objectOnInfo, nodeOnInfo, deviceOnInfo, linkOnInfo] at h <;>
    split at h <;> cases h <;> exact ⟨_, _, rfl⟩

theorem RunningCaused.report (h : RunningCaused (s, causes) code) (callback : ObjectCallback) :
    RunningCaused (objectReport kind objectId callback s,
      (sessionEndObserver objectId).hears callback causes) code := by
  have others {change : ObjectChange} (other : change ≠ .removed) (delivered : List Param) :
      RunningCaused ({ s with
        queue := s.queue ++ [.event ⟨s.generation, change⟩], delivered := delivered }, causes)
        code :=
    fun running => (h running).congr rfl (by simp [other.symm])
  unfold objectReport
  cases callback with
  | info info =>
    cases hc : objectOnCallback kind objectId (.info info) with
    | none => exact h
    | some change =>
      obtain ⟨info, -, hi⟩ := Option.bind_eq_some_iff.mp hc
      obtain ⟨state, paramInfos, rfl⟩ := objectOnInfo_info hi
      exact others (by simp) _
  | param seq id index next pod =>
    cases hc : objectOnCallback kind objectId (.param seq id index next pod) with
    | none => exact h
    | some change =>
      obtain ⟨param, -, rfl⟩ := Option.map_eq_some_iff.mp hc
      exact others (by simp) _
  | globalRemove id =>
    simp only [sessionEndObserver, objectOnCallback]
    by_cases mine : id = objectId
    · simp only [mine, ne_eq, not_true_eq_false, if_false, if_true]
      intro running
      refine ⟨fun none => by simp at none, fun going cause hc => ?_⟩
      refine ⟨?_, List.mem_append_right _ List.mem_cons_self⟩
      rcases List.mem_append.mp hc with hc | hc
      · exact ((h running).goesOn going cause hc).1
      · exact List.mem_singleton.mp hc
    · simp only [ne_eq, mine, not_false_eq_true, if_true, if_false]
      exact h

theorem runningCaused_preserves :
    (sessionEndWatched kind objectId).Preserves ObjectSessionsApart RunningCaused where
  call operation s code r h _ _ hr := by
    obtain ⟨t, ht, rfl⟩ := Option.map_eq_some_iff.mp hr
    exact h.call ht
  run choice i s rest h apart := h.run (apart i rfl)
  environment callback s code t h _ ht := by
    cases Option.some.inj ht
    exact h.report callback

theorem objectCall_running {operation : ObjectCall} {r : ObjectWrapper × List ObjectStmt}
    (hr : objectCall kind operation s = some r) : r.1.running = s.running := by
  obtain ⟨⟨connected, queue, completed, same, -⟩, -⟩ := objectCall_eq hr
  rw [same]

theorem objectReport_running (callback : ObjectCallback) :
    (objectReport kind objectId callback s).running = s.running := by
  unfold objectReport
  split <;> rfl

/-- Only the end of the session makes a wrapper stop running. -/
theorem objectExec_running (kind : ObjectKind) (choice : ObjectChoice) (running : s.running = true)
    (other : i ≠ .clearRunning) : (objectExec kind choice i s).1.running = true := by
  by_cases keeps : i.keepsRunning = true
  · exact (objectExec_keepsRunning kind choice s keeps).1.trans running
  cases i with
  | startProxies next =>
    simp only [objectExec]
    obtain ⟨hasRegistry, hasObject, hs⟩ | hs := objectStart_cases choice.result next s
    · rw [hs]
      exact running
    · rw [hs]
  | clearRunning => exact absurd rfl other
  | _ => simp [ObjectStmt.keepsRunning] at keeps

/-- A wrapper that has not been started. -/
def sessionEndInit : Config (ObjectWrapper × List SessionEnd) ObjectStmt := ⟨({}, []), []⟩

/-- A node, device or link that runs is not stopped unless something has come in its session that
ends it; and where nothing of it is left to run, only a removal can have come, which waits in the
main context. -/
theorem objectRuns_untilCaused {c : Config (ObjectWrapper × List SessionEnd) ObjectStmt}
    (h : Reach (sessionEndWatched kind objectId).step ObjectSessionsApart sessionEndInit c)
    (running : c.state.1.running = true) :
    (∀ label d, ObjectSessionsApart c label →
      (sessionEndWatched kind objectId).step c label = some d →
      d.state.1.running = false → c.state.2 ≠ []) ∧
    (c.code = [] → ∀ cause ∈ c.state.2, cause = .removed ∧
      .event ⟨c.state.1.generation, .removed⟩ ∈ c.state.1.queue) := by
  have start : RunningCaused sessionEndInit.state sessionEndInit.code := fun running =>
    absurd running Bool.false_ne_true
  have caused := runningCaused_preserves.reach h start running
  refine ⟨fun label d _ hs stopped none => ?_, fun idle => caused.goesOn (by simp [idle, GoesOn])⟩
  obtain ⟨going, -⟩ := caused.uncaused none
  have still : d.state.1.running = true := by
    cases label with
    | call operation =>
      obtain ⟨-, r, hr, rfl⟩ := Component.step_call hs
      obtain ⟨t, ht, rfl⟩ := Option.map_eq_some_iff.mp hr
      exact (objectCall_running ht).trans running
    | run choice =>
      obtain ⟨i, rest, hc, rfl⟩ := Component.step_run hs
      refine objectExec_running kind choice running ?_
      rintro rfl
      rw [hc] at going
      exact absurd (going _ List.mem_cons_self) (by simp [ObjectStmt.endsSession])
    | environment callback =>
      obtain ⟨t, ht, rfl⟩ := Component.step_environment hs
      cases Option.some.inj ht
      exact (objectReport_running callback).trans running
  rw [still] at stopped
  cases stopped

/-- The object is removed while the wrapper runs; a param of it still comes before the removal is
dispatched. -/
def removedMeanwhile : Config (ObjectWrapper × List SessionEnd) ObjectStmt :=
  final (sessionEndWatched .node 7).step sessionEndInit
    (objectStartSchedule ++
      [.environment (.globalRemove 3), .environment (.globalRemove 7),
        .environment (.param 1 2 0 1 (some [0]))])

theorem objectRuns_untilCaused_removedMeanwhile :
    removedMeanwhile.state.2 = [.removed] ∧
      (∀ label d, ObjectSessionsApart removedMeanwhile label →
        (sessionEndWatched .node 7).step removedMeanwhile label = some d →
        d.state.1.running = false → removedMeanwhile.state.2 ≠ []) ∧
      (removedMeanwhile.code = [] → ∀ cause ∈ removedMeanwhile.state.2, cause = .removed ∧
        .event ⟨removedMeanwhile.state.1.generation, .removed⟩ ∈ removedMeanwhile.state.1.queue) :=
  ⟨by decide +kernel, @objectRuns_untilCaused .node 7 removedMeanwhile
    (reach_final (by decide +kernel)) (by decide +kernel)⟩

/-- A handler of `notify::bound` stops the link once more while it is stopped, and a handler of
`notify::running` starts it again. -/
def linkRestartedInside : Config (ObjectWrapper × List SessionEnd) ObjectStmt :=
  final (sessionEndWatched .link 7).step sessionEndInit
    (objectStartSchedule ++ .call .stop :: List.replicate 3 (.run {}) ++
      .call .stop :: List.replicate 4 (.run {}) ++ .call .start :: List.replicate 10 (.run {}))

/-- Without the condition the first stop ends the session that began after it. -/
theorem objectRuns_untilCaused_fails :
    Reach (sessionEndWatched .link 7).step anyStep sessionEndInit linkRestartedInside ∧
      linkRestartedInside.state.1.running = true ∧ linkRestartedInside.state.2 = [] ∧
      ∃ d, (sessionEndWatched .link 7).step linkRestartedInside (.run {}) = some d ∧
        d.state.1.running = false :=
  ⟨reach_final (allAllowed_anyStep _ _), by decide +kernel, by decide +kernel,
    ⟨_, rfl, by decide +kernel⟩⟩

end PipewireGobject
