import PipewireGobject.ObjectWrapper

namespace PipewireGobject

/-- An event is dispatched in the session that it was queued in. -/
def ObjectEvent.live (event : ObjectEvent) (s : ObjectWrapper) : Bool :=
  s.running && event.generation = s.generation

/-- An enumeration has cleared the list and has not made its request yet. -/
def requesting (code : List ObjectStmt) : Bool :=
  .enumParamsCall true ∈ code || .enumParamsCall false ∈ code

/-- A parameter that is dispatched belongs to the latest request, and no request is being made. -/
def ObjectStmt.keepsLatest (s : ObjectWrapper) (rest : List ObjectStmt) : ObjectStmt → Bool
  | .dispatch event =>
    match event.change with
    | .param param => !event.live s || s.latestSeq = some param.seq && !requesting rest
    | _ => true
  | _ => true

def ObjectKeepsLatest (c : Config ObjectWrapper ObjectStmt) :
    Label ObjectCall ObjectChoice ObjectCallback → Prop
  | .run _ => ∀ i ∈ c.code.head?, i.keepsLatest c.state c.code.tail = true
  | .call _ | .environment _ => True

instance (c : Config ObjectWrapper ObjectStmt) : DecidablePred (ObjectKeepsLatest c)
  | .run _ => inferInstanceAs (Decidable (∀ i ∈ c.code.head?,
      i.keepsLatest c.state c.code.tail = true))
  | .call _ | .environment _ => .isTrue trivial

variable {kind : ObjectKind} {objectId : UInt32}
variable {s t : ObjectWrapper} {code new rest : List ObjectStmt} {i : ObjectStmt}
variable {choice : ObjectChoice}

/-- What a statement does to the parameters that a wrapper holds. -/
inductive ParamsEffect (s : ObjectWrapper) (i : ObjectStmt) (t : ObjectWrapper)
    (new : List ObjectStmt) : Prop
  | keep (params : t.params = s.params) (latest : t.latestSeq = s.latestSeq)
      (idle : requesting new = false)
  | append (event : ObjectEvent) (param : Param) (dispatched : i = .dispatch event)
      (live : event.live s = true) (change : event.change = .param param)
      (params : t.params = s.params ++ [param]) (latest : t.latestSeq = s.latestSeq)
      (idle : requesting new = false)
  | clear (params : t.params = []) (latest : t.latestSeq = s.latestSeq)
  | request (sync : Bool) (called : i = .enumParamsCall sync) (params : t.params = s.params)
      (idle : requesting new = false)

theorem requesting_append : requesting (new ++ rest) = (requesting new || requesting rest) := by
  simp only [requesting, List.mem_append, Bool.decide_or]
  cases decide (ObjectStmt.enumParamsCall true ∈ new) <;>
    cases decide (ObjectStmt.enumParamsCall false ∈ new) <;> simp

theorem objectDispatch_paramsEffect (event : ObjectEvent) (s : ObjectWrapper) :
    ParamsEffect s (.dispatch event) (objectDispatch kind event s).1
      (objectDispatch kind event s).2 := by
  unfold objectDispatch
  split
  next => exact .keep rfl rfl rfl
  next alive =>
    have live : event.live s = true := by
      simpa [ObjectEvent.live, not_or] using alive
    cases hc : event.change with
    | info state paramInfos =>
      refine .keep rfl rfl ?_
      cases kind with
      | node | link => cases state <;> cases paramInfos <;> rfl
      | device => rfl
    | param param => exact .append event param rfl live hc rfl rfl rfl
    | removed => exact .keep rfl rfl rfl

theorem objectExec_paramsEffect (kind : ObjectKind) (choice : ObjectChoice) (i : ObjectStmt)
    (s : ObjectWrapper) :
    ParamsEffect s i (objectExec kind choice i s).1 (objectExec kind choice i s).2 := by
  cases i with
  | dispatch event => exact objectDispatch_paramsEffect event s
  | updateState | updateError | connect | syncEnter | clearState | clearError | coreSync
  | coreConnectedNotify | clearBound =>
    simp only [objectExec]
    split <;> exact .keep rfl rfl rfl
  | updateParamInfos paramInfos =>
    refine .keep rfl rfl ?_
    simp [objectExec, requesting]
  | start next =>
    simp only [objectExec]
    split
    · cases next <;> exact .keep rfl rfl rfl
    · split <;> exact .keep rfl rfl rfl
  | startProxies next =>
    simp only [objectExec]
    obtain ⟨hasRegistry, hasObject, hs⟩ | hs := objectStart_cases choice.result next s
    · rw [hs]
      exact .keep rfl rfl rfl
    · rw [hs]
      cases next <;> exact .keep rfl rfl rfl
  | syncWait slot caller =>
    refine .keep rfl rfl ?_
    simp only [objectExec, objectSyncWait]
    split
    · rfl
    · cases caller <;> rfl
  | syncIterate slot request =>
    simp only [objectExec]
    split
    · exact .keep rfl rfl rfl
    · cases request <;> exact .keep rfl rfl rfl
  | stop =>
    simp only [objectExec, objectStopSession]
    split <;> exact .keep rfl rfl rfl
  | clearRunning =>
    simp only [objectExec]
    split <;> cases kind <;> exact .keep rfl rfl rfl
  | clearParams => exact .clear rfl rfl
  | enumParams sync =>
    simp only [objectExec]
    split
    · exact .keep rfl rfl rfl
    · exact .clear rfl rfl
  | enumParamsCall sync =>
    simp only [objectExec, objectEnumParamsCall]
    split
    · exact .keep rfl rfl rfl
    · cases sync <;> exact .request _ rfl rfl rfl
  | _ => exact .keep rfl rfl rfl

/-- What the list holds belongs to the latest request; it is empty while a request is made. -/
structure ParamsLatest (s : ObjectWrapper) (code : List ObjectStmt) : Prop where
  latest : ∀ param ∈ s.params, s.latestSeq = some param.seq
  cleared : requesting code = true → s.params = []

theorem ParamsLatest.run (h : ParamsLatest s (i :: rest))
    (effect : ParamsEffect s i t new) (latest : i.keepsLatest s rest = true) :
    ParamsLatest t (new ++ rest) := by
  have cleared (hr : requesting rest = true) : s.params = [] := by
    apply h.cleared
    rw [← List.singleton_append, requesting_append, hr, Bool.or_true]
  cases effect with
  | keep params same idle =>
    refine ⟨?_, fun hr => ?_⟩
    · rw [params, same]
      exact h.latest
    · rw [requesting_append, idle, Bool.false_or] at hr
      exact params.trans (cleared hr)
  | append event param dispatched live change params same idle =>
    subst dispatched
    have fresh : s.latestSeq = some param.seq ∧ requesting rest = false := by
      simpa [ObjectStmt.keepsLatest, change, live] using latest
    refine ⟨fun p hp => ?_, fun hr => ?_⟩
    · rw [params] at hp
      rw [same]
      rcases List.mem_append.mp hp with hp | hp
      · exact h.latest p hp
      · rw [List.mem_singleton.mp hp]
        exact fresh.1
    · rw [requesting_append, idle, fresh.2] at hr
      exact absurd hr (by simp)
  | clear params => exact ⟨by simp [params], fun _ => params⟩
  | request sync called params idle =>
    -- the list has been empty since the request began
    have empty : s.params = [] := by
      apply h.cleared
      rw [called]
      cases sync <;> simp [requesting]
    exact ⟨by simp [params, empty], fun _ => params.trans empty⟩

theorem paramsLatest_preserves :
    (objectComponent kind objectId).Preserves ObjectKeepsLatest ParamsLatest where
  call operation s code r h _ _ hr := by
    obtain ⟨⟨connected, queue, completed, he, -⟩, requested⟩ := objectCall_eq hr
    have idle : requesting r.2 = false := by
      cases hq : requesting r.2 with
      | false => rfl
      | true =>
        simp only [requesting, Bool.or_eq_true, decide_eq_true_eq] at hq
        rcases hq with hq | hq <;> exact absurd (requested _ hq) (by simp [ObjectStmt.requested])
    rw [he]
    refine ⟨h.latest, fun hc => h.cleared ?_⟩
    rwa [requesting_append, idle, Bool.false_or] at hc
  run choice i s rest h latest := h.run (objectExec_paramsEffect kind choice i s) (latest i rfl)
  environment callback s code t h _ ht := by
    cases Option.some.inj ht
    unfold objectReport
    split
    · exact h
    · exact ⟨h.latest, h.cleared⟩

theorem objectParams_latest {c : Config ObjectWrapper ObjectStmt}
    (h : Reach (objectComponent kind objectId).step ObjectKeepsLatest objectInit c) :
    ∀ param ∈ c.state.params, c.state.latestSeq = some param.seq :=
  (paramsLatest_preserves.reach h ⟨by simp [objectInit], fun _ => rfl⟩).latest

/-- A parameter of a request or of a subscription is dispatched. -/
def objectParamSchedule (seq : Int) (id index : UInt32) :
    List (Label ObjectCall ObjectChoice ObjectCallback) :=
  [.environment (.param seq id index 0 (some [])), .call .iterate] ++ List.replicate 5 (.run {})

/-- A request for parameters is made, and PipeWire answers with a sequence number. -/
def objectEnumSchedule (number : Int) : List (Label ObjectCall ObjectChoice ObjectCallback) :=
  .call .enumParams :: List.replicate 4 (.run { number := number })

/-- Two requests are answered one after the other. -/
def enumeratedTwice : Config ObjectWrapper ObjectStmt :=
  final (objectComponent .node 7).step objectInit
    (objectStartSchedule ++ objectEnumSchedule 1073741830 ++ objectParamSchedule 1073741830 3 0 ++
      objectEnumSchedule 1073741831 ++ objectParamSchedule 1073741831 4 0 ++
      objectParamSchedule 1073741831 4 1)

theorem objectParams_latest_enumeratedTwice :
    enumeratedTwice.state.params.map Param.index = [0, 1] ∧
      ∀ param ∈ enumeratedTwice.state.params, enumeratedTwice.state.latestSeq = some param.seq :=
  ⟨by decide +kernel, objectParams_latest (reach_final (by decide +kernel))⟩

/-- A subscription brings a parameter after an enumeration has been answered. -/
def subscribedAfterwards : Config ObjectWrapper ObjectStmt :=
  final (objectComponent .node 7).step objectInit
    (objectStartSchedule ++ objectEnumSchedule 1073741830 ++ objectParamSchedule 1073741830 3 0 ++
      .call .subscribeParams :: objectParamSchedule 1 2 0)

theorem objectParams_latest_fails :
    Reach (objectComponent .node 7).step anyStep objectInit subscribedAfterwards ∧
      ¬ ∀ param ∈ subscribedAfterwards.state.params,
        subscribedAfterwards.state.latestSeq = some param.seq := by
  refine ⟨reach_final (allAllowed_anyStep _ _), fun h => ?_⟩
  have latest := h ⟨1, 2, 0, 0, []⟩ (by decide +kernel)
  revert latest
  decide +kernel

end PipewireGobject
