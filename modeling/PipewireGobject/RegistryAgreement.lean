import PipewireGobject.RegistryClient

namespace PipewireGobject

open RegistrySite

variable {s t : RegistrySite} {ahead : List RegistryEvent} {event : RegistryEvent}
variable {callback : RegistryCallback} {slot seq : Nat}

/-- Statements that only come first. -/
def RegistryTask.first : RegistryTask → Bool
  | .dispatch _ | .startProxies _ => true
  | _ => false

def RegistrySiteTask.first (i : RegistrySiteTask) : Bool := i.toTask.first

def RegistrySiteTask.dispatches (i : RegistrySiteTask) : Option RegistryEvent :=
  i.toTask.dispatches

structure RegistrySiteInv (s : RegistrySite) (code : List RegistrySiteTask) : Prop where
  state : RegistrySiteState s (code.filterMap RegistrySiteTask.dispatches)
  tail : ∀ i ∈ code.tail, i.first = false
  stopped : ∀ sync, code.head? = some (.task (.startProxies sync)) →
    s.session.registry.running = false

variable {code rest new : List RegistrySiteTask} {i : RegistrySiteTask} {choice : RegistryChoice}

theorem dispatches_plain (plain : ∀ i ∈ code, i.first = false) :
    code.filterMap RegistrySiteTask.dispatches = [] := by
  rw [List.filterMap_eq_nil_iff]
  intro i hi
  have first := plain i hi
  unfold RegistrySiteTask.first at first
  unfold RegistrySiteTask.dispatches
  cases task : i.toTask <;> rw [task] at first <;> first | rfl | cases first

/-- Where only statements that may come later are left, no event is ahead. -/
theorem RegistrySiteInv.plain (h : RegistrySiteState s []) (plain : ∀ i ∈ code, i.first = false) :
    RegistrySiteInv s code where
  state := by
    rw [dispatches_plain plain]
    exact h
  tail i hi := plain i (List.mem_of_mem_tail hi)
  stopped sync hd := by
    have first := plain _ (List.mem_of_mem_head? hd)
    cases first

/-- The session of a core that stays connected ends, or keeps what its line depends on. -/
theorem registryExecTask_keeps {i : RegistryTask} {result : PipewireResult} {s : RegistrySession}
    (connected : s.connected = true) (plain : i.first = false) :
    (registryExecTask result i s).1.connected = s.connected ∧
      ((registryExecTask result i s).1.registry.running = true →
        s.registry.running = true ∧ (registryExecTask result i s).1.hasRegistry = s.hasRegistry ∧
          (registryExecTask result i s).1.registry.generation = s.registry.generation ∧
          (registryExecTask result i s).1.dispatched = s.dispatched) := by
  cases i with
  | dispatch event => cases plain
  | startProxies sync => cases plain
  | connect => simp [registryExecTask, connected]
  | start sync =>
    simp only [registryExecTask, connected, if_true]
    split <;> exact ⟨connected, fun running => ⟨running, rfl, rfl, rfl⟩⟩
  | coreSync =>
    simp only [registryExecTask]
    split <;> exact ⟨rfl, fun running => ⟨running, rfl, rfl, rfl⟩⟩
  | stop =>
    simp only [registryExecTask, registryStopSession]
    split
    · exact ⟨rfl, fun running => ⟨running, rfl, rfl, rfl⟩⟩
    · exact ⟨rfl, fun running => absurd running Bool.false_ne_true⟩
  | coreConnectedNotify =>
    simp [registryExecTask, connected]
  | _ => exact ⟨rfl, fun running => ⟨running, rfl, rfl, rfl⟩⟩

theorem registryExecTask_plain {i : RegistryTask} {result : PipewireResult} {s : RegistrySession}
    (plain : i.first = false) (other : ∀ sync, i ≠ .start sync) :
    ∀ j ∈ (registryExecTask result i s).2, j.first = false := by
  cases i with
  | dispatch event => cases plain
  | startProxies sync => cases plain
  | start sync => exact absurd rfl (other sync)
  | stop =>
    simp only [registryExecTask, registryStopSession, registryEndSession]
    split <;> [skip; split] <;> simp [RegistryTask.first]
  | coreConnectedNotify =>
    simp only [registryExecTask, registryResetSession, registryEndSession]
    split <;> [skip; split] <;> simp [RegistryTask.first]
  | connect =>
    simp only [registryExecTask]
    split <;> simp [RegistryTask.first]
  | coreSync =>
    simp only [registryExecTask]
    split <;> simp [RegistryTask.first]
  | coreSyncWait =>
    simp only [registryExecTask]
    split <;> simp [RegistryTask.first]
  | _ => simp [registryExecTask, RegistryTask.first]

/-- The statements that a statement adds may come later, but for the start that goes on. -/
theorem registrySiteExec_plain (other : ∀ sync, i ≠ .task (.start sync)) :
    ∀ j ∈ (RegistrySite.exec choice i s).2, j.first = false := by
  cases i with
  | task i =>
    have lifted (tasks : List RegistryTask) (plain : ∀ j ∈ tasks, j.first = false) :
        ∀ j ∈ tasks.map RegistrySiteTask.task, j.first = false := by
      intro j hj
      obtain ⟨task, ht, rfl⟩ := List.mem_map.mp hj
      exact plain task ht
    cases i with
    | dispatch event =>
      refine lifted _ fun j hj => ?_
      have finishes := registryDispatch_finishes event s.session j hj
      cases j <;> first | rfl | cases finishes
    | startProxies sync =>
      refine lifted _ ?_
      simp only [registryStart]
      split
      · simp
      · split
        · simp
        · cases sync <;> simp [RegistryTask.first]
    | coreSyncWait =>
      simp only [RegistrySite.exec, RegistrySite.syncEnter]
      split <;> simp [RegistrySiteTask.first, RegistrySiteTask.toTask, RegistryTask.first]
    | start sync => exact absurd rfl (other sync)
    | _ =>
      refine lifted _ (registryExecTask_plain rfl fun sync => ?_)
      rintro ⟨⟩
  | syncWait slot =>
    simp only [RegistrySite.exec, RegistrySite.syncWait]
    split
    · simp
    · split <;> simp [RegistrySiteTask.first, RegistrySiteTask.toTask, RegistryTask.first]
  | syncIterate slot =>
    simp only [RegistrySite.exec]
    split <;> simp [RegistrySiteTask.first, RegistrySiteTask.toTask, RegistryTask.first]

theorem RegistrySiteInv.run (h : RegistrySiteInv s (i :: rest))
    (undisturbed : i.Undisturbed choice s rest) :
    RegistrySiteInv (RegistrySite.exec choice i s).1
      ((RegistrySite.exec choice i s).2 ++ rest) := by
  have below : ∀ j ∈ rest, j.first = false := h.tail
  have finish (state : RegistrySiteState (RegistrySite.exec choice i s).1 [])
      (other : ∀ sync, i ≠ .task (.start sync)) :
      RegistrySiteInv (RegistrySite.exec choice i s).1
        ((RegistrySite.exec choice i s).2 ++ rest) := by
    refine .plain state fun j hj => ?_
    rcases List.mem_append.mp hj with hj | hj
    · exact registrySiteExec_plain other j hj
    · exact below j hj
  have ahead : (i :: rest).filterMap RegistrySiteTask.dispatches = i.dispatches.toList := by
    cases dispatches : i.dispatches with
    | none =>
      rw [List.filterMap_cons_none dispatches]
      exact dispatches_plain below
    | some event =>
      rw [List.filterMap_cons_some dispatches, dispatches_plain below]
      rfl
  have state := h.state
  rw [ahead] at state
  have session (task : RegistryTask) (plain : task.first = false) (same : RegistrySiteState s []) :
      RegistrySiteState
        { s with session := (registryExecTask choice.result task s.session).1 } [] := by
    obtain ⟨connected, kept⟩ := registryExecTask_keeps state.requests.connected plain
    exact same.withSession connected kept
  cases i with
  | task i =>
    cases i with
    | dispatch event => exact finish state.dispatch (by simp)
    | startProxies sync =>
      exact finish (state.startProxies (h.stopped sync rfl) undisturbed.2) (by simp)
    | coreSyncWait => exact finish (state.syncEnter undisturbed.2) (by simp)
    | start sync =>
      have same : RegistrySiteState s [] := state
      simp only [RegistrySite.exec, registryExecTask, same.requests.connected, if_true]
      cases running : s.session.registry.running with
      | true =>
        refine .plain same fun j hj => ?_
        rcases List.mem_append.mp hj with hj | hj
        · cases sync with
          | true => exact List.mem_singleton.mp hj ▸ rfl
          | false => cases hj
        · exact below j hj
      | false =>
        refine ⟨?_, below, fun _ _ => running⟩
        have none := dispatches_plain below
        rw [← none] at same
        exact same
    | _ => exact finish (session _ rfl state) (by simp)
  | syncWait slot => exact finish state.syncWait (by simp)
  | syncIterate slot => exact finish state (by simp)

/-- Where the application runs, only statements that may come later are left. -/
theorem RegistrySiteInv.waiting (h : RegistrySiteInv s code)
    (runs : registrySite.applicationRuns code = true) : ∀ i ∈ code, i.first = false := by
  cases code with
  | nil => simp
  | cons i rest =>
    intro j hj
    rcases List.mem_cons.mp hj with rfl | hj
    · have emission : j.emission = true := by
        simpa [Component.applicationRuns, registrySite] using runs
      cases j with
      | task i => cases i <;> first | rfl | cases emission
      | _ => rfl
    · exact h.tail j hj

theorem RegistrySiteInv.call {operation : RegistrySiteCall}
    {r : RegistrySite × List RegistrySiteTask} (h : RegistrySiteInv s code)
    (runs : registrySite.applicationRuns code = true)
    (hr : RegistrySite.call operation s = some r) : RegistrySiteInv r.1 (r.2 ++ code) := by
  have below := h.waiting runs
  have state := h.state
  rw [dispatches_plain below] at state
  have later (task : RegistryTask) (plain : task.first = false) :
      RegistrySiteInv s (.task task :: code) :=
    .plain state fun j hj => by
      rcases List.mem_cons.mp hj with rfl | hj
      · exact plain
      · exact below j hj
  cases operation with
  | iterate =>
    simp only [RegistrySite.call] at hr
    split at hr
    next => cases hr
    next event rest first =>
      cases hr
      refine ⟨?_, below, fun sync hd => by cases hd⟩
      have dispatches : RegistrySiteTask.dispatches (.task (.dispatch event)) = some event := rfl
      rw [List.singleton_append, List.filterMap_cons_some dispatches, dispatches_plain below]
      exact state.iterate first
    next slot rest first =>
      cases hr
      exact .plain (state.complete first) below
  | start =>
    cases hr
    exact later (.start false) rfl
  | sync =>
    cases hr
    exact later (.start true) rfl
  | stop =>
    cases hr
    exact later .stop rfl

theorem RegistrySiteInv.environment {event : RegistrySiteEvent} (h : RegistrySiteInv s code)
    (ht : RegistrySite.environment event s = some t) : RegistrySiteInv t code := by
  have kept (state : RegistrySiteState t (code.filterMap RegistrySiteTask.dispatches))
      (running : t.session.registry.running = s.session.registry.running) :
      RegistrySiteInv t code :=
    ⟨state, h.tail, fun sync hd => running.trans (h.stopped sync hd)⟩
  cases event with
  | handle =>
    simp only [RegistrySite.environment] at ht
    split at ht
    next => cases ht
    next request rest first =>
      cases ht
      cases request with
      | getRegistry registry => exact kept (h.state.getRegistry first) rfl
      | sync seq => exact kept (h.state.sync first) rfl
  | appear id global =>
    simp only [RegistrySite.environment] at ht
    split at ht
    next => cases ht
    next =>
      cases ht
      exact kept h.state.appear rfl
  | vanish id =>
    simp only [RegistrySite.environment] at ht
    split at ht
    next =>
      cases ht
      exact kept h.state.vanish rfl
    next => cases ht
  | receive =>
    simp only [RegistrySite.environment] at ht
    split at ht
    next => cases ht
    next message rest first =>
      cases ht
      refine kept (h.state.receive first) ?_
      cases message with
      | registry registry callback =>
        simp only [RegistrySite.receive]
        split <;> rfl
      | done seq => rfl

theorem registrySite_preserves :
    registrySite.Preserves RegistrySiteUndisturbed RegistrySiteInv where
  call _ _ _ _ h runs _ hr := h.call runs hr
  run _ i _ _ h undisturbed := h.run (undisturbed i rfl)
  environment _ _ _ _ h _ ht := h.environment ht

theorem registrySiteInv_start (globals : Table UInt32 ServerGlobal) :
    RegistrySiteInv (RegistrySite.start globals) [] where
  state := {
    requests := {
      connected := rfl
      once := List.nodup_nil
      asked := by simp [RegistrySite.asked, RegistrySite.start]
      messages := by simp [RegistrySite.start]
      syncs := List.nodup_nil
      unanswered := by simp [RegistrySite.start]
      answered := by simp [RegistrySite.answered, RegistrySite.start]
      listeners := by simp [RegistrySite.start] }
    mirrored := fun running => absurd running Bool.false_ne_true }
  tail := by simp
  stopped := by simp

/-- The registry of a site, with the events that wait in the main context. -/
def RegistrySite.toSession (s : RegistrySite) : RegistrySession :=
  { s.session with queue := s.events }

def registryConfig (c : Config RegistrySite RegistrySiteTask) :
    Config RegistrySession RegistryTask :=
  ⟨c.state.toSession, c.code.map RegistrySiteTask.toTask⟩

/-- A statement of the registry leaves the events alone that wait. -/
theorem registryExecTask_queue (result : PipewireResult) (i : RegistryTask) (s : RegistrySession)
    (queue : List RegistryEvent) : registryExecTask result i { s with queue := queue } =
      ({ (registryExecTask result i s).1 with queue := queue },
        (registryExecTask result i s).2) := by
  cases i with
  | dispatch event =>
    simp only [registryExecTask, registryDispatch]
    split
    · rfl
    · split <;> split <;> rfl
  | startProxies sync =>
    simp only [registryExecTask, registryStart]
    split
    · rfl
    · split <;> rfl
  | stop =>
    simp only [registryExecTask, registryStopSession]
    split <;> rfl
  | coreConnectedNotify =>
    simp only [registryExecTask]
    split <;> rfl
  | connect =>
    simp only [registryExecTask]
    split <;> rfl
  | start sync =>
    simp only [registryExecTask]
    split
    · rfl
    · split <;> rfl
  | coreSync =>
    simp only [registryExecTask]
    split <;> rfl
  | _ => rfl

theorem toTask_emission (h : i.emission = true) : i.toTask = .handlers := by
  cases i with
  | task i => cases i <;> first | rfl | cases h
  | _ => rfl

theorem undisturbing_queue {result : PipewireResult} {s : RegistrySession}
    {rest : List RegistryTask} {i : RegistryTask} (queue : List RegistryEvent)
    (h : i.undisturbing result s rest) : i.undisturbing result { s with queue := queue } rest := by
  cases i <;> exact h

theorem map_toTask (tasks : List RegistryTask) :
    (tasks.map RegistrySiteTask.task).map RegistrySiteTask.toTask = tasks := by
  rw [List.map_map]
  exact List.map_id tasks

/-- A statement of the site is one of its registry, or a roundtrip that goes on or fails. -/
theorem registryConfig_run (undisturbed : i.Undisturbed choice s rest) :
    Reach registryComponent.step RegistryUndisturbed (registryConfig ⟨s, i :: rest⟩)
      (registryConfig ⟨(RegistrySite.exec choice i s).1,
        (RegistrySite.exec choice i s).2 ++ rest⟩) := by
  let below := rest.map RegistrySiteTask.toTask
  have one : Reach registryComponent.step RegistryUndisturbed (registryConfig ⟨s, i :: rest⟩)
      ⟨{ (registryExecTask choice.result i.toTask s.session).1 with queue := s.events },
        (registryExecTask choice.result i.toTask s.session).2 ++ below⟩ := by
    have allowed : RegistryUndisturbed (registryConfig ⟨s, i :: rest⟩) (.run choice.result) := by
      intro j hj
      cases Option.some.inj hj
      exact undisturbing_queue _ undisturbed.1
    have step : registryComponent.step (registryConfig ⟨s, i :: rest⟩) (.run choice.result) =
        some ⟨(registryExecTask choice.result i.toTask s.toSession).1,
          (registryExecTask choice.result i.toTask s.toSession).2 ++ below⟩ := rfl
    rw [RegistrySite.toSession, registryExecTask_queue] at step
    exact .next .start allowed step
  have through (t : RegistrySession) : Reach registryComponent.step RegistryUndisturbed
      ⟨t, .handlers :: below⟩ ⟨t, below⟩ := by
    have allowed : RegistryUndisturbed ⟨t, .handlers :: below⟩ (.run choice.result) := by
      intro j hj
      cases Option.some.inj hj
      trivial
    exact .next .start allowed rfl
  have own (task : RegistryTask) (same : i = .task task)
      (session : (RegistrySite.exec choice i s).1.toSession =
        { (registryExecTask choice.result task s.session).1 with queue := s.events })
      (new : (RegistrySite.exec choice i s).2 =
        (registryExecTask choice.result task s.session).2.map .task) :
      Reach registryComponent.step RegistryUndisturbed (registryConfig ⟨s, i :: rest⟩)
        (registryConfig ⟨(RegistrySite.exec choice i s).1,
          (RegistrySite.exec choice i s).2 ++ rest⟩) := by
    subst same
    have target : registryConfig ⟨(RegistrySite.exec choice (.task task) s).1,
        (RegistrySite.exec choice (.task task) s).2 ++ rest⟩ =
        ⟨{ (registryExecTask choice.result task s.session).1 with queue := s.events },
          (registryExecTask choice.result task s.session).2 ++ below⟩ := by
      rw [registryConfig, session, new, List.map_append, map_toTask]
    rw [target]
    exact one
  cases i with
  | task task =>
    cases task with
    | coreSyncWait =>
      simp only [RegistrySite.exec, RegistrySite.syncEnter]
      split
      next refused =>
        simp only [RegistrySiteTask.toTask, registryExecTask] at one
        split at one
        next connected => exact one.trans (through _)
        next off => exact one
      next entered =>
        obtain ⟨on, -⟩ := not_or.mp entered
        have connected : s.session.connected = true := by simpa using on
        simp only [RegistrySiteTask.toTask, registryExecTask] at one
        rw [if_pos connected] at one
        exact one
    | startProxies sync =>
      refine own _ rfl ?_ rfl
      simp only [RegistrySite.exec, RegistrySite.startProxies]
      split <;> rfl
    | _ => exact own _ rfl rfl rfl
  | syncWait slot =>
    simp only [RegistrySite.exec, RegistrySite.syncWait]
    split
    next => exact through _
    next =>
      split
      · exact .start
      · exact .start
  | syncIterate slot =>
    simp only [RegistrySite.exec]
    split
    next => exact through _
    next => exact .start

/-- Each step of the site is made of steps of its registry. -/
theorem registryConfig_step {c d : Config RegistrySite RegistrySiteTask}
    {label : Label RegistrySiteCall RegistryChoice RegistrySiteEvent}
    (undisturbed : RegistrySiteUndisturbed c label) (hs : registrySite.step c label = some d) :
    Reach registryComponent.step RegistryUndisturbed (registryConfig c) (registryConfig d) := by
  obtain ⟨s, code⟩ := c
  cases label with
  | call operation =>
    obtain ⟨runs, r, hr, rfl⟩ := Component.step_call hs
    have waits : registryComponent.applicationRuns (code.map RegistrySiteTask.toTask) = true := by
      cases code with
      | nil => rfl
      | cons i rest =>
        have emission : i.emission = true := by
          simpa [Component.applicationRuns, registrySite] using runs
        simp [Component.applicationRuns, registryComponent, toTask_emission emission]
    have called (o : RegistryCall) (t : RegistrySession) (new : List RegistryTask)
        (ho : registryCall o s.toSession = some (t, new)) :
        Reach registryComponent.step RegistryUndisturbed (registryConfig ⟨s, code⟩)
          ⟨t, new ++ code.map RegistrySiteTask.toTask⟩ := by
      have step : registryComponent.step (registryConfig ⟨s, code⟩) (.call o) =
          some ⟨t, new ++ code.map RegistrySiteTask.toTask⟩ := by
        simp only [registryConfig, Component.step, waits, if_true]
        exact congrArg (Option.map _) ho
      have allowed : RegistryUndisturbed (registryConfig ⟨s, code⟩) (.call o) := trivial
      exact .next .start allowed step
    cases operation with
    | iterate =>
      change RegistrySite.call .iterate s = some r at hr
      simp only [RegistrySite.call] at hr
      split at hr
      next => cases hr
      next event rest first =>
        cases hr
        refine called (.dispatch 0) { s.session with queue := rest.filterMap RegistrySource.waits }
          [.dispatch event] ?_
        have events : s.events = event :: rest.filterMap RegistrySource.waits := by
          unfold RegistrySite.events
          rw [first]
          rfl
        simp only [registryCall, RegistrySite.toSession, events]
        rfl
      next slot rest first =>
        cases hr
        have events : s.events = rest.filterMap RegistrySource.waits := by
          unfold RegistrySite.events
          rw [first]
          rfl
        have same : registryConfig ⟨s, code⟩ = registryConfig ⟨{ s with
            sources := rest
            completed := slot :: s.completed
            later := fun k => if k = slot then [] else s.later k }, [] ++ code⟩ := by
          simp only [registryConfig, RegistrySite.toSession, events]
          rfl
        rw [same]
        exact .start
    | start =>
      cases hr
      exact called .start _ _ rfl
    | sync =>
      cases hr
      exact called .sync _ _ rfl
    | stop =>
      cases hr
      exact called .stop _ _ rfl
  | run choice =>
    obtain ⟨i, rest, layout, rfl⟩ := Component.step_run hs
    cases layout
    exact registryConfig_run (undisturbed i rfl)
  | environment event =>
    obtain ⟨t, ht, rfl⟩ := Component.step_environment hs
    change RegistrySite.environment event s = some t at ht
    have unseen (same : t.toSession = s.toSession) : Reach registryComponent.step
        RegistryUndisturbed (registryConfig ⟨s, code⟩) (registryConfig ⟨t, code⟩) := by
      rw [registryConfig, registryConfig, same]
      exact .start
    cases event with
    | handle =>
      simp only [RegistrySite.environment] at ht
      split at ht
      next => cases ht
      next request rest first =>
        cases ht
        refine unseen ?_
        cases request <;> rfl
    | appear id global =>
      simp only [RegistrySite.environment] at ht
      split at ht
      next => cases ht
      next =>
        cases ht
        exact unseen rfl
    | vanish id =>
      simp only [RegistrySite.environment] at ht
      split at ht
      next =>
        cases ht
        exact unseen rfl
      next => cases ht
    | receive =>
      simp only [RegistrySite.environment] at ht
      split at ht
      next => cases ht
      next message rest first =>
        cases ht
        cases message with
        | registry registry callback =>
          simp only [RegistrySite.receive]
          split
          next own =>
            let event := registryQueueEvent (registryCallback callback) s.session.registry
            have events :
                (s.sources ++ [RegistrySource.event event]).filterMap RegistrySource.waits =
                  s.events ++ [event] := List.filterMap_append
            have step : registryComponent.step (registryConfig ⟨s, code⟩)
                (.environment callback) =
                  some ⟨registryReport callback s.toSession,
                    code.map RegistrySiteTask.toTask⟩ := rfl
            have allowed : RegistryUndisturbed (registryConfig ⟨s, code⟩)
                (.environment callback) := trivial
            simp only [registryConfig, RegistrySite.toSession, RegistrySite.events] at events ⊢
            rw [events]
            exact .next .start allowed step
          next other =>
            simp only [RegistrySite.receive, if_neg other] at unseen
            exact unseen rfl
        | done seq =>
          refine unseen ?_
          have none (slots : List Nat) : (slots.map RegistrySource.completion).filterMap
              RegistrySource.waits = [] := by
            rw [List.filterMap_map]
            exact List.filterMap_eq_nil_iff.mpr fun _ _ => rfl
          simp only [RegistrySite.receive, RegistrySite.toSession, RegistrySite.events,
            List.filterMap_append, none, List.append_nil]

/-- A run of the site is one of its registry. -/
theorem registrySite_refines {globals : Table UInt32 ServerGlobal}
    {c : Config RegistrySite RegistrySiteTask}
    (h : Reach registrySite.step RegistrySiteUndisturbed ⟨.start globals, []⟩ c) :
    Reach registryComponent.step RegistryUndisturbed registryInit (registryConfig c) := by
  induction h with
  | start =>
    have allowed : RegistryUndisturbed registryInit (.call (.setConnected true)) := trivial
    exact .next .start allowed rfl
  | next _ undisturbed hs ih => exact ih.trans (registryConfig_step undisturbed hs)

/-- What the list and the globals still to be appended to it make up. -/
def RegistrySite.listed (c : Config RegistrySite RegistrySiteTask) : UInt32 → Option Global :=
  registryLookupGlobal (c.state.session.registry.globals ++
    pendingAppends (c.code.map RegistrySiteTask.toTask))

variable {globals : Table UInt32 ServerGlobal} {c : Config RegistrySite RegistrySiteTask}

theorem listed_taken
    (h : Reach registrySite.step RegistrySiteUndisturbed ⟨.start globals, []⟩ c)
    (running : c.state.session.registry.running = true)
    (unclear : .task .clearGlobals ∉ c.code) : RegistrySite.listed c = c.state.taken := by
  have settled := registrySettled_preserves.reach (registrySite_refines h) registrySettled_init
  have clear : .clearGlobals ∉ (registryConfig c).code := by
    intro hm
    obtain ⟨i, hi, he⟩ := List.mem_map.mp hm
    cases i with
    | task task =>
      cases he
      exact unclear hi
    | _ => cases he
  exact congrArg registryLookupGlobal (settled.folded clear running)

/-- A sync is about to return `TRUE`: the roundtrip with its data at `slot` is complete. -/
def RegistrySyncReturns (c : Config RegistrySite RegistrySiteTask) (slot : Nat) : Prop :=
  c.code.head? = some (.syncIterate slot) ∧ slot ∈ c.state.completed

abbrev RegistrySchedule := List (Label RegistrySiteCall RegistryChoice RegistrySiteEvent)

def registryRuns (n : Nat) : RegistrySchedule := List.replicate n (.run {})

def registryHandles (n : Nat) : RegistrySchedule := List.replicate n (.environment .handle)

def registryReceives (n : Nat) : RegistrySchedule := List.replicate n (.environment .receive)

/-- The server has one global. -/
def oneGlobal : Table UInt32 ServerGlobal := AList.singleton 35 ⟨7, none, 3, none⟩

/-- A sync starts the registry, and finds the global. -/
def registryFirstSync : RegistrySchedule :=
  .call .sync :: registryRuns 6 ++ registryHandles 2 ++ registryReceives 2 ++ registryRuns 1 ++
    .call .iterate :: registryRuns 6 ++ [.call .iterate]

/-- A sync fails although its roundtrip is complete, and another one has its data at the same
place while the completion of the first still waits. -/
def registrySecondSync : RegistrySchedule :=
  .call .sync :: registryRuns 6 ++ registryHandles 2 ++ registryReceives 2 ++
    .run { failed := true } :: .environment (.appear 36 ⟨7, none, 3, none⟩) ::
    .call .sync :: registryRuns 3 ++ registryHandles 1 ++ registryReceives 2 ++ registryRuns 1 ++
    .call .iterate :: registryRuns 6 ++ [.call .iterate]

theorem registrySync_visible_fails :
    ∃ c, Reach registrySite.step anyStep ⟨.start oneGlobal, []⟩ c ∧ RegistrySyncReturns c 0 ∧
      c.state.session.registry.running = true ∧ c.state.since ≤ c.state.requested 0 ∧
      .task .clearGlobals ∉ c.code ∧ RegistrySite.listed c ≠
        (c.state.later 0).foldl viewChange (c.state.snapshot (c.state.requested 0)) := by
  refine ⟨final registrySite.step ⟨.start oneGlobal, []⟩ registrySecondSync,
    reach_final (allAllowed_anyStep _ _), ⟨by decide +kernel, by decide +kernel⟩,
    by decide +kernel, by decide +kernel, by decide +kernel, fun h => ?_⟩
  -- the global that the server has announced in between still waits
  have absent := congrFun h 36
  revert absent
  decide +kernel

/-- Every request has been handled, and everything that was sent has been dispatched. -/
def RegistrySite.Quiescent (s : RegistrySite) : Prop :=
  s.outbox = [] ∧ s.inbox = [] ∧ s.sources = []

instance RegistrySite.quiescentDecidable (s : RegistrySite) : Decidable s.Quiescent :=
  inferInstanceAs (Decidable (_ ∧ _ ∧ _))

/-- `PW_KEY_OBJECT_SERIAL` -/
def keyObjectSerial : CString := "object.serial".toUTF8.data.toList

/-- `PW_KEY_MEDIA_CLASS` -/
def keyMediaClass : CString := "media.class".toUTF8.data.toList

def globalIsInterface (interfaceType : CString) (global : Global) : Bool :=
  global.interfaceType = some interfaceType

def globalDupMediaClass (global : Global) : Option CString :=
  globalDupProperty global keyMediaClass

def registryMatchMediaClass (mediaClass : CString) (global : Global) : Bool :=
  globalDupMediaClass global = some mediaClass

def registryLookupGlobalByObjectSerial (globals : List Global) (objectSerial : CString) :
    Option Global :=
  registryLookupGlobalByProperty globals keyObjectSerial objectSerial

def registryDupGlobalsByInterface (globals : List Global) (interfaceType : CString) :
    List Global :=
  globals.filter (globalIsInterface interfaceType)

def registryDupGlobalsByMediaClass (globals : List Global) (mediaClass : CString) : List Global :=
  globals.filter (registryMatchMediaClass mediaClass)

/-- The result is one of the server's globals that match, if there is any. -/
def RegistrySite.FirstMatch (s : RegistrySite) (matching : Global → Bool) : Option Global → Prop
  | some global => s.view global.id = some global ∧ matching global = true
  | none => ∀ global, s.view global.id = some global → matching global = false

/-- The result is the server's globals that match, each of them once. -/
structure RegistrySite.AllMatches (s : RegistrySite) (matching : Global → Bool)
    (result : List Global) : Prop where
  found : ∀ global, global ∈ result ↔ s.view global.id = some global ∧ matching global = true
  once : (result.map (·.id)).Nodup

/-- Whoever asks the registry finds what the server has. -/
structure ListAgrees (s : RegistrySite) : Prop where
  lookup : registryLookupGlobal s.session.registry.globals = s.view
  listed : s.AllMatches (fun _ => true) s.session.registry.globals
  firstByProperty : ∀ key value, s.FirstMatch (registryMatchProperty key value)
    (registryLookupGlobalByProperty s.session.registry.globals key value)
  firstByObjectSerial : ∀ serial, s.FirstMatch (registryMatchProperty keyObjectSerial serial)
    (registryLookupGlobalByObjectSerial s.session.registry.globals serial)
  byProperty : ∀ key value, s.AllMatches (registryMatchProperty key value)
    (registryDupGlobalsByProperty s.session.registry.globals key value)
  byInterface : ∀ interfaceType, s.AllMatches (globalIsInterface interfaceType)
    (registryDupGlobalsByInterface s.session.registry.globals interfaceType)
  byMediaClass : ∀ mediaClass, s.AllMatches (registryMatchMediaClass mediaClass)
    (registryDupGlobalsByMediaClass s.session.registry.globals mediaClass)

theorem RegistrySite.AllMatches.filter {result : List Global}
    (h : s.AllMatches (fun _ => true) result) (matching : Global → Bool) :
    s.AllMatches matching (result.filter matching) where
  found global := by
    rw [List.mem_filter, h.found]
    simp
  once := h.once.sublist (List.filter_sublist.map _)

theorem RegistrySite.AllMatches.find {result : List Global}
    (h : s.AllMatches (fun _ => true) result) (matching : Global → Bool) :
    s.FirstMatch matching (result.find? matching) := by
  cases hf : result.find? matching with
  | none =>
    intro global present
    have listed : global ∈ result := (h.found global).mpr ⟨present, rfl⟩
    simpa using List.find?_eq_none.mp hf global listed
  | some global =>
    have listed := (h.found global).mp (List.mem_of_find?_eq_some hf)
    exact ⟨listed.1, List.find?_some hf⟩

/-- The sync returns, a global disappears and another one is announced. -/
def registryChanged : RegistrySchedule :=
  registryFirstSync ++ registryRuns 1 ++ .environment (.vanish 35) ::
    .environment (.appear 36 ⟨7, none, 3, none⟩) :: registryReceives 2 ++
    .call .iterate :: registryRuns 5 ++ .call .iterate :: registryRuns 6

end PipewireGobject
