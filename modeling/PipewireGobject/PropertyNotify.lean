import PipewireGobject.Announcement
import PipewireGobject.MetadataWrapper
import PipewireGobject.ObjectWrapper
import PipewireGobject.RegistryReentry
import PipewireGobject.StreamPhase

namespace PipewireGobject

abbrev StreamProperty.Value : StreamProperty → Type
  | .rate | .channels | .graphRate => UInt32
  | .audioFormat => Option AudioFormat
  | .peak => Magnitude
  | .running | .deliverAudioBlocks => Bool

def Stream.property (s : Stream) : (p : StreamProperty) → p.Value
  | .rate => s.rate
  | .channels => s.channels
  | .graphRate => s.graphRate
  | .audioFormat => s.audioFormat
  | .peak => s.peak
  | .running => s.running
  | .deliverAudioBlocks => s.deliverAudioBlocks

/-- The handlers of this property run next, for the first time in an emission or once more. -/
def StreamStmt.notifies (s : StreamRun) : StreamStmt → Option StreamProperty
  | .notify property => if (s.emissions.emit property).2 then some property else none
  | .handlers (some property) => if (s.emissions.handled property).2 then some property else none
  | _ => none

/-- A stop has cleared `running` before it goes on into the loop. -/
def StreamStmt.owes (s : StreamRun) : StreamStmt → StreamProperty → Bool
  | .notify property, p => property = p
  | .handlers (some property), p => property = p && (s.emissions.handled property).2
  | .stopLoop wasRunning _, .running => wasRunning
  | _, _ => false

def streamNotified : Properties StreamRun StreamStmt StreamProperty StreamProperty.Value where
  read s := s.stream.property
  announces := StreamStmt.notifies
  owes := StreamStmt.owes

theorem streamCallback_property (callback : StreamCallback) (s : StreamRun) :
    (streamCallback callback s).stream.property = s.stream.property := by
  have queued (s : Stream) : (streamQueueDispatchLocked s).property = s.property := by
    unfold streamQueueDispatchLocked
    split <;> rfl
  cases callback with
  | queuePeak peak => exact queued _
  | queueGraphRate rate =>
    show (streamQueueGraphRate rate s.stream).property = _
    unfold streamQueueGraphRate
    split
    · rfl
    · exact queued _
  | queueFormat format => exact queued _
  | queueAudioBlock block =>
    simp only [streamCallback]
    split
    next => rfl
    next nonempty =>
      simp only [streamQueueAudioBlock, if_neg nonempty]
      exact queued _

/-- A call of `notify` runs the handlers, or leaves that to those that it is called from. -/
theorem streamNotify_notified {property : StreamProperty} {s : StreamRun}
    {rest : List StreamStmt} (emitting : StreamEmitting s (.notify property :: rest)) :
    StreamStmt.notifies s (.notify property) = some property ∨
      ∃ j ∈ rest, j.owes (streamNotify property s).1 property = true := by
  cases began : (s.emissions.emit property).2 with
  | true => exact .inl (if_pos began)
  | false =>
    have inside : property ∈ s.emissions.running := by
      by_contra outside
      simp [Emissions.emit, outside] at began
    have follows : s.emissions.running = rest.filterMap StreamStmt.emission := emitting.running
    rw [follows] at inside
    obtain ⟨j, hj, stands⟩ := List.mem_filterMap.mp inside
    refine .inr ⟨j, hj, ?_⟩
    cases j with
    | handlers notified =>
      cases stands
      have restarted : property ∈ (s.emissions.emit property).1.restarted :=
        Emissions.mem_restarted_emit.mpr (.inr ⟨rfl, began⟩)
      have again := Emissions.handled_again.mpr restarted
      simp [StreamStmt.owes, streamNotify, again]
    | _ => cases stands

theorem streamExec_notified (outcome : StartOutcome) (i : StreamStmt) (s : StreamRun)
    (rest : List StreamStmt) (p : StreamProperty) (emitting : StreamEmitting s (i :: rest)) :
    i.notifies s = some p ∨
      (streamExec outcome i s).1.stream.property p = s.stream.property p ∧ i.owes s p = false ∨
      ∃ j ∈ (streamExec outcome i s).2 ++ rest, j.owes (streamExec outcome i s).1 p = true := by
  have owed {q : StreamProperty} {new : List StreamStmt} {t : StreamRun}
      (hm : .notify q ∈ new) : ∃ j ∈ new ++ rest, j.owes t q = true :=
    ⟨.notify q, List.mem_append_left rest hm, decide_eq_true rfl⟩
  cases i with
  | dispatchTake | emitLevel | stopReturn => cases p <;> exact .inr (.inl ⟨rfl, rfl⟩)
  | handlers notified =>
    cases notified with
    | none => exact .inr (.inl ⟨rfl, rfl⟩)
    | some property =>
      by_cases same : property = p
      · subst same
        cases again : (s.emissions.handled property).2 with
        | true => exact .inl (if_pos again)
        | false => exact .inr (.inl ⟨rfl, by simp [StreamStmt.owes, again]⟩)
      · exact .inr (.inl ⟨rfl, by simp [StreamStmt.owes, same]⟩)
  | notify property =>
    by_cases same : property = p
    · subst same
      rcases streamNotify_notified emitting with told | ⟨j, hj, owes⟩
      · exact .inl told
      · exact .inr (.inr ⟨j, List.mem_append_right _ hj, owes⟩)
    · exact .inr (.inl ⟨rfl, decide_eq_false same⟩)
  | dispatchFormat format =>
    cases format with
    | none => exact .inr (.inl ⟨rfl, rfl⟩)
    | some format =>
      cases p with
      | rate => exact .inr (.inr (owed (by simp [streamExec])))
      | channels => exact .inr (.inr (owed (by simp [streamExec])))
      | audioFormat => exact .inr (.inr (owed (by simp [streamExec])))
      | _ => exact .inr (.inl ⟨rfl, rfl⟩)
  | dispatchGraphRate hasGraphRate graphRate revision =>
    simp only [streamExec]
    split
    · cases p with
      | graphRate => exact .inr (.inr (owed List.mem_cons_self))
      | _ => exact .inr (.inl ⟨rfl, rfl⟩)
    · exact .inr (.inl ⟨rfl, rfl⟩)
  | dispatchPeak peak =>
    cases peak with
    | none => exact .inr (.inl ⟨rfl, rfl⟩)
    | some peak =>
      simp only [streamExec]
      split
      · cases p with
        | peak => exact .inr (.inr (owed List.mem_cons_self))
        | _ => exact .inr (.inl ⟨rfl, rfl⟩)
      · exact .inr (.inl ⟨rfl, rfl⟩)
  | dispatchBlocks blocks =>
    cases blocks with
    | nil => exact .inr (.inl ⟨rfl, rfl⟩)
    | cons block blocks =>
      simp only [streamExec]
      split <;> exact .inr (.inl ⟨rfl, rfl⟩)
  | start =>
    simp only [streamExec]
    split
    · exact .inr (.inl ⟨rfl, rfl⟩)
    · cases outcome <;> cases p <;> exact .inr (.inl ⟨rfl, rfl⟩)
  | startRunning =>
    cases p with
    | running => exact .inr (.inr (owed List.mem_cons_self))
    | _ => exact .inr (.inl ⟨rfl, rfl⟩)
  | stop =>
    cases p with
    | running =>
      cases hr : s.stream.running with
      | true => exact .inr (.inr ⟨_, List.mem_cons_self, hr⟩)
      | false => exact .inr (.inl ⟨hr.symm, rfl⟩)
    | _ => exact .inr (.inl ⟨rfl, rfl⟩)
  | stopLoop wasRunning mark =>
    cases p with
    | running =>
      cases wasRunning with
      | true => exact .inr (.inr (owed (by simp [streamExec])))
      | false => exact .inr (.inl ⟨rfl, rfl⟩)
    | graphRate =>
      by_cases zero : s.stream.graphRate = 0
      · exact .inr (.inl ⟨zero.symm, rfl⟩)
      · exact .inr (.inr (owed (by simp [streamExec, zero])))
    | _ => exact .inr (.inl ⟨rfl, rfl⟩)
  | setDeliverAudioBlocks deliver =>
    simp only [streamExec]
    split
    · exact .inr (.inl ⟨rfl, rfl⟩)
    · cases p with
      | deliverAudioBlocks => exact .inr (.inr (owed List.mem_cons_self))
      | _ => exact .inr (.inl ⟨rfl, rfl⟩)

/-- Whose handlers are to run again, as long as they do not. -/
theorem streamExec_restarted (outcome : StartOutcome) (i : StreamStmt) (s : StreamRun)
    {p : StreamProperty} (restarted : p ∈ s.emissions.restarted) :
    i.notifies s = some p ∨ p ∈ (streamExec outcome i s).1.emissions.restarted := by
  by_cases he : i.ofEmission = true
  · cases i with
    | notify property => exact .inr (Emissions.mem_restarted_emit.mpr (.inl restarted))
    | handlers notified =>
      cases notified with
      | none => exact .inr restarted
      | some property =>
        by_cases same : property = p
        · subst same
          exact .inl (if_pos (Emissions.handled_again.mpr restarted))
        · exact .inr (Emissions.mem_restarted_handled.mpr ⟨restarted, Ne.symm same⟩)
    | _ => cases he
  · rw [Bool.not_eq_true] at he
    rw [(streamExec_unemitted outcome s he).1]
    exact .inr restarted

theorem streamOwes_congr {s t : StreamRun} (same : t.emissions = s.emissions) (j : StreamStmt) :
    j.owes t = j.owes s := by
  funext p
  cases j with
  | handlers notified =>
    cases notified with
    | none => rfl
    | some property => simp only [StreamStmt.owes, same]
  | stopLoop => cases p <;> rfl
  | _ => rfl

theorem streamNotified_announced : streamNotified.Announced streamComponent StreamEmitting where
  call operation s r hr := by
    obtain ⟨sources, rfl⟩ := streamCall_eq hr
    exact ⟨rfl, rfl⟩
  exec := streamExec_notified
  owed outcome i s j p owes := by
    cases j with
    | handlers notified =>
      cases notified with
      | none => cases owes
      | some property =>
        obtain ⟨same, again⟩ : property = p ∧ (s.emissions.handled property).2 = true := by
          simpa [streamNotified, StreamStmt.owes] using owes
        subst same
        refine (streamExec_restarted outcome i s (Emissions.handled_again.mp again)).imp_right ?_
        intro restarted
        have again := Emissions.handled_again.mpr restarted
        simp [streamNotified, StreamStmt.owes, streamComponent, again]
    | stopLoop =>
      right
      cases p <;> exact owes
    | _ => exact .inr owes
  environment event s t ht := by
    obtain ⟨-, rfl⟩ := streamEnvironment_eq ht
    refine ⟨streamCallback_property event s, funext fun j => ?_⟩
    exact streamOwes_congr (streamCallback_emissions event s) j

/-- The parameter infos and the parameters are list models, which tell of their changes. -/
inductive ObjectProperty
  | running
  | bound
  | state
  | error
  | paramInfos
  | params
  deriving DecidableEq

abbrev ObjectProperty.Value : ObjectProperty → Type
  | .running | .bound => Bool
  | .state | .error => Option CString
  | .paramInfos => List ParamInfo
  | .params => List Param

def ObjectWrapper.property (s : ObjectWrapper) : (p : ObjectProperty) → p.Value
  | .running => s.running
  | .bound => s.bound
  | .state => s.state
  | .error => s.error
  | .paramInfos => s.paramInfos
  | .params => s.params

def ObjectStmt.notifies : ObjectStmt → Option ObjectProperty
  | .emit .notifyRunning => some .running
  | .emit .notifyBound => some .bound
  | .emit .notifyState => some .state
  | .emit .notifyError => some .error
  | .emit .paramInfosChanged => some .paramInfos
  | .emit .paramsChanged => some .params
  | _ => none

def objectNotified : Properties ObjectWrapper ObjectStmt ObjectProperty ObjectProperty.Value :=
  .atOnce ObjectWrapper.property ObjectStmt.notifies

theorem objectDispatch_notified (kind : ObjectKind) (event : ObjectEvent) (s : ObjectWrapper)
    (p : ObjectProperty) :
    (objectDispatch kind event s).1.property p = s.property p ∨
      ∃ j ∈ (objectDispatch kind event s).2, j.notifies = some p := by
  unfold objectDispatch
  split
  · exact .inl rfl
  · cases event.change with
    | info state paramInfos => exact .inl rfl
    | removed => exact .inl rfl
    | param param =>
      cases p with
      | params => exact .inr ⟨.emit .paramsChanged, by simp, rfl⟩
      | _ => exact .inl rfl

/-- A statement that changes a property goes on into its notification. -/
theorem objectExec_notified (kind : ObjectKind) (choice : ObjectChoice) (i : ObjectStmt)
    (s : ObjectWrapper) (p : ObjectProperty) :
    (objectExec kind choice i s).1.property p = s.property p ∨
      ∃ j ∈ (objectExec kind choice i s).2, j.notifies = some p := by
  cases i with
  | dispatch event => exact objectDispatch_notified kind event s p
  | updateState state error =>
    simp only [objectExec]
    split
    · cases p with
      | state => exact .inr ⟨.emit .notifyState, by simp, rfl⟩
      | _ => exact .inl rfl
    · exact .inl rfl
  | updateError error =>
    simp only [objectExec]
    split
    · cases p with
      | error => exact .inr ⟨.emit .notifyError, by simp, rfl⟩
      | _ => exact .inl rfl
    · exact .inl rfl
  | updateParamInfos paramInfos =>
    cases p with
    | paramInfos => exact .inr ⟨.emit .paramInfosChanged, List.mem_cons_self, rfl⟩
    | _ => exact .inl rfl
  | appendParamInfo paramInfo =>
    cases p with
    | paramInfos => exact .inr ⟨.emit .paramInfosChanged, List.mem_cons_self, rfl⟩
    | _ => exact .inl rfl
  | startProxies next =>
    simp only [objectExec]
    obtain ⟨hasRegistry, hasObject, hs⟩ | hs := objectStart_cases choice.result next s
    · rw [hs]
      exact .inl rfl
    · rw [hs]
      cases p with
      | running => exact .inr ⟨.emit .notifyRunning, by simp, rfl⟩
      | bound => exact .inr ⟨.emit .notifyBound, by simp, rfl⟩
      | _ => exact .inl rfl
  | stop =>
    simp only [objectExec, objectStopSession]
    split <;> exact .inl rfl
  | clearBound =>
    simp only [objectExec]
    split
    · cases p with
      | bound => exact .inr ⟨.emit .notifyBound, by simp, rfl⟩
      | _ => exact .inl rfl
    · exact .inl rfl
  | clearRunning =>
    simp only [objectExec]
    split
    · cases p with
      | running => exact .inr ⟨.emit .notifyRunning, by simp, rfl⟩
      | _ => exact .inl rfl
    · exact .inl rfl
  | clearState =>
    simp only [objectExec]
    split
    · cases p with
      | state => exact .inr ⟨.emit .notifyState, by simp, rfl⟩
      | _ => exact .inl rfl
    · exact .inl rfl
  | clearError =>
    simp only [objectExec]
    split
    · cases p with
      | error => exact .inr ⟨.emit .notifyError, by simp, rfl⟩
      | _ => exact .inl rfl
    · exact .inl rfl
  | clearParamInfos =>
    cases p with
    | paramInfos => exact .inr ⟨.emit .paramInfosChanged, List.mem_cons_self, rfl⟩
    | _ => exact .inl rfl
  | clearParams =>
    cases p with
    | params => exact .inr ⟨.emit .paramsChanged, List.mem_cons_self, rfl⟩
    | _ => exact .inl rfl
  | enumParams sync =>
    simp only [objectExec]
    split
    · exact .inl rfl
    · cases p with
      | params => exact .inr ⟨.emit .paramsChanged, by simp, rfl⟩
      | _ => exact .inl rfl
  | enumParamsCall sync =>
    simp only [objectExec, objectEnumParamsCall]
    split <;> exact .inl rfl
  | start next =>
    simp only [objectExec]
    split
    · exact .inl rfl
    · split <;> exact .inl rfl
  | connect | coreSync | syncEnter | coreConnectedNotify =>
    simp only [objectExec]
    split <;> exact .inl rfl
  | syncIterate slot request =>
    simp only [objectExec]
    split
    · exact .inl rfl
    · cases request <;> exact .inl rfl
  | _ => exact .inl rfl

theorem objectNotified_upToDate (kind : ObjectKind) (objectId : UInt32)
    {c : Config (ObjectWrapper × ((p : ObjectProperty) → p.Value)) ObjectStmt}
    (h : Reach ((objectComponent kind objectId).observed objectNotified.reader).step anyStep
      (objectNotified.readFirst {}) c) : objectNotified.UpToDate c.state c.code := by
  refine Properties.reach_atOnce ?_ (objectExec_notified kind) ?_ h
  · intro operation s r hr
    obtain ⟨⟨connected, queue, completed, same, -⟩, -⟩ := objectCall_eq hr
    rw [same]
    rfl
  · intro callback s t ht
    cases Option.some.inj ht
    show (objectReport kind objectId callback s).property = s.property
    unfold objectReport
    split <;> rfl

/-- The globals are a list model, which tells of its changes. -/
inductive RegistryProperty
  | running
  | globals
  deriving DecidableEq

abbrev RegistryProperty.Value : RegistryProperty → Type
  | .running => Bool
  | .globals => List Global

def Registry.property (s : Registry) : (p : RegistryProperty) → p.Value
  | .running => s.running
  | .globals => s.globals

def RegistryTask.notifies : RegistryTask → Option RegistryProperty
  | .emit .notifyRunning => some .running
  | .emit .itemsChanged => some .globals
  | _ => none

def registryNotified :
    Properties RegistrySession RegistryTask RegistryProperty RegistryProperty.Value :=
  .atOnce (fun s => s.registry.property) RegistryTask.notifies

theorem registryDispatch_notified (event : RegistryEvent) (s : RegistrySession)
    (p : RegistryProperty) :
    (registryDispatch event s).1.registry.property p = s.registry.property p ∨
      ∃ j ∈ (registryDispatch event s).2, j.notifies = some p := by
  unfold registryDispatch
  split
  · exact .inl rfl
  · split
    · split
      · cases p with
        | running => exact .inl rfl
        | globals => exact .inr ⟨.emit .itemsChanged, List.mem_cons_self, rfl⟩
      · exact .inl rfl
    · split
      · cases p with
        | running => exact .inl rfl
        | globals => exact .inr ⟨.emit .itemsChanged, List.mem_cons_self, rfl⟩
      · exact .inl rfl

theorem registryEndSession_notified (s : RegistrySession) (p : RegistryProperty) :
    (registryEndSession s).1.registry.property p = s.registry.property p ∨
      ∃ j ∈ (registryEndSession s).2, j.notifies = some p := by
  cases p with
  | running =>
    cases hr : s.registry.running with
    | true => exact .inr ⟨.emit .notifyRunning, by simp [registryEndSession, hr], rfl⟩
    | false => exact .inl hr.symm
  | globals => exact .inl rfl

theorem registryExecTask_notified (result : PipewireResult) (i : RegistryTask)
    (s : RegistrySession) (p : RegistryProperty) :
    (registryExecTask result i s).1.registry.property p = s.registry.property p ∨
      ∃ j ∈ (registryExecTask result i s).2, j.notifies = some p := by
  cases i with
  | dispatch event => exact registryDispatch_notified event s p
  | append global =>
    cases p with
    | running => exact .inl rfl
    | globals => exact .inr ⟨.emit .itemsChanged, List.mem_cons_self, rfl⟩
  | start sync =>
    simp only [registryExecTask]
    split
    · exact .inl rfl
    · split <;> exact .inl rfl
  | connect | coreSync =>
    simp only [registryExecTask]
    split <;> exact .inl rfl
  | startProxies sync =>
    simp only [registryExecTask, registryStart]
    split
    · exact .inl rfl
    · split
      · exact .inl rfl
      · cases p with
        | running => exact .inr ⟨.emit .notifyRunning, List.mem_cons_self, rfl⟩
        | globals => exact .inl rfl
  | stop =>
    simp only [registryExecTask, registryStopSession]
    split
    · exact .inl rfl
    · exact registryEndSession_notified _ p
  | coreConnectedNotify =>
    simp only [registryExecTask]
    split
    · exact .inl rfl
    · exact registryEndSession_notified _ p
  | clearGlobals =>
    cases p with
    | running => exact .inl rfl
    | globals => exact .inr ⟨.emit .itemsChanged, List.mem_cons_self, rfl⟩
  | _ => exact .inl rfl

theorem registryNotified_upToDate
    {c : Config (RegistrySession × ((p : RegistryProperty) → p.Value)) RegistryTask}
    (h : Reach (registryComponent.observed registryNotified.reader).step anyStep
      (registryNotified.readFirst {}) c) : registryNotified.UpToDate c.state c.code := by
  refine Properties.reach_atOnce ?_ registryExecTask_notified ?_ h
  · intro operation s r hr
    rw [(registryCall_eq hr).2.1]
  · intro callback s t ht
    cases Option.some.inj ht
    rfl

inductive MetadataProperty
  | running
  | bound
  deriving DecidableEq

def MetadataWrapper.property (s : MetadataWrapper) : MetadataProperty → Bool
  | .running => s.running
  | .bound => s.bound

def MetadataStmt.notifies : MetadataStmt → Option MetadataProperty
  | .emit .notifyRunning => some .running
  | .emit .notifyBound => some .bound
  | _ => none

def metadataNotified :
    Properties MetadataWrapper MetadataStmt MetadataProperty (fun _ => Bool) :=
  .atOnce MetadataWrapper.property MetadataStmt.notifies

theorem metadataBind_notified (result : PipewireResult) (id : UInt32) (s : MetadataWrapper)
    (p : MetadataProperty) :
    (s.bind result id).1.property p = s.property p ∨
      ∃ j ∈ (s.bind result id).2, j.notifies = some p := by
  rcases MetadataWrapper.bind_cases result id s with same | ⟨-, bound⟩
  · rw [same]
    exact .inl rfl
  · rw [bound]
    cases p with
    | running => exact .inl rfl
    | bound => exact .inr ⟨.emit .notifyBound, List.mem_cons_self, rfl⟩

theorem metadataDestroyBoundProxy_notified (s : MetadataWrapper) (p : MetadataProperty) :
    s.destroyBoundProxy.1.property p = s.property p ∨
      ∃ j ∈ s.destroyBoundProxy.2, j.notifies = some p := by
  cases p with
  | running => exact .inl rfl
  | bound =>
    cases hb : s.bound with
    | true =>
      exact .inr ⟨.emit .notifyBound, by simp [MetadataWrapper.destroyBoundProxy, hb], rfl⟩
    | false => exact .inl hb.symm

theorem metadataExec_notified (choice : MetadataChoice) (i : MetadataStmt) (s : MetadataWrapper)
    (p : MetadataProperty) :
    (MetadataWrapper.exec choice i s).1.property p = s.property p ∨
      ∃ j ∈ (MetadataWrapper.exec choice i s).2, j.notifies = some p := by
  cases i with
  | dispatch event =>
    simp only [MetadataWrapper.exec, MetadataWrapper.dispatchEvent]
    split
    · exact .inl rfl
    · cases event.news with
      | found id version => exact metadataBind_notified choice.result id s p
      | removed id =>
        dsimp only
        split
        · exact metadataDestroyBoundProxy_notified s p
        · exact .inl rfl
      | changed proxy change => exact .inl (by cases p <;> rfl)
  | start sync =>
    simp only [MetadataWrapper.exec]
    split
    · exact .inl rfl
    · split <;> exact .inl rfl
  | connect | coreSync | syncEnter | syncIterate =>
    simp only [MetadataWrapper.exec]
    split <;> exact .inl rfl
  | startRegistry sync =>
    simp only [MetadataWrapper.exec, MetadataWrapper.startRegistry]
    split
    · exact .inl rfl
    · split
      · exact .inl rfl
      · cases p with
        | running => exact .inr ⟨.emit .notifyRunning, List.mem_cons_self, rfl⟩
        | bound => exact .inl rfl
  | stop =>
    simp only [MetadataWrapper.exec, MetadataWrapper.stop]
    split <;> exact .inl rfl
  | coreConnectedNotify =>
    simp only [MetadataWrapper.exec]
    split
    · exact .inl rfl
    · cases p with
      | running => exact .inl rfl
      | bound =>
        cases hb : s.bound with
        | true => exact .inr ⟨.emit .notifyBound, by simp [MetadataWrapper.reset, hb], rfl⟩
        | false => exact .inl hb.symm
  | destroyBoundProxy => exact metadataDestroyBoundProxy_notified s p
  | clearRunning =>
    cases p with
    | running =>
      cases hr : s.running with
      | true => exact .inr ⟨.emit .notifyRunning, by simp [MetadataWrapper.exec, hr], rfl⟩
      | false => exact .inl hr.symm
    | bound => exact .inl rfl
  | _ => exact .inl (by cases p <;> rfl)

theorem metadataCall_property {operation : MetadataCall}
    {s : MetadataWrapper} {r : MetadataWrapper × List MetadataStmt}
    (hr : MetadataWrapper.call operation s = some r) : r.1.property = s.property := by
  cases operation with
  | iterate =>
    simp only [MetadataWrapper.call] at hr
    split at hr <;> cases hr <;> rfl
  | clear result =>
    cases Option.some.inj hr
    show (s.clear result).1.property = s.property
    unfold MetadataWrapper.clear
    split <;> rfl
  | _ =>
    cases Option.some.inj hr
    rfl

theorem metadataNotified_upToDate (name : CString)
    {c : Config (MetadataWrapper × (MetadataProperty → Bool)) MetadataStmt}
    (h : Reach ((metadataComponent name).observed metadataNotified.reader).step anyStep
      (metadataNotified.readFirst {}) c) : metadataNotified.UpToDate c.state c.code := by
  refine Properties.reach_atOnce (fun _ _ _ => metadataCall_property) metadataExec_notified ?_ h
  intro callback s t ht
  simp only [metadataComponent, MetadataWrapper.report] at ht
  split at ht
  next =>
    cases Option.some.inj ht
    rfl
  next => simp at ht

/-- No property changes silently, whatever handlers call: who reads a property of a stream, node,
device, link, registry or metadata whenever its change is notified has read what it is, or a
notification of it is left to run. -/
theorem properties_notified :
    (∀ c, Reach (streamComponent.observed streamNotified.reader).step anyStep
      (streamNotified.readFirst {}) c → streamNotified.UpToDate c.state c.code) ∧
    (∀ kind objectId c, Reach ((objectComponent kind objectId).observed objectNotified.reader).step
      anyStep (objectNotified.readFirst {}) c → objectNotified.UpToDate c.state c.code) ∧
    (∀ c, Reach (registryComponent.observed registryNotified.reader).step anyStep
      (registryNotified.readFirst {}) c → registryNotified.UpToDate c.state c.code) ∧
    (∀ name c, Reach ((metadataComponent name).observed metadataNotified.reader).step anyStep
      (metadataNotified.readFirst {}) c → metadataNotified.UpToDate c.state c.code) :=
  ⟨fun _ h => streamNotified_announced.reach streamEmitting_preserves streamEmitting_init h,
    fun kind objectId _ => objectNotified_upToDate kind objectId,
    fun _ => registryNotified_upToDate, fun name _ => metadataNotified_upToDate name⟩

/-- A handler of `notify::rate` stops the stream, which has not told of its channels yet. -/
def stoppedWhileNotifying :
    Config (StreamRun × ((p : StreamProperty) → p.Value)) StreamStmt :=
  final (streamComponent.observed streamNotified.reader).step (streamNotified.readFirst {})
    (.call .start :: List.replicate 4 (.run .started) ++
      [.environment (.queueFormat ⟨"F32", 48000, 2, 4⟩), .call .iterate] ++
      List.replicate 3 (.run .started) ++ .call .stop :: List.replicate 2 (.run .started))

theorem properties_notified_stoppedWhileNotifying :
    stoppedWhileNotifying.state.2 .running = true ∧
      stoppedWhileNotifying.state.1.stream.running = false ∧
      stoppedWhileNotifying.state.2 .rate = (48000 : UInt32) ∧
      stoppedWhileNotifying.state.2 .channels = (0 : UInt32) ∧
      streamNotified.UpToDate stoppedWhileNotifying.state stoppedWhileNotifying.code :=
  ⟨by decide +kernel, by decide +kernel, by decide +kernel, by decide +kernel,
    properties_notified.1 stoppedWhileNotifying (reach_final (allAllowed_anyStep _ _))⟩

end PipewireGobject
