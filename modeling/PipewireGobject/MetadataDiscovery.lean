import PipewireGobject.MetadataWrapper
import PipewireGobject.Presence
import PipewireGobject.Recording

namespace PipewireGobject

/-- What a registry callback says about the metadata objects that carry a name. -/
def metadataPresence (name : CString) : MetadataCallback → Option (Presence UInt32)
  | .global id _ type _ props =>
    if type = some interfaceMetadata ∧ metadataLookupSpaDict props keyMetadataName = some name then
      some (.appears id)
    else none
  | .globalRemove id => some (.disappears id)
  | .property _ => none

def MetadataCallback.fromRegistry : MetadataCallback → Bool
  | .property _ => false
  | _ => true

abbrev MetadataLabel := Label MetadataCall MetadataChoice MetadataCallback

def registryCallbacks : MetadataLabel → List MetadataCallback
  | .environment callback => if callback.fromRegistry then [callback] else []
  | _ => []

/-- A wrapper with the registry callbacks that it has had. -/
abbrev MetadataHistory := Config MetadataWrapper MetadataStmt × List MetadataCallback

def metadataSession (name : CString) : MetadataHistory → MetadataLabel → Option MetadataHistory :=
  recording (metadataComponent name).step registryCallbacks

/-- The session goes on, and every bind succeeds. -/
def InSession (_ : MetadataHistory) : MetadataLabel → Prop
  | .call .stop => False
  | .call (.setConnected connected) => connected = true
  | .run choice => choice.result ≠ .bindFailed ∧ choice.result ≠ .addListenerFailed
  | _ => True

instance (c : MetadataHistory) : (label : MetadataLabel) → Decidable (InSession c label)
  | .call .stop => inferInstanceAs (Decidable False)
  | .call (.setConnected connected) => inferInstanceAs (Decidable (connected = true))
  | .run choice => inferInstanceAs (Decidable (choice.result ≠ _ ∧ choice.result ≠ _))
  | .call .iterate | .call .start | .call .sync | .call (.set _) | .call (.clear _)
  | .call .coreConnectedNotify | .environment _ => .isTrue trivial

/-- What `pwg_metadata_start` leaves where nothing else runs. Events of earlier sessions may
still be queued. -/
structure SessionStarts (s : MetadataWrapper) : Prop where
  running : s.running = true
  connected : s.connected = true
  registry : s.hasRegistry = true
  unbound : s.bound = false
  proxy : s.hasMetadata = false
  stale : ∀ e, .event e ∈ s.queue → e.generation ≠ s.generation

def MetadataStmt.dispatches : MetadataStmt → Option MetadataEvent
  | .dispatch event => some event
  | _ => none

def MetadataSource.queued : MetadataSource → Option MetadataEvent
  | .event e => some e
  | .completion _ => none

/-- Every event has been dispatched. -/
def AllDispatched (c : Config MetadataWrapper MetadataStmt) : Prop :=
  (∀ i ∈ c.code, i.dispatches = none) ∧ ∀ source ∈ c.state.queue, source.queued = none

/-- A metadata global with the name has been announced, and not been removed since. -/
def LiveMetadata (name : CString) (history : List MetadataCallback) (id : UInt32) : Prop :=
  ∃ before announcement after, history = before ++ announcement :: after ∧
    metadataPresence name announcement = some (.appears id) ∧ .globalRemove id ∉ after

structure BoundToLive (name : CString) (history : List MetadataCallback) (s : MetadataWrapper) :
    Prop where
  bound : s.bound = true ↔ ∃ id, LiveMetadata name history id
  live : s.bound = true → LiveMetadata name history s.metadataId

/-- Statements that neither end a session nor dispatch. -/
def MetadataStmt.still : MetadataStmt → Bool
  | .dispatch _ | .startRegistry _ | .stop | .destroyBoundProxy | .destroyRegistry
  | .clearRunning => false
  | _ => true

def MetadataEvent.presence (generation : UInt32) (event : MetadataEvent) :
    Option (Presence UInt32) :=
  if event.generation = generation then
    match event.news with
    | .found id _ => some (.appears id)
    | .removed id => some (.disappears id)
    | .changed _ _ => none
  else none

def MetadataWrapper.boundId (s : MetadataWrapper) : Option UInt32 :=
  if s.bound then some s.metadataId else none

/-- What the queue still has to tell. -/
def MetadataWrapper.untold (s : MetadataWrapper) : List (Presence UInt32) :=
  (s.queue.filterMap MetadataSource.queued).filterMap (MetadataEvent.presence s.generation)

def MetadataStmt.tells (s : MetadataWrapper) (i : MetadataStmt) : Option (Presence UInt32) :=
  i.dispatches.bind (MetadataEvent.presence s.generation)

variable {name : CString} {s t : MetadataWrapper} {code rest : List MetadataStmt}
  {i : MetadataStmt} {history : List MetadataCallback} {choice : MetadataChoice}
  {event : MetadataEvent} {result : PipewireResult}

structure InRunningSession (s : MetadataWrapper) : Prop where
  running : s.running = true
  connected : s.connected = true
  registry : s.hasRegistry = true
  proxy : s.hasMetadata = s.bound

/-- What a statement does in a session, where it tells that something has come or gone. -/
structure SessionStep (s t : MetadataWrapper) (rest : List MetadataStmt)
    (told : Option (Presence UInt32)) : Prop where
  session : InRunningSession t
  generation : t.generation = s.generation
  queue : t.queue.filterMap MetadataSource.queued = s.queue.filterMap MetadataSource.queued
  bound : t.boundId = told.toList.foldl Presence.hold s.boundId
  still : ∀ j ∈ rest, j.still = true

/-- A statement that leaves the binding alone. -/
theorem SessionStep.leave (h : InRunningSession s)
    (same : t.running = s.running ∧ t.connected = s.connected ∧ t.hasRegistry = s.hasRegistry ∧
      t.hasMetadata = s.hasMetadata ∧ t.generation = s.generation)
    (binding : t.bound = s.bound ∧ t.metadataId = s.metadataId)
    (queue : t.queue.filterMap MetadataSource.queued = s.queue.filterMap MetadataSource.queued)
    (still : ∀ j ∈ rest, j.still = true) : SessionStep s t rest none := by
  obtain ⟨running, connected, registry, proxy, generation⟩ := same
  exact {
    session := ⟨running.trans h.running, connected.trans h.connected, registry.trans h.registry,
      by rw [proxy, binding.1, h.proxy]⟩
    generation := generation
    queue := queue
    bound := by
      rw [MetadataWrapper.boundId, binding.1, binding.2]
      rfl
    still := still }

theorem bind_told (h : InRunningSession s) (id : UInt32)
    (succeeds : result ≠ .bindFailed ∧ result ≠ .addListenerFailed) :
    SessionStep s (s.bind result id).1 (s.bind result id).2 (some (.appears id)) := by
  unfold MetadataWrapper.bind
  split
  next taken =>
    have bound : s.bound = true := by simpa [h.proxy] using taken
    refine ⟨h, rfl, rfl, ?_, by simp⟩
    simp [MetadataWrapper.boundId, bound, Presence.hold]
  next free =>
    have unbound : s.bound = false := by simpa [h.proxy] using free
    rw [if_neg (by simp [h.connected, h.registry])]
    split
    next => exact absurd rfl succeeds.1
    next => exact absurd rfl succeeds.2
    next =>
      refine ⟨⟨h.running, h.connected, h.registry, rfl⟩, rfl, rfl, ?_, by simp [MetadataStmt.still]⟩
      simp [MetadataWrapper.boundId, unbound, Presence.hold]

theorem removed_told (h : InRunningSession s) (id : UInt32) :
    SessionStep s (if s.metadataId = id then s.destroyBoundProxy else (s, [])).1
      (if s.metadataId = id then s.destroyBoundProxy else (s, [])).2 (some (.disappears id)) := by
  split
  next he =>
    refine ⟨⟨h.running, h.connected, h.registry, rfl⟩, rfl, rfl, ?_, ?_⟩
    · cases hb : s.bound <;>
        simp [MetadataWrapper.boundId, MetadataWrapper.destroyBoundProxy, Presence.hold, hb, he]
    · cases hb : s.bound <;> simp [MetadataWrapper.destroyBoundProxy, MetadataStmt.still, hb]
  next other =>
    refine ⟨h, rfl, rfl, ?_, by simp⟩
    cases hb : s.bound <;> simp [MetadataWrapper.boundId, Presence.hold, hb, other]

theorem dispatch_told (h : InRunningSession s)
    (succeeds : result ≠ .bindFailed ∧ result ≠ .addListenerFailed) :
    SessionStep s (s.dispatchEvent result event).1 (s.dispatchEvent result event).2
      (event.presence s.generation) := by
  unfold MetadataWrapper.dispatchEvent MetadataEvent.presence
  by_cases hg : event.generation = s.generation
  · rw [if_neg (by simp [h.running, hg]), if_pos hg]
    cases event.news with
    | found id version => exact bind_told h id succeeds
    | removed id => exact removed_told h id
    | changed proxy change =>
      refine .leave h ⟨rfl, rfl, rfl, rfl, rfl⟩ ⟨rfl, rfl⟩ rfl ?_
      simp [MetadataStmt.still]
  · rw [if_pos (.inr hg), if_neg hg]
    refine .leave h ⟨rfl, rfl, rfl, rfl, rfl⟩ ⟨rfl, rfl⟩ rfl ?_
    simp

theorem exec_told (choice : MetadataChoice) (h : InRunningSession s)
    (next : i.still = true ∨ i.dispatches ≠ none)
    (succeeds : choice.result ≠ .bindFailed ∧ choice.result ≠ .addListenerFailed) :
    SessionStep s (MetadataWrapper.exec choice i s).1 (MetadataWrapper.exec choice i s).2
      (i.tells s) := by
  have leaves : ∀ later : List MetadataStmt,
      (∀ j ∈ later, j.still = true) → SessionStep s s later none :=
    fun _ still => .leave h ⟨rfl, rfl, rfl, rfl, rfl⟩ ⟨rfl, rfl⟩ rfl still
  cases i with
  | dispatch event => exact dispatch_told h succeeds
  | startRegistry sync | stop | destroyBoundProxy | destroyRegistry | clearRunning =>
    simp [MetadataStmt.still, MetadataStmt.dispatches] at next
  | handlers | emit signal | sync =>
    refine leaves _ ?_
    simp [MetadataWrapper.exec, MetadataStmt.still]
  | connect =>
    simp only [MetadataWrapper.exec, h.connected]
    exact leaves _ (by simp)
  | start sync =>
    simp only [MetadataWrapper.exec, h.running]
    refine leaves _ ?_
    cases sync <;> simp [MetadataStmt.still]
  | coreSync again =>
    simp only [MetadataWrapper.exec, h.connected]
    exact leaves _ (by simp [MetadataStmt.still])
  | syncEnter again =>
    simp only [MetadataWrapper.exec]
    rw [if_neg (by simp [h.connected])]
    refine .leave h ⟨rfl, rfl, rfl, rfl, rfl⟩ ⟨rfl, rfl⟩ rfl ?_
    simp [MetadataStmt.still]
  | syncWait slot again =>
    refine .leave h ⟨rfl, rfl, rfl, rfl, rfl⟩ ⟨rfl, rfl⟩ ?_ ?_
    · simp [MetadataWrapper.exec, MetadataSource.queued]
    · simp only [MetadataWrapper.exec]
      split <;> simp [MetadataStmt.still]
  | syncIterate slot again =>
    simp only [MetadataWrapper.exec]
    split
    · exact leaves _ (by simp [MetadataStmt.still])
    · refine leaves _ ?_
      split <;> simp [MetadataStmt.still]
  | coreConnectedNotify =>
    simp only [MetadataWrapper.exec, h.connected]
    exact leaves _ (by simp)
  | clearEntries =>
    refine .leave h ⟨rfl, rfl, rfl, rfl, rfl⟩ ⟨rfl, rfl⟩ rfl ?_
    simp [MetadataWrapper.exec]

/-- What is still to be told, to the statement that dispatches and by the queue, leads from what
is bound to what the registry callbacks so far ask for. -/
structure DiscoveryInv (name : CString) (s : MetadataWrapper) (code : List MetadataStmt)
    (history : List MetadataCallback) : Prop where
  session : InRunningSession s
  next : ∀ i ∈ code, i.still = true ∨ i.dispatches ≠ none
  later : ∀ i ∈ code.tail, i.still = true
  tracked : (code.filterMap (MetadataStmt.tells s) ++ s.untold).foldl Presence.hold s.boundId =
    Presence.held (history.filterMap (metadataPresence name))

theorem still_dispatches (h : i.still = true) : i.dispatches = none := by
  cases i with
  | dispatch event => cases h
  | _ => rfl

theorem still_tells (h : i.still = true) : i.tells s = none := by
  rw [MetadataStmt.tells, still_dispatches h]
  rfl

theorem stillTells (h : ∀ j ∈ code, j.still = true) : code.filterMap (MetadataStmt.tells s) = [] :=
  List.filterMap_eq_nil_iff.mpr fun j hj => still_tells (h j hj)

theorem DiscoveryInv.run (h : DiscoveryInv name s (i :: rest) history)
    (succeeds : choice.result ≠ .bindFailed ∧ choice.result ≠ .addListenerFailed) :
    DiscoveryInv name (MetadataWrapper.exec choice i s).1
      ((MetadataWrapper.exec choice i s).2 ++ rest) history := by
  have told := exec_told choice h.session (h.next i List.mem_cons_self) succeeds
  have still : ∀ j ∈ (MetadataWrapper.exec choice i s).2 ++ rest, j.still = true := by
    intro j hj
    rcases List.mem_append.mp hj with hj | hj
    · exact told.still j hj
    · exact h.later j hj
  have quiet : rest.filterMap (MetadataStmt.tells s) = [] := stillTells h.later
  have tracked := h.tracked
  rw [List.filterMap_cons, quiet] at tracked
  exact {
    session := told.session
    next := fun j hj => .inl (still j hj)
    later := fun j hj => still j (List.mem_of_mem_tail hj)
    tracked := by
      rw [stillTells still, ← tracked, told.bound, List.nil_append, MetadataWrapper.untold,
        told.queue, told.generation]
      cases i.tells s <;> rfl }

theorem DiscoveryInv.call {operation : MetadataCall} {r : MetadataWrapper × List MetadataStmt}
    (h : DiscoveryInv name s code history)
    (control : (metadataComponent name).applicationRuns code = true)
    (ha : InSession (⟨s, code⟩, history) (.call operation)) (hr : s.call operation = some r) :
    DiscoveryInv name r.1 (r.2 ++ code) history := by
  have still : ∀ i ∈ code, i.still = true := by
    intro i hi
    cases code with
    | nil => cases hi
    | cons j rest =>
      rcases List.mem_cons.mp hi with rfl | hi
      · cases i with
        | dispatch _ => cases control
        | _ => exact (h.next _ List.mem_cons_self).resolve_right fun hd => hd rfl
      · exact h.later i hi
  have tracked := h.tracked
  rw [stillTells still, List.nil_append] at tracked
  have push : ∀ i, i.still = true → DiscoveryInv name s ([i] ++ code) history := by
    intro i hi
    have more : ∀ j ∈ [i] ++ code, j.still = true := by simpa [hi] using still
    exact ⟨h.session, fun j hj => .inl (more j hj), still, by
      rw [stillTells more]
      exact tracked⟩
  have keep : ∀ t : MetadataWrapper, InRunningSession t → t.boundId = s.boundId →
      t.untold = s.untold → DiscoveryInv name t code history := by
    intro t session bound untold
    refine ⟨session, h.next, h.later, ?_⟩
    rw [stillTells still, bound, untold]
    exact tracked
  cases operation with
  | iterate =>
    simp only [MetadataWrapper.call] at hr
    split at hr
    next => cases hr
    next e queue hq =>
      cases hr
      refine ⟨⟨h.session.running, h.session.connected, h.session.registry, h.session.proxy⟩,
        ?_, still, ?_⟩
      · intro j hj
        rcases List.mem_cons.mp hj with rfl | hj
        · exact .inr (by simp [MetadataStmt.dispatches])
        · exact .inl (still j hj)
      · rw [← tracked, List.singleton_append, List.filterMap_cons, stillTells still]
        simp only [MetadataWrapper.untold, hq, List.filterMap_cons, MetadataSource.queued,
          MetadataStmt.tells, MetadataStmt.dispatches, Option.bind_some]
        cases e.presence s.generation <;> rfl
    next slot queue hq =>
      cases hr
      refine keep _ ⟨h.session.running, h.session.connected, h.session.registry, h.session.proxy⟩
        rfl ?_
      rw [MetadataWrapper.untold, MetadataWrapper.untold, hq]
      rfl
  | start | sync | coreConnectedNotify =>
    cases hr
    exact push _ rfl
  | stop => cases ha
  | set result =>
    cases hr
    exact h
  | clear result =>
    cases hr
    simp only [MetadataWrapper.clear, List.nil_append]
    split
    · exact h
    · exact keep _ ⟨h.session.running, h.session.connected, h.session.registry, h.session.proxy⟩
        rfl rfl
  | setConnected connected =>
    cases hr
    exact keep _ ⟨h.session.running, ha, h.session.registry, h.session.proxy⟩ rfl rfl

/-- The event that a callback queues. -/
def MetadataWrapper.reported (name : CString) (callback : MetadataCallback) (s : MetadataWrapper) :
    Option MetadataEvent :=
  (s.onCallback name callback).map fun news => ⟨s.generation, news⟩

theorem reported_presence (name : CString) (callback : MetadataCallback) (s : MetadataWrapper) :
    (s.reported name callback).toList.filterMap (MetadataEvent.presence s.generation) =
      (registryCallbacks (.environment callback)).filterMap (metadataPresence name) := by
  cases callback with
  | global id permissions type version props =>
    simp only [MetadataWrapper.reported, MetadataWrapper.onCallback, registryCallbacks,
      MetadataCallback.fromRegistry]
    by_cases ht : type = some interfaceMetadata
    · by_cases hn : metadataLookupSpaDict props keyMetadataName = some name
      · simp [ht, hn, MetadataEvent.presence, metadataPresence]
      · simp [ht, hn, metadataPresence]
    · simp [ht, metadataPresence]
  | globalRemove id =>
    simp [MetadataWrapper.reported, MetadataWrapper.onCallback, registryCallbacks,
      metadataPresence, MetadataCallback.fromRegistry, MetadataEvent.presence]
  | property change =>
    simp [MetadataWrapper.reported, MetadataWrapper.onCallback, registryCallbacks,
      MetadataCallback.fromRegistry, MetadataEvent.presence]

theorem DiscoveryInv.environment {callback : MetadataCallback}
    (h : DiscoveryInv name s code history)
    (ht : s.report name callback = some t) :
    DiscoveryInv name t code (history ++ registryCallbacks (.environment callback)) := by
  simp only [MetadataWrapper.report] at ht
  split at ht
  next =>
    cases ht
    refine ⟨⟨h.session.running, h.session.connected, h.session.registry, h.session.proxy⟩,
      h.next, h.later, ?_⟩
    have queued : ((s.onCallback name callback).map fun news =>
        (.event ⟨s.generation, news⟩ : MetadataSource)).toList.filterMap MetadataSource.queued =
        (s.reported name callback).toList := by
      unfold MetadataWrapper.reported
      cases s.onCallback name callback <;> rfl
    have untold : ((s.queue ++ ((s.onCallback name callback).map fun news =>
        (.event ⟨s.generation, news⟩ : MetadataSource)).toList).filterMap
          MetadataSource.queued).filterMap (MetadataEvent.presence s.generation) =
        s.untold ++ (registryCallbacks (.environment callback)).filterMap
          (metadataPresence name) := by
      rw [List.filterMap_append, List.filterMap_append, queued, reported_presence]
      rfl
    rw [MetadataWrapper.untold, untold, ← List.append_assoc, List.foldl_append]
    refine (congrArg (fun b => List.foldl _ b _) h.tracked).trans ?_
    rw [List.filterMap_append, Presence.held, Presence.held, List.foldl_append]
  next => cases ht

theorem discoveryInv_reach {c : MetadataHistory} (start : SessionStarts s)
    (h : Reach (metadataSession name) InSession (⟨s, []⟩, []) c) :
    DiscoveryInv name c.1.state c.1.code c.2 := by
  refine h.invariant (I := fun c => DiscoveryInv name c.1.state c.1.code c.2) ?_ ?_
  · refine ⟨⟨start.running, start.connected, start.registry, ?_⟩, by simp, by simp, ?_⟩
    · rw [start.proxy, start.unbound]
    · have untold : s.untold = [] := by
        refine List.filterMap_eq_nil_iff.mpr fun e he => ?_
        obtain ⟨source, hs, hq⟩ := List.mem_filterMap.mp he
        cases source with
        | completion slot => cases hq
        | event e' =>
          cases hq
          exact if_neg (start.stale e hs)
      rw [untold, MetadataWrapper.boundId, start.unbound]
      rfl
  · rintro ⟨⟨s, code⟩, history⟩ label ⟨d, history'⟩ inv ha hs
    obtain ⟨hstep, rfl⟩ := recording_eq hs
    cases label with
    | call operation =>
      obtain ⟨control, r, hr, rfl⟩ := Component.step_call hstep
      simp only [registryCallbacks, List.append_nil]
      exact inv.call control ha hr
    | run choice =>
      obtain ⟨i, rest, hcode, rfl⟩ := Component.step_run hstep
      cases hcode
      simp only [registryCallbacks, List.append_nil]
      exact inv.run ha
    | environment callback =>
      obtain ⟨t, ht, rfl⟩ := Component.step_environment hstep
      exact inv.environment ht

theorem presence_disappears {callback : MetadataCallback} {id : UInt32} :
    metadataPresence name callback = some (.disappears id) ↔ callback = .globalRemove id := by
  cases callback with
  | global _ _ type _ props =>
    simp only [metadataPresence]
    split <;> simp
  | globalRemove k => simp [metadataPresence]
  | property change => simp [metadataPresence]

theorem liveMetadata_iff {id : UInt32} : LiveMetadata name history id ↔
    id ∈ Presence.present (history.filterMap (metadataPresence name)) := by
  rw [Presence.mem_present]
  constructor
  · rintro ⟨before, announcement, after, rfl, appears, stays⟩
    refine ⟨before.filterMap (metadataPresence name), after.filterMap (metadataPresence name),
      by simp [appears], fun hd => stays ?_⟩
    obtain ⟨callback, hc, he⟩ := List.mem_filterMap.mp hd
    rwa [← presence_disappears.mp he]
  · rintro ⟨before, after, he, stays⟩
    obtain ⟨first, last, rfl, -, hl⟩ := List.filterMap_eq_append_iff.mp he
    obtain ⟨quiet, announcement, later, rfl, -, appears, rfl⟩ := List.filterMap_eq_cons_iff.mp hl
    refine ⟨first ++ quiet, announcement, later, by simp, appears, fun hm => stays ?_⟩
    exact List.mem_filterMap.mpr ⟨_, hm, rfl⟩

theorem boundToLive_iff (h : DiscoveryInv name s code history)
    (dispatched : AllDispatched ⟨s, code⟩) : BoundToLive name history s ↔
    Presence.HoldsPresent (history.filterMap (metadataPresence name)) := by
  have tells : code.filterMap (MetadataStmt.tells s) = [] := by
    refine List.filterMap_eq_nil_iff.mpr fun i hi => ?_
    rw [MetadataStmt.tells, dispatched.1 i hi]
    rfl
  have untold : s.untold = [] := by
    rw [MetadataWrapper.untold, List.filterMap_eq_nil_iff.mpr dispatched.2]
    rfl
  have held : s.boundId = Presence.held (history.filterMap (metadataPresence name)) := by
    simpa [tells, untold] using h.tracked
  have some_live : (∃ id, LiveMetadata name history id) ↔
      Presence.present (history.filterMap (metadataPresence name)) ≠ [] := by
    simp only [liveMetadata_iff]
    constructor
    · rintro ⟨id, hid⟩
      exact List.ne_nil_of_mem hid
    · exact List.exists_mem_of_ne_nil _
  rw [Presence.HoldsPresent, ← held, ← some_live]
  cases hb : s.bound with
  | false =>
    have unbound : s.boundId = none := by rw [MetadataWrapper.boundId, hb]; rfl
    constructor
    · intro h
      simpa [unbound, hb] using h.bound
    · intro h
      exact ⟨by simpa [unbound, hb] using h.1, by simp [hb]⟩
  | true =>
    have bound : s.boundId = some s.metadataId := by rw [MetadataWrapper.boundId, hb]; rfl
    constructor
    · intro h
      refine ⟨by simpa [bound, hb] using h.bound, fun id hid => ?_⟩
      rw [bound] at hid
      cases hid
      exact liveMetadata_iff.mp (h.live hb)
    · intro h
      exact ⟨by simpa [bound, hb] using h.1, fun _ => liveMetadata_iff.mpr (h.2 _ bound)⟩

/-- Statements that end after a step or two. -/
def MetadataStmt.passing : MetadataStmt → Bool
  | .handlers | .emit _ | .clearEntries => true
  | _ => false

theorem reach_take {c d e : MetadataHistory} (label : MetadataLabel)
    (h : Reach (metadataSession name) InSession c d) (ha : InSession d label)
    (hs : (metadataComponent name).step d.1 label = some e.1)
    (observed : e.2 = d.2 ++ registryCallbacks label) :
    Reach (metadataSession name) InSession c e := by
  refine .next h ha ?_
  rw [metadataSession, recording_some hs, ← observed]

theorem reach_run {c : MetadataHistory}
    (h : Reach (metadataSession name) InSession c (⟨s, i :: rest⟩, history)) :
    Reach (metadataSession name) InSession c
      (⟨(MetadataWrapper.exec {} i s).1, (MetadataWrapper.exec {} i s).2 ++ rest⟩, history) :=
  reach_take (.run {}) h (by simp [InSession]) rfl (List.append_nil history).symm

/-- Statements that pass are run to their end. -/
theorem reach_passed {c : MetadataHistory} (passing : ∀ i ∈ code, i.passing = true)
    (h : Reach (metadataSession name) InSession c (⟨s, code⟩, history)) :
    ∃ t : MetadataWrapper, t.queue = s.queue ∧
      Reach (metadataSession name) InSession c (⟨t, []⟩, history) := by
  induction code generalizing s with
  | nil => exact ⟨s, rfl, h⟩
  | cons i rest ih =>
    have later : ∀ j ∈ rest, j.passing = true := fun j hj => passing j (List.mem_cons_of_mem i hj)
    have first := passing i List.mem_cons_self
    cases i with
    | handlers => exact ih later (reach_run h)
    | emit signal => exact ih later (reach_run (reach_run h))
    | clearEntries =>
      obtain ⟨t, ht, hr⟩ := ih later (reach_run h)
      exact ⟨t, ht, hr⟩
    | _ => cases first

theorem dispatch_passes (event : MetadataEvent) (s : MetadataWrapper) :
    (∀ i ∈ (s.dispatchEvent .succeeded event).2, i.passing = true) ∧
      (s.dispatchEvent .succeeded event).1.queue = s.queue := by
  unfold MetadataWrapper.dispatchEvent
  split
  next => simp
  next =>
    cases event.news with
    | found id version =>
      rcases MetadataWrapper.bind_cases .succeeded id s with he | ⟨-, he⟩ <;>
        simp [he, MetadataStmt.passing]
    | removed id =>
      simp only
      split
      · cases hb : s.bound <;> simp [MetadataWrapper.destroyBoundProxy, MetadataStmt.passing, hb]
      · simp
    | changed proxy change => simp [MetadataWrapper.cacheChange, MetadataStmt.passing]

/-- The main context is iterated until its queue is empty. -/
theorem reach_drained {c : MetadataHistory} {queue : List MetadataSource} (hq : s.queue = queue)
    (h : Reach (metadataSession name) InSession c (⟨s, []⟩, history)) :
    ∃ t : MetadataWrapper, t.queue = [] ∧
      Reach (metadataSession name) InSession c (⟨t, []⟩, history) := by
  induction queue generalizing s with
  | nil => exact ⟨s, hq, h⟩
  | cons source queue ih =>
    have iterate : ∀ r, s.call .iterate = some r →
        Reach (metadataSession name) InSession c (⟨r.1, r.2⟩, history) := by
      intro r hr
      refine reach_take (.call .iterate) h trivial ?_ (List.append_nil history).symm
      simp [Component.step, Component.applicationRuns, metadataComponent, hr]
    cases source with
    | completion slot =>
      refine ih ?_ (iterate ({ s with queue := queue, completed := slot :: s.completed }, []) ?_)
      · rfl
      · simp [MetadataWrapper.call, hq]
    | event event =>
      have dispatched := reach_run (iterate ({ s with queue := queue }, [.dispatch event])
        (by simp [MetadataWrapper.call, hq]))
      rw [List.append_nil] at dispatched
      obtain ⟨passing, same⟩ := dispatch_passes event { s with queue := queue }
      obtain ⟨t, ht, hr⟩ := reach_passed passing dispatched
      exact ih (ht.trans same) hr

/-- Registry callbacks may come in any order, and all their events be dispatched. -/
theorem reach_dispatched (start : SessionStarts s)
    (registry : ∀ callback ∈ history, callback.fromRegistry = true) :
    ∃ t : MetadataWrapper, t.queue = [] ∧
      Reach (metadataSession name) InSession (⟨s, []⟩, []) (⟨t, []⟩, history) := by
  induction history using List.reverseRecOn with
  | nil => exact reach_drained rfl .start
  | append_singleton history callback ih =>
    obtain ⟨t, ht, hr⟩ := ih fun c hc => registry c (List.mem_append_left _ hc)
    have listens : t.listens callback = true := by
      have session := (discoveryInv_reach start hr).session
      have fromRegistry := registry callback (by simp)
      cases callback with
      | property change => cases fromRegistry
      | _ => exact session.registry
    obtain ⟨u, hu⟩ : ∃ u, t.report name callback = some u := by
      rw [MetadataWrapper.report, if_pos listens]
      exact ⟨_, rfl⟩
    have heard : Reach (metadataSession name) InSession (⟨s, []⟩, [])
        (⟨u, []⟩, history ++ [callback]) := by
      refine reach_take (.environment callback) hr trivial ?_ ?_
      · simp [Component.step, metadataComponent, hu]
      · simp [registryCallbacks, registry callback (by simp)]
    exact reach_drained rfl heard

/-- Over any sequence of registry callbacks in one session, and however the dispatches come in
between, the wrapper is bound to a live metadata object of its name whenever there is one, at
every point where all events have been dispatched, exactly where the oldest of these objects is
never removed while another one is live. -/
theorem metadataBound_live {callbacks : List MetadataCallback} (start : SessionStarts s)
    (registry : ∀ callback ∈ callbacks, callback.fromRegistry = true) :
    (∀ earlier, earlier <+: callbacks → ∀ c,
      Reach (metadataSession name) InSession (⟨s, []⟩, []) (c, earlier) → AllDispatched c →
        BoundToLive name earlier c.state) ↔
      Justified Presence.LeavesLast (callbacks.filterMap (metadataPresence name)) := by
  rw [← Presence.holdsPresent_iff]
  constructor
  · intro h events he
    obtain ⟨earlier, part, rfl⟩ := List.prefix_filterMap_iff.mp he
    obtain ⟨t, ht, hr⟩ := reach_dispatched start fun callback hc =>
      registry callback (part.subset hc)
    have dispatched : AllDispatched ⟨t, []⟩ := ⟨by simp, by simp [ht]⟩
    exact (boundToLive_iff (discoveryInv_reach start hr) dispatched).mp
      (h earlier part _ hr dispatched)
  · intro h earlier part c hr dispatched
    refine (boundToLive_iff (discoveryInv_reach start hr) dispatched).mpr (h _ ?_)
    exact List.prefix_filterMap_iff.mpr ⟨earlier, part, rfl⟩

/-- A wrapper that is not bound, and has queued nothing under the new generation, starts a
session. -/
theorem sessionStarts_startRegistry (sync : Bool) (connected : s.connected = true)
    (unbound : s.bound = false ∧ s.hasMetadata = false)
    (stale : ∀ e, .event e ∈ s.queue → e.generation ≠ s.generation + 1) :
    SessionStarts (s.startRegistry .succeeded sync).1 := by
  unfold MetadataWrapper.startRegistry
  rw [if_neg (by simp [connected])]
  exact ⟨rfl, connected, rfl, unbound.1, unbound.2, stale⟩

def startedMetadata : MetadataWrapper :=
  (MetadataWrapper.startRegistry .succeeded false { connected := true }).1

def defaultMetadata (id : UInt32) : MetadataCallback :=
  .global id 0 (some interfaceMetadata) 3 (some [(some keyMetadataName, some [100])])

theorem startedMetadata_starts : SessionStarts startedMetadata :=
  sessionStarts_startRegistry false rfl ⟨rfl, rfl⟩ (by simp)

/-- A second object comes and goes while the first one stays. -/
def secondMetadata : List MetadataCallback :=
  [defaultMetadata 35, defaultMetadata 36, .globalRemove 36, .globalRemove 35]

theorem metadataBound_live_second :
    Justified Presence.LeavesLast (secondMetadata.filterMap (metadataPresence [100])) ∧
      ∀ earlier, earlier <+: secondMetadata → ∀ c,
        Reach (metadataSession [100]) InSession (⟨startedMetadata, []⟩, []) (c, earlier) →
          AllDispatched c → BoundToLive [100] earlier c.state := by
  have first : Justified Presence.LeavesLast [Presence.appears (35 : UInt32)] :=
    justified_concat.mpr ⟨justified_nil, by simp [Presence.LeavesLast]⟩
  have second : Justified Presence.LeavesLast [.appears (35 : UInt32), .appears 36] :=
    justified_concat.mpr ⟨first, by simp [Presence.LeavesLast]⟩
  have third : Justified Presence.LeavesLast
      [.appears (35 : UInt32), .appears 36, .disappears 36] :=
    justified_concat.mpr ⟨second, by simp [Presence.LeavesLast, Presence.present, Presence.arrive]⟩
  have fourth : Justified Presence.LeavesLast
      (secondMetadata.filterMap (metadataPresence [100])) :=
    justified_concat.mpr
      ⟨third, by simp [Presence.LeavesLast, Presence.present, Presence.arrive]⟩
  exact ⟨fourth, (metadataBound_live startedMetadata_starts (by decide)).mpr fourth⟩

/-- A session manager's object comes before its predecessor's goes. -/
def overlapSchedule : List MetadataLabel :=
  [.environment (defaultMetadata 35), .environment (defaultMetadata 36),
    .environment (.globalRemove 35)] ++
  .call .iterate :: List.replicate 3 (.run {}) ++ [.call .iterate, .run {}] ++
  .call .iterate :: List.replicate 4 (.run {})

theorem metadataBound_live_overlap :
    ∃ c, Reach (metadataSession [100]) InSession (⟨startedMetadata, []⟩, []) c ∧
      AllDispatched c.1 ∧ ¬BoundToLive [100] c.2 c.1.state := by
  refine ⟨final (metadataSession [100]) (⟨startedMetadata, []⟩, []) overlapSchedule,
    reach_final (by decide +kernel), ⟨by decide +kernel, by decide +kernel⟩, fun h => ?_⟩
  have history : (final (metadataSession [100]) (⟨startedMetadata, []⟩, []) overlapSchedule).2 =
      [defaultMetadata 35, defaultMetadata 36, .globalRemove 35] := by decide +kernel
  have bound := h.bound.mpr
  rw [history] at bound
  have live : LiveMetadata [100] [defaultMetadata 35, defaultMetadata 36, .globalRemove 35] 36 :=
    ⟨[defaultMetadata 35], defaultMetadata 36, [.globalRemove 35], rfl, by decide, by decide⟩
  exact absurd (bound ⟨36, live⟩) (by decide +kernel)

end PipewireGobject
