import Mathlib.Data.List.Induction
import PipewireGobject.RegistrySession

namespace PipewireGobject

/-- What a change means for the list of globals. -/
def globalsChange (globals : List Global) : RegistryChange → List Global
  | .globalAdded global => globals.filter (fun g => g.id ≠ global.id) ++ [global]
  | .globalRemoved id => globals.filter fun g => g.id ≠ id

def globalsAfter (changes : List RegistryChange) : List Global := changes.foldl globalsChange []

/-- A table that is kept from `global-added` and `global-removed` alone. -/
def consumerChange (table : UInt32 → Option Global) : RegistrySignal → UInt32 → Option Global
  | .globalAdded global => Function.update table global.id (some global)
  | .globalRemoved global => Function.update table global.id none
  | .notifyRunning | .itemsChanged => table

def consumerTable (signals : List RegistrySignal) : UInt32 → Option Global :=
  signals.foldl consumerChange fun _ => none

/-- The global that a statement puts into the list. -/
def RegistryTask.appends : RegistryTask → Option Global
  | .append global => some global
  | _ => none

def pendingAppends (code : List RegistryTask) : List Global := code.filterMap RegistryTask.appends

variable {globals : List Global} {change : RegistryChange}
variable {s : RegistrySession} {event : RegistryEvent} {id : UInt32}

theorem globalsChange_eq (globals : List Global) (change : RegistryChange) :
    globalsChange globals change =
      globals.filter (fun g => g.id ≠ change.id) ++ change.leaves.toList := by
  cases change with
  | globalAdded global => rfl
  | globalRemoved id => exact (List.append_nil _).symm

theorem globalsAfter_concat (changes : List RegistryChange) (change : RegistryChange) :
    globalsAfter (changes ++ [change]) = globalsChange (globalsAfter changes) change :=
  List.foldl_concat ..

theorem globalsChange_nodup (h : (globals.map (·.id)).Nodup) :
    ((globalsChange globals change).map (·.id)).Nodup := by
  have kept : ((globals.filter fun g => g.id ≠ change.id).map (·.id)).Nodup :=
    h.sublist (List.filter_sublist.map _)
  rw [globalsChange_eq, List.map_append]
  refine List.nodup_append.mpr ⟨kept, ?_, ?_⟩
  · cases change <;> simp [RegistryChange.leaves]
  · intro a ha b hb
    obtain ⟨g, hg, rfl⟩ := List.mem_map.mp ha
    obtain ⟨-, hne⟩ := List.mem_filter.mp hg
    cases change with
    | globalAdded global =>
      obtain rfl : b = global.id := by simpa [RegistryChange.leaves] using hb
      exact of_decide_eq_true hne
    | globalRemoved id => simp [RegistryChange.leaves] at hb

theorem globalsAfter_nodup (changes : List RegistryChange) :
    ((globalsAfter changes).map (·.id)).Nodup := by
  induction changes using List.reverseRec with
  | nil => exact .nil
  | append_singleton changes change ih =>
    rw [globalsAfter_concat]
    exact globalsChange_nodup ih

/-- Where ids are unique, taking out the first global of an id takes out all of them. -/
theorem withoutGlobal_eq_filter (h : (globals.map (·.id)).Nodup) (id : UInt32) :
    withoutGlobal id globals = globals.filter fun g => g.id ≠ id := by
  unfold withoutGlobal
  induction globals with
  | nil => rfl
  | cons g rest ih =>
    obtain ⟨hg, hrest⟩ := List.nodup_cons.mp h
    by_cases hid : g.id = id
    · have other : ∀ g' ∈ rest, g'.id ≠ id := by
        intro g' hm he
        exact hg (List.mem_map.mpr ⟨g', hm, he.trans hid.symm⟩)
      rw [List.eraseP_cons_of_pos (by simpa using hid),
        List.filter_cons_of_neg (by simpa using hid)]
      exact (List.filter_eq_self.mpr (by simpa using other)).symm
    · rw [List.eraseP_cons_of_neg (by simpa using hid),
        List.filter_cons_of_pos (by simpa using hid), ih hrest]

/-- The registry itself changes as where its emissions are left out. -/
theorem registryDispatch_registry (event : RegistryEvent) (s : RegistrySession) :
    (registryDispatch event s).1.registry = (registryDispatchEvent event s.registry).1 := by
  unfold registryDispatch registryDispatchEvent
  split
  next => rfl
  next =>
    cases event.change with
    | globalAdded global =>
      dsimp only
      cases registryFindGlobal s.registry.globals global.id <;> rfl
    | globalRemoved id =>
      dsimp only
      cases registryFindGlobal s.registry.globals id <;> rfl

theorem registryDispatch_live (running : s.registry.running = true)
    (current : event.generation = s.registry.generation) :
    (registryDispatch event s).1.registry.globals =
        withoutGlobal event.change.id s.registry.globals ∧
      pendingAppends (registryDispatch event s).2 = event.change.leaves.toList ∧
      (registryDispatch event s).1.dispatched = s.dispatched ++ [event.change] := by
  have live : ¬ (s.registry.running = false ∨ event.generation ≠ s.registry.generation) := by
    simp [running, current]
  unfold registryDispatch
  rw [if_neg live, withoutGlobal_eq]
  cases event.change with
  | globalAdded global =>
    simp only [RegistryChange.id]
    cases registryFindGlobal s.registry.globals global.id <;> exact ⟨rfl, rfl, rfl⟩
  | globalRemoved id =>
    simp only [RegistryChange.id]
    cases registryFindGlobal s.registry.globals id with
    | none => exact ⟨rfl, rfl, rfl⟩
    | some position =>
      refine ⟨rfl, ?_, rfl⟩
      cases hg : s.registry.globals[position]? <;>
        simp [hg, pendingAppends, RegistryTask.appends, RegistryChange.leaves]

/-- What a dispatch does to the list, at once or with the statement left to run. -/
theorem registryDispatch_held (running : s.registry.running = true)
    (current : event.generation = s.registry.generation)
    (nodup : (s.registry.globals.map (·.id)).Nodup) :
    (registryDispatch event s).1.registry.globals ++ pendingAppends (registryDispatch event s).2 =
      globalsChange s.registry.globals event.change := by
  obtain ⟨held, appends, -⟩ := registryDispatch_live running current
  rw [held, appends, globalsChange_eq, withoutGlobal_eq_filter nodup]

theorem registryDispatch_session (event : RegistryEvent) (s : RegistrySession) :
    (registryDispatch event s).1.registry.running = s.registry.running ∧
      (registryDispatch event s).1.registry.generation = s.registry.generation := by
  rw [registryDispatch_registry]
  exact registryDispatchEvent_session

theorem registryDispatch_frame (event : RegistryEvent) (s : RegistrySession) :
    (registryDispatch event s).1.queue = s.queue ∧
      (registryDispatch event s).1.queued = s.queued ∧
      (registryDispatch event s).1.signals = s.signals := by
  unfold registryDispatch
  split
  next => exact ⟨rfl, rfl, rfl⟩
  next =>
    cases event.change with
    | globalAdded global =>
      dsimp only
      split <;> exact ⟨rfl, rfl, rfl⟩
    | globalRemoved id =>
      dsimp only
      split <;> exact ⟨rfl, rfl, rfl⟩

theorem registryDispatch_stale
    (h : s.registry.running = false ∨ event.generation ≠ s.registry.generation) :
    registryDispatch event s = (s, []) := if_pos h

theorem registryLookupGlobal_eq (globals : List Global) (id : UInt32) :
    registryLookupGlobal globals id = globals.find? fun g => g.id = id :=
  (List.find?_eq_bind_findIdx?_getElem? ..).symm

theorem registryLookupGlobal_id {global : Global}
    (h : registryLookupGlobal globals id = some global) : global.id = id := by
  rw [registryLookupGlobal_eq] at h
  simpa using List.find?_some h

theorem registryLookupGlobal_change (globals : List Global) (change : RegistryChange)
    (id : UInt32) :
    registryLookupGlobal (globalsChange globals change) id =
      if id = change.id then change.leaves else registryLookupGlobal globals id := by
  rw [registryLookupGlobal_eq, registryLookupGlobal_eq, globalsChange_eq, List.find?_append]
  by_cases hid : id = change.id
  · have removed :
        (globals.filter fun g => g.id ≠ change.id).find? (fun g => g.id = id) = none := by
      rw [List.find?_eq_none]
      intro g hg
      simpa [hid] using (List.mem_filter.mp hg).2
    rw [removed, if_pos hid]
    cases change with
    | globalAdded global => simp [RegistryChange.leaves, hid, RegistryChange.id]
    | globalRemoved id' => rfl
  · have kept : (globals.filter fun g => g.id ≠ change.id).find? (fun g => g.id = id) =
        globals.find? fun g => g.id = id := by
      rw [List.find?_filter]
      congr 1
      funext g
      by_cases hg : g.id = id
      · simp [hg, hid]
      · simp [hg]
    have other : (change.leaves.toList.find? fun g => g.id = id) = none := by
      cases change with
      | globalAdded global => simpa [RegistryChange.leaves, RegistryChange.id] using Ne.symm hid
      | globalRemoved id' => rfl
    rw [kept, other, if_neg hid, Option.or_none]

/-- The signal that a statement is about to emit for a global. -/
def RegistryTask.announces : RegistryTask → Option RegistrySignal
  | .emit signal => some signal
  | .append global => some (.globalAdded global)
  | _ => none

def pendingSignals (code : List RegistryTask) : List RegistrySignal :=
  code.filterMap RegistryTask.announces

/-- Whoever follows the signals of a dispatch has followed its change. -/
theorem registryDispatch_consumer {table : UInt32 → Option Global}
    (running : s.registry.running = true)
    (current : event.generation = s.registry.generation)
    (follows : table = registryLookupGlobal s.registry.globals) :
    (pendingSignals (registryDispatch event s).2).foldl consumerChange table =
      registryLookupGlobal (globalsChange s.registry.globals event.change) := by
  have live : ¬ (s.registry.running = false ∨ event.generation ≠ s.registry.generation) := by
    simp [running, current]
  funext id
  rw [registryLookupGlobal_change]
  unfold registryDispatch
  rw [if_neg live]
  cases event.change with
  | globalAdded global =>
    have table' : Function.update table global.id (some global) id =
        if id = global.id then some global else registryLookupGlobal s.registry.globals id := by
      rw [Function.update_apply, follows]
    dsimp only
    cases registryFindGlobal s.registry.globals global.id <;> exact table'
  | globalRemoved id' =>
    dsimp only
    cases hf : registryFindGlobal s.registry.globals id' with
    | none =>
      have absent : registryLookupGlobal s.registry.globals id' = none := by
        simp [registryLookupGlobal, hf]
      show table id = if id = id' then none else _
      rw [follows]
      split
      next he => rw [he, absent]
      next => rfl
    | some position =>
      have found : registryLookupGlobal s.registry.globals id' = s.registry.globals[position]? := by
        simp [registryLookupGlobal, hf]
      dsimp only
      cases hg : s.registry.globals[position]? with
      | none =>
        show table id = if id = id' then none else _
        rw [follows]
        split
        next he => rw [he, found, hg]
        next => rfl
      | some existing =>
        have own : existing.id = id' := registryLookupGlobal_id (found.trans hg)
        show Function.update table existing.id none id = if id = id' then none else _
        rw [Function.update_apply, own, follows]

/-- Handlers do not call the registry, and the main context dispatches in the order of its queue. -/
def RegistryInTurn (c : Config RegistrySession RegistryTask) :
    Label RegistryCall PipewireResult RegistryCallback → Prop
  | .call (.dispatch position) => c.code = [] ∧ position = 0
  | .call _ => False
  | .run _ | .environment _ => True

instance (c : Config RegistrySession RegistryTask) : DecidablePred (RegistryInTurn c)
  | .call (.dispatch position) => inferInstanceAs (Decidable (c.code = [] ∧ position = 0))
  | .call .start | .call .sync | .call .stop | .call (.setConnected _)
  | .call .coreConnectedNotify => .isFalse False.elim
  | .run _ | .environment _ => .isTrue trivial

/-- Statements that finish what a dispatch has begun. -/
def RegistryTask.finishes : RegistryTask → Bool
  | .handlers | .emit _ | .append _ => true
  | _ => false

def RegistryTask.dispatches : RegistryTask → Option RegistryEvent
  | .dispatch event => some event
  | _ => none

/-- The events still to be dispatched: the one whose dispatch begins, and those that wait. -/
def waitingEvents (s : RegistrySession) (code : List RegistryTask) : List RegistryEvent :=
  code.filterMap RegistryTask.dispatches ++ s.queue

structure RegistryTurn (s : RegistrySession) (code : List RegistryTask) : Prop where
  running : s.registry.running = true
  current : ∀ event ∈ waitingEvents s code, event.generation = s.registry.generation
  inOrder : s.dispatched ++ changes (waitingEvents s code) = s.queued
  one : (∃ event, code = [.dispatch event]) ∨ ∀ i ∈ code, i.finishes = true
  folded : s.registry.globals ++ pendingAppends code = globalsAfter s.dispatched
  consumer : consumerTable (s.signals ++ pendingSignals code) =
    registryLookupGlobal (s.registry.globals ++ pendingAppends code)

variable {code rest : List RegistryTask} {i : RegistryTask}

theorem dispatches_of_finishes (h : ∀ i ∈ code, i.finishes = true) :
    code.filterMap RegistryTask.dispatches = [] := by
  rw [List.filterMap_eq_nil_iff]
  intro i hi
  have finishes := h i hi
  cases i <;> simp_all [RegistryTask.finishes, RegistryTask.dispatches]

theorem waitingEvents_finishes (h : ∀ i ∈ code, i.finishes = true) :
    waitingEvents s code = s.queue := by
  unfold waitingEvents
  rw [dispatches_of_finishes h, List.nil_append]

theorem registryDispatch_finishes (event : RegistryEvent) (s : RegistrySession) :
    ∀ i ∈ (registryDispatch event s).2, i.finishes = true := by
  unfold registryDispatch
  split
  next => simp
  next =>
    cases event.change with
    | globalAdded global =>
      dsimp only
      split <;> simp [RegistryTask.finishes]
    | globalRemoved id =>
      dsimp only
      split
      next position _ =>
        cases s.registry.globals[position]? <;> simp [RegistryTask.finishes]
      next => simp

theorem RegistryTurn.dispatch {event : RegistryEvent} (h : RegistryTurn s [.dispatch event]) :
    RegistryTurn (registryDispatch event s).1 (registryDispatch event s).2 := by
  have live : event.generation = s.registry.generation := h.current event List.mem_cons_self
  have folded : s.registry.globals = globalsAfter s.dispatched := by
    have folded := h.folded
    rwa [show pendingAppends [.dispatch event] = [] from rfl, List.append_nil] at folded
  have nodup : (s.registry.globals.map (·.id)).Nodup := folded ▸ globalsAfter_nodup s.dispatched
  have follows : consumerTable s.signals = registryLookupGlobal s.registry.globals := by
    have consumer := h.consumer
    rwa [show pendingAppends [.dispatch event] = [] from rfl, List.append_nil,
      show pendingSignals [.dispatch event] = [] from rfl, List.append_nil] at consumer
  obtain ⟨running, generation⟩ := registryDispatch_session event s
  obtain ⟨-, -, dispatched⟩ := registryDispatch_live h.running live
  obtain ⟨queue, queued, signals⟩ := registryDispatch_frame event s
  have held := registryDispatch_held h.running live nodup
  have finishes := registryDispatch_finishes event s
  have waiting := (waitingEvents_finishes finishes).trans queue
  refine ⟨running.trans h.running, ?_, ?_, .inr finishes, ?_, ?_⟩
  · rw [waiting, generation]
    exact fun e he => h.current e (List.mem_cons_of_mem event he)
  · rw [waiting, dispatched, queued, ← h.inOrder, List.append_assoc]
    rfl
  · rw [held, dispatched, globalsAfter_concat, folded]
  · rw [held, signals, consumerTable, List.foldl_append]
    exact registryDispatch_consumer h.running live follows

/-- A statement that finishes a dispatch moves what is pending into the list and the history. -/
theorem RegistryTurn.finish {t : RegistrySession} {new : List RegistryTask}
    (h : RegistryTurn s (i :: rest)) (finishes : ∀ j ∈ i :: rest, j.finishes = true)
    (hn : ∀ j ∈ new, j.finishes = true) (running : t.registry.running = s.registry.running)
    (generation : t.registry.generation = s.registry.generation) (queue : t.queue = s.queue)
    (queued : t.queued = s.queued) (dispatched : t.dispatched = s.dispatched)
    (globals : t.registry.globals ++ pendingAppends new = s.registry.globals ++ i.appends.toList)
    (signals : ∀ later, consumerTable (t.signals ++ (pendingSignals new ++ later)) =
      consumerTable (s.signals ++ (i.announces.toList ++ later))) :
    RegistryTurn t (new ++ rest) := by
  have others : ∀ j ∈ new ++ rest, j.finishes = true := by
    intro j hj
    exact (List.mem_append.mp hj).elim (hn j) fun hj => finishes j (List.mem_cons_of_mem i hj)
  have waiting : waitingEvents t (new ++ rest) = waitingEvents s (i :: rest) := by
    rw [waitingEvents_finishes others, waitingEvents_finishes finishes, queue]
  have appends : t.registry.globals ++ pendingAppends (new ++ rest) =
      s.registry.globals ++ pendingAppends (i :: rest) := by
    have first : pendingAppends (i :: rest) = i.appends.toList ++ pendingAppends rest := by
      cases i <;> rfl
    rw [first, pendingAppends, List.filterMap_append, ← List.append_assoc]
    exact (congrArg (· ++ pendingAppends rest) globals).trans (List.append_assoc ..)
  have announces : consumerTable (t.signals ++ pendingSignals (new ++ rest)) =
      consumerTable (s.signals ++ pendingSignals (i :: rest)) := by
    have first : pendingSignals (i :: rest) = i.announces.toList ++ pendingSignals rest := by
      cases i <;> rfl
    rw [first, pendingSignals, List.filterMap_append]
    exact signals (pendingSignals rest)
  refine ⟨running.trans h.running, ?_, ?_, .inr others, ?_, ?_⟩
  · rw [waiting, generation]
    exact h.current
  · rw [waiting, dispatched, queued]
    exact h.inOrder
  · rw [appends, dispatched]
    exact h.folded
  · rw [appends, announces]
    exact h.consumer

theorem RegistryTurn.run {result : PipewireResult} (h : RegistryTurn s (i :: rest)) :
    RegistryTurn (registryExecTask result i s).1 ((registryExecTask result i s).2 ++ rest) := by
  rcases h.one with ⟨event, he⟩ | finishes
  · obtain ⟨rfl, rfl⟩ := List.cons.inj he
    rw [List.append_nil]
    exact h.dispatch
  · cases i with
    | handlers =>
      exact h.finish finishes (by simp [registryExecTask]) rfl rfl rfl rfl rfl rfl fun _ => rfl
    | emit signal =>
      refine h.finish finishes ?_ rfl rfl rfl rfl rfl rfl fun later => ?_
      · simp [registryExecTask, RegistryTask.finishes]
      · show consumerTable ((s.signals ++ [signal]) ++ later) = _
        rw [List.append_assoc]
        rfl
    | append global =>
      refine h.finish finishes ?_ rfl rfl rfl rfl rfl ?_ fun later => ?_
      · simp [registryExecTask, RegistryTask.finishes]
      · exact List.append_nil _
      · -- items-changed tells a consumer of the signals nothing
        show consumerTable (s.signals ++ ([.itemsChanged, .globalAdded global] ++ later)) =
          consumerTable (s.signals ++ ([.globalAdded global] ++ later))
        simp [consumerTable, consumerChange]
    | _ => simp [RegistryTask.finishes] at finishes

/-- The first event of the queue becomes the one whose dispatch begins. -/
theorem RegistryTurn.begin {queue : List RegistryEvent} (h : RegistryTurn s [])
    (hq : s.queue = event :: queue) :
    RegistryTurn { s with queue := queue } [.dispatch event] := by
  have waiting : waitingEvents { s with queue := queue } [.dispatch event] = waitingEvents s [] :=
    hq.symm
  refine ⟨h.running, ?_, ?_, .inl ⟨event, rfl⟩, h.folded, h.consumer⟩
  · rw [waiting]
    exact h.current
  · rw [waiting]
    exact h.inOrder

theorem RegistryTurn.report (h : RegistryTurn s code) (callback : RegistryCallback) :
    RegistryTurn (registryReport callback s) code := by
  have waiting : waitingEvents (registryReport callback s) code =
      waitingEvents s code ++ [registryQueueEvent (registryCallback callback) s.registry] :=
    (List.append_assoc ..).symm
  refine ⟨h.running, ?_, ?_, h.one, h.folded, h.consumer⟩
  · rw [waiting]
    intro event he
    rcases List.mem_append.mp he with he | he
    · exact h.current event he
    · rw [List.mem_singleton.mp he]
      rfl
  · rw [waiting, changes_concat, ← List.append_assoc]
    exact congrArg (· ++ [registryCallback callback]) h.inOrder

theorem registryTurn_preserves : registryComponent.Preserves RegistryInTurn RegistryTurn where
  call operation s code r h _ inTurn hr := by
    cases operation with
    | dispatch position =>
      obtain ⟨rfl, rfl⟩ := inTurn
      obtain ⟨event, hq, rfl⟩ := Option.map_eq_some_iff.mp hr
      cases hs : s.queue with
      | nil => simp [hs] at hq
      | cons first queue =>
        obtain rfl : first = event := by simpa [hs] using hq
        simpa [hs] using h.begin hs
    | _ => exact inTurn.elim
  run _ _ _ _ h _ := h.run
  environment callback s code t h _ ht := by
    cases Option.some.inj ht
    exact h.report callback

theorem registryTurn_running (generation : UInt32) :
    RegistryTurn (registryRunning generation).state (registryRunning generation).code where
  running := rfl
  current := by simp [waitingEvents, registryRunning]
  inOrder := rfl
  one := .inr (by simp [registryRunning])
  folded := rfl
  consumer := rfl

/-- The list is what the changes make of it, and whoever asks for a global or has followed the
signals finds what is in the list. -/
structure RegistryFolded (s : RegistrySession) : Prop where
  unique : (s.registry.globals.map (·.id)).Nodup
  folded : s.registry.globals = globalsAfter s.dispatched
  lookup : ∀ id global, registryLookupGlobal s.registry.globals id = some global ↔
    global ∈ s.registry.globals ∧ global.id = id
  byProperty : ∀ key value, registryLookupGlobalByProperty s.registry.globals key value =
    (registryDupGlobalsByProperty s.registry.globals key value).head?
  consumer : ∀ id, consumerTable s.signals id = registryLookupGlobal s.registry.globals id

/-- Where ids are unique, the search by id finds every global. -/
theorem registryLookupGlobal_iff {global : Global} (h : (globals.map (·.id)).Nodup) :
    registryLookupGlobal globals id = some global ↔ global ∈ globals ∧ global.id = id := by
  rw [registryLookupGlobal_eq]
  constructor
  · intro hf
    exact ⟨List.mem_of_find?_eq_some hf, by simpa using List.find?_some hf⟩
  · rintro ⟨hm, rfl⟩
    cases hf : globals.find? fun g => g.id = global.id with
    | none => simpa using List.find?_eq_none.mp hf global hm
    | some first =>
      have same : first.id = global.id := by simpa using List.find?_some hf
      rw [List.inj_on_of_nodup_map h (List.mem_of_find?_eq_some hf) hm same]

theorem registryDispatch_folded {generation : UInt32} {c : Config RegistrySession RegistryTask}
    (h : Reach registryComponent.step RegistryInTurn (registryRunning generation) c)
    (done : c.code = []) :
    c.state.dispatched ++ changes c.state.queue = c.state.queued ∧ RegistryFolded c.state := by
  have turn := registryTurn_preserves.reach h (registryTurn_running generation)
  rw [done] at turn
  have folded : c.state.registry.globals = globalsAfter c.state.dispatched := by
    rw [← turn.folded]
    exact (List.append_nil _).symm
  have unique : (c.state.registry.globals.map (·.id)).Nodup := folded ▸ globalsAfter_nodup _
  refine ⟨turn.inOrder, unique, folded, fun id global => registryLookupGlobal_iff unique, ?_, ?_⟩
  · intro key value
    exact (List.head?_filter ..).symm
  · intro id
    have consumer := congrFun turn.consumer id
    rwa [show pendingAppends [] = [] from rfl, List.append_nil,
      show pendingSignals [] = [] from rfl, List.append_nil] at consumer

/-- Two globals are added and the first is replaced before the second is removed. -/
def replacedBeforeRemoved : Config RegistrySession RegistryTask :=
  final registryComponent.step (registryRunning 1)
    ([.environment (.global 5 0 none 0 none), .environment (.global 6 0 none 0 none),
        .environment (.global 5 0 none 1 none), .environment (.globalRemove 6)] ++
      .call (.dispatch 0) :: List.replicate 6 (.run .succeeded) ++
      .call (.dispatch 0) :: List.replicate 6 (.run .succeeded) ++
      .call (.dispatch 0) :: List.replicate 8 (.run .succeeded) ++
      .call (.dispatch 0) :: List.replicate 5 (.run .succeeded))

theorem registryDispatch_folded_replacedBeforeRemoved :
    replacedBeforeRemoved.state.registry.globals = [⟨5, 0, none, 1, []⟩] ∧
      RegistryFolded replacedBeforeRemoved.state :=
  ⟨by decide +kernel, (registryDispatch_folded (c := replacedBeforeRemoved)
    (reach_final (by decide +kernel)) (by decide +kernel)).2⟩

end PipewireGobject
