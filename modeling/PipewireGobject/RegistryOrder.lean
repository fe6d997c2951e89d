import PipewireGobject.KeyedEvents
import PipewireGobject.Registry

namespace PipewireGobject

abbrev RegistryRun := DispatchRun Registry RegistryStmt RegistryEvent

def RegistryChange.id : RegistryChange → UInt32
  | .globalAdded global => global.id
  | .globalRemoved id => id

/-- What an event leaves of its id in the list. -/
def RegistryChange.leaves : RegistryChange → Option Global
  | .globalAdded global => some global
  | .globalRemoved _ => none

/-- The global that a statement has still to put into the list. -/
def RegistryStmt.appends : RegistryStmt → Option Global
  | .append global => some global
  | .handlers => none

def Frame.appends : Frame RegistryStmt → Option Global
  | .stmt i => i.appends
  | .iteration | .inlineCall => none

def changes (events : List RegistryEvent) : List RegistryChange := events.map (·.change)

theorem changes_concat (events : List RegistryEvent) (event : RegistryEvent) :
    changes (events ++ [event]) = changes events ++ [event.change] := List.map_append

variable {r t : RegistryRun} {s : Registry} {event : RegistryEvent} {id : UInt32}
variable {globals pending : List Global} {change : RegistryChange}

/-- The list that `globals` becomes when the global of an id is removed from it. -/
def withoutGlobal (id : UInt32) (globals : List Global) : List Global :=
  globals.eraseP fun global => global.id = id

theorem withoutGlobal_eq (id : UInt32) (globals : List Global) :
    withoutGlobal id globals = match registryFindGlobal globals id with
      | none => globals
      | some position => globals.eraseIdx position :=
  List.eraseP_eq_eraseIdx

theorem mem_withoutGlobal {global : Global} (h : (globals.map (·.id)).Nodup) :
    global ∈ withoutGlobal id globals ↔ global ∈ globals ∧ global.id ≠ id := by
  unfold withoutGlobal
  induction globals with
  | nil => simp
  | cons first rest ih =>
    obtain ⟨hfirst, hrest⟩ := List.nodup_cons.mp h
    by_cases hid : first.id = id
    · rw [List.eraseP_cons_of_pos (by simpa using hid)]
      have other (hm : global ∈ rest) : global.id ≠ id := by
        intro he
        have same : first.id = global.id := hid.trans he.symm
        exact hfirst (List.mem_map.mpr ⟨global, hm, same.symm⟩)
      constructor
      · intro hm
        exact ⟨List.mem_cons_of_mem first hm, other hm⟩
      · rintro ⟨hm, hne⟩
        exact (List.mem_cons.mp hm).resolve_left fun he => hne (he ▸ hid)
    · rw [List.eraseP_cons_of_neg (by simpa using hid), List.mem_cons, ih hrest, List.mem_cons]
      constructor
      · rintro (rfl | ⟨hm, hne⟩)
        · exact ⟨.inl rfl, hid⟩
        · exact ⟨.inr hm, hne⟩
      · rintro ⟨rfl | hm, hne⟩
        · exact .inl rfl
        · exact .inr ⟨hm, hne⟩

/-- An event that is not stale takes the global of its id out and puts its own in, if it
has one: at once or with the statement that is left to run. -/
theorem registryDispatchEvent_held (running : s.running = true)
    (current : event.generation = s.generation) :
    (registryDispatchEvent event s).1.globals ++
        (registryDispatchEvent event s).2.filterMap RegistryStmt.appends =
      withoutGlobal event.change.id s.globals ++ event.change.leaves.toList := by
  have live : ¬ (s.running = false ∨ event.generation ≠ s.generation) := by simp [running, current]
  rw [withoutGlobal_eq]
  unfold registryDispatchEvent
  rw [if_neg live]
  cases hc : event.change with
  | globalAdded global =>
    simp only [RegistryChange.id]
    cases registryFindGlobal s.globals global.id <;> rfl
  | globalRemoved id =>
    simp only [RegistryChange.id]
    cases registryFindGlobal s.globals id <;> rfl

theorem registryDispatchEvent_session :
    (registryDispatchEvent event s).1.running = s.running ∧
      (registryDispatchEvent event s).1.generation = s.generation := by
  unfold registryDispatchEvent
  split
  next => exact ⟨rfl, rfl⟩
  next =>
    cases event.change with
    | globalAdded global =>
      simp only
      split <;> exact ⟨rfl, rfl⟩
    | globalRemoved id =>
      simp only
      split <;> exact ⟨rfl, rfl⟩

theorem withoutGlobal_applied (nodup : ((globals ++ pending).map (·.id)).Nodup)
    (free : ∀ global ∈ pending, global.id ≠ change.id) :
    Applied RegistryChange.id RegistryChange.leaves Global.id change (globals ++ pending)
      (withoutGlobal change.id globals ++ change.leaves.toList ++ pending) := by
  have own : ∀ global ∈ change.leaves, global.id = change.id := by
    cases change with
    | globalAdded global => simp [RegistryChange.leaves, RegistryChange.id]
    | globalRemoved id => simp [RegistryChange.leaves]
  obtain ⟨unique, uniquePending, disjoint⟩ := List.nodup_append.mp (List.map_append ▸ nodup)
  have mem (global : Global) :
      global ∈ withoutGlobal change.id globals ++ change.leaves.toList ++ pending ↔
        (global ∈ globals ∧ global.id ≠ change.id) ∨ change.leaves = some global ∨
          global ∈ pending := by
    rw [List.mem_append, List.mem_append, mem_withoutGlobal unique, Option.mem_toList, or_assoc]
  refine ⟨?_, fun global hne => ?_, fun global => ?_⟩
  · have kept : ((withoutGlobal change.id globals).map (·.id)).Nodup :=
      unique.sublist (List.eraseP_sublist.map _)
    have new : (change.leaves.toList.map (·.id)).Nodup := by
      cases change <;> simp [RegistryChange.leaves]
    rw [List.append_assoc, List.map_append, List.map_append]
    refine List.nodup_append.mpr ⟨kept, List.nodup_append.mpr ⟨new, uniquePending, ?_⟩, ?_⟩
    · intro a ha b hb
      obtain ⟨global, hm, rfl⟩ := List.mem_map.mp ha
      obtain ⟨global', hm', rfl⟩ := List.mem_map.mp hb
      rw [own global (Option.mem_toList.mp hm)]
      exact (free global' hm').symm
    · intro a ha b hb
      obtain ⟨global, hm, rfl⟩ := List.mem_map.mp ha
      obtain ⟨hm, hne⟩ := (mem_withoutGlobal unique).mp hm
      rcases List.mem_append.mp hb with hb | hb
      · obtain ⟨global', hm', rfl⟩ := List.mem_map.mp hb
        rwa [own global' (Option.mem_toList.mp hm')]
      · exact disjoint _ (List.mem_map_of_mem hm) b hb
  · rw [mem, List.mem_append]
    constructor
    · rintro (⟨hm, -⟩ | hl | hm)
      · exact .inl hm
      · exact absurd (own global hl) hne
      · exact .inr hm
    · rintro (hm | hm)
      · exact .inl ⟨hm, hne⟩
      · exact .inr (.inr hm)
  · rw [mem]
    constructor
    · rintro ⟨⟨-, hne⟩ | hl | hm, he⟩
      · exact absurd he hne
      · exact hl
      · exact absurd he (free global hm)
    · intro hl
      exact ⟨.inr (.inl hl), own global hl⟩

/-- The globals that dispatches further down have still to append, innermost first. -/
def pendingGlobals (code : List (Frame RegistryStmt)) : List Global :=
  code.filterMap Frame.appends

theorem pendingGlobals_stmts (l : List RegistryStmt) (code : List (Frame RegistryStmt)) :
    pendingGlobals (l.map Frame.stmt ++ code) =
      l.filterMap RegistryStmt.appends ++ pendingGlobals code := by
  unfold pendingGlobals
  rw [List.filterMap_append, List.filterMap_map]
  rfl

theorem pendingGlobals_frame {frame : Frame RegistryStmt} (code : List (Frame RegistryStmt))
    (owns : frame.owns = true) : pendingGlobals (frame :: code) = pendingGlobals code := by
  cases frame with
  | stmt i => cases owns
  | _ => rfl

def heldGlobals (r : RegistryRun) : List Global := r.state.globals ++ pendingGlobals r.code

/-- An event that runs at once finds no other event with another outcome queued last for its
id, and no handler of a removal iterates the context to an event of the id it replaces. -/
def RegistryInOrder (r : RegistryRun) : DispatchLabel RegistryCallback Empty Unit → Prop
  | .callback event _ => r.context.owner = none →
      ∀ last ∈ lastOf RegistryChange.id (registryCallback event).id (changes r.context.sources),
        last.leaves = (registryCallback event).leaves
  | .dispatch _ => ∀ event ∈ r.context.sources.head?, ∀ global ∈ pendingGlobals r.code,
      global.id ≠ event.change.id
  | _ => True

instance (r : RegistryRun) : DecidablePred (RegistryInOrder r)
  | .callback event _ => inferInstanceAs (Decidable (_ →
      ∀ last ∈ lastOf RegistryChange.id (registryCallback event).id (changes r.context.sources),
        _ = _))
  | .dispatch _ => inferInstanceAs (Decidable (∀ event ∈ r.context.sources.head?,
      ∀ global ∈ pendingGlobals r.code, _ ≠ _))
  | .beginIteration | .run _ | .endIteration | .application _ => .isTrue trivial

structure RegistryInv (r : RegistryRun) : Prop where
  balanced : Dispatcher.Balanced r
  running : r.state.running = true
  current : ∀ event ∈ r.context.sources, event.generation = r.state.generation
  follows : Follows RegistryChange.id RegistryChange.leaves Global.id (changes r.invoked)
    (changes r.context.sources) (heldGlobals r)

theorem registryExecute_applied (thread : ContextThread) (running : r.state.running = true)
    (current : event.generation = r.state.generation)
    (nodup : ((heldGlobals r).map (·.id)).Nodup)
    (free : ∀ global ∈ pendingGlobals r.code, global.id ≠ event.change.id) :
    Applied RegistryChange.id RegistryChange.leaves Global.id event.change (heldGlobals r)
      (heldGlobals (registryDispatcher.execute () thread event r)) := by
  have held : heldGlobals (registryDispatcher.execute () thread event r) =
      withoutGlobal event.change.id r.state.globals ++ event.change.leaves.toList ++
        pendingGlobals r.code := by
    rw [← registryDispatchEvent_held running current, List.append_assoc,
      ← pendingGlobals_stmts]
    rfl
  rw [held]
  exact withoutGlobal_applied nodup free

/-- Dispatching does not end the session. -/
theorem registryExecute_session {thread : ContextThread} :
    (registryDispatcher.execute () thread event r).state.running = r.state.running ∧
      (registryDispatcher.execute () thread event r).state.generation = r.state.generation :=
  registryDispatchEvent_session

theorem RegistryInv.inlined (h : RegistryInv r) (free : r.context.owner = none)
    (overtakes : ∀ last ∈ lastOf RegistryChange.id change.id (changes r.context.sources),
      last.leaves = change.leaves)
    (balanced : Dispatcher.Balanced t)
    (ht : t = registryDispatcher.execute () .foreign (registryQueueEvent change r.state) { r with
      context := { r.context with owner := some .foreign, depth := r.context.depth + 1 }
      code := .inlineCall :: r.code
      invoked := r.invoked ++ [registryQueueEvent change r.state] }) : RegistryInv t := by
  subst ht
  have nothing : pendingGlobals r.code = [] := by
    rw [h.balanced.idle free]
    rfl
  refine ⟨balanced, registryExecute_session.1.trans h.running, ?_, ?_⟩
  · intro event hm
    rw [registryExecute_session.2]
    exact h.current event hm
  · show Follows _ _ _ (changes (r.invoked ++ [_])) (changes r.context.sources) _
    rw [changes_concat]
    refine h.follows.overtake overtakes (registryExecute_applied .foreign (r := { r with
      context := { r.context with owner := some .foreign, depth := r.context.depth + 1 }
      code := .inlineCall :: r.code
      invoked := r.invoked ++ [registryQueueEvent change r.state] }) h.running rfl
      h.follows.nodup ?_)
    intro global hm
    rw [pendingGlobals_frame r.code rfl, nothing] at hm
    cases hm

theorem RegistryInv.effect {label : DispatchLabel RegistryCallback Empty Unit}
    (h : RegistryInv r) (effect : registryDispatcher.Effect r label t)
    (inOrder : RegistryInOrder r label) : RegistryInv t := by
  have balanced : Dispatcher.Balanced t := h.balanced.effect _ effect
  cases effect with
  | filtered => exact h
  | inlined callback choice event hc free =>
    obtain rfl : registryQueueEvent (registryCallback callback) r.state = event :=
      Option.some.inj hc
    exact h.inlined free (inOrder free) balanced rfl
  | attached callback choice event hc owner =>
    obtain rfl : registryQueueEvent (registryCallback callback) r.state = event :=
      Option.some.inj hc
    refine ⟨balanced, h.running, ?_, ?_⟩
    · intro event hm
      rcases List.mem_append.mp hm with hm | hm
      · exact h.current event hm
      · rw [List.mem_singleton.mp hm]
        rfl
    · show Follows _ _ _ (changes (r.invoked ++ [_])) (changes (r.context.sources ++ [_]))
        (heldGlobals r)
      rw [changes_concat, changes_concat]
      exact h.follows.enqueue _
  | began => exact ⟨balanced, h.running, h.current, h.follows⟩
  | dispatched choice thread event code sources hc owner hs =>
    have follows := h.follows
    have current := h.current
    rw [hs] at follows current
    refine ⟨balanced, registryExecute_session.1.trans h.running, ?_, ?_⟩
    · intro event' hm
      rw [registryExecute_session.2]
      exact current event' (List.mem_cons_of_mem event hm)
    · refine follows.dequeue (registryExecute_applied thread (r := { r with
        context := { r.context with sources := sources } }) h.running
        (current event List.mem_cons_self) follows.nodup (inOrder event ?_))
      rw [hs]
      rfl
  | ran choice i rest hc =>
    have follows := h.follows
    unfold heldGlobals at follows
    rw [hc] at follows
    cases i with
    | handlers => exact ⟨balanced, h.running, h.current, follows⟩
    | append global =>
      refine ⟨balanced, h.running, h.current, ?_⟩
      have moved : r.state.globals ++ pendingGlobals (.stmt (.append global) :: rest) =
          r.state.globals ++ [global] ++ pendingGlobals rest := by
        rw [List.append_assoc]
        rfl
      rw [moved] at follows
      exact follows
  | released _ frame rest owns hc =>
    refine ⟨balanced, h.running, h.current, ?_⟩
    have follows := h.follows
    unfold heldGlobals at follows
    rwa [hc, pendingGlobals_frame rest owns] at follows
  | applied operation => exact operation.elim

/-- The list holds what the last event of each id has left, and nothing twice. -/
structure RegistryAgrees (events : List RegistryChange) (globals : List Global) : Prop where
  unique : (globals.map (·.id)).Nodup
  last : ∀ global, global ∈ globals ↔
    lastOf RegistryChange.id global.id events = some (.globalAdded global)

theorem registryInv_started (generation : UInt32) : RegistryInv (registryStarted generation) where
  balanced := ⟨rfl, by simp [registryStarted], by simp [registryStarted]⟩
  running := rfl
  current := by simp [registryStarted]
  follows := .start

theorem RegistryInv.agrees (h : RegistryInv r) (drained : r.context.sources = [])
    (done : pendingGlobals r.code = []) : RegistryAgrees (changes r.invoked) r.state.globals := by
  have follows := h.follows
  unfold heldGlobals at follows
  rw [drained, done, List.append_nil] at follows
  refine ⟨follows.nodup, fun global => ?_⟩
  rw [follows.drained global, Option.bind_eq_some_iff]
  constructor
  · rintro ⟨change, hl, leaves⟩
    cases change with
    | globalAdded global' =>
      obtain rfl : global' = global := Option.some.inj leaves
      exact hl
    | globalRemoved id => cases leaves
  · intro hl
    exact ⟨_, hl, rfl⟩

theorem registryEvents_inOrder {generation : UInt32}
    (h : Reach registryDispatcher.step RegistryInOrder (registryStarted generation) r)
    (drained : r.context.sources = []) (done : pendingGlobals r.code = []) :
    RegistryAgrees (changes r.invoked) r.state.globals := by
  have inv : RegistryInv r := h.invariant (registryInv_started generation)
    fun _ _ _ inv inOrder hs => inv.effect (registryDispatcher.step_effect hs) inOrder
  exact inv.agrees drained done

def addsGlobal (id version : UInt32) : DispatchLabel RegistryCallback Empty Unit :=
  .callback (.global id 0 none version none) ()

def removesGlobal (id : UInt32) : DispatchLabel RegistryCallback Empty Unit :=
  .callback (.globalRemove id) ()

/-- Two globals are added at once; then one is replaced and one removed in an iteration. -/
def replacedInTurn : RegistryRun :=
  final registryDispatcher.step (registryStarted 1)
    (addsGlobal 5 0 :: List.replicate 4 (.run ()) ++ addsGlobal 6 0 :: List.replicate 4 (.run ()) ++
      [.beginIteration, addsGlobal 5 1, removesGlobal 6, .dispatch ()] ++
      List.replicate 4 (.run ()) ++ .dispatch () :: List.replicate 2 (.run ()) ++ [.endIteration])

/-- A global is queued while the main thread iterates and removed while it does not. -/
def removedAtOnce : RegistryRun :=
  final registryDispatcher.step (registryStarted 1)
    [.beginIteration, addsGlobal 5 0, .endIteration, removesGlobal 5, .run (), .beginIteration,
      .dispatch (), .run (), .run (), .run (), .endIteration]

theorem registryEvents_inOrder_replacedInTurn :
    replacedInTurn.invoked.length = 4 ∧
      replacedInTurn.state.globals = [⟨5, 0, none, 1, []⟩] ∧
      RegistryAgrees (changes replacedInTurn.invoked) replacedInTurn.state.globals :=
  ⟨by decide +kernel, by decide +kernel,
    registryEvents_inOrder (r := replacedInTurn) (reach_final (by decide +kernel))
      (by decide +kernel) (by decide +kernel)⟩

theorem registryEvents_inOrder_fails :
    Reach registryDispatcher.step anyStep (registryStarted 1) removedAtOnce ∧
      removedAtOnce.context.sources = [] ∧ pendingGlobals removedAtOnce.code = [] ∧
      ¬ RegistryAgrees (changes removedAtOnce.invoked) removedAtOnce.state.globals := by
  refine ⟨reach_final (allAllowed_anyStep _ _), by decide +kernel, by decide +kernel, fun h => ?_⟩
  -- the older event has been dispatched after the removal
  have last := (h.last ⟨5, 0, none, 0, []⟩).mp (by decide +kernel)
  revert last
  decide +kernel

end PipewireGobject
