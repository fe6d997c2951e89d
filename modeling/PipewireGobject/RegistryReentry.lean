import PipewireGobject.RegistryFold

namespace PipewireGobject

/-- A statement finds nothing left to do with the list by the activations below it that it would
disturb: a dispatch that replaces a global, between its removal and its append, and a stop or
reset, before it empties the list. Nor does a start begin on the globals of another session. -/
def RegistryTask.undisturbing (result : PipewireResult) (s : RegistrySession)
    (rest : List RegistryTask) : RegistryTask → Prop
  | .dispatch event =>
    s.registry.running = true → event.generation = s.registry.generation →
      (event.change.leaves ≠ none → .clearGlobals ∉ rest ∧ pendingAppends rest = []) ∧
        ∀ global ∈ pendingAppends rest, global.id ≠ event.change.id
  | .stop => s.registry.running = true ∨ s.hasRegistry = true → pendingAppends rest = []
  | .coreConnectedNotify => s.connected = false → pendingAppends rest = []
  | .startProxies _ =>
    s.connected = true → result ≠ .getRegistryFailed → s.registry.running = true →
      .clearGlobals ∈ rest ∨ s.registry.globals ++ pendingAppends rest = []
  | _ => True

instance (result : PipewireResult) (s : RegistrySession) (rest : List RegistryTask) :
    DecidablePred (RegistryTask.undisturbing result s rest)
  | .dispatch event => inferInstanceAs (Decidable (s.registry.running = true →
      event.generation = s.registry.generation →
        (event.change.leaves ≠ none → .clearGlobals ∉ rest ∧ pendingAppends rest = []) ∧
        ∀ global ∈ pendingAppends rest, global.id ≠ event.change.id))
  | .stop => inferInstanceAs (Decidable (s.registry.running = true ∨ s.hasRegistry = true →
      pendingAppends rest = []))
  | .coreConnectedNotify => inferInstanceAs (Decidable (s.connected = false →
      pendingAppends rest = []))
  | .startProxies _ => inferInstanceAs (Decidable (s.connected = true →
      result ≠ .getRegistryFailed → s.registry.running = true →
        .clearGlobals ∈ rest ∨ s.registry.globals ++ pendingAppends rest = []))
  | .handlers | .emit _ | .append _ | .connect | .start _ | .coreSync | .coreSyncWait
  | .clearGlobals => .isTrue trivial

def RegistryUndisturbed (c : Config RegistrySession RegistryTask) :
    Label RegistryCall PipewireResult RegistryCallback → Prop
  | .run result => ∀ i ∈ c.code.head?, i.undisturbing result c.state c.code.tail
  | .call _ | .environment _ => True

instance (c : Config RegistrySession RegistryTask) : DecidablePred (RegistryUndisturbed c)
  | .run result => inferInstanceAs (Decidable (∀ i ∈ c.code.head?,
      i.undisturbing result c.state c.code.tail))
  | .call _ | .environment _ => .isTrue trivial

/-- The list is empty while the registry is stopped and follows the session while it runs, but
for what the activations on the stack have still to append or to empty. -/
structure RegistrySettled (s : RegistrySession) (code : List RegistryTask) : Prop where
  exclusive : .clearGlobals ∈ code → pendingAppends code = []
  appending : pendingAppends code ≠ [] → s.registry.running = true
  stopped : .clearGlobals ∉ code → s.registry.running = false → s.registry.globals = []
  folded : .clearGlobals ∉ code → s.registry.running = true →
    s.registry.globals ++ pendingAppends code = globalsAfter s.dispatched
  clearing : .clearGlobals ∈ code → s.registry.running = true → globalsAfter s.dispatched = []

variable {s t : RegistrySession} {code new rest : List RegistryTask} {i : RegistryTask}
variable {event : RegistryEvent} {result : PipewireResult}

/-- Statements that neither append to the list nor empty it. -/
def RegistryTask.passive : RegistryTask → Bool
  | .append _ | .clearGlobals => false
  | _ => true

theorem pendingAppends_passive (h : ∀ i ∈ new, i.passive = true) (rest : List RegistryTask) :
    pendingAppends (new ++ rest) = pendingAppends rest := by
  have none : new.filterMap RegistryTask.appends = [] := by
    rw [List.filterMap_eq_nil_iff]
    intro i hi
    have passive := h i hi
    cases i <;> simp_all [RegistryTask.passive, RegistryTask.appends]
  unfold pendingAppends
  rw [List.filterMap_append, none, List.nil_append]

theorem clearGlobals_passive (h : ∀ i ∈ new, i.passive = true) (rest : List RegistryTask) :
    .clearGlobals ∈ new ++ rest ↔ .clearGlobals ∈ rest := by
  rw [List.mem_append, or_iff_right]
  intro hm
  simpa [RegistryTask.passive] using h _ hm

/-- Passive statements come and go while the list and the session stay as they are. -/
theorem RegistrySettled.congr {code' : List RegistryTask} (h : RegistrySettled s code)
    (appends : pendingAppends code' = pendingAppends code)
    (clears : .clearGlobals ∈ code' ↔ .clearGlobals ∈ code) (registry : t.registry = s.registry)
    (dispatched : t.dispatched = s.dispatched) : RegistrySettled t code' where
  exclusive hm := appends.trans (h.exclusive (clears.mp hm))
  appending hne := by
    rw [registry]
    exact h.appending (appends ▸ hne)
  stopped hn := by
    rw [registry]
    exact h.stopped fun hm => hn (clears.mpr hm)
  folded hn := by
    rw [registry, appends, dispatched]
    exact h.folded fun hm => hn (clears.mpr hm)
  clearing hm := by
    rw [registry, dispatched]
    exact h.clearing (clears.mp hm)

theorem RegistrySettled.passive (h : RegistrySettled s (i :: rest)) (hi : i.passive = true)
    (hn : ∀ j ∈ new, j.passive = true) (registry : t.registry = s.registry)
    (dispatched : t.dispatched = s.dispatched) : RegistrySettled t (new ++ rest) := by
  have one : ∀ j ∈ [i], j.passive = true := by simpa using hi
  refine h.congr ?_ ?_ registry dispatched
  · exact (pendingAppends_passive hn rest).trans (pendingAppends_passive one rest).symm
  · exact (clearGlobals_passive hn rest).trans (clearGlobals_passive one rest).symm

theorem RegistrySettled.append {global : Global}
    (h : RegistrySettled s (.append global :: rest)) :
    RegistrySettled (registryExecTask result (.append global) s).1
      ((registryExecTask result (.append global) s).2 ++ rest) := by
  have running : s.registry.running = true := h.appending (by simp [pendingAppends,
    RegistryTask.appends])
  have unclear : .clearGlobals ∉ rest := by
    intro hm
    have none := h.exclusive (List.mem_cons_of_mem _ hm)
    simp [pendingAppends, RegistryTask.appends] at none
  have passive : ∀ j ∈ [RegistryTask.emit .itemsChanged, .emit (.globalAdded global)],
      j.passive = true := by simp [RegistryTask.passive]
  have clear := (clearGlobals_passive passive rest).not.mpr unclear
  refine ⟨fun hm => absurd hm clear, fun _ => running, ?_, ?_, fun hm => absurd hm clear⟩
  · intro _ stopped
    exact absurd (running.symm.trans stopped) (by simp)
  · intro _ _
    have folded := h.folded (by simpa using unclear) running
    have appends := pendingAppends_passive passive rest
    calc
      s.registry.globals ++ [global] ++ pendingAppends (_ ++ rest) =
          s.registry.globals ++ [global] ++ pendingAppends rest := congrArg _ appends
      _ = s.registry.globals ++ pendingAppends (.append global :: rest) := List.append_assoc ..
      _ = globalsAfter s.dispatched := folded

theorem RegistrySettled.clear (h : RegistrySettled s (.clearGlobals :: rest)) :
    RegistrySettled (registryExecTask result .clearGlobals s).1
      ((registryExecTask result .clearGlobals s).2 ++ rest) := by
  have none : pendingAppends rest = [] := h.exclusive List.mem_cons_self
  have empty (running : s.registry.running = true) : globalsAfter s.dispatched = [] :=
    h.clearing List.mem_cons_self running
  refine ⟨fun _ => none, fun hne => absurd none hne, fun _ _ => rfl, ?_, ?_⟩
  · intro _ running
    exact (congrArg ([] ++ ·) none).trans (empty running).symm
  · intro _ running
    exact empty running

theorem RegistrySettled.endSession (h : pendingAppends rest = []) :
    RegistrySettled (registryEndSession s).1 ((registryEndSession s).2 ++ rest) := by
  have clear : .clearGlobals ∈ (registryEndSession s).2 ++ rest := by
    simp [registryEndSession]
  have none : pendingAppends ((registryEndSession s).2 ++ rest) = [] := by
    unfold registryEndSession
    split <;> simpa [pendingAppends, RegistryTask.appends] using h
  refine ⟨fun _ => none, fun hne => absurd none hne, fun hn => absurd clear hn,
    fun hn => absurd clear hn, ?_⟩
  intro _ running
  exact absurd running Bool.false_ne_true

/-- A session that begins finds the list empty, or leaves that to the activations below. -/
theorem RegistrySettled.start {sync : Bool} (h : RegistrySettled s (.startProxies sync :: rest))
    (undisturbing : (RegistryTask.startProxies sync).undisturbing result s rest) :
    RegistrySettled (registryExecTask result (.startProxies sync) s).1
      ((registryExecTask result (.startProxies sync) s).2 ++ rest) := by
  simp only [registryExecTask, registryStart]
  split
  next => exact h.passive rfl (by simp) rfl rfl
  next connected =>
    split
    next => exact h.passive rfl (by simp) rfl rfl
    next failed =>
      have passive : ∀ j ∈ RegistryTask.emit .notifyRunning :: (if sync then [.coreSync] else []),
          j.passive = true := by
        split <;> simp [RegistryTask.passive]
      have clear := clearGlobals_passive passive rest
      have appends := pendingAppends_passive passive rest
      have empty : .clearGlobals ∉ rest → s.registry.globals ++ pendingAppends rest = [] := by
        intro hn
        cases running : s.registry.running with
        | true =>
          have ready := undisturbing (by simpa using connected) failed running
          exact ready.resolve_left hn
        | false =>
          have none : pendingAppends rest = [] := by
            by_contra hne
            have := h.appending hne
            simp [running] at this
          rw [none, h.stopped (by simpa using hn) running]
          rfl
      refine ⟨?_, fun _ => rfl, ?_, ?_, fun _ _ => rfl⟩
      · intro hm
        exact appends.trans (h.exclusive (List.mem_cons_of_mem _ (clear.mp hm)))
      · intro _ stopped
        exact absurd stopped.symm Bool.false_ne_true
      · intro hn _
        rw [appends]
        exact empty fun hm => hn (clear.mpr hm)

theorem RegistrySettled.dispatch (h : RegistrySettled s (.dispatch event :: rest))
    (undisturbing : (RegistryTask.dispatch event).undisturbing result s rest) :
    RegistrySettled (registryDispatch event s).1 ((registryDispatch event s).2 ++ rest) := by
  by_cases stale : s.registry.running = false ∨ event.generation ≠ s.registry.generation
  · rw [registryDispatch_stale stale]
    exact h.passive rfl (by simp) rfl rfl
  have running : s.registry.running = true := by simpa using fun hr => stale (.inl hr)
  have current : event.generation = s.registry.generation := by
    by_contra hg
    exact stale (.inr hg)
  obtain ⟨adds, others⟩ := undisturbing running current
  obtain ⟨held, appends, dispatched⟩ := registryDispatch_live running current
  have running' := (registryDispatch_session event s).1.trans running
  have clear : .clearGlobals ∈ (registryDispatch event s).2 ++ rest ↔ .clearGlobals ∈ rest := by
    rw [List.mem_append, or_iff_right]
    intro hm
    simpa [RegistryTask.finishes] using registryDispatch_finishes event s _ hm
  have split : pendingAppends ((registryDispatch event s).2 ++ rest) =
      event.change.leaves.toList ++ pendingAppends rest := by
    rw [← appends]
    exact List.filterMap_append
  refine ⟨?_, fun _ => running', ?_, ?_, ?_⟩
  · intro hm
    have cleared := clear.mp hm
    have none : event.change.leaves = none := by
      by_contra hne
      exact (adds hne).1 cleared
    have noneBelow : pendingAppends rest = [] := h.exclusive (List.mem_cons_of_mem _ cleared)
    rw [split, none, noneBelow]
    rfl
  · intro _ stopped
    exact absurd (running'.symm.trans stopped) (by simp)
  · intro hn _
    have folded : s.registry.globals ++ pendingAppends rest = globalsAfter s.dispatched :=
      h.folded (by simpa using fun hm => hn (clear.mpr hm)) running
    have nodup : (s.registry.globals.map (·.id)).Nodup := by
      have all := globalsAfter_nodup s.dispatched
      rw [← folded, List.map_append] at all
      exact all.of_append_left
    have kept : (pendingAppends rest).filter (fun g => g.id ≠ event.change.id) =
        pendingAppends rest := List.filter_eq_self.mpr (by simpa using others)
    rw [split, held, dispatched, globalsAfter_concat, ← folded, globalsChange_eq,
      List.filter_append, kept, withoutGlobal_eq_filter nodup]
    by_cases hl : event.change.leaves = none
    · simp [hl]
    · simp [(adds hl).2]
  · intro hm _
    have cleared := clear.mp hm
    have none : event.change.leaves = none := by
      by_contra hne
      exact (adds hne).1 cleared
    rw [dispatched, globalsAfter_concat, globalsChange_eq, none,
      h.clearing (List.mem_cons_of_mem _ cleared) running]
    rfl

theorem RegistrySettled.run (h : RegistrySettled s (i :: rest))
    (undisturbing : i.undisturbing result s rest) :
    RegistrySettled (registryExecTask result i s).1 ((registryExecTask result i s).2 ++ rest) := by
  cases i with
  | dispatch event => exact h.dispatch undisturbing
  | append global => exact h.append
  | startProxies sync => exact h.start undisturbing
  | clearGlobals => exact h.clear
  | stop =>
    simp only [registryExecTask, registryStopSession]
    split
    next => exact h.passive rfl (by simp) rfl rfl
    next active =>
      exact .endSession (undisturbing (by
        by_contra hn
        simp_all))
  | coreConnectedNotify =>
    simp only [registryExecTask]
    split
    next => exact h.passive rfl (by simp) rfl rfl
    next connected => exact .endSession (undisturbing (by simpa using connected))
  | handlers => exact h.passive rfl (by simp [registryExecTask]) rfl rfl
  | emit signal =>
    exact h.passive rfl (by simp [registryExecTask, RegistryTask.passive]) rfl rfl
  | connect =>
    simp only [registryExecTask]
    split <;> exact h.passive rfl (by simp [RegistryTask.passive]) rfl rfl
  | start sync =>
    simp only [registryExecTask]
    split
    · exact h.passive rfl (by split <;> simp [RegistryTask.passive]) rfl rfl
    · split <;> exact h.passive rfl (by simp [RegistryTask.passive]) rfl rfl
  | coreSync =>
    simp only [registryExecTask]
    split <;> exact h.passive rfl (by simp [RegistryTask.passive]) rfl rfl
  | coreSyncWait =>
    exact h.passive rfl (by simp only [registryExecTask]; split <;> simp [RegistryTask.passive])
      rfl rfl

theorem registryCall_eq {operation : RegistryCall} {r : RegistrySession × List RegistryTask}
    (hr : registryComponent.call operation s = some r) :
    (∀ i ∈ r.2, i.passive = true) ∧ r.1.registry = s.registry ∧ r.1.dispatched = s.dispatched := by
  cases operation with
  | dispatch position =>
    obtain ⟨event, -, rfl⟩ := Option.map_eq_some_iff.mp hr
    exact ⟨by simp [RegistryTask.passive], rfl, rfl⟩
  | _ =>
    cases Option.some.inj hr
    exact ⟨by simp [RegistryTask.passive], rfl, rfl⟩

theorem registrySettled_preserves :
    registryComponent.Preserves RegistryUndisturbed RegistrySettled where
  call operation s code r h _ _ hr := by
    obtain ⟨passive, registry, dispatched⟩ := registryCall_eq hr
    exact h.congr (pendingAppends_passive passive code) (clearGlobals_passive passive code)
      registry dispatched
  run result i s rest h undisturbed := h.run (undisturbed i rfl)
  environment callback s code t h _ ht := by
    cases Option.some.inj ht
    exact h.congr rfl Iff.rfl rfl rfl

theorem registrySettled_init : RegistrySettled registryInit.state registryInit.code where
  exclusive _ := rfl
  appending h := absurd rfl h
  stopped _ _ := rfl
  folded _ _ := rfl
  clearing _ _ := rfl

/-- The list follows the session. -/
structure RegistryFollowsSession (s : RegistrySession) : Prop where
  stopped : s.registry.running = false → s.registry.globals = []
  running : s.registry.running = true → s.registry.globals = globalsAfter s.dispatched

theorem registryGlobals_followSession {c : Config RegistrySession RegistryTask}
    (h : Reach registryComponent.step RegistryUndisturbed registryInit c) (idle : c.code = []) :
    RegistryFollowsSession c.state := by
  have settled := registrySettled_preserves.reach h registrySettled_init
  rw [idle] at settled
  have unclear : RegistryTask.clearGlobals ∉ ([] : List RegistryTask) := by simp
  refine ⟨settled.stopped unclear, fun running => ?_⟩
  rw [← settled.folded unclear running]
  exact (List.append_nil _).symm

/-- The registry is started on a core that is connected. -/
def registryStartSchedule : List (Label RegistryCall PipewireResult RegistryCallback) :=
  [.call (.setConnected true), .call .start] ++ List.replicate 4 (.run .succeeded)

/-- A global is reported and dispatched. -/
def registryAddSchedule (id version : UInt32) :
    List (Label RegistryCall PipewireResult RegistryCallback) :=
  [.environment (.global id 0 none version none), .call (.dispatch 0)]

/-- While a global is replaced, another is removed; a handler of `notify::running` starts the
registry that is being stopped, and the new session receives a global once the stop returns. -/
def restartedWhileStopping : Config RegistrySession RegistryTask :=
  final registryComponent.step registryInit
    (registryStartSchedule ++ registryAddSchedule 5 0 ++ List.replicate 6 (.run .succeeded) ++
      registryAddSchedule 6 0 ++ List.replicate 6 (.run .succeeded) ++
      registryAddSchedule 5 1 ++ List.replicate 2 (.run .succeeded) ++
      [.environment (.globalRemove 6), .call (.dispatch 0)] ++
      List.replicate 11 (.run .succeeded) ++
      .call .stop :: List.replicate 2 (.run .succeeded) ++
      .call .start :: List.replicate 8 (.run .succeeded) ++
      registryAddSchedule 7 0 ++ List.replicate 6 (.run .succeeded))

theorem registryGlobals_followSession_restartedWhileStopping :
    restartedWhileStopping.state.registry.running = true ∧
      restartedWhileStopping.state.registry.globals = [⟨7, 0, none, 0, []⟩] ∧
      RegistryFollowsSession restartedWhileStopping.state :=
  ⟨by decide +kernel, by decide +kernel, registryGlobals_followSession (c := restartedWhileStopping)
    (reach_final (by decide +kernel)) (by decide +kernel)⟩

/-- The handler also iterates the main context, which dispatches a global of the new session. -/
def receivedWhileStopping : Config RegistrySession RegistryTask :=
  final registryComponent.step registryInit
    (registryStartSchedule ++ .call .stop :: List.replicate 2 (.run .succeeded) ++
      .call .start :: List.replicate 4 (.run .succeeded) ++
      registryAddSchedule 5 0 ++ List.replicate 10 (.run .succeeded))

theorem registryGlobals_followSession_fails :
    Reach registryComponent.step anyStep registryInit receivedWhileStopping ∧
      receivedWhileStopping.code = [] ∧ ¬ RegistryFollowsSession receivedWhileStopping.state := by
  refine ⟨reach_final (allAllowed_anyStep _ _), by decide +kernel, fun h => ?_⟩
  -- the stop has emptied the list of the session that runs
  have folded := h.running (by decide +kernel)
  revert folded
  decide +kernel

end PipewireGobject
