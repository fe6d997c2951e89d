import PipewireGobject.ObjectRuns

namespace PipewireGobject

/-- What a wrapper shows of the info of its object. -/
structure ObjectView where
  state : Option CString := none
  error : Option CString := none
  paramInfos : List ParamInfo := []
  deriving DecidableEq

def ObjectWrapper.view (s : ObjectWrapper) : ObjectView := ⟨s.state, s.error, s.paramInfos⟩

/-- What is known of an object once an info of it has come: a device has no state, and a link has
no parameters. -/
def ObjectView.told (kind : ObjectKind) (info : ObjectInfo) (v : ObjectView) : ObjectView where
  state := if kind ≠ .device ∧ info.stateChanged then some info.state else v.state
  error := if kind ≠ .device ∧ info.stateChanged then info.error else v.error
  paramInfos :=
    if kind ≠ .link ∧ (info.params.isSome ∨ info.paramsChanged) then info.params.getD []
    else v.paramInfos

/-- The infos of the session that have told something of what a wrapper shows, and for a roundtrip
how many they were when its Done was processed. -/
structure ObjectKnown where
  told : List ObjectInfo := []
  asked : Nat → Nat := fun _ => 0

def ObjectKnown.ask (known : ObjectKnown) : ObjectStmt → ObjectKnown
  | .syncWait slot _ =>
    { known with asked := Function.update known.asked slot known.told.length }
  | _ => known

/-- The observer starts anew with each generation. -/
def objectObserver (kind : ObjectKind) :
    Observer ObjectWrapper ObjectStmt ObjectCall ObjectCallback ObjectKnown where
  sees i s t known := if t.generation = s.generation then known.ask i else {}
  hears callback known :=
    match callback with
    | .info (some info) =>
      if (objectOnInfo kind info).isSome then { known with told := known.told ++ [info] }
      else known
    | _ => known

def objectWatched (kind : ObjectKind) (objectId : UInt32) :
    Component (ObjectWrapper × ObjectKnown) ObjectStmt ObjectCall ObjectChoice ObjectCallback :=
  (objectComponent kind objectId).observed (objectObserver kind)

/-- What an event makes of what is shown. -/
def ObjectView.apply (kind : ObjectKind) (v : ObjectView) : ObjectChange → ObjectView
  | .info state paramInfos =>
    match kind with
    | .node => ⟨state.elim v.state fun s => some s.1, state.elim v.error Prod.snd,
        paramInfos.getD v.paramInfos⟩
    | .device => { v with paramInfos := paramInfos.getD [] }
    | .link => { v with
        state := state.elim v.state fun s => some s.1
        error := state.elim v.error Prod.snd }
  | .param _ | .removed => v

def ObjectSource.info (generation : UInt32) : ObjectSource → Option ObjectChange
  | .event ⟨generation', .info state paramInfos⟩ =>
    if generation' = generation then some (.info state paramInfos) else none
  | _ => none

/-- The infos that wait in the main context for the session of `generation`. -/
def waitingInfos (generation : UInt32) (queue : List ObjectSource) : List ObjectChange :=
  queue.filterMap (ObjectSource.info generation)

/-- What a statement that is left to run makes of what is shown. -/
def ObjectStmt.shows (kind : ObjectKind) (generation : UInt32) (v : ObjectView) :
    ObjectStmt → ObjectView
  | .dispatch event => if event.generation = generation then v.apply kind event.change else v
  | .updateState state error => { v with state := some state, error := error }
  | .updateError error => { v with error := error }
  | .updateParamInfos paramInfos => { v with paramInfos := paramInfos }
  | .appendParamInfo paramInfo => { v with paramInfos := v.paramInfos ++ [paramInfo] }
  | _ => v

/-- The statements that are left of an update. -/
def ObjectStmt.updates : ObjectStmt → Bool
  | .dispatch _ | .updateState _ _ | .updateError _ | .updateParamInfos _
  | .appendParamInfo _ => true
  | _ => false

/-- The statements that are left of the end of a session. -/
def ObjectStmt.ends : ObjectStmt → Bool
  | .clearBound | .clearRunning | .clearState | .clearError | .clearParamInfos => true
  | _ => false

/-- A session begins after another one has ended, and no event that waits is taken for one of it.
A roundtrip has a frame of its own. -/
def ObjectStmt.inTurn (choice : ObjectChoice) (s : ObjectWrapper) (rest : List ObjectStmt) :
    ObjectStmt → Bool
  | .startProxies next =>
    (objectStart choice.result next s).1.generation = s.generation ||
      !s.running && rest.all (fun j => !j.updates && !j.ends) &&
        waitingInfos (s.generation + 1) s.queue = []
  | .syncWait slot _ => slot ∉ s.completed && .completion slot ∉ s.queue
  | _ => true

/-- An update is not interrupted by another one, and a session not by the next. -/
def ObjectUpdatesInTurn (c : Config ObjectWrapper ObjectStmt) :
    Label ObjectCall ObjectChoice ObjectCallback → Prop
  | .run choice => ∀ i ∈ c.code.head?, i.inTurn choice c.state c.code.tail = true
  | .call .iterate => waitingInfos c.state.generation (c.state.queue.take 1) = [] ∨
      ∀ j ∈ c.code, j.updates = false
  | .call _ | .environment _ => True

instance objectUpdatesInTurnDecidable (c : Config ObjectWrapper ObjectStmt) :
    DecidablePred (ObjectUpdatesInTurn c)
  | .run choice => inferInstanceAs (Decidable (∀ i ∈ c.code.head?,
      i.inTurn choice c.state c.code.tail = true))
  | .call .iterate => inferInstanceAs (Decidable (_ ∨ ∀ j ∈ c.code, j.updates = false))
  | .call .start | .call .sync | .call .stop | .call .enumParams | .call .enumParamsSync
  | .call .subscribeParams | .call (.setConnected _) | .call .coreConnectedNotify
  | .environment _ => .isTrue trivial

/-- What is left to run makes this of what is shown. -/
def shownAfter (kind : ObjectKind) (generation : UInt32) (code : List ObjectStmt)
    (v : ObjectView) : ObjectView :=
  code.foldl (fun v i => i.shows kind generation v) v

variable {kind : ObjectKind} {objectId : UInt32} {generation : UInt32} {v : ObjectView}
variable {s t : ObjectWrapper} {code new rest : List ObjectStmt} {i : ObjectStmt}
variable {choice : ObjectChoice}

theorem shownAfter_append : shownAfter kind generation (new ++ rest) v =
    shownAfter kind generation rest (shownAfter kind generation new v) :=
  List.foldl_append

theorem shows_plain (plain : i.updates = false) : i.shows kind generation v = v := by
  cases i <;> first | rfl | simp [ObjectStmt.updates] at plain

theorem shownAfter_plain (plain : ∀ j ∈ code, j.updates = false) :
    shownAfter kind generation code v = v := by
  induction code generalizing v with
  | nil => rfl
  | cons j code ih =>
    show shownAfter kind generation code (j.shows kind generation v) = v
    rw [shows_plain (plain j List.mem_cons_self)]
    exact ih fun j hj => plain j (List.mem_cons_of_mem _ hj)

theorem waitingInfos_append {later : List ObjectSource} {queue : List ObjectSource} :
    waitingInfos generation (queue ++ later) =
      waitingInfos generation queue ++ waitingInfos generation later :=
  List.filterMap_append

/-- What an info tells is what its event makes of what is shown. -/
theorem told_onInfo (info : ObjectInfo) (v : ObjectView) :
    v.told kind info = (objectOnInfo kind info).elim v (v.apply kind) := by
  obtain ⟨stateChanged, paramsChanged, state, error, params⟩ := info
  cases kind <;> cases stateChanged <;> cases paramsChanged <;> cases params <;>
    simp [ObjectView.told, objectOnInfo, nodeOnInfo, deviceOnInfo, linkOnInfo, ObjectView.apply]

/-- What a wrapper shows once `infos` have been told. -/
def shownOf (kind : ObjectKind) (infos : List ObjectInfo) : ObjectView :=
  infos.foldl (fun v info => v.told kind info) {}

theorem shownOf_concat (infos : List ObjectInfo) (info : ObjectInfo) :
    shownOf kind (infos ++ [info]) = (shownOf kind infos).told kind info :=
  List.foldl_append

/-- Of the infos told, the last ones wait as these changes, and the others are shown. -/
def ReportedAs (kind : ObjectKind) (told : List ObjectInfo) (waiting : List ObjectChange)
    (v : ObjectView) : Prop :=
  ∃ before later, told = before ++ later ∧ later.map (objectOnInfo kind) = waiting.map some ∧
    v = shownOf kind before

variable {told : List ObjectInfo} {waiting : List ObjectChange} {change : ObjectChange}

theorem ReportedAs.start : ReportedAs kind [] [] {} := ⟨[], [], rfl, rfl, rfl⟩

theorem ReportedAs.tell (h : ReportedAs kind told waiting v) {infos : List ObjectInfo}
    {changes : List ObjectChange} (heard : infos.map (objectOnInfo kind) = changes.map some) :
    ReportedAs kind (told ++ infos) (waiting ++ changes) v := by
  obtain ⟨before, later, rfl, old, rfl⟩ := h
  exact ⟨before, later ++ infos, by simp, by simp [old, heard], rfl⟩

theorem ReportedAs.show (h : ReportedAs kind told (change :: waiting) v) :
    ReportedAs kind told waiting (v.apply kind change) := by
  obtain ⟨before, later, rfl, changes, rfl⟩ := h
  cases later with
  | nil => cases changes
  | cons info later =>
    obtain ⟨first, changes⟩ := List.cons.inj changes
    refine ⟨before ++ [info], later, by simp, changes, ?_⟩
    rw [shownOf_concat, told_onInfo, first]
    rfl

/-- All but as many infos as wait are shown. -/
theorem ReportedAs.view (h : ReportedAs kind told waiting v) :
    v = shownOf kind (told.take (told.length - waiting.length)) := by
  obtain ⟨before, later, rfl, changes, rfl⟩ := h
  have length : later.length = waiting.length := by simpa using congrArg List.length changes
  have shown : (before ++ later).length - waiting.length = before.length := by
    rw [List.length_append]
    omega
  rw [shown, List.take_left]

/-- What is left of the dispatch of an info shows it. -/
theorem objectUpdates_shows (state : Option (CString × Option CString))
    (paramInfos : Option (List ParamInfo)) :
    shownAfter kind generation (objectUpdates kind state paramInfos) v =
      v.apply kind (.info state paramInfos) := by
  cases kind <;> cases state <;> cases paramInfos <;> rfl

theorem appendParamInfos_shows (paramInfos : List ParamInfo) :
    shownAfter kind generation (paramInfos.map .appendParamInfo) v =
      { v with paramInfos := v.paramInfos ++ paramInfos } := by
  induction paramInfos generalizing v with
  | nil => simp [shownAfter]
  | cons paramInfo paramInfos ih =>
    show shownAfter kind generation (paramInfos.map .appendParamInfo) _ = _
    rw [ih]
    simp [ObjectStmt.shows]

/-- A statement leaves the session as it is: it shows what it is to show, or leaves that to what it
goes on into. -/
structure KeepsShown (kind : ObjectKind) (s : ObjectWrapper) (i : ObjectStmt) (t : ObjectWrapper)
    (new : List ObjectStmt) : Prop where
  generation : t.generation = s.generation
  unended : ∀ j ∈ new, j.ends = false
  shown : shownAfter kind s.generation new t.view = i.shows kind s.generation s.view
  queue : t.queue = s.queue ∨ ∃ slot caller dones, i = .syncWait slot caller ∧
    t.queue = s.queue ++ List.replicate dones (.completion slot)
  completed : ∀ slot ∈ t.completed, slot ∈ s.completed

/-- Nothing that is shown changes. -/
theorem KeepsShown.plain (view : t.view = s.view) (generation : t.generation = s.generation)
    (queue : t.queue = s.queue) (completed : ∀ slot ∈ t.completed, slot ∈ s.completed)
    (plain : i.updates = false) (added : ∀ j ∈ new, j.updates = false ∧ j.ends = false) :
    KeepsShown kind s i t new where
  generation := generation
  unended j hj := (added j hj).2
  shown := by rw [shownAfter_plain fun j hj => (added j hj).1, shows_plain plain, view]
  queue := .inl queue
  completed := completed

theorem afterStart_plain (next : AfterStart) :
    ∀ j ∈ next.code, j.updates = false ∧ j.ends = false := by
  cases next <;> simp [AfterStart.code, ObjectStmt.updates, ObjectStmt.ends]

theorem objectUpdates_unended (state : Option (CString × Option CString))
    (paramInfos : Option (List ParamInfo)) :
    ∀ j ∈ objectUpdates kind state paramInfos, j.ends = false := by
  cases kind <;> cases state <;> cases paramInfos <;> simp [objectUpdates, ObjectStmt.ends]

theorem objectDispatch_shown (running : s.running = true) (event : ObjectEvent) :
    KeepsShown kind s (.dispatch event) (objectDispatch kind event s).1
      (objectDispatch kind event s).2 := by
  obtain ⟨generation, change⟩ := event
  unfold objectDispatch
  by_cases live : generation = s.generation
  · rw [if_neg (by simp [running, live])]
    cases change with
    | info state paramInfos =>
      refine ⟨rfl, objectUpdates_unended state paramInfos, ?_, .inl rfl, fun _ => id⟩
      rw [objectUpdates_shows, ObjectStmt.shows, if_pos live]
    | param param =>
      refine ⟨rfl, by simp [ObjectStmt.ends], ?_, .inl rfl, fun _ => id⟩
      rw [ObjectStmt.shows, if_pos live]
      rfl
    | removed =>
      refine ⟨rfl, by simp [ObjectStmt.ends], ?_, .inl rfl, fun _ => id⟩
      rw [ObjectStmt.shows, if_pos live]
      rfl
  · rw [if_pos (.inr live)]
    refine ⟨rfl, by simp, ?_, .inl rfl, fun _ => id⟩
    rw [ObjectStmt.shows, if_neg live]
    rfl

/-- What a statement can do while the wrapper runs and no session ends. -/
theorem objectExec_shown (kind : ObjectKind) (choice : ObjectChoice) (running : s.running = true)
    (going : i.ends = false) :
    KeepsShown kind s i (objectExec kind choice i s).1 (objectExec kind choice i s).2 ∨
      .clearBound ∈ (objectExec kind choice i s).2 ∨
      (∃ next, i = .startProxies next) ∧
        (objectExec kind choice i s).1.generation ≠ s.generation := by
  have plain : ∀ {t new}, i.updates = false → t.view = s.view → t.generation = s.generation →
      t.queue = s.queue → t.completed = s.completed →
      (∀ j ∈ new, j.updates = false ∧ j.ends = false) → KeepsShown kind s i t new :=
    fun plain view generation queue completed added =>
      .plain view generation queue (fun slot hs => completed ▸ hs) plain added
  cases i with
  | clearBound | clearRunning | clearState | clearError | clearParamInfos =>
    simp [ObjectStmt.ends] at going
  | dispatch event => exact .inl (objectDispatch_shown running event)
  | updateState state error =>
    refine .inl ?_
    simp only [objectExec]
    split
    next => exact ⟨rfl, by simp [ObjectStmt.ends], rfl, .inl rfl, fun _ => id⟩
    next same =>
      have shown : s.state = some state := not_not.mp same
      refine ⟨rfl, by simp [ObjectStmt.ends], ?_, .inl rfl, fun _ => id⟩
      simp [shownAfter, ObjectStmt.shows, ObjectWrapper.view, shown]
  | updateError error =>
    refine .inl ?_
    simp only [objectExec]
    split
    next => exact ⟨rfl, by simp [ObjectStmt.ends], rfl, .inl rfl, fun _ => id⟩
    next same =>
      have shown : s.error = error := not_not.mp same
      refine ⟨rfl, by simp, ?_, .inl rfl, fun _ => id⟩
      simp [shownAfter, ObjectStmt.shows, ObjectWrapper.view, shown]
  | updateParamInfos paramInfos =>
    refine .inl ⟨rfl, ?_, ?_, .inl rfl, fun _ => id⟩
    · intro j hj
      rcases List.mem_cons.mp hj with rfl | hj
      · rfl
      rcases List.mem_append.mp hj with hj | hj
      · obtain ⟨paramInfo, -, rfl⟩ := List.mem_map.mp hj
        rfl
      · rw [List.mem_singleton.mp hj]
        rfl
    · simp only [objectExec, List.cons_append]
      show shownAfter kind s.generation (paramInfos.map .appendParamInfo ++ _) _ = _
      rw [shownAfter_append, appendParamInfos_shows]
      rfl
  | appendParamInfo paramInfo =>
    exact .inl ⟨rfl, by simp [objectExec, ObjectStmt.ends], rfl, .inl rfl, fun _ => id⟩
  | connect | coreSync caller | enumParams sync =>
    simp only [objectExec]
    split <;>
      exact .inl (plain rfl rfl rfl rfl rfl (by simp [ObjectStmt.updates, ObjectStmt.ends]))
  | start next =>
    simp only [objectExec, running, if_true]
    exact .inl (plain rfl rfl rfl rfl rfl (afterStart_plain next))
  | startProxies next =>
    simp only [objectExec]
    obtain ⟨hasRegistry, hasObject, hs⟩ | hs := objectStart_cases choice.result next s
    · rw [hs]
      exact .inl (plain rfl rfl rfl rfl rfl (by simp))
    · rw [hs]
      exact .inr (.inr ⟨⟨next, rfl⟩, by simp⟩)
  | syncEnter caller =>
    simp only [objectExec]
    split
    · exact .inl (plain rfl rfl rfl rfl rfl (by simp))
    · exact .inl (.plain rfl rfl rfl (fun _ hs => (List.mem_filter.mp hs).1) rfl
        (by simp [ObjectStmt.updates, ObjectStmt.ends]))
  | syncWait slot caller =>
    have added : ∀ j ∈ (objectExec kind choice (.syncWait slot caller) s).2,
        j.updates = false ∧ j.ends = false := by
      simp only [objectExec, objectSyncWait]
      split
      · simp
      · cases caller <;> simp [ObjectStmt.updates, ObjectStmt.ends]
    exact .inl ⟨rfl, fun j hj => (added j hj).2, shownAfter_plain fun j hj => (added j hj).1,
      .inr ⟨slot, caller, choice.dones, rfl, rfl⟩, fun _ => id⟩
  | syncIterate slot request =>
    simp only [objectExec]
    split
    · exact .inl (plain rfl rfl rfl rfl rfl (by simp [ObjectStmt.updates, ObjectStmt.ends]))
    · cases request <;> exact .inl (plain rfl rfl rfl rfl rfl (by simp))
  | stop =>
    simp only [objectExec, objectStopSession]
    split
    · exact .inl (plain rfl rfl rfl rfl rfl (by simp))
    · exact .inr (.inl (by simp [objectEndSession]))
  | coreConnectedNotify =>
    simp only [objectExec]
    split
    · exact .inl (plain rfl rfl rfl rfl rfl (by simp))
    · exact .inr (.inl (by simp [objectEndSession]))
  | enumParamsCall sync =>
    simp only [objectExec, objectEnumParamsCall]
    split
    · exact .inl (plain rfl rfl rfl rfl rfl (by simp))
    · exact .inl (plain rfl rfl rfl rfl rfl
        (by split <;> simp [ObjectStmt.updates, ObjectStmt.ends]))
  | _ =>
    exact .inl (plain rfl rfl rfl rfl rfl
      (by simp [objectExec, ObjectStmt.updates, ObjectStmt.ends]))

/-- The statements after which a wrapper does not run any more. -/
def ObjectStmt.leaves : ObjectStmt → Bool
  | .clearBound | .clearRunning => true
  | _ => false

/-- No more infos wait behind the completion of a roundtrip than have been told since its Done. -/
structure Answered (known : ObjectKnown) (generation : UInt32) (queue : List ObjectSource)
    (completed : List Nat) : Prop where
  waiting : ∀ before slot after, queue = before ++ .completion slot :: after →
    known.asked slot + (waitingInfos generation after).length ≤ known.told.length
  completed : ∀ slot ∈ completed,
    known.asked slot + (waitingInfos generation queue).length ≤ known.told.length

variable {known known' : ObjectKnown} {queue later : List ObjectSource} {completed : List Nat}

/-- Of a session that begins, nothing is known. -/
theorem Answered.start (fresh : waitingInfos generation queue = []) :
    Answered {} generation queue completed where
  waiting before slot after hq := by
    rw [hq, waitingInfos_append, List.append_eq_nil_iff] at fresh
    have none : waitingInfos generation after = [] := fresh.2
    simp [none]
  completed slot hs := by simp [fresh]

theorem Answered.mono {completed' : List Nat} (h : Answered known generation queue completed)
    (fewer : ∀ slot ∈ completed', slot ∈ completed) :
    Answered known generation queue completed' where
  waiting := h.waiting
  completed slot hs := h.completed slot (fewer slot hs)

theorem waitingInfos_length_le (generation : UInt32) {shorter : List ObjectSource}
    (h : shorter.Sublist queue) :
    (waitingInfos generation shorter).length ≤ (waitingInfos generation queue).length :=
  (h.filterMap _).length_le

/-- Sources are queued; of the infos among them the observer has heard. -/
theorem Answered.append (h : Answered known generation queue completed)
    (asked : ∀ slot, slot ∈ completed ∨ .completion slot ∈ queue →
      known'.asked slot = known.asked slot)
    (told : known.told.length + (waitingInfos generation later).length ≤ known'.told.length)
    (new : ∀ slot, .completion slot ∈ later →
      known'.asked slot + (waitingInfos generation later).length ≤ known'.told.length) :
    Answered known' generation (queue ++ later) completed where
  waiting before slot after hq := by
    rcases List.append_eq_append_iff.mp hq with ⟨middle, -, rfl⟩ | ⟨middle, rfl, hl⟩
    · have fewer := waitingInfos_length_le generation
        ((List.sublist_cons_self (.completion slot) after).trans
          (List.sublist_append_right middle _))
      have bound := new slot (List.mem_append_right _ List.mem_cons_self)
      omega
    · cases middle with
      | nil =>
        obtain rfl : .completion slot :: after = later := hl
        have fewer := waitingInfos_length_le generation
          (List.sublist_cons_self (.completion slot) after)
        have bound := new slot List.mem_cons_self
        omega
      | cons source middle =>
        obtain ⟨rfl, rfl⟩ := List.cons.inj hl
        have old := h.waiting before slot middle rfl
        rw [asked slot (.inr (List.mem_append_right _ List.mem_cons_self))]
        show _ + (waitingInfos generation (middle ++ later)).length ≤ _
        rw [waitingInfos_append, List.length_append]
        omega
  completed slot hs := by
    have old := h.completed slot hs
    rw [asked slot (.inl hs), waitingInfos_append, List.length_append]
    omega

/-- The first source is dispatched. -/
theorem Answered.tail {source : ObjectSource}
    (h : Answered known generation (source :: queue) completed) :
    Answered known generation queue completed where
  waiting before slot after hq := h.waiting (source :: before) slot after (by simp [hq])
  completed slot hs := by
    have old := h.completed slot hs
    have fewer := waitingInfos_length_le generation
      (List.sublist_cons_self source queue)
    omega

theorem Answered.complete {slot : Nat}
    (h : Answered known generation (.completion slot :: queue) completed) :
    Answered known generation queue (slot :: completed) where
  waiting := h.tail.waiting
  completed slot' hs := by
    rcases List.mem_cons.mp hs with rfl | hs
    · exact h.waiting [] slot' queue rfl
    · exact h.tail.completed slot' hs

theorem waitingInfos_completions (slot dones : Nat) :
    waitingInfos generation (List.replicate dones (.completion slot)) = [] := by
  refine List.filterMap_eq_nil_iff.mpr fun source hs => ?_
  rw [List.eq_of_mem_replicate hs]
  rfl

/-- The Done of a roundtrip is processed, whose frame is its own. -/
theorem Answered.ask (h : Answered known generation queue completed) {slot : Nat} (dones : Nat)
    (caller : SyncCaller) (unused : slot ∉ completed) (none : .completion slot ∉ queue) :
    Answered (known.ask (.syncWait slot caller)) generation
      (queue ++ List.replicate dones (.completion slot)) completed := by
  refine h.append (fun slot' used => ?_) ?_ fun slot' hs => ?_
  · refine Function.update_of_ne ?_ _ _
    rintro rfl
    exact used.elim unused none
  · rw [waitingInfos_completions]
    exact Nat.le_refl _
  · cases List.eq_of_mem_replicate hs
    rw [waitingInfos_completions]
    have asked : (known.ask (.syncWait slot caller)).asked slot = known.told.length :=
      Function.update_self slot _ _
    rw [asked]
    exact Nat.le_refl _

/-- What is left to run shows what has been told, but for the infos that wait. -/
structure ObjectShows (kind : ObjectKind) (s : ObjectWrapper × ObjectKnown)
    (code : List ObjectStmt) : Prop where
  unended : ∀ j ∈ code, j.ends = false
  reported : ReportedAs kind s.2.told (waitingInfos s.1.generation s.1.queue)
    (shownAfter kind s.1.generation code s.1.view)
  answered : Answered s.2 s.1.generation s.1.queue s.1.completed

/-- This holds in a session that does not end. -/
def ObjectAgrees (kind : ObjectKind) (s : ObjectWrapper × ObjectKnown) (code : List ObjectStmt) :
    Prop :=
  s.1.running = true → (∀ j ∈ code, j.leaves = false) → ObjectShows kind s code

/-- A wrapper that is stopped, with nothing left to clear, shows nothing. -/
theorem ObjectSettled.view_empty (h : ObjectSettled s code) (stopped : s.running = false)
    (unended : ∀ j ∈ code, j.ends = false) : s.view = {} := by
  have empty (j : ObjectStmt) (ends : j.ends = true) : ¬s.copied j := fun copied => by
    have pending := unended j (h.copied stopped j copied)
    rw [ends] at pending
    cases pending
  have state : s.state = none := not_not.mp (empty .clearState rfl)
  have error : s.error = none := not_not.mp (empty .clearError rfl)
  have paramInfos : s.paramInfos = [] := not_not.mp (empty .clearParamInfos rfl)
  rw [ObjectWrapper.view, state, error, paramInfos]

/-- A session has begun. -/
theorem ObjectAgrees.begins {next : AfterStart}
    (settled : ObjectSettled s (.startProxies next :: rest))
    (turn : (ObjectStmt.startProxies next).inTurn choice s rest = true)
    (begun : (objectExec kind choice (.startProxies next) s).1.generation ≠ s.generation) :
    ObjectAgrees kind ((objectExec kind choice (.startProxies next) s).1,
        (objectObserver kind).sees (.startProxies next) s
          (objectExec kind choice (.startProxies next) s).1 known)
      ((objectExec kind choice (.startProxies next) s).2 ++ rest) := by
  simp only [objectObserver, if_neg begun]
  simp only [objectExec] at begun ⊢
  simp only [ObjectStmt.inTurn, begun, decide_false, Bool.false_or, Bool.and_eq_true,
    Bool.not_eq_true', List.all_eq_true, decide_eq_true_eq] at turn
  obtain ⟨⟨stopped, quiet⟩, fresh⟩ := turn
  obtain ⟨hasRegistry, hasObject, hs⟩ | hs := objectStart_cases choice.result next s
  · rw [hs] at begun
    exact absurd rfl begun
  have view : s.view = {} := by
    refine settled.view_empty stopped fun j hj => ?_
    rcases List.mem_cons.mp hj with rfl | hj
    · rfl
    · exact (quiet j hj).2
  have plain : ∀ j ∈ (.emit .notifyRunning :: .emit .notifyBound :: next.code) ++ rest,
      j.updates = false ∧ j.ends = false := by
    intro j hj
    rcases List.mem_append.mp hj with hj | hj
    · rcases List.mem_cons.mp hj with rfl | hj
      · exact ⟨rfl, rfl⟩
      · rcases List.mem_cons.mp hj with rfl | hj
        · exact ⟨rfl, rfl⟩
        · exact afterStart_plain next j hj
    · exact quiet j hj
  rw [hs]
  intro _ _
  refine ⟨fun j hj => (plain j hj).2, ?_, .start fresh⟩
  show ReportedAs kind [] (waitingInfos (s.generation + 1) s.queue) (shownAfter kind _ _ s.view)
  rw [fresh, shownAfter_plain fun j hj => (plain j hj).1, view]
  exact .start

/-- A statement leaves nothing to wait, but the completions of a roundtrip. -/
theorem KeepsShown.waitingInfos_eq (h : KeepsShown kind s i t new) :
    waitingInfos s.generation t.queue = waitingInfos s.generation s.queue := by
  rcases h.queue with same | ⟨slot, caller, dones, -, added⟩
  · rw [same]
  · rw [added, waitingInfos_append, waitingInfos_completions, List.append_nil]

theorem ask_told (known : ObjectKnown) (i : ObjectStmt) : (known.ask i).told = known.told := by
  cases i <;> rfl

theorem KeepsShown.answered (h : KeepsShown kind s i t new)
    (turn : i.inTurn choice s rest = true)
    (answered : Answered known s.generation s.queue s.completed) :
    Answered (known.ask i) s.generation t.queue t.completed := by
  rcases h.queue with same | ⟨slot, caller, dones, rfl, added⟩
  · rw [same]
    cases i with
    | syncWait slot caller =>
      simp only [ObjectStmt.inTurn, Bool.and_eq_true, decide_eq_true_eq] at turn
      have asked := answered.ask 0 caller turn.1 turn.2
      rw [List.replicate_zero, List.append_nil] at asked
      exact asked.mono h.completed
    | _ => exact answered.mono h.completed
  · simp only [ObjectStmt.inTurn, Bool.and_eq_true, decide_eq_true_eq] at turn
    rw [added]
    exact (answered.ask dones caller turn.1 turn.2).mono h.completed

theorem ObjectAgrees.run (h : ObjectAgrees kind (s, known) (i :: rest))
    (settled : ObjectSettled s (i :: rest)) (turn : i.inTurn choice s rest = true) :
    ObjectAgrees kind ((objectExec kind choice i s).1,
        (objectObserver kind).sees i s (objectExec kind choice i s).1 known)
      ((objectExec kind choice i s).2 ++ rest) := by
  by_cases begun : ∃ next, i = .startProxies next ∧
      (objectExec kind choice i s).1.generation ≠ s.generation
  · obtain ⟨next, rfl, begun⟩ := begun
    exact .begins settled turn begun
  intro running staying
  have below : ∀ j ∈ rest, j.leaves = false := fun j hj => staying j (List.mem_append_right _ hj)
  have added : ∀ j ∈ (objectExec kind choice i s).2, j.leaves = false := fun j hj =>
    staying j (List.mem_append_left _ hj)
  by_cases leaves : i.leaves = true
  · -- a session that ends goes on to its end
    cases i with
    | clearBound =>
      have pending : .clearRunning ∈ (objectExec kind choice .clearBound s).2 := by
        simp only [objectExec]
        split <;> simp
      exact absurd (added _ pending) (by simp [ObjectStmt.leaves])
    | clearRunning =>
      simp only [objectExec] at running
      split at running
      next => exact absurd running Bool.false_ne_true
      next stopped => exact absurd running stopped
    | _ => simp [ObjectStmt.leaves] at leaves
  have up : s.running = true := by
    by_cases keeps : i.keepsRunning = true
    · exact (objectExec_keepsRunning kind choice s keeps).1 ▸ running
    cases i with
    | startProxies next =>
      have same : (objectStart choice.result next s).1.generation = s.generation := by
        by_contra other
        exact begun ⟨next, rfl, other⟩
      obtain ⟨hasRegistry, hasObject, hs⟩ | hs := objectStart_cases choice.result next s
      · simp only [objectExec, hs] at running
        exact running
      · simp [hs] at same
    | clearRunning => simp [ObjectStmt.leaves] at leaves
    | _ => simp [ObjectStmt.keepsRunning] at keeps
  obtain ⟨unended, reported, answered⟩ :=
    h up (List.forall_mem_cons.mpr ⟨by simpa using leaves, below⟩)
  obtain ⟨going, unended⟩ := List.forall_mem_cons.mp unended
  rcases objectExec_shown kind choice up going with kept | ended | ⟨⟨next, rfl⟩, other⟩
  · refine ⟨fun j hj => ?_, ?_, ?_⟩
    · rcases List.mem_append.mp hj with hj | hj
      · exact kept.unended j hj
      · exact unended j hj
    · simp only [objectObserver, kept.generation, if_true, kept.waitingInfos_eq, shownAfter_append,
        kept.shown, ask_told]
      exact reported
    · simp only [objectObserver, kept.generation, if_true]
      exact kept.answered turn answered
  · exact absurd (added _ ended) (by simp [ObjectStmt.leaves])
  · exact absurd ⟨next, rfl, other⟩ begun

theorem dispatch_shows (event : ObjectEvent) :
    (ObjectStmt.dispatch event).shows kind generation v =
      ((ObjectSource.event event).info generation).elim v (v.apply kind) := by
  obtain ⟨generation', change⟩ := event
  simp only [ObjectStmt.shows]
  cases change with
  | info state paramInfos =>
    simp only [ObjectSource.info]
    split <;> rfl
  | param param | removed => split <;> rfl

theorem waitingInfos_event {event : ObjectEvent} :
    waitingInfos generation (.event event :: queue) =
      ((ObjectSource.event event).info generation).toList ++ waitingInfos generation queue := by
  cases hi : (ObjectSource.event event).info generation with
  | none => exact List.filterMap_cons_none hi
  | some change => exact List.filterMap_cons_some hi

theorem ObjectAgrees.call {operation : ObjectCall} {r : ObjectWrapper × List ObjectStmt}
    (h : ObjectAgrees kind (s, known) code)
    (turn : ObjectUpdatesInTurn ⟨s, code⟩ (.call operation))
    (hr : objectCall kind operation s = some r) :
    ObjectAgrees kind (r.1, known) (r.2 ++ code) := by
  have adds : ∀ {j : ObjectStmt}, j.updates = false → j.ends = false →
      ObjectAgrees kind (s, known) (j :: code) := by
    intro j plain going running staying
    obtain ⟨unended, reported, answered⟩ := h running (List.forall_mem_cons.mp staying).2
    refine ⟨List.forall_mem_cons.mpr ⟨going, unended⟩, ?_, answered⟩
    show ReportedAs kind _ _ (shownAfter kind s.generation code (j.shows kind s.generation s.view))
    rw [shows_plain plain]
    exact reported
  cases operation with
  | iterate =>
    simp only [objectCall] at hr
    split at hr
    next => simp at hr
    next event queue hq =>
      cases Option.some.inj hr
      intro running staying
      obtain ⟨unended, reported, answered⟩ :=
        h running fun j hj => staying j (List.mem_cons_of_mem _ hj)
      dsimp only at reported answered
      rw [hq] at reported answered
      refine ⟨List.forall_mem_cons.mpr ⟨rfl, unended⟩, ?_, answered.tail⟩
      show ReportedAs kind known.told (waitingInfos s.generation queue)
        (shownAfter kind s.generation code
          ((ObjectStmt.dispatch event).shows kind s.generation s.view))
      rw [dispatch_shows]
      rw [waitingInfos_event] at reported
      cases hi : (ObjectSource.event event).info s.generation with
      | none =>
        rw [hi] at reported
        exact reported
      | some change =>
        -- the info is applied before what is left to run, which is no part of an update
        have whole : ∀ j ∈ code, j.updates = false := by
          refine turn.resolve_left ?_
          rw [hq]
          show waitingInfos s.generation [.event event] ≠ []
          rw [waitingInfos_event, hi]
          simp
        rw [hi, shownAfter_plain whole] at reported
        rw [shownAfter_plain whole]
        exact reported.show
    next slot queue hq =>
      cases Option.some.inj hr
      intro running staying
      obtain ⟨unended, reported, answered⟩ := h running staying
      dsimp only at reported answered
      rw [hq] at reported answered
      exact ⟨unended, reported, answered.complete⟩
  | enumParams | enumParamsSync =>
    simp only [objectCall] at hr
    split at hr
    next => simp at hr
    next =>
      cases Option.some.inj hr
      exact adds rfl rfl
  | subscribeParams =>
    simp only [objectCall] at hr
    split at hr
    next => simp at hr
    next =>
      cases Option.some.inj hr
      exact h
  | setConnected connected =>
    cases Option.some.inj hr
    intro running staying
    obtain ⟨unended, reported, answered⟩ := h running staying
    exact ⟨unended, reported, answered⟩
  | _ =>
    cases Option.some.inj hr
    exact adds rfl rfl

/-- What the observer hears of a callback is what the wrapper queues of it. -/
theorem hears_queued {callback : ObjectCallback} (known : ObjectKnown) (generation : UInt32)
    (hc : objectOnCallback kind objectId callback = some change) :
    ∃ heard : List ObjectInfo,
      (objectObserver kind).hears callback known = { known with told := known.told ++ heard } ∧
      heard.map (objectOnInfo kind) =
        (waitingInfos generation [.event ⟨generation, change⟩]).map some := by
  have nothing (plain : (ObjectSource.event ⟨generation, change⟩).info generation = none)
      (unheard : (objectObserver kind).hears callback known = known) :
      ∃ heard : List ObjectInfo,
        (objectObserver kind).hears callback known = { known with told := known.told ++ heard } ∧
        heard.map (objectOnInfo kind) =
          (waitingInfos generation [.event ⟨generation, change⟩]).map some := by
    refine ⟨[], by simp [unheard], ?_⟩
    rw [waitingInfos_event, plain]
    rfl
  cases callback with
  | info info =>
    obtain ⟨info, rfl, hi⟩ := Option.bind_eq_some_iff.mp hc
    refine ⟨[info], by simp [objectObserver, hi], ?_⟩
    obtain ⟨state, paramInfos, rfl⟩ := objectOnInfo_info hi
    simp [waitingInfos, ObjectSource.info, hi]
  | param seq id index next pod =>
    obtain ⟨param, -, rfl⟩ := Option.map_eq_some_iff.mp hc
    exact nothing rfl rfl
  | globalRemove id =>
    simp only [objectOnCallback] at hc
    split at hc <;> cases hc
    exact nothing rfl rfl

theorem ObjectAgrees.report (h : ObjectAgrees kind (s, known) code) (callback : ObjectCallback) :
    ObjectAgrees kind (objectReport kind objectId callback s,
      (objectObserver kind).hears callback known) code := by
  unfold objectReport
  cases hc : objectOnCallback kind objectId callback with
  | none =>
    have unheard : (objectObserver kind).hears callback known = known := by
      cases callback with
      | info info =>
        cases info with
        | none => rfl
        | some info =>
          have untold : objectOnInfo kind info = none := hc
          simp [objectObserver, untold]
      | param seq id index next pod => rfl
      | globalRemove id => rfl
    rw [unheard]
    exact h
  | some change =>
    intro running staying
    obtain ⟨unended, reported, answered⟩ := h running staying
    obtain ⟨heard, hears, queued⟩ := hears_queued known s.generation hc
    rw [hears]
    refine ⟨unended, ?_, answered.append (fun _ _ => rfl) ?_ (by simp)⟩
    · show ReportedAs kind _ (waitingInfos s.generation (s.queue ++ _)) _
      rw [waitingInfos_append]
      exact reported.tell queued
    · have length := congrArg List.length queued
      rw [List.length_map, List.length_map] at length
      rw [← length]
      exact Nat.le_of_eq List.length_append.symm

/-- The steps of a wrapper in which updates and sessions are not interrupted. -/
def ObjectInTurn (c : Config (ObjectWrapper × ObjectKnown) ObjectStmt)
    (label : Label ObjectCall ObjectChoice ObjectCallback) : Prop :=
  ObjectKeepsStopped ⟨c.state.1, c.code⟩ label ∧ ObjectUpdatesInTurn ⟨c.state.1, c.code⟩ label

instance objectInTurnDecidable (c : Config (ObjectWrapper × ObjectKnown) ObjectStmt)
    (label : Label ObjectCall ObjectChoice ObjectCallback) : Decidable (ObjectInTurn c label) :=
  inferInstanceAs (Decidable (_ ∧ _))

theorem objectAgrees_preserves :
    (objectWatched kind objectId).Preserves
      (fun c label => ObjectInTurn c label ∧
        ObjectFits kind c.state.1 c.code ∧ ObjectSettled c.state.1 c.code)
      (ObjectAgrees kind) where
  call operation s code r h _ ha hr := by
    obtain ⟨t, ht, rfl⟩ := Option.map_eq_some_iff.mp hr
    exact h.call ha.1.2 ht
  run choice i s rest h ha := h.run ha.2.2 (ha.1.2 i rfl)
  environment callback s code t h _ ht := by
    cases Option.some.inj ht
    exact h.report callback

/-- A wrapper that has not been started, of whose object nothing is known. -/
def objectUntold : Config (ObjectWrapper × ObjectKnown) ObjectStmt := ⟨({}, {}), []⟩

theorem objectWatched_agrees {c : Config (ObjectWrapper × ObjectKnown) ObjectStmt}
    (h : Reach (objectWatched kind objectId).step ObjectInTurn objectUntold c) :
    ObjectAgrees kind c.state c.code := by
  have settled : (objectWatched kind objectId).Preserves ObjectInTurn
      fun s code => ObjectFits kind s.1 code ∧ ObjectSettled s.1 code :=
    (objectFits_preserves.under objectSettled_preserves).observed fun _ _ turn => turn.1
  have start : ObjectAgrees kind objectUntold.state objectUntold.code := fun running _ =>
    absurd running Bool.false_ne_true
  exact ((settled.under objectAgrees_preserves).reach h
    ⟨⟨objectFits_init, objectSettled_init⟩, start⟩).2

/-- The state of a node becomes an error, of which it recovers; the second info still waits. -/
def recovering : Config (ObjectWrapper × ObjectKnown) ObjectStmt :=
  final (objectWatched .node 7).step objectUntold
    (objectStartSchedule ++ objectInfoSchedule ⟨true, true, [101], some [120], some [⟨2, 6⟩]⟩ ++
      List.replicate 15 (.run {}) ++ [.environment (.info (some ⟨true, false, [114], none, none⟩))])

/-- A handler of `notify::state` iterates the main context while the node recovers. -/
def recoveredWhileUpdating : Config (ObjectWrapper × ObjectKnown) ObjectStmt :=
  final (objectWatched .node 7).step objectUntold
    (objectStartSchedule ++ objectInfoSchedule ⟨true, false, [101], some [120], none⟩ ++
      List.replicate 3 (.run {}) ++ objectInfoSchedule ⟨true, false, [114], none, none⟩ ++
      List.replicate 9 (.run {}))

/-- Without the condition the node goes on to show an error that it has recovered from. -/
theorem objectShows_reported_fails :
    Reach (objectWatched .node 7).step
        (fun c label => ObjectKeepsStopped ⟨c.state.1, c.code⟩ label) objectUntold
        recoveredWhileUpdating ∧
      recoveredWhileUpdating.state.1.running = true ∧ recoveredWhileUpdating.code = [] ∧
      recoveredWhileUpdating.state.1.queue = [] ∧
      recoveredWhileUpdating.state.1.view = ⟨some [114], some [120], []⟩ ∧
      shownOf .node recoveredWhileUpdating.state.2.told = ⟨some [114], none, []⟩ :=
  ⟨reach_final (by decide +kernel), by decide +kernel, by decide +kernel, by decide +kernel,
    by decide +kernel, by decide +kernel⟩

/-- An info comes before the Done of a sync, and another one behind it. -/
def syncedBetween : Config (ObjectWrapper × ObjectKnown) ObjectStmt :=
  final (objectWatched .link 7).step objectUntold
    (objectStartSchedule ++ .call .sync :: List.replicate 3 (.run {}) ++
      [.environment (.info (some ⟨true, false, [114], none, none⟩)), .run {},
        .environment (.info (some ⟨true, false, [101], some [120], none⟩)), .call .iterate] ++
      List.replicate 5 (.run {}) ++ [.call .iterate])

end PipewireGobject
