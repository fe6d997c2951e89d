import PipewireGobject.WrapperSession

namespace PipewireGobject

/-- While a session runs, nothing is done because of an event of an earlier one. -/
def WrapperSession.Isolated (s : WrapperSession) : Prop :=
  ∀ effect ∈ s.effects, ∀ m, effect.running = some m → m ≤ effect.origin

def SessionStmt.origin : SessionStmt → Option Nat
  | .act origin _ | .stop origin => origin
  | _ => none

/-- A start that has got to `pw_core_get_registry` gets to its end. -/
def startSucceeds (kind : WrapperKind) (result : PipewireResult) : Bool :=
  result ≠ .getRegistryFailed &&
    !(kind.bindsObject && (result = .bindFailed || result = .addListenerFailed))

/-- A session only begins when no listener of an earlier one is registered, and not within a
dispatch that is not done. -/
def SessionStmt.startsAfresh (kind : WrapperKind) (choice : SessionChoice) (s : WrapperSession)
    (rest : List SessionStmt) : SessionStmt → Bool
  | .startProxies _ =>
    !(s.connected && startSucceeds kind choice.result) ||
      s.listening.isEmpty && rest.all fun i => i.origin.isNone
  | _ => true

def SessionsApart (kind : WrapperKind) (c : Config WrapperSession SessionStmt) :
    Label SessionCall SessionChoice (Nat × PipewireCallback) → Prop
  | .run choice =>
    ∀ i ∈ c.code.head?, i.startsAfresh kind choice c.state c.code.tail = true
  | .call _ | .environment _ => True

instance (kind : WrapperKind) (c : Config WrapperSession SessionStmt) :
    DecidablePred (SessionsApart kind c)
  | .run choice =>
    inferInstanceAs (Decidable (∀ i ∈ c.code.head?, i.startsAfresh kind choice c.state _ = true))
  | .call _ | .environment _ => .isTrue trivial

variable {kind : WrapperKind} {target : WrapperTarget} {choice : SessionChoice}
variable {s t : WrapperSession} {code new rest : List SessionStmt} {i : SessionStmt}
variable {event : SessionEvent}

/-- No session begins: the one that runs may end, and a listener that comes is not older. -/
structure KeepsSession (s t : WrapperSession) : Prop where
  queue : t.queue = s.queue
  session : t.session = s.session
  effects : t.effects = s.effects
  generation : s.generation ≤ t.generation
  sessions : s.sessions ≤ t.sessions
  running : t.running = true → s.running = true
  listening : ∀ l ∈ t.listening, l ∈ s.listening ∨ s.session ≤ l.2

theorem KeepsSession.refl (s : WrapperSession) : KeepsSession s s :=
  ⟨rfl, rfl, rfl, Nat.le_refl _, Nat.le_refl _, id, fun _ hl => .inl hl⟩

theorem KeepsSession.trans {u : WrapperSession} (h : KeepsSession s t) (k : KeepsSession t u) :
    KeepsSession s u where
  queue := k.queue.trans h.queue
  session := k.session.trans h.session
  effects := k.effects.trans h.effects
  generation := Nat.le_trans h.generation k.generation
  sessions := Nat.le_trans h.sessions k.sessions
  running hu := h.running (k.running hu)
  listening l hl := by
    rcases k.listening l hl with hl | hl
    · exact h.listening l hl
    · rw [h.session] at hl
      exact .inr hl

theorem KeepsSession.unlisten (field : ProxyField) (proxy : Option Nat) (s : WrapperSession) :
    KeepsSession s (s.unlisten field proxy) :=
  { KeepsSession.refl s with listening := fun _ hl => .inl (List.mem_of_mem_filter hl) }

theorem KeepsSession.destroyObject (s : WrapperSession) : KeepsSession s s.destroyObject :=
  { KeepsSession.unlisten .object s.object s with }

theorem KeepsSession.destroyRegistry (s : WrapperSession) : KeepsSession s s.destroyRegistry :=
  { KeepsSession.unlisten .registry s.registry s with }

theorem KeepsSession.bind (result : PipewireResult) (s : WrapperSession) :
    KeepsSession s (s.bind result).1 := by
  have bound : ∀ l ∈ s.listening ++ [(ProxyField.object, s.session)],
      l ∈ s.listening ∨ s.session ≤ l.2 := by
    intro l hl
    rcases List.mem_append.mp hl with hl | hl
    · exact .inl hl
    · obtain rfl := List.mem_singleton.mp hl
      exact .inr (Nat.le_refl _)
  unfold WrapperSession.bind
  split
  next => exact .refl s
  next =>
    split
    next => exact .refl s
    next =>
      split
      next => exact .refl s
      next => exact .refl s
      next => exact { KeepsSession.refl s with listening := bound }

theorem sessionAct_keeps (act : SessionAct) (s : WrapperSession) :
    KeepsSession s (sessionAct kind choice act s).1 := by
  cases act with
  | forgetProxies => exact { KeepsSession.refl s with }
  | destroyRegistry =>
    simp only [sessionAct]
    split
    next => exact .destroyRegistry s
    next =>
      split
      next => exact .refl s
      next => exact { KeepsSession.refl s with }
  | destroyObject =>
    simp only [sessionAct]
    split
    next => exact .destroyObject s
    next => exact { KeepsSession.refl s with }
  | destroyPipewireObjects => exact (KeepsSession.destroyObject s).trans (.destroyRegistry _)
  | nextGeneration => exact { KeepsSession.refl s with generation := Nat.le_succ _ }
  | bind => exact .bind choice.result s
  | clearBound => exact { KeepsSession.refl s with }
  | clearRunning => exact { KeepsSession.refl s with running := fun hr => by cases hr }
  | change item => exact .refl s
  | signal => exact .refl s

/-- An event of an earlier session is stale. -/
structure EventKept (s : WrapperSession) (event : SessionEvent) : Prop where
  bounded : event.generation ≤ s.generation
  stale : s.running = true → event.session < s.session → event.generation < s.generation

theorem EventKept.keep (h : EventKept s event) (k : KeepsSession s t) : EventKept t event where
  bounded := Nat.le_trans h.bounded k.generation
  stale running earlier := by
    rw [k.session] at earlier
    exact Nat.lt_of_lt_of_le (h.stale (k.running running) earlier) k.generation

/-- A start that goes through makes every event there is stale. -/
theorem EventKept.begin (h : EventKept s event) (newer : s.generation < t.generation) :
    EventKept t event where
  bounded := by
    have := h.bounded
    omega
  stale _ _ := Nat.lt_of_le_of_lt h.bounded newer

structure SessionKept (s : WrapperSession) (code : List SessionStmt) : Prop where
  numbered : s.session ≤ s.sessions
  queued : ∀ event ∈ s.queue, EventKept s event
  dispatched : ∀ event, .dispatch event ∈ code → EventKept s event
  listening : s.running = true → ∀ l ∈ s.listening, s.session ≤ l.2
  origins : s.running = true → ∀ j ∈ code, ∀ n, j.origin = some n → s.session ≤ n
  isolated : s.Isolated

/-- The statements that a step adds where no session begins. -/
structure AddsWithin (s : WrapperSession) (new : List SessionStmt) : Prop where
  dispatched : ∀ event, .dispatch event ∈ new → EventKept s event
  origins : s.running = true → ∀ j ∈ new, ∀ n, j.origin = some n → s.session ≤ n

theorem AddsWithin.plain (h : ∀ j ∈ new, j.origin = none ∧ ∀ event, j ≠ .dispatch event) :
    AddsWithin s new where
  dispatched event he := absurd rfl ((h _ he).2 event)
  origins _ j hj n hn := by simp [(h j hj).1] at hn

theorem SessionKept.tail (h : SessionKept s (i :: rest)) : SessionKept s rest where
  numbered := h.numbered
  queued := h.queued
  dispatched event he := h.dispatched event (List.mem_cons_of_mem _ he)
  listening := h.listening
  origins running j hj := h.origins running j (List.mem_cons_of_mem _ hj)
  isolated := h.isolated

theorem SessionKept.keep (h : SessionKept s rest) (k : KeepsSession s t)
    (adds : AddsWithin s new) : SessionKept t (new ++ rest) where
  numbered := by
    have := h.numbered
    have := k.sessions
    rw [k.session]
    omega
  queued event he := by
    rw [k.queue] at he
    exact (h.queued event he).keep k
  dispatched event he := by
    rcases List.mem_append.mp he with he | he
    · exact (adds.dispatched event he).keep k
    · exact (h.dispatched event he).keep k
  listening running l hl := by
    rw [k.session]
    rcases k.listening l hl with hl | hl
    · exact h.listening (k.running running) l hl
    · exact hl
  origins running j hj n hn := by
    rw [k.session]
    rcases List.mem_append.mp hj with hj | hj
    · exact adds.origins (k.running running) j hj n hn
    · exact h.origins (k.running running) j hj n hn
  isolated := by
    have he := h.isolated
    unfold WrapperSession.Isolated at he ⊢
    rwa [k.effects]

/-- A session begins, with a generation and a number that are new. -/
structure BeginsSession (s t : WrapperSession) : Prop where
  queue : t.queue = s.queue
  effects : t.effects = s.effects
  newer : s.generation < t.generation
  session : t.session = t.sessions
  listening : ∀ l ∈ t.listening, l ∈ s.listening ∨ l.2 = t.session

theorem SessionKept.begin (h : SessionKept s rest) (b : BeginsSession s t)
    (unheard : s.listening = []) (undisturbed : ∀ j ∈ rest, j.origin = none)
    (plain : ∀ j ∈ new, j.origin = none ∧ ∀ event, j ≠ .dispatch event) :
    SessionKept t (new ++ rest) where
  numbered := Nat.le_of_eq b.session
  queued event he := by
    rw [b.queue] at he
    exact (h.queued event he).begin b.newer
  dispatched event he := by
    rcases List.mem_append.mp he with he | he
    · exact absurd rfl ((plain _ he).2 event)
    · exact (h.dispatched event he).begin b.newer
  listening _ l hl := by
    rcases b.listening l hl with hl | hl
    · simp [unheard] at hl
    · exact Nat.le_of_eq hl.symm
  origins _ j hj n hn := by
    have clear : j.origin = none := by
      rcases List.mem_append.mp hj with hj | hj
      · exact (plain j hj).1
      · exact undisturbed j hj
    simp [clear] at hn
  isolated := by
    have he := h.isolated
    unfold WrapperSession.Isolated at he ⊢
    rwa [b.effects]

theorem sessionStart_plain (kind : WrapperKind) (result : PipewireResult) (sync : Bool)
    (s : WrapperSession) :
    ∀ j ∈ (sessionStart kind result sync s).2,
      j.origin = none ∧ ∀ event, j ≠ .dispatch event := by
  intro j hj
  unfold sessionStart at hj
  dsimp only at hj
  cases result <;> cases kind <;> cases sync <;>
    simp [WrapperKind.bindsObject] at hj <;>
    rcases hj with rfl | rfl <;> simp [SessionStmt.origin]

theorem sessionStart_keeps {result : PipewireResult} (sync : Bool)
    (fails : startSucceeds kind result = false) (numbered : s.session ≤ s.sessions) :
    KeepsSession s (sessionStart kind result sync s).1 := by
  have heard : ∀ l ∈ s.listening ++ [(ProxyField.registry, s.sessions + 1)],
      l ∈ s.listening ∨ s.session ≤ l.2 := by
    intro l hl
    rcases List.mem_append.mp hl with hl | hl
    · exact .inl hl
    · obtain rfl := List.mem_singleton.mp hl
      exact .inr (by simp; omega)
  cases result with
  | getRegistryFailed => exact { KeepsSession.refl s with }
  | bindFailed | addListenerFailed =>
    have binds : kind.bindsObject = true := by simpa [startSucceeds] using fails
    simp only [sessionStart, binds]
    exact { KeepsSession.refl s with listening := heard, sessions := Nat.le_succ _ }
  | succeeded | connectFailed => simp [startSucceeds] at fails

theorem sessionStart_begins {result : PipewireResult} (sync : Bool)
    (succeeds : startSucceeds kind result = true) :
    BeginsSession s (sessionStart kind result sync s).1 := by
  have heard : ∀ l ∈ s.listening ++ [(ProxyField.registry, s.sessions + 1)],
      l ∈ s.listening ∨ l.2 = s.sessions + 1 := by
    intro l hl
    rcases List.mem_append.mp hl with hl | hl
    · exact .inl hl
    · obtain rfl := List.mem_singleton.mp hl
      exact .inr rfl
  have heardBoth : ∀ l ∈ s.listening ++ [(ProxyField.registry, s.sessions + 1)] ++
      [(ProxyField.object, s.sessions + 1)], l ∈ s.listening ∨ l.2 = s.sessions + 1 := by
    intro l hl
    rcases List.mem_append.mp hl with hl | hl
    · exact heard l hl
    · obtain rfl := List.mem_singleton.mp hl
      exact .inr rfl
  cases result with
  | getRegistryFailed => simp [startSucceeds] at succeeds
  | bindFailed | addListenerFailed =>
    have binds : kind.bindsObject = false := by simpa [startSucceeds] using succeeds
    simp only [sessionStart, binds]
    exact ⟨rfl, rfl, Nat.lt_succ_self _, rfl, heard⟩
  | succeeded | connectFailed =>
    simp only [sessionStart]
    split
    next => exact ⟨rfl, rfl, Nat.lt_succ_self _, rfl, heardBoth⟩
    next => exact ⟨rfl, rfl, Nat.lt_succ_self _, rfl, heard⟩

/-- What a dispatch does it owes to an event that is not of an earlier session. -/
theorem sessionDispatch_adds (h : EventKept s event) :
    AddsWithin s (sessionDispatch kind choice event s) := by
  unfold sessionDispatch
  split
  next => exact .plain (by simp)
  next fresh =>
    have current : s.running = true ∧ event.generation = s.generation := by simpa using fresh
    have inTime : s.session ≤ event.session := by
      apply Nat.le_of_not_lt
      intro earlier
      have := h.stale current.1 earlier
      omega
    have acts : ∀ l : List SessionAct,
        AddsWithin s (l.map (.act (some event.session))) := by
      intro l
      refine ⟨by simp, fun _ j hj n hn => ?_⟩
      obtain ⟨act, _, rfl⟩ := List.mem_map.mp hj
      cases hn
      exact inTime
    have stop : AddsWithin s [.stop (some event.session)] := by
      refine ⟨by simp, fun _ j hj n hn => ?_⟩
      obtain rfl := List.mem_singleton.mp hj
      cases hn
      exact inTime
    split
    next => exact stop
    next => exact stop
    next => exact stop
    next => exact acts _

theorem SessionKept.act {origin : Option Nat} {act : SessionAct}
    (h : SessionKept s (.act origin act :: rest)) :
    SessionKept (s.record origin) (.act origin act :: rest) := by
  have same : ∀ e, EventKept s e → EventKept (s.record origin) e := fun e he =>
    ⟨he.bounded, he.stale⟩
  refine ⟨h.numbered, fun e he => same e (h.queued e he), fun e he => same e (h.dispatched e he),
    h.listening, h.origins, ?_⟩
  intro effect he m hm
  rcases List.mem_append.mp he with he | he
  · exact h.isolated effect he m hm
  · cases origin with
    | none => simp at he
    | some n =>
      obtain rfl := by simpa using he
      cases running : s.running with
      | false => simp [running] at hm
      | true =>
        have inTime := h.origins running _ List.mem_cons_self n rfl
        simp only [running] at hm
        cases hm
        exact inTime

/-- The statements that are due to no event and begin no session. -/
def SessionStmt.routine : SessionStmt → Bool
  | .act _ _ | .dispatch _ | .startProxies _ | .stop _ => false
  | _ => true

theorem sessionExec_routine (kind : WrapperKind) (choice : SessionChoice) (s : WrapperSession)
    (hi : i.routine = true) :
    KeepsSession s (sessionExec kind choice i s).1 ∧
      ∀ j ∈ (sessionExec kind choice i s).2, j.origin = none ∧ ∀ event, j ≠ .dispatch event := by
  cases i with
  | handlers => exact ⟨.refl s, by simp [sessionExec]⟩
  | connect =>
    simp only [sessionExec]
    split
    next => exact ⟨{ KeepsSession.refl s with }, by simp [SessionStmt.origin]⟩
    next => exact ⟨.refl s, by simp⟩
  | start sync =>
    simp only [sessionExec]
    split
    next => exact ⟨.refl s, by cases sync <;> simp [SessionStmt.origin]⟩
    next => split <;> exact ⟨.refl s, by simp [SessionStmt.origin]⟩
  | coreSync | coreSyncWait =>
    simp only [sessionExec]
    split <;> exact ⟨.refl s, by simp [SessionStmt.origin]⟩
  | coreConnectedNotify =>
    simp only [sessionExec]
    split
    next => exact ⟨.refl s, by simp⟩
    next =>
      refine ⟨.refl s, fun j hj => ?_⟩
      obtain ⟨act, _, rfl⟩ := List.mem_map.mp hj
      simp [SessionStmt.origin]
  | _ => simp [SessionStmt.routine] at hi

theorem SessionKept.startProxies {sync : Bool} (h : SessionKept s (.startProxies sync :: rest))
    (apart : (SessionStmt.startProxies sync).startsAfresh kind choice s rest = true) :
    SessionKept (sessionExec kind choice (.startProxies sync) s).1
      ((sessionExec kind choice (.startProxies sync) s).2 ++ rest) := by
  simp only [sessionExec]
  split
  next => exact h.tail.keep (.refl s) (.plain (by simp))
  next connected =>
    have plain := sessionStart_plain kind choice.result sync s
    cases hs : startSucceeds kind choice.result with
    | false => exact h.tail.keep (sessionStart_keeps sync hs h.numbered) (.plain plain)
    | true =>
      have up : s.connected = true := by simpa using connected
      obtain ⟨unheard, undisturbed⟩ : s.listening = [] ∧ ∀ j ∈ rest, j.origin = none := by
        simpa [SessionStmt.startsAfresh, hs, up] using apart
      exact h.tail.begin (sessionStart_begins sync hs) unheard undisturbed plain

/-- One statement. -/
theorem SessionKept.exec (h : SessionKept s (i :: rest))
    (apart : i.startsAfresh kind choice s rest = true) :
    SessionKept (sessionExec kind choice i s).1 ((sessionExec kind choice i s).2 ++ rest) := by
  by_cases hi : i.routine = true
  · obtain ⟨keeps, plain⟩ := sessionExec_routine kind choice s hi
    exact h.tail.keep keeps (.plain plain)
  cases i with
  | act origin act =>
    simp only [sessionExec]
    generalize ht : (if act.takesEffect choice s then s.record origin else s) = t
    have ha : SessionKept t (.act origin act :: rest) := by
      split at ht
      next => exact ht ▸ h.act
      next => exact ht ▸ h
    refine ha.tail.keep (sessionAct_keeps act t) (.plain ?_)
    split <;> simp [SessionStmt.origin]
  | dispatch event =>
    exact h.tail.keep (.refl s) (sessionDispatch_adds (h.dispatched event List.mem_cons_self))
  | startProxies sync => exact h.startProxies apart
  | stop origin =>
    simp only [sessionExec]
    split
    next => exact h.tail.keep (.refl s) (.plain (by simp))
    next =>
      refine h.tail.keep (.refl s) ⟨by simp, fun running j hj n hn => ?_⟩
      obtain ⟨act, _, rfl⟩ := List.mem_map.mp hj
      exact h.origins running _ List.mem_cons_self n hn
  | _ => simp [SessionStmt.routine] at hi

theorem SessionKept.requeue {queue : List SessionEvent} (h : SessionKept s code)
    (hq : ∀ event ∈ queue, EventKept s event) :
    SessionKept { s with queue := queue } code := by
  have same : ∀ e, EventKept s e → EventKept { s with queue := queue } e := fun e he =>
    ⟨he.bounded, he.stale⟩
  exact ⟨h.numbered, fun e he => same e (hq e he), fun e he => same e (h.dispatched e he),
    h.listening, h.origins, h.isolated⟩

/-- An event is of the session whose listener it comes through, and that is not an earlier one. -/
theorem SessionKept.report {report : Nat × PipewireCallback} (h : SessionKept s code)
    (hr : sessionReport kind target report s = some t) : SessionKept t code := by
  unfold sessionReport at hr
  split at hr
  next heard =>
    cases Option.some.inj hr
    refine h.requeue fun event he => ?_
    rcases List.mem_append.mp he with he | he
    · exact h.queued event he
    · obtain ⟨_, _, rfl⟩ := by simpa using he
      refine ⟨Nat.le_refl _, fun running earlier => ?_⟩
      have inTime := h.listening running _ heard
      dsimp only at inTime earlier
      omega
  next => simp at hr

theorem SessionKept.call {operation : SessionCall} {r : WrapperSession × List SessionStmt}
    (h : SessionKept s code) (hc : sessionCall operation s = some r) :
    SessionKept r.1 (r.2 ++ code) := by
  cases operation with
  | dispatch position =>
    obtain ⟨event, he, rfl⟩ := Option.map_eq_some_iff.mp hc
    have queued : event ∈ s.queue := List.mem_of_getElem? he
    refine (h.requeue fun e hq => h.queued e (List.mem_of_mem_eraseIdx hq)).keep (.refl _) ?_
    refine ⟨fun e hd => ?_, by simp [SessionStmt.origin]⟩
    obtain rfl : e = event := by simpa using hd
    exact ⟨(h.queued e queued).bounded, (h.queued e queued).stale⟩
  | start | sync | stop | coreConnectedNotify =>
    cases Option.some.inj hc
    exact h.keep (.refl s) (.plain (by simp [SessionStmt.origin]))
  | connect =>
    cases Option.some.inj hc
    exact h.keep { KeepsSession.refl s with } (.plain (by simp))
  | disconnect =>
    cases Option.some.inj hc
    exact h.keep { KeepsSession.refl s with listening := by simp } (.plain (by simp))

theorem sessionKept_preserved :
    (sessionComponent kind target).Preserves (SessionsApart kind) SessionKept where
  call _ _ _ _ h _ _ hc := h.call hc
  run _ _ _ _ h apart := h.exec (apart _ rfl)
  environment _ _ _ _ h _ ht := h.report ht

theorem sessionKept_init : SessionKept sessionInit.state sessionInit.code := by
  refine ⟨Nat.le_refl _, ?_, ?_, ?_, ?_, ?_⟩ <;> simp [sessionInit, WrapperSession.Isolated]

theorem wrapperSessions_isolated {c : Config WrapperSession SessionStmt}
    (h : Reach (sessionComponent kind target).step (SessionsApart kind) sessionInit c) :
    c.state.Isolated :=
  (sessionKept_preserved.reach h sessionKept_init).isolated

abbrev SessionSchedule := List (Label SessionCall SessionChoice (Nat × PipewireCallback))

def sessionStartSchedule : SessionSchedule := .call .start :: List.replicate 4 (.run {})

/-- An info of a node with its state and its parameters, through the listener of a session. -/
def nodeInfo (n : Nat) : Label SessionCall SessionChoice (Nat × PipewireCallback) :=
  .environment (n, .info (some (true, true)))

/-- An info comes after a stop has counted the generation and before it removes the listeners. The
restarted node dispatches it, and then one of its own. -/
def restartedNode : Config WrapperSession SessionStmt :=
  final (sessionComponent .node ⟨[], 7⟩).step sessionInit
    (.call .connect :: sessionStartSchedule ++
      .call .stop :: List.replicate 2 (.run {}) ++ nodeInfo 1 :: List.replicate 13 (.run {}) ++
      sessionStartSchedule ++ [.call (.dispatch 0), .run {}] ++
      nodeInfo 2 :: .call (.dispatch 0) :: List.replicate 4 (.run {}))

theorem wrapperSessions_isolated_restartedNode :
    restartedNode.state.effects = [⟨2, some 2⟩, ⟨2, some 2⟩] ∧ restartedNode.state.Isolated :=
  ⟨by decide +kernel,
    @wrapperSessions_isolated .node ⟨[], 7⟩ restartedNode (reach_final (by decide +kernel))⟩

/-- A handler of `notify::state` restarts the node, and the update goes on after it. -/
def restartedWithin : Config WrapperSession SessionStmt :=
  final (sessionComponent .node ⟨[], 7⟩).step sessionInit
    (.call .connect :: sessionStartSchedule ++
      nodeInfo 1 :: .call (.dispatch 0) :: List.replicate 2 (.run {}) ++
      .call .stop :: List.replicate 15 (.run {}) ++ sessionStartSchedule ++
      List.replicate 2 (.run {}))

theorem wrapperSessions_isolated_fails :
    Reach (sessionComponent .node ⟨[], 7⟩).step anyStep sessionInit restartedWithin ∧
      ¬ restartedWithin.state.Isolated := by
  refine ⟨reach_final (allAllowed_anyStep _ _), fun h => ?_⟩
  -- the error is set while the second session runs
  have late := h ⟨1, some 2⟩ (by decide +kernel) 2 rfl
  exact absurd late (by decide)

end PipewireGobject
