import PipewireGobject.RefCounted
import PipewireGobject.WrapperIsolation

namespace PipewireGobject

variable {kind : WrapperKind} {target : WrapperTarget} {choice : SessionChoice}
variable {s t : WrapperSession} {i : SessionStmt}

theorem sessionStart_queue (kind : WrapperKind) (result : PipewireResult) (sync : Bool)
    (s : WrapperSession) : (sessionStart kind result sync s).1.queue = s.queue := by
  unfold sessionStart
  dsimp only
  cases result <;> cases kind <;> rfl

theorem sessionExec_queue (kind : WrapperKind) (choice : SessionChoice) (i : SessionStmt)
    (s : WrapperSession) : (sessionExec kind choice i s).1.queue = s.queue := by
  cases i with
  | act origin act =>
    refine (sessionAct_keeps act _).queue.trans ?_
    split <;> rfl
  | dispatch event => rfl
  | startProxies sync =>
    simp only [sessionExec]
    split
    next => rfl
    next => exact sessionStart_queue kind choice.result sync s
  | stop origin =>
    simp only [sessionExec]
    split <;> rfl
  | _ => exact (sessionExec_routine kind choice s rfl).1.queue

/-- A wrapper as an object with a reference count: each event in its main context holds a
reference, and so does each one that is dispatched. A dispose stops the wrapper, disconnects its
handler of `notify::connected` and drops the core, whose own handlers may run then; what needs a
core fails after that. -/
def wrapperObject (kind : WrapperKind) (target : WrapperTarget) :
    RefCountedObject WrapperSession SessionStmt SessionCall SessionChoice
      (Nat × PipewireCallback) where
  component := sessionComponent kind target
  sources s := s.queue.length
  dispatches
    | .dispatch _ => true
    | _ => false
  survives
    | .dispatch _ | .stop => true
    | _ => false
  disposal := [.stop none]
  clear s := { s with connected := false }
  cleared := [.handlers]
  exec_sources choice i s := congrArg List.length (sessionExec_queue kind choice i s)
  call_sources operation s r hr := by
    cases operation with
    | dispatch position =>
      obtain ⟨event, he, rfl⟩ := Option.map_eq_some_iff.mp hr
      have inside : position < s.queue.length := (List.getElem?_eq_some_iff.mp he).1
      rw [List.length_eraseIdx, if_pos inside, if_pos rfl]
      omega
    | _ =>
      cases Option.some.inj hr
      rfl
  environment_sources event s t ht := by
    simp only [sessionComponent, sessionReport] at ht
    split at ht
    next =>
      cases Option.some.inj ht
      simp
    next => cases ht
  clear_sources _ := rfl
  dispatches_survive operation h := by
    cases operation <;> first | rfl | cases h

/-- The field of a proxy. -/
def WrapperSession.proxy (s : WrapperSession) : ProxyField → Option Nat
  | .registry => s.registry
  | .object => s.object

/-- Who listens is a proxy that its field still points to, and none does without a connection. -/
structure ListensToFields (kind : WrapperKind) (s : WrapperSession) : Prop where
  fields : ∀ l ∈ s.listening, s.proxy l.1 = some l.2
  registry : kind = .registry → ∀ l ∈ s.listening, l.1 = .registry
  down : s.connected = false → s.listening = []

/-- After this statement, or what it adds, no listener of the field is registered. -/
def SessionStmt.unlistens (kind : WrapperKind) (field : ProxyField) : SessionStmt → Bool
  | .stop _ => field = .registry || kind ≠ .registry
  | .act _ .destroyRegistry => field = .registry
  | .act _ .destroyObject => field = .object
  | .act _ .destroyPipewireObjects => true
  | _ => false

/-- A start goes on where the wrapper listens to nothing, and neither a start nor a binding goes
on below a disposal. -/
def SessionStmt.listensApart (s : WrapperSession) (disposing : Bool) : SessionStmt → Bool
  | .startProxies _ => !s.connected || s.listening.isEmpty && !disposing
  | .act _ .bind => !disposing
  | _ => true

theorem ListensToFields.unheard (h : t.listening = []) : ListensToFields kind t where
  fields l hl := by simp [h] at hl
  registry _ l hl := by simp [h] at hl
  down _ := h

theorem ListensToFields.same (h : ListensToFields kind s) (listening : t.listening = s.listening)
    (registry : t.registry = s.registry) (object : t.object = s.object)
    (connected : t.connected = s.connected) : ListensToFields kind t where
  fields l hl := by
    rw [listening] at hl
    have field := h.fields l hl
    cases hf : l.1 <;> rw [hf] at field
    · exact registry.trans field
    · exact object.trans field
  registry hk l hl := by
    rw [listening] at hl
    exact h.registry hk l hl
  down hc := by
    rw [connected] at hc
    rw [listening, h.down hc]

theorem mem_unlisten {field : ProxyField} {proxy : Option Nat} {l : ProxyField × Nat} :
    l ∈ (s.unlisten field proxy).listening ↔
      l ∈ s.listening ∧ (l.1 = field → some l.2 ≠ proxy) := by
  simp [WrapperSession.unlisten, imp_iff_not_or]

theorem destroyObject_listening (h : ListensToFields kind s) {l : ProxyField × Nat} :
    l ∈ s.destroyObject.listening ↔ l ∈ s.listening ∧ l.1 ≠ .object := by
  refine mem_unlisten.trans ⟨fun ⟨hl, other⟩ => ⟨hl, fun ho => ?_⟩,
    fun ⟨hl, other⟩ => ⟨hl, fun ho => absurd ho other⟩⟩
  have field := h.fields l hl
  rw [ho] at field
  exact other ho field.symm

theorem destroyRegistry_listening (h : ListensToFields kind s) {l : ProxyField × Nat} :
    l ∈ s.destroyRegistry.listening ↔ l ∈ s.listening ∧ l.1 ≠ .registry := by
  refine mem_unlisten.trans ⟨fun ⟨hl, other⟩ => ⟨hl, fun ho => ?_⟩,
    fun ⟨hl, other⟩ => ⟨hl, fun ho => absurd ho other⟩⟩
  have field := h.fields l hl
  rw [ho] at field
  exact other ho field.symm

theorem ListensToFields.destroyObject (h : ListensToFields kind s) :
    ListensToFields kind s.destroyObject where
  fields l hl := by
    obtain ⟨hl, other⟩ := (destroyObject_listening h).mp hl
    have field := h.fields l hl
    cases hf : l.1 with
    | registry => rwa [hf] at field
    | object => exact absurd hf other
  registry hk l hl := h.registry hk l ((destroyObject_listening h).mp hl).1
  down hc := by
    have empty := h.down hc
    simp [WrapperSession.destroyObject, WrapperSession.unlisten, empty]

theorem ListensToFields.destroyRegistry (h : ListensToFields kind s) :
    ListensToFields kind s.destroyRegistry where
  fields l hl := by
    obtain ⟨hl, other⟩ := (destroyRegistry_listening h).mp hl
    have field := h.fields l hl
    cases hf : l.1 with
    | registry => exact absurd hf other
    | object => rwa [hf] at field
  registry hk l hl := h.registry hk l ((destroyRegistry_listening h).mp hl).1
  down hc := by
    have empty := h.down hc
    simp [WrapperSession.destroyRegistry, WrapperSession.unlisten, empty]

/-- What is left of the listeners by a statement that registers none. -/
structure KeepsSilent (kind : WrapperKind) (i : SessionStmt) (s t : WrapperSession)
    (new : List SessionStmt) : Prop where
  listens : ListensToFields kind t
  connected : i ≠ .connect → t.connected = s.connected
  listening : ∀ l ∈ t.listening, l ∈ s.listening ∧
    (i.unlistens kind l.1 = true → ∃ j ∈ new, j.unlistens kind l.1 = true)

variable {new : List SessionStmt}

theorem KeepsSilent.of_unheard (connected : i ≠ .connect → t.connected = s.connected)
    (h : t.listening = []) : KeepsSilent kind i s t new :=
  ⟨.unheard h, connected, fun l hl => by simp [h] at hl⟩

/-- A statement that leaves the listeners alone and unlistens none. -/
theorem KeepsSilent.of_same (h : ListensToFields kind s) (listening : t.listening = s.listening)
    (registry : t.registry = s.registry) (object : t.object = s.object)
    (connected : t.connected = s.connected) (keeps : ∀ field, i.unlistens kind field = false) :
    KeepsSilent kind i s t new where
  listens := h.same listening registry object connected
  connected _ := connected
  listening l hl := by
    rw [listening] at hl
    exact ⟨hl, fun hu => by simp [keeps] at hu⟩

theorem sessionAct_silent {origin : Option Nat} {act : SessionAct} (h : ListensToFields kind s)
    (bind : act ≠ .bind) (forget : act = .forgetProxies → s.connected = false) :
    KeepsSilent kind (.act origin act) s (sessionAct kind choice act s).1 new := by
  cases act with
  | forgetProxies => exact .of_unheard (fun _ => rfl) (h.down (forget rfl))
  | destroyRegistry =>
    simp only [sessionAct]
    by_cases hc : s.connected = true ∨ s.registry = none
    · rw [if_pos hc]
      refine ⟨h.destroyRegistry, fun _ => rfl, fun l hl => ?_⟩
      obtain ⟨hl, other⟩ := (destroyRegistry_listening h).mp hl
      exact ⟨hl, fun hu => absurd (by simpa [SessionStmt.unlistens] using hu) other⟩
    · rw [if_neg hc]
      have down : s.connected = false := by simpa using (not_or.mp hc).1
      split <;> exact .of_unheard (fun _ => rfl) (h.down down)
  | destroyObject =>
    simp only [sessionAct]
    split
    next =>
      refine ⟨h.destroyObject, fun _ => rfl, fun l hl => ?_⟩
      obtain ⟨hl, other⟩ := (destroyObject_listening h).mp hl
      exact ⟨hl, fun hu => absurd (by simpa [SessionStmt.unlistens] using hu) other⟩
    next down => exact .of_unheard (fun _ => rfl) (h.down (by simpa using down))
  | destroyPipewireObjects =>
    refine ⟨h.destroyObject.destroyRegistry, fun _ => rfl, fun l hl => ?_⟩
    obtain ⟨hl, notRegistry⟩ := (destroyRegistry_listening h.destroyObject).mp hl
    obtain ⟨hl, notObject⟩ := (destroyObject_listening h).mp hl
    cases hf : l.1
    · exact absurd hf notRegistry
    · exact absurd hf notObject
  | bind => exact absurd rfl bind
  | _ => exact .of_same h rfl rfl rfl rfl fun _ => rfl

/-- A stop unlistens whatever a wrapper of its kind listens to. -/
theorem stopActs_unlisten (origin : Option Nat) {field : ProxyField}
    (of : kind = .registry → field = .registry) :
    ∃ j ∈ (stopActs kind).map (SessionStmt.act origin), j.unlistens kind field = true := by
  cases kind with
  | registry =>
    obtain rfl := of rfl
    exact ⟨.act origin .destroyRegistry, by simp [stopActs], rfl⟩
  | metadata =>
    cases field with
    | registry => exact ⟨.act origin .destroyRegistry, by simp [stopActs], rfl⟩
    | object => exact ⟨.act origin .destroyObject, by simp [stopActs, destroyBoundActs], rfl⟩
  | _ => exact ⟨.act origin .destroyPipewireObjects, by simp [stopActs], rfl⟩

/-- A start that goes on registers listeners for the fields that it sets. -/
theorem sessionStart_listens {result : PipewireResult} {sync : Bool} (up : s.connected = true)
    (unheard : s.listening = []) :
    ListensToFields kind (sessionStart kind result sync s).1 := by
  have down : ∀ u : WrapperSession, u.connected = true → u.connected = false →
      u.listening = [] := fun u hu hd => by simp [hu] at hd
  cases result <;> cases kind <;>
    simp only [sessionStart, WrapperKind.bindsObject, unheard, List.nil_append, if_true,
      Bool.false_eq_true, if_false] <;>
    refine ⟨?_, ?_, down _ up⟩ <;> simp [WrapperSession.proxy]

theorem bind_listens {result : PipewireResult} (metadata : kind = .metadata)
    (h : ListensToFields kind s) : ListensToFields kind (s.bind result).1 := by
  unfold WrapperSession.bind
  split
  next => exact h
  next free =>
    have object : s.object = none := not_not.mp (not_or.mp free).2
    split
    next => exact h
    next has =>
      have up : s.connected = true := by simpa using (not_or.mp has).1
      split
      next => exact h
      next => exact h
      next =>
        refine ⟨fun l hl => ?_, fun hk => by simp [metadata] at hk, fun hd => by simp [up] at hd⟩
        rcases List.mem_append.mp hl with hl | hl
        · have field := h.fields l hl
          cases hf : l.1 <;> rw [hf] at field
          · exact field
          · simp [WrapperSession.proxy, object] at field
        · rw [List.mem_singleton.mp hl]
          rfl

theorem ListensToFields.record (origin : Option Nat) (h : ListensToFields kind s) :
    ListensToFields kind (s.record origin) := h.same rfl rfl rfl rfl

/-- Below a disposal no statement registers a listener, and what unlistens gets to do so. -/
theorem sessionExec_silent (h : ListensToFields kind s)
    (forget : ∀ origin, i = .act origin .forgetProxies → s.connected = false)
    (apart : i.listensApart s true = true) :
    KeepsSilent kind i s (sessionExec kind choice i s).1 (sessionExec kind choice i s).2 := by
  cases i with
  | act origin act =>
    have bind : act ≠ .bind := by
      rintro rfl
      cases apart
    have forget : act = .forgetProxies → s.connected = false := by
      rintro rfl
      exact forget origin rfl
    simp only [sessionExec]
    split
    next =>
      have done : KeepsSilent kind (.act origin act) (s.record origin)
          (sessionAct kind choice act (s.record origin)).1
          (if (sessionAct kind choice act (s.record origin)).2 then [.handlers] else []) :=
        sessionAct_silent (h.record origin) bind forget
      exact ⟨done.listens, done.connected, done.listening⟩
    next => exact sessionAct_silent h bind forget
  | connect =>
    simp only [sessionExec]
    split
    next down =>
      exact ⟨.unheard (h.down down.1), fun hn => absurd rfl hn,
        fun l hl => ⟨hl, fun hu => by cases hu⟩⟩
    next => exact .of_same h rfl rfl rfl rfl fun _ => rfl
  | startProxies sync =>
    have down : s.connected = false := by simpa [SessionStmt.listensApart] using apart
    simp only [sessionExec, down, if_true]
    exact .of_same h rfl rfl rfl rfl fun _ => rfl
  | start sync =>
    simp only [sessionExec]
    split
    next => exact .of_same h rfl rfl rfl rfl fun _ => rfl
    next => split <;> exact .of_same h rfl rfl rfl rfl fun _ => rfl
  | stop origin =>
    simp only [sessionExec]
    split
    next idle =>
      obtain ⟨-, registry, object⟩ := idle
      refine .of_unheard (fun _ => rfl) (List.eq_nil_iff_forall_not_mem.mpr fun l hl => ?_)
      have field := h.fields l hl
      cases hf : l.1 <;> rw [hf] at field
      · simp [WrapperSession.proxy, registry] at field
      · simp [WrapperSession.proxy, object] at field
    next =>
      exact ⟨h, fun _ => rfl, fun l hl =>
        ⟨hl, fun _ => stopActs_unlisten origin fun hk => h.registry hk l hl⟩⟩
  | _ => exact .of_same h rfl rfl rfl rfl fun _ => rfl

/-- Only a metadata binds its object later than it starts. -/
def SessionStmt.fits (kind : WrapperKind) : SessionStmt → Bool
  | .act _ .bind => kind = .metadata
  | _ => true

theorem sessionExec_listens {below : Bool} (h : ListensToFields kind s)
    (forget : ∀ origin, i = .act origin .forgetProxies → s.connected = false)
    (fits : i.fits kind = true) (apart : i.listensApart s below = true) :
    ListensToFields kind (sessionExec kind choice i s).1 := by
  by_cases silent : i.listensApart s true = true
  · exact (sessionExec_silent h forget silent).listens
  cases i with
  | act origin act =>
    cases act with
    | bind =>
      have metadata : kind = .metadata := by simpa [SessionStmt.fits] using fits
      simp only [sessionExec]
      split
      next => exact bind_listens metadata (h.record origin)
      next => exact bind_listens metadata h
    | _ => exact absurd rfl silent
  | startProxies sync =>
    have up : s.connected = true := by simpa [SessionStmt.listensApart] using silent
    have unheard : s.listening = [] := by
      have apart : s.listening = [] ∧ below = false := by
        simpa [SessionStmt.listensApart, up] using apart
      exact apart.1
    simp only [sessionExec, up, Bool.true_eq_false, if_false]
    exact sessionStart_listens up unheard
  | _ => exact absurd rfl silent

def SessionStmt.forgets : SessionStmt → Bool
  | .act _ .forgetProxies => true
  | _ => false

/-- The statements that do not look for a core. -/
def SessionStmt.coreless : SessionStmt → Bool
  | .handlers | .act _ _ | .dispatch _ | .stop _ => true
  | _ => false

theorem infoActs_update {stateChanged paramsChanged : Bool} {count : Nat} {act : SessionAct}
    (h : act ∈ infoActs kind stateChanged paramsChanged count) :
    act = .signal ∨ ∃ item, act = .change item := by
  cases kind <;> grind [infoActs, updateStateActs, updateParamInfosActs]

theorem dispatchActs_adds {callback : PipewireCallback} {act : SessionAct}
    (h : act ∈ dispatchActs kind choice callback) :
    act ≠ .forgetProxies ∧ (act = .bind → kind = .metadata) := by
  cases callback with
  | info info =>
    cases info with
    | none => cases h
    | some flags =>
      rcases infoActs_update h with rfl | ⟨item, rfl⟩ <;> simp
  | _ => cases kind <;> grind [dispatchActs, destroyBoundActs]

theorem stopActs_adds {act : SessionAct} (h : act ∈ stopActs kind) :
    act ≠ .forgetProxies ∧ act ≠ .bind := by
  cases kind <;> revert act <;> decide

theorem resetActs_adds (kind : WrapperKind) :
    ∃ acts, resetActs kind = .forgetProxies :: acts ∧
      ∀ act ∈ acts, act ≠ .forgetProxies ∧ act ≠ .bind := by
  cases kind <;> exact ⟨_, rfl, by decide⟩

/-- What a statement that is added may be: only a reset forgets the proxies, at once. -/
structure Adds (kind : WrapperKind) (i : SessionStmt) (t : WrapperSession)
    (new : List SessionStmt) : Prop where
  fits : ∀ j ∈ new, j.fits kind = true
  coreless : i.coreless = true → ∀ j ∈ new, j.coreless = true
  tail : ∀ j ∈ new.tail, j.forgets = false
  head : ∀ j ∈ new, j.forgets = true → t.connected = false

theorem Adds.nil : Adds kind i t [] := ⟨by simp, by simp, by simp, by simp⟩

theorem Adds.of_plain (fits : ∀ j ∈ new, j.fits kind = true)
    (coreless : i.coreless = true → ∀ j ∈ new, j.coreless = true)
    (forgets : ∀ j ∈ new, j.forgets = false) : Adds kind i t new where
  fits := fits
  coreless := coreless
  tail j hj := forgets j (List.mem_of_mem_tail hj)
  head j hj hf := by simp [forgets j hj] at hf

/-- Acts that neither forget nor bind where they must not. -/
theorem Adds.of_acts {origin : Option Nat} {acts : List SessionAct}
    (h : ∀ act ∈ acts, act ≠ .forgetProxies ∧ (act = .bind → kind = .metadata)) :
    Adds kind i t (acts.map (.act origin)) := by
  refine .of_plain (fun j hj => ?_) (fun _ j hj => ?_) fun j hj => ?_ <;>
    obtain ⟨act, ha, rfl⟩ := List.mem_map.mp hj
  · cases act <;> first | rfl | exact decide_eq_true ((h _ ha).2 rfl)
  · rfl
  · cases act <;> first | rfl | exact absurd rfl (h _ ha).1

theorem sessionStart_adds (kind : WrapperKind) (result : PipewireResult) (sync : Bool)
    (s : WrapperSession) : ∀ j ∈ (sessionStart kind result sync s).2,
      j.fits kind = true ∧ j.forgets = false := by
  cases result <;> cases kind <;> cases sync <;>
    simp [sessionStart, WrapperKind.bindsObject, SessionStmt.fits, SessionStmt.forgets]

theorem Adds.handlers : Adds kind i t [.handlers] := by
  apply Adds.of_plain <;> simp [SessionStmt.fits, SessionStmt.coreless, SessionStmt.forgets]

theorem sessionExec_adds (kind : WrapperKind) (choice : SessionChoice) (i : SessionStmt)
    (s : WrapperSession) :
    Adds kind i (sessionExec kind choice i s).1 (sessionExec kind choice i s).2 := by
  cases i with
  | act origin act =>
    simp only [sessionExec]
    generalize (if act.takesEffect choice s then s.record origin else s) = t
    cases (sessionAct kind choice act t).2 with
    | true => exact .handlers
    | false => exact .nil
  | dispatch event =>
    have stop : ∀ origin t, Adds kind (.dispatch event) t [.stop origin] := fun origin t => by
      apply Adds.of_plain <;> simp [SessionStmt.fits, SessionStmt.coreless, SessionStmt.forgets]
    simp only [sessionExec, sessionDispatch]
    split
    next => exact .nil
    next =>
      split
      next => exact stop _ _
      next => exact stop _ _
      next => exact stop _ _
      next => exact .of_acts fun act ha => dispatchActs_adds ha
  | startProxies sync =>
    simp only [sessionExec]
    split
    next => exact .nil
    next =>
      have added := sessionStart_adds kind choice.result sync s
      exact .of_plain (fun j hj => (added j hj).1) (fun hc => by cases hc)
        fun j hj => (added j hj).2
  | stop origin =>
    simp only [sessionExec]
    split
    next => exact .nil
    next =>
      exact .of_acts fun act ha =>
        ⟨(stopActs_adds ha).1, fun hb => absurd hb (stopActs_adds ha).2⟩
  | coreConnectedNotify =>
    obtain ⟨acts, layout, others⟩ := resetActs_adds kind
    cases connected : s.connected with
    | true =>
      simp only [sessionExec, connected, if_true]
      exact .nil
    | false =>
      simp only [sessionExec, connected, Bool.false_eq_true, if_false, layout, List.map_cons]
      have later : Adds kind .handlers s (acts.map (.act none)) := .of_acts fun act ha =>
        ⟨(others act ha).1, fun hb => absurd hb (others act ha).2⟩
      refine ⟨fun j hj => ?_, fun hd => ?_, fun j hj => ?_, fun _ _ _ => connected⟩
      · rcases List.mem_cons.mp hj with rfl | hj
        · rfl
        · exact later.fits j hj
      · cases hd
      · obtain ⟨act, ha, rfl⟩ := List.mem_map.mp hj
        cases act <;> first | rfl | exact absurd rfl (others _ ha).1
  | handlers => exact .nil
  | connect =>
    simp only [sessionExec]
    split
    next => exact .handlers
    next => exact .nil
  | start sync =>
    simp only [sessionExec]
    cases s.running <;> cases s.connected <;> cases sync <;>
      apply Adds.of_plain <;> simp [SessionStmt.fits, SessionStmt.coreless, SessionStmt.forgets]
  | coreSync | coreSyncWait =>
    simp only [sessionExec]
    cases s.connected <;>
      apply Adds.of_plain <;> simp [SessionStmt.fits, SessionStmt.coreless, SessionStmt.forgets]

def RefStmt.listensApart (s : WrapperSession) (disposing : Bool) : RefStmt SessionStmt → Bool
  | .run i => i.listensApart s disposing
  | _ => true

/-- No start goes on, and nothing is bound, where the wrapper would listen twice or below a
disposal. -/
def ListensApart (c : Config (RefCounted WrapperSession) (RefStmt SessionStmt)) :
    Label (RefCall SessionCall) SessionChoice (Nat × PipewireCallback) → Prop
  | .run _ => ∀ i ∈ c.code.head?, i.listensApart c.state.object (disposing c.code) = true
  | .call _ | .environment _ => True

instance (c : Config (RefCounted WrapperSession) (RefStmt SessionStmt)) :
    DecidablePred (ListensApart c)
  | .run _ => inferInstanceAs (Decidable (∀ i ∈ c.code.head?, i.listensApart _ _ = true))
  | .call _ | .environment _ => .isTrue trivial

structure WrapperHeard (kind : WrapperKind) (s : RefCounted WrapperSession)
    (code : List (RefStmt SessionStmt)) : Prop where
  listens : ListensToFields kind s.object
  fits : ∀ i, .run i ∈ code → i.fits kind = true
  forgets : ∀ i, .run i ∈ code.tail → i.forgets = false
  resets : ∀ i, .run i ∈ code → i.forgets = true → s.object.connected = false
  cleared : s.disposed = true →
    s.object.connected = false ∧ ∀ i, .run i ∈ code → i.coreless = true
  closing : disposing code = true → ∀ l ∈ s.object.listening,
    ∃ i, .run i ∈ code ∧ i.unlistens kind l.1 = true

variable {r : RefCounted WrapperSession} {code rest : List (RefStmt SessionStmt)}

theorem mem_run {new : List SessionStmt} :
    RefStmt.run i ∈ new.map RefStmt.run ↔ i ∈ new := by simp

theorem sessionAct_connected (act : SessionAct) (s : WrapperSession) :
    (sessionAct kind choice act s).1.connected = s.connected := by
  cases act with
  | bind =>
    simp only [sessionAct, WrapperSession.bind]
    split
    next => rfl
    next => split <;> first | rfl | (split <;> rfl)
  | destroyRegistry =>
    simp only [sessionAct]
    split
    next => rfl
    next => split <;> rfl
  | destroyObject =>
    simp only [sessionAct]
    split <;> rfl
  | _ => rfl

theorem sessionExec_connected (h : i.coreless = true) :
    (sessionExec kind choice i s).1.connected = s.connected := by
  cases i with
  | act origin act =>
    refine (sessionAct_connected act _).trans ?_
    split <;> rfl
  | stop origin =>
    simp only [sessionExec]
    split <;> rfl
  | handlers => rfl
  | dispatch event => rfl
  | _ => cases h

theorem WrapperHeard.run {i : SessionStmt} (h : WrapperHeard kind r (.run i :: rest))
    (apart : i.listensApart r.object (disposing (.run i :: rest)) = true) :
    WrapperHeard kind { r with object := (sessionExec kind choice i r.object).1 }
      ((sessionExec kind choice i r.object).2.map .run ++ rest) := by
  have adds := sessionExec_adds kind choice i r.object
  have forget : ∀ origin, i = .act origin .forgetProxies → r.object.connected = false := by
    rintro origin rfl
    exact h.resets _ List.mem_cons_self rfl
  have below : disposing ((sessionExec kind choice i r.object).2.map .run ++ rest) =
      disposing (.run i :: rest) := by
    rw [disposing_append, disposing_plain (run_plain _)]
    rfl
  exact {
    listens := sessionExec_listens h.listens forget (h.fits i List.mem_cons_self) apart
    fits := fun j hj => by
      rcases List.mem_append.mp hj with hj | hj
      · exact adds.fits j (mem_run.mp hj)
      · exact h.fits j (List.mem_cons_of_mem _ hj)
    forgets := fun j hj => by
      cases hnew : (sessionExec kind choice i r.object).2 with
      | nil =>
        rw [hnew] at hj
        exact h.forgets j (List.mem_of_mem_tail hj)
      | cons k new =>
        have later := adds.tail
        rw [hnew] at hj later
        rcases List.mem_append.mp hj with hj | hj
        · exact later j (mem_run.mp hj)
        · exact h.forgets j hj
    resets := fun j hj hf => by
      rcases List.mem_append.mp hj with hj | hj
      · exact adds.head j (mem_run.mp hj) hf
      · have later := h.forgets j hj
        rw [hf] at later
        cases later
    cleared := fun hd => by
      obtain ⟨down, coreless⟩ := h.cleared hd
      have head := coreless i List.mem_cons_self
      refine ⟨(sessionExec_connected head).trans down, fun j hj => ?_⟩
      rcases List.mem_append.mp hj with hj | hj
      · exact adds.coreless head j (mem_run.mp hj)
      · exact coreless j (List.mem_cons_of_mem _ hj)
    closing := fun hc l hl => by
      rw [below] at hc
      rw [hc] at apart
      obtain ⟨listening, added⟩ := (sessionExec_silent h.listens forget apart).listening l hl
      obtain ⟨k, hk, unlistens⟩ := h.closing hc l listening
      rcases List.mem_cons.mp hk with he | hk
      · cases he
        obtain ⟨j, hj, unlistens⟩ := added unlistens
        exact ⟨j, List.mem_append_left _ (mem_run.mpr hj), unlistens⟩
      · exact ⟨k, List.mem_append_right _ hk, unlistens⟩ }

/-- Fewer statements and the same wrapper. -/
theorem WrapperHeard.drop {i : RefStmt SessionStmt} (h : WrapperHeard kind r (i :: rest))
    (still : disposing rest = true → ∀ j, .run j ∈ i :: rest → .run j ∈ rest) (count : Nat)
    (finalized : Bool) :
    WrapperHeard kind { r with refCount := count, finalized := finalized } rest where
  listens := h.listens
  fits j hj := h.fits j (List.mem_cons_of_mem _ hj)
  forgets j hj := h.forgets j (List.mem_of_mem_tail hj)
  resets j hj := h.resets j (List.mem_cons_of_mem _ hj)
  cleared hd := ⟨(h.cleared hd).1, fun j hj => (h.cleared hd).2 j (List.mem_cons_of_mem _ hj)⟩
  closing hc l hl := by
    have more : disposing (i :: rest) = true := by
      rw [disposing, List.any_cons, Bool.or_eq_true]
      exact .inr hc
    obtain ⟨j, hj, unlistens⟩ := h.closing more l hl
    exact ⟨j, still hc j hj, unlistens⟩

/-- Statements that a call or a disposal puts on top, while the application runs or where nothing
does. -/
theorem WrapperHeard.push {new : List (RefStmt SessionStmt)} {t : RefCounted WrapperSession}
    (h : WrapperHeard kind r code) (quiet : ∀ j, .run j ∈ code → j.forgets = false)
    (listens : ListensToFields kind t.object) (disposed : t.disposed = r.disposed)
    (connected : r.disposed = true → t.object.connected = r.object.connected)
    (fewer : ∀ l ∈ t.object.listening, l ∈ r.object.listening)
    (fits : ∀ j, .run j ∈ new → j.fits kind = true ∧ j.forgets = false)
    (coreless : r.disposed = true → ∀ j, .run j ∈ new → j.coreless = true)
    (closing : disposing new = true → ∀ l ∈ t.object.listening,
      ∃ j, .run j ∈ new ∧ j.unlistens kind l.1 = true) :
    WrapperHeard kind t (new ++ code) where
  listens := listens
  fits j hj := (List.mem_append.mp hj).elim (fun hj => (fits j hj).1) (h.fits j)
  forgets j hj :=
    (List.mem_append.mp (List.mem_of_mem_tail hj)).elim (fun hj => (fits j hj).2) (quiet j)
  resets j hj hf := by
    have plain : j.forgets = false :=
      (List.mem_append.mp hj).elim (fun hj => (fits j hj).2) (quiet j)
    rw [hf] at plain
    cases plain
  cleared hd := by
    rw [disposed] at hd
    refine ⟨(connected hd).trans (h.cleared hd).1, fun j hj => ?_⟩
    exact (List.mem_append.mp hj).elim (coreless hd j) ((h.cleared hd).2 j)
  closing hc l hl := by
    rw [disposing_append, Bool.or_eq_true] at hc
    rcases hc with hc | hc
    · obtain ⟨j, hj, unlistens⟩ := closing hc l hl
      exact ⟨j, List.mem_append_left _ hj, unlistens⟩
    · obtain ⟨j, hj, unlistens⟩ := h.closing hc l (fewer l hl)
      exact ⟨j, List.mem_append_right _ hj, unlistens⟩

theorem mem_dispose {target : WrapperTarget} {j : SessionStmt}
    (hj : .run j ∈ (wrapperObject kind target).dispose) : j = .stop none ∨ j = .handlers := by
  simpa [RefCountedObject.dispose, RefCountedObject.finish, wrapperObject] using hj

/-- A dispose begins with a stop, which unlistens everything. -/
theorem WrapperHeard.dispose (h : WrapperHeard kind r code)
    (quiet : ∀ j, .run j ∈ code → j.forgets = false) :
    WrapperHeard kind r ((wrapperObject kind target).dispose ++ code) := by
  refine h.push quiet h.listens rfl (fun _ => rfl) (fun l hl => hl) (fun j hj => ?_)
    (fun _ j hj => ?_) fun _ l hl => ⟨.stop none, by
      simp [RefCountedObject.dispose, wrapperObject], ?_⟩
  · rcases mem_dispose hj with rfl | rfl <;> exact ⟨rfl, rfl⟩
  · rcases mem_dispose hj with rfl | rfl <;> rfl
  · by_cases hk : kind = .registry
    · simp [SessionStmt.unlistens, h.listens.registry hk l hl]
    · simp [SessionStmt.unlistens, hk]

theorem WrapperHeard.unref (owned : Nat) (h : WrapperHeard kind r code)
    (quiet : ∀ j, .run j ∈ code → j.forgets = false) :
    WrapperHeard kind ((wrapperObject kind target).unref { r with owned := owned }).1
      (((wrapperObject kind target).unref { r with owned := owned }).2 ++ code) := by
  have same : WrapperHeard kind { r with owned := owned } code :=
    ⟨h.listens, h.fits, h.forgets, h.resets, h.cleared, h.closing⟩
  unfold RefCountedObject.unref
  split
  next => exact same.dispose quiet
  next => exact ⟨h.listens, h.fits, h.forgets, h.resets, h.cleared, h.closing⟩

/-- A reset has begun only while its first statement is next. -/
theorem WrapperHeard.quiet {target : WrapperTarget} (h : WrapperHeard kind r code)
    (runs : (wrapperObject kind target).refComponent.applicationRuns code = true) :
    ∀ j, .run j ∈ code → j.forgets = false := by
  cases code with
  | nil => simp
  | cons i rest =>
    intro j hj
    rcases List.mem_cons.mp hj with rfl | hj
    · have handlers : j = .handlers := of_decide_eq_true runs
      rw [handlers]
      rfl
    · exact h.forgets j hj

theorem WrapperHeard.call {target : WrapperTarget} {operation : SessionCall}
    {u : RefCounted WrapperSession × List (RefStmt SessionStmt)} (h : WrapperHeard kind r code)
    (quiet : ∀ j, .run j ∈ code → j.forgets = false)
    (hr : (wrapperObject kind target).call (.call operation) r = some u) :
    WrapperHeard kind u.1 (u.2 ++ code) := by
  rcases RefCountedObject.call_cases hr with rfl | ⟨v, tail, hv, returns, disposed, rfl⟩
  · exact h
  have none : ∀ j, .run j ∉ tail := fun j hj => by cases returns _ hj
  have open_ : disposing tail = false :=
    disposing_plain fun j hj => by rw [returns j hj]; rfl
  have idle : ∀ new : List SessionStmt, disposing (new.map RefStmt.run ++ tail) = false :=
    fun new => by rw [disposing_append, disposing_plain (run_plain _), open_]; rfl
  cases operation with
  | dispatch position =>
    obtain ⟨event, -, rfl⟩ := Option.map_eq_some_iff.mp hv
    refine h.push quiet (h.listens.same rfl rfl rfl rfl) rfl (fun _ => rfl) (fun l hl => hl)
      ?_ ?_ (fun hc => nomatch (idle _).symm.trans hc) <;>
      simp [none, SessionStmt.fits, SessionStmt.forgets, SessionStmt.coreless]
  | stop =>
    cases Option.some.inj hv
    refine h.push quiet h.listens rfl (fun _ => rfl) (fun l hl => hl) ?_ ?_
      (fun hc => nomatch (idle _).symm.trans hc) <;>
      simp [none, SessionStmt.fits, SessionStmt.forgets, SessionStmt.coreless]
  | connect =>
    cases Option.some.inj hv
    have up : ListensToFields kind { r.object with connected := true } :=
      ⟨h.listens.fields, h.listens.registry, fun hd => by cases hd⟩
    refine h.push quiet up rfl (fun hd => by cases disposed hd) (fun l hl => hl) ?_ ?_ ?_ <;>
      simp [none, open_]
  | disconnect =>
    cases Option.some.inj hv
    refine h.push quiet (.unheard rfl) rfl (fun hd => by cases disposed hd)
      (fun l hl => by cases hl) ?_ ?_ ?_ <;> simp [none, open_]
  | start | sync | coreConnectedNotify =>
    cases Option.some.inj hv
    refine h.push quiet h.listens rfl (fun _ => rfl) (fun l hl => hl) ?_
      (fun hd => by cases disposed hd) (fun hc => nomatch (idle _).symm.trans hc)
    simp [none, SessionStmt.fits, SessionStmt.forgets]

theorem wrapperShuts : Shuts (wrapperObject kind target) ListensApart (WrapperHeard kind) where
  call operation s code r _ h runs _ hr := by
    cases operation with
    | call operation => exact h.call (h.quiet runs) hr
    | ref =>
      cases hr
      exact ⟨h.listens, h.fits, h.forgets, h.resets, h.cleared, h.closing⟩
    | unref =>
      cases hr
      exact h.unref _ (h.quiet runs)
  run choice i s rest counted h apart := by
    have below : ∀ j, .run j ∈ rest → j.forgets = false := h.forgets
    cases i with
    | run i => exact h.run (apart (.run i) rfl)
    | unref =>
      have dropped := h.drop (fun _ j hj => by simpa using hj) s.refCount s.finalized
      exact dropped.unref s.owned below
    | clear =>
      have unheard : s.object.listening = [] := by
        refine List.eq_nil_iff_forall_not_mem.mpr fun l hl => ?_
        obtain ⟨j, hj, unlistens⟩ := h.closing rfl l hl
        rw [counted.clear_rest] at hj
        have handlers : j = .handlers := by
          simpa [RefCountedObject.finish, wrapperObject] using hj
        rw [handlers] at unlistens
        cases unlistens
      rw [counted.clear_rest] at h ⊢
      have plain : ∀ j, .run j ∈ (wrapperObject kind target).finish → j = .handlers := by
        simp [RefCountedObject.finish, wrapperObject]
      exact {
        listens := .unheard unheard
        fits := fun j hj => by rw [plain j hj]; rfl
        forgets := fun j hj => by rw [plain j (List.mem_of_mem_tail hj)]; rfl
        resets := fun _ _ _ => rfl
        cleared := fun _ => ⟨rfl, fun j hj => by rw [plain j hj]; rfl⟩
        closing := fun hc => by cases hc }
    | decrement => exact h.drop (fun _ j hj => by simpa using hj) _ _
  environment event s code t h ht := by
    obtain ⟨u, hu, rfl⟩ := Option.map_eq_some_iff.mp ht
    simp only [wrapperObject, sessionComponent, sessionReport] at hu
    split at hu
    next =>
      cases Option.some.inj hu
      exact ⟨h.listens.same rfl rfl rfl rfl, h.fits, h.forgets, h.resets, h.cleared, h.closing⟩
    next => cases hu
  unheard s disposed h event := by
    have empty := h.listens.down (h.cleared disposed).1
    simp [wrapperObject, sessionComponent, sessionReport, empty]

/-- A wrapper that the application has created. -/
def wrapperCreated : Config (RefCounted WrapperSession) (RefStmt SessionStmt) :=
  ⟨⟨{}, 1, 1, false, false⟩, []⟩

/-- A wrapper lives exactly as long as the application, an event or a function of its own refers
to it, and once it is finalized no listener is left that could call it. -/
theorem wrapper_managed {c : Config (RefCounted WrapperSession) (RefStmt SessionStmt)}
    (h : Reach (wrapperObject kind target).refComponent.step
      (fun c label => KeepsReference (wrapperObject kind target) c label ∧ ListensApart c label)
      wrapperCreated c) :
    (c.state.finalized = false →
      c.state.refCount = c.state.owned + c.state.object.queue.length + held c.code) ∧
    (c.state.finalized = true ↔
      c.state.owned = 0 ∧ c.state.object.queue = [] ∧ c.code = []) ∧
    (c.state.finalized = true → c.state.disposed = true ∧ c.state.object.listening = []) := by
  have start : WrapperHeard kind wrapperCreated.state [] :=
    ⟨.unheard rfl, by simp, by simp, by simp, by simp [wrapperCreated], by simp [disposing]⟩
  obtain ⟨managed, heard⟩ := wrapperShuts.managed rfl start h
  refine ⟨managed.live, ?_, fun hf => ?_⟩
  · rw [managed.finalized]
    simp [wrapperObject]
  · have disposed := (managed.unheard hf).1
    exact ⟨disposed, heard.listens.down (heard.cleared disposed).1⟩

abbrev WrapperLabel :=
  Label (RefCall SessionCall) SessionChoice (Nat × PipewireCallback)

def wrapperRunning : List WrapperLabel :=
  .call (.call .connect) :: .call (.call .start) :: List.replicate 4 (.run {})

/-- An info comes while the last reference of the application is dropped, before the listeners are
removed. Its event keeps the disposed node until it is dispatched. -/
def infoDisposing : Config (RefCounted WrapperSession) (RefStmt SessionStmt) :=
  final (wrapperObject .node ⟨[], 7⟩).refComponent.step wrapperCreated
    (wrapperRunning ++ [.call .unref, .run {}, .environment (1, .info (some (true, true)))] ++
      List.replicate 17 (.run {}) ++ .call (.call (.dispatch 0)) :: List.replicate 6 (.run {}))

theorem wrapper_managed_infoDisposing :
    infoDisposing.state.finalized = true ∧ infoDisposing.state.object.queue = [] ∧
      infoDisposing.state.object.listening = [] := by
  have managed := @wrapper_managed .node ⟨[], 7⟩ infoDisposing (reach_final (by decide +kernel))
  have finalized : infoDisposing.state.finalized = true := by decide +kernel
  exact ⟨finalized, (managed.2.1.mp finalized).2.1, (managed.2.2 finalized).2⟩

/-- A handler of the last `notify::running` starts the node again. -/
def startedDisposing : Config (RefCounted WrapperSession) (RefStmt SessionStmt) :=
  final (wrapperObject .node ⟨[], 7⟩).refComponent.step wrapperCreated
    (wrapperRunning ++ .call .unref :: List.replicate 6 (.run {}) ++
      .call (.call .start) :: List.replicate 16 (.run {}))

/-- Without the condition, PipeWire calls what is not there any more. -/
theorem wrapper_managed_fails :
    Reach (wrapperObject .node ⟨[], 7⟩).refComponent.step
        (KeepsReference (wrapperObject .node ⟨[], 7⟩)) wrapperCreated startedDisposing ∧
      startedDisposing.state.finalized = true ∧
      startedDisposing.state.object.listening = [(.registry, 2), (.object, 2)] :=
  ⟨reach_final (by decide +kernel), by decide +kernel, by decide +kernel⟩

end PipewireGobject
