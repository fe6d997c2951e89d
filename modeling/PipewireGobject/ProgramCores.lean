import PipewireGobject.FailedStart

namespace PipewireGobject

/-- What the handlers of stream `j` hear. -/
def Notice.heardOf (j : Nat) : Notice → Option StreamSignal
  | .stream j' signal => if j' = j then some signal else none
  | _ => none

theorem connectProperties_getD (core : PwgCore) :
    ((connectProperties core).getD ∅).entries = core.pipewireProperties.entries := by
  unfold connectProperties
  split
  next empty => rw [empty]; rfl
  next => rfl

/-- What PipeWire has accepted where a core has connected. -/
structure CoreAccepted (results : PipewireResults) (core : PwgCore) : Prop where
  copied : ∀ entry ∈ core.pipewireProperties.entries, 0 ≤ results.propertiesSet entry.1 entry.2
  connected : results.contextConnect (connectProperties core) = true
  started : 0 ≤ results.threadLoopStart

theorem CoreAccepted.same {results : PipewireResults} {core other : PwgCore}
    (h : CoreAccepted results core) (same : other.pipewireProperties = core.pipewireProperties) :
    CoreAccepted results other := by
  refine ⟨?_, ?_, h.started⟩
  · rw [same]
    exact h.copied
  · rw [connectProperties, same]
    exact h.connected

variable {s t u : Program} {i j k : Nat} {o : HandleOwner} {results : PipewireResults}
  {opened : Nat → Prop}

/-- A call that is not about a stream: the streams, what their handlers have heard and the
properties of the cores are as they were, and only a core that has been `opened` becomes
connected. -/
structure CoresKept (opened : Nat → Prop) (s t : Program) : Prop where
  streams : t.streams = s.streams
  heard : ∀ j, t.notices.filterMap (Notice.heardOf j) = s.notices.filterMap (Notice.heardOf j)
  properties : ∀ k, (t.cores k).pipewireProperties = (s.cores k).pipewireProperties
  connected : ∀ k, (t.cores k).connected = true → (s.cores k).connected = true ∨ opened k

theorem CoresKept.refl (s : Program) : CoresKept opened s s :=
  ⟨rfl, fun _ => rfl, fun _ => rfl, fun _ connected => .inl connected⟩

theorem CoresKept.trans (h : CoresKept opened s t) (h' : CoresKept opened t u) :
    CoresKept opened s u where
  streams := h'.streams.trans h.streams
  heard j := (h'.heard j).trans (h.heard j)
  properties k := (h'.properties k).trans (h.properties k)
  connected k connected := by
    rcases h'.connected k connected with before | opened
    · exact h.connected k before
    · exact .inr opened

theorem CoresKept.same (streams : t.streams = s.streams) (cores : t.cores = s.cores)
    (notices : t.notices = s.notices) : CoresKept opened s t :=
  ⟨streams, fun _ => by rw [notices], fun _ => by rw [cores],
    fun k connected => .inl (by rwa [← cores])⟩

theorem OnlyHandles.coresKept (h : OnlyHandles o s t) : CoresKept opened s t :=
  .same h.streams h.cores h.notices

theorem CoresKept.setObject {f : PwgObject → PwgObject} : CoresKept opened s (s.setObject i f) :=
  .same rfl rfl rfl

theorem CoresKept.record {events : List (CustodyEvent Handle Nat)} :
    CoresKept opened s (s.record events) :=
  .same rfl rfl rfl

theorem CoresKept.notify {notices : List Notice}
    (other : ∀ n ∈ notices, ∀ j, n.heardOf j = none) : CoresKept opened s (s.notify notices) := by
  refine ⟨rfl, fun j => ?_, fun _ => rfl, fun _ connected => .inl connected⟩
  rw [Program.notify, List.filterMap_append,
    List.filterMap_eq_nil_iff.mpr fun n hn => other n hn j, List.append_nil]

theorem CoresKept.notifyObject (signals : List ObjectSignal) :
    CoresKept opened s (s.notify (signals.map (.object i))) := by
  refine .notify fun n hn j => ?_
  obtain ⟨signal, -, rfl⟩ := List.mem_map.mp hn
  rfl

theorem CoresKept.setCore {f : PwgCore → PwgCore}
    (properties : (f (s.cores k)).pipewireProperties = (s.cores k).pipewireProperties)
    (connected : (f (s.cores k)).connected = true → (s.cores k).connected = true ∨ opened k) :
    CoresKept opened s (s.setCore k f) := by
  refine ⟨rfl, fun _ => rfl, fun k' => ?_, fun k' => ?_⟩ <;> rw [setCore_cores] <;> split
  next hk => rw [hk, properties]
  next => rfl
  next hk => rw [hk]; exact connected
  next => exact .inl

theorem objectClear_coresKept : CoresKept opened s (s.objectClear i) :=
  CoresKept.setObject.trans (.notifyObject _)

theorem objectReset_coresKept : CoresKept opened s (s.objectReset i) := by
  have released : OnlyHandles (.object i) s
      ((s.setHandle (.object i) .registry none).setHandle (.object i) .object none) :=
    OnlyHandles.setHandle.trans .setHandle
  exact (released.coresKept.trans .setObject).trans objectClear_coresKept

theorem notifyConnected_coresKept : CoresKept opened s (s.notifyConnected k) := by
  unfold Program.notifyConnected
  generalize (s.cores k).handlers = handlers
  have noticed : CoresKept opened s (s.notify [.core k]) := .notify (by simp [Notice.heardOf])
  refine noticed.trans ?_
  generalize s.notify [.core k] = t
  induction handlers generalizing t with
  | nil => exact .refl t
  | cons i handlers ih =>
    rw [List.foldl_cons]
    refine CoresKept.trans ?_ (ih _)
    unfold Program.objectOnCoreConnectedNotify
    split
    next => exact .refl t
    next => exact objectReset_coresKept

theorem coreDisconnect_coresKept : CoresKept opened s (s.coreDisconnect k) := by
  have closed : CoresKept opened s (((s.setCore k fun self =>
      { self with connected := false }).stopLoop (.core k)).closeConnection (.core k)) :=
    (CoresKept.setCore rfl fun connected => absurd connected Bool.false_ne_true).trans
      (OnlyHandles.stopLoop.trans .closeConnection).coresKept
  unfold Program.coreDisconnect
  simp only
  split
  next => exact closed.trans notifyConnected_coresKept
  next => exact closed

/-- `pwg_core_connect` connects the core with the properties that it has. -/
theorem coreConnect_coresKept (opens : CoreAccepted results (s.cores k) → opened k) :
    CoresKept opened s (s.coreConnect results k).2 := by
  have failed : ∀ {t}, OnlyHandles (.core k) s t → CoresKept opened s (t.coreDisconnect k) :=
    fun only => only.coresKept.trans coreDisconnect_coresKept
  unfold Program.coreConnect
  simp only
  split
  next => exact .refl s
  next =>
    generalize ht₁ : s.make (.core k) .threadLoop none results.threadLoopNew = t₁
    have only₁ : OnlyHandles (.core k) s t₁ := ht₁ ▸ .make
    split
    next => exact only₁.coresKept
    next =>
      generalize ht₂ : t₁.make (.core k) .context _ _ = t₂
      have only₂ : OnlyHandles (.core k) s t₂ := ht₂ ▸ only₁.trans .make
      split
      next => exact failed only₂
      next =>
        split
        next => exact failed only₂
        next =>
          split
          next => exact failed only₂
          next copied =>
            generalize ht₃ : t₂.make (.core k) .core _ _ = t₃
            have only₃ : OnlyHandles (.core k) s t₃ := ht₃ ▸ only₂.trans .make
            split
            next => exact failed only₃
            next made =>
              split
              next => exact failed only₃
              next started =>
                have accepted : CoreAccepted results (s.cores k) := by
                  refine ⟨?_, ?_, by omega⟩
                  · rw [only₂.cores, connectProperties_getD] at copied
                    intro entry he
                    by_contra refused
                    exact copied (List.any_eq_true.mpr ⟨entry, he, by simpa using refused⟩)
                  · rw [← ht₃, handle_make, if_pos ⟨rfl, rfl⟩, only₂.cores] at made
                    by_contra refused
                    exact made (if_neg refused)
                have started : CoresKept opened s ((t₃.startLoop (.core k)).setCore k fun self =>
                    { self with connected := true }) :=
                  (only₃.trans .startLoop).coresKept.trans
                    (.setCore rfl fun _ => .inr (opens accepted))
                exact started.trans notifyConnected_coresKept

theorem objectDestroy_coresKept : CoresKept opened s (s.objectDestroyPipewireObjects i) := by
  unfold Program.objectDestroyPipewireObjects
  simp only
  have destroyed : ∀ t : Program, CoresKept opened t
      ((t.destroy (.object i) .object).destroy (.object i) .registry) := fun t =>
    (OnlyHandles.destroy.trans .destroy).coresKept
  exact (((CoresKept.record.trans (destroyed _)).trans .setObject).trans .record)

theorem objectStop_coresKept : CoresKept opened s (s.objectStop i) := by
  unfold Program.objectStop
  split
  next => exact .refl s
  next =>
    exact (CoresKept.setObject.trans objectDestroy_coresKept).trans objectClear_coresKept

theorem objectBind_coresKept {global : Global} {loop core : Handle} :
    CoresKept opened s (s.objectBind results i global loop core).2 := by
  unfold Program.objectBind
  simp only
  generalize ht₁ : (s.lock (some loop)).make (.object i) .registry _ _ = t₁
  have kept₁ : CoresKept opened s t₁ := ht₁ ▸ CoresKept.record.trans OnlyHandles.make.coresKept
  split
  next => exact kept₁.trans .record
  next =>
    generalize ht₂ : (t₁.setObject i _).make (.object i) .object _ _ = t₂
    have kept₂ : CoresKept opened s t₂ :=
      ht₂ ▸ (kept₁.trans .setObject).trans OnlyHandles.make.coresKept
    have failed : CoresKept opened s ((t₂.unlock (some loop)).objectDestroyPipewireObjects i) :=
      (kept₂.trans .record).trans objectDestroy_coresKept
    split
    next => exact failed
    next =>
      split
      next => exact failed
      next =>
        exact ((kept₂.trans .setObject).trans .record).trans
          (.notifyObject [.notifyRunning, .notifyBound])

/-- `pwg_node_start` and its like connect the core of the wrapper first. -/
theorem objectStart_coresKept
    (opens : ∀ k, (s.objects i).core = some k → CoreAccepted results (s.cores k) → opened k) :
    CoresKept opened s (s.objectStart results i).2 := by
  unfold Program.objectStart
  simp only
  split
  next => exact .refl s
  next =>
    split
    next k global hk hg =>
      split
      next => exact .refl s
      next =>
        have connected : CoresKept opened s (if (s.cores k).connected = true then (none, s)
            else s.coreConnect results k).2 := by
          split
          next => exact .refl s
          next => exact coreConnect_coresKept (opens k hk)
        generalize (if (s.cores k).connected = true then (none, s)
          else s.coreConnect results k) = r at connected ⊢
        obtain ⟨result, t⟩ := r
        cases result with
        | some error => exact connected
        | none =>
          simp only
          split
          next => exact connected.trans objectBind_coresKept
          next => exact connected
    next => exact .refl s

theorem objectDispatch_coresKept {event : ObjectEvent} :
    CoresKept opened s (s.objectDispatchEvent i event) := by
  unfold Program.objectDispatchEvent
  simp only
  split
  next => exact .refl s
  next =>
    cases event.change with
    | info state paramInfos => exact CoresKept.setObject.trans (.notifyObject _)
    | param param => exact CoresKept.setObject.trans (.notifyObject [.paramsChanged, .param param])
    | removed => exact objectStop_coresKept

theorem objectNew_coresKept {kind : ObjectKind} {core : Option Nat} {global : Option Global} :
    CoresKept opened s (s.objectNew kind core global) := by
  unfold Program.objectNew
  simp only
  cases core with
  | none => exact .same rfl rfl rfl
  | some k =>
    simp only
    generalize ht : ({ s.setObject s.objectCount (fun _ => ⟨kind, some k, global, _, _, _, _, _, _,
      _, _, _⟩) with objectCount := s.objectCount + 1 } : Program) = t
    have made : CoresKept opened s t := ht ▸ .same rfl rfl rfl
    exact made.trans (.setCore rfl .inl)

theorem objectDispose_coresKept : CoresKept opened s (s.objectDispose i) := by
  unfold Program.objectDispose
  simp only
  cases ((s.objectStop i).objects i).core with
  | none => exact objectStop_coresKept.trans .setObject
  | some k => exact (objectStop_coresKept.trans .setObject).trans (.setCore rfl .inl)

end PipewireGobject
