import PipewireGobject.Wrapper

namespace PipewireGobject

/-- A restriction on the steps of a core and its wrappers. -/
abbrev WrapperRule (ω : Type) :=
  Config (Wrappers ω) (WrapperStmt ω) → Label (WrapperCall ω) PipewireResult Empty → Prop

/-- The kinds that bind their object when they start. -/
def WrapperKind.bindsObject : WrapperKind → Bool
  | .node | .device | .link => true
  | .registry | .metadata => false

variable {ω : Type} [DecidableEq ω] {S : WrapperSet ω} {kind : ω → WrapperKind}
variable {result : PipewireResult} {s t : Wrappers ω} {w : ω} {k : ω × ProxyField}
variable {p q : Slots (ω × ProxyField)}

/-- The registry of a start and what is asked of it. -/
def boundRegistry (w : ω) (p : Slots (ω × ProxyField)) : Slots (ω × ProxyField) :=
  (p.bind (w, .registry) true).use (w, .registry)

def destroyBoth (w : ω) (p : Slots (ω × ProxyField)) : Slots (ω × ProxyField) :=
  (p.destroy (w, .object)).destroy (w, .registry)

def forgetBoth (w : ω) (p : Slots (ω × ProxyField)) : Slots (ω × ProxyField) :=
  (p.forget (w, .registry)).forget (w, .object)

/-- What a statement can do to the proxies. -/
inductive ProxyEffect (kind : ω → WrapperKind) (p : Slots (ω × ProxyField)) :
    WrapperStmt ω → Slots (ω × ProxyField) → Prop
  | same (i : WrapperStmt ω) : ProxyEffect kind p i p
  | opened : p.up = false → ProxyEffect kind p .connect p.openEpoch
  | closed : p.up = true → ProxyEffect kind p .disconnect p.closeEpoch
  | forgotten (i : WrapperStmt ω) (k : ω × ProxyField) :
      p.up = false ∨ p.handle k = none → ProxyEffect kind p i (p.forget k)
  | forgottenBoth (i : WrapperStmt ω) (w : ω) : p.up = false →
      ProxyEffect kind p i (forgetBoth w p)
  | destroyed (i : WrapperStmt ω) (k : ω × ProxyField) : p.up = true →
      (k.2 = .registry → (kind k.1).bindsObject = false) →
      ProxyEffect kind p i (p.destroy k)
  | destroyedBoth (w : ω) : (kind w).bindsObject = true →
      ProxyEffect kind p (.stop w) (destroyBoth w p)
  | used (i : WrapperStmt ω) (k : ω × ProxyField) : p.up = true → p.handle k ≠ none →
      ProxyEffect kind p i (p.use k)
  | usedUnchecked (w : ω) : ProxyEffect kind p (.enumParamsCall w) (p.use (w, .object))
  | registryLost (w : ω) (sync : Bool) : p.up = true →
      ProxyEffect kind p (.startProxies w sync) (p.lose (w, .registry))
  | registryBound (w : ω) (sync : Bool) : p.up = true →
      ProxyEffect kind p (.startProxies w sync) (p.bind (w, .registry) true)
  | objectLost (w : ω) (sync : Bool) : p.up = true → (kind w).bindsObject = true →
      ProxyEffect kind p (.startProxies w sync)
        (destroyBoth w ((boundRegistry w p).lose (w, .object)))
  | objectUnheard (w : ω) (sync : Bool) : p.up = true → (kind w).bindsObject = true →
      ProxyEffect kind p (.startProxies w sync)
        (destroyBoth w ((boundRegistry w p).bind (w, .object) false))
  | objectBound (w : ω) (sync : Bool) : p.up = true → (kind w).bindsObject = true →
      ProxyEffect kind p (.startProxies w sync) ((boundRegistry w p).bind (w, .object) true)
  | metadataUnheard (i : WrapperStmt ω) (w : ω) : p.up = true → kind w = .metadata →
      p.handle (w, .registry) ≠ none → p.handle (w, .object) = none →
      ProxyEffect kind p i ((p.use (w, .registry)).bindAborted (w, .object))
  | metadataBound (i : WrapperStmt ω) (w : ω) : p.up = true → kind w = .metadata →
      p.handle (w, .registry) ≠ none → p.handle (w, .object) = none →
      ProxyEffect kind p i ((p.use (w, .registry)).bind (w, .object) true)

theorem reset_effect (i : WrapperStmt ω) (of : WrapperKind) (down : s.connected = false) :
    ProxyEffect kind s.proxies i (reset of w s).1.proxies := by
  cases of with
  | registry => exact .forgotten i (w, .registry) (.inl down)
  | _ => exact .forgottenBoth i w down

theorem onCoreConnectedNotify_effect (i : WrapperStmt ω) (of : WrapperKind) :
    ProxyEffect kind s.proxies i (onCoreConnectedNotify of w s).1.proxies := by
  unfold onCoreConnectedNotify
  split
  next => exact .same i
  next down => exact reset_effect i of (Bool.eq_false_iff.mpr down)

/-- A handle is destroyed while the core is connected and forgotten while it is not. -/
theorem destroyOrForget_effect (i : WrapperStmt ω)
    (last : k.2 = .registry → (kind k.1).bindsObject = false) :
    ProxyEffect kind s.proxies i (if s.connected = true ∧ s.proxies.handle k ≠ none
      then s.onProxies (Slots.destroy k) else s.onProxies (Slots.forget k)).proxies := by
  split
  next h => exact .destroyed i k h.1 last
  next h =>
    refine .forgotten i k ?_
    by_contra hn
    simp only [not_or, Bool.not_eq_false] at hn
    exact h hn

theorem stop_effect : ProxyEffect kind s.proxies (.stop w) (stop (kind w) w s).1.proxies := by
  cases hkind : kind w with
  | registry =>
    simp only [stop, registryStop]
    split
    next => exact .same _
    next =>
      split
      next h =>
        exact .destroyed _ (w, .registry) h.1 fun _ => by simp [hkind, WrapperKind.bindsObject]
      next => exact .same _
  | metadata =>
    simp only [stop, metadataStop]
    split
    next => exact .same _
    next => exact destroyOrForget_effect (k := (w, .object)) _ (by simp)
  | _ =>
    simp only [stop, nodeStop, deviceStop, linkStop, objectStop]
    split
    next => exact .same _
    next => exact .destroyedBoth w (by rw [hkind]; rfl)

theorem startProxies_effect {sync : Bool} (up : s.connected = true) :
    ProxyEffect kind s.proxies (.startProxies w sync)
      (startProxies (kind w) result w s).1.proxies := by
  cases hkind : kind w with
  | registry =>
    cases result with
    | getRegistryFailed => exact .registryLost w sync up
    | _ => exact .registryBound w sync up
  | metadata =>
    cases result with
    | getRegistryFailed => exact .registryLost w sync up
    | _ => exact .registryBound w sync up
  | _ =>
    have binds : (kind w).bindsObject = true := by rw [hkind]; rfl
    cases result with
    | getRegistryFailed => exact .registryLost w sync up
    | bindFailed => exact .objectLost w sync up binds
    | addListenerFailed => exact .objectUnheard w sync up binds
    | _ => exact .objectBound w sync up binds

theorem metadataBind_effect {id : UInt32} (i : WrapperStmt ω) (hkind : kind w = .metadata) :
    ProxyEffect kind s.proxies i (metadataBind result w id s).1.proxies := by
  unfold metadataBind
  split
  next => exact .same i
  next hn =>
    obtain ⟨-, empty⟩ := not_or.mp hn
    split
    next => exact .same i
    next hc =>
      obtain ⟨up, registry⟩ := not_or.mp hc
      have up : s.connected = true := by simpa using up
      have empty : s.proxies.handle (w, .object) = none := not_not.mp empty
      cases result with
      | bindFailed => exact .used i (w, .registry) up registry
      | addListenerFailed => exact .metadataUnheard i w up hkind registry empty
      | _ => exact .metadataBound i w up hkind registry empty

theorem dispatchEvent_effect {event : WrapperEvent} {generation : UInt32} (i : WrapperStmt ω) :
    ProxyEffect kind s.proxies i
      (dispatchEvent (kind w) result w event generation s).1.proxies := by
  unfold dispatchEvent
  split
  next => exact .same i
  next =>
    cases hkind : kind w with
    | metadata =>
      cases event with
      | found id => exact metadataBind_effect i hkind
      | removed id =>
        simp only
        split
        next => exact destroyOrForget_effect (k := (w, .object)) i (by simp)
        next => exact .same i
      | changed => exact .same i
    | _ => cases event <;> exact .same i

theorem callMethod_effect (i : WrapperStmt ω) (of : WrapperKind) :
    ProxyEffect kind s.proxies i (callMethod of w s).proxies := by
  unfold callMethod
  cases of with
  | registry => exact .same i
  | link => exact .same i
  | metadata =>
    simp only
    split
    next => exact .same i
    next h =>
      obtain ⟨object, up⟩ := not_or.mp h
      exact .used i (w, .object) (Bool.not_eq_false _ ▸ up) object
  | _ =>
    simp only
    split
    next => exact .same i
    next h =>
      obtain ⟨object, h⟩ := not_or.mp h
      exact .used i (w, .object) (Bool.not_eq_false _ ▸ (not_or.mp h).2) object

theorem emitConnected_effect (i : WrapperStmt ω) :
    ProxyEffect kind s.proxies i (emitConnected kind s).1.proxies := by
  unfold emitConnected
  split
  next => exact .same i
  next => exact .same i
  next w rest _ => exact onCoreConnectedNotify_effect (s := { s with emission := some rest }) i _

theorem wrapperExec_effect (S : WrapperSet ω) (result : PipewireResult) (s : Wrappers ω)
    (i : WrapperStmt ω)
    (hi : ∀ w, i = .metadataStopRegistry w → (S.kind w).bindsObject = false) :
    ProxyEffect S.kind s.proxies i (wrapperExec S result i s).1.proxies := by
  cases i with
  | connect =>
    simp only [wrapperExec, coreConnect]
    split
    next => exact .same _
    next down =>
      have down : s.proxies.up = false := Bool.eq_false_iff.mpr down
      cases result with
      | succeeded => exact .opened down
      | _ => exact .same _
  | disconnect =>
    simp only [wrapperExec, coreDisconnect]
    split
    next up => exact .closed up
    next => exact .same _
  | emitConnected => exact emitConnected_effect _
  | startProxies w sync =>
    simp only [wrapperExec]
    split
    next => exact .same _
    next up => exact startProxies_effect (by simpa using up)
  | stop w => exact stop_effect
  | metadataStopRegistry w =>
    exact destroyOrForget_effect (k := (w, .registry)) _ fun _ => hi w rfl
  | dispatchEvent w event generation => exact dispatchEvent_effect _
  | callMethod w => exact callMethod_effect _ _
  | enumParamsCall w => exact .usedUnchecked w
  | _ =>
    simp only [wrapperExec]
    repeat' split
    all_goals exact .same _

theorem destroyBoth_epoch (w : ω) (p : Slots (ω × ProxyField)) :
    (destroyBoth w p).up = p.up ∧ (destroyBoth w p).epoch = p.epoch := by
  obtain ⟨up, epoch, -⟩ := Slots.destroy_epoch (w, .registry) (p.destroy (w, .object))
  obtain ⟨up', epoch', -⟩ := Slots.destroy_epoch (w, .object) p
  exact ⟨up.trans up', epoch.trans epoch'⟩

theorem boundRegistry_epoch (w : ω) (p : Slots (ω × ProxyField)) :
    (boundRegistry w p).up = p.up ∧ (boundRegistry w p).epoch = p.epoch := by
  obtain ⟨up, epoch, -⟩ := Slots.bind_fields (w, .registry) true p
  exact ⟨up, epoch⟩

/-- Only connecting and disconnecting begin or end an epoch. -/
theorem ProxyEffect.epoch {i : WrapperStmt ω} (effect : ProxyEffect kind p i q)
    (hi : i ≠ .connect ∧ i ≠ .disconnect) : q.up = p.up ∧ q.epoch = p.epoch := by
  cases effect with
  | opened => exact absurd rfl hi.1
  | closed => exact absurd rfl hi.2
  | destroyed _ k =>
    obtain ⟨up, epoch, -⟩ := Slots.destroy_epoch k p
    exact ⟨up, epoch⟩
  | destroyedBoth w => exact destroyBoth_epoch w p
  | registryBound w =>
    obtain ⟨up, epoch, -⟩ := Slots.bind_fields (w, .registry) true p
    exact ⟨up, epoch⟩
  | objectLost w =>
    obtain ⟨up, epoch⟩ := destroyBoth_epoch w ((boundRegistry w p).lose (w, .object))
    obtain ⟨up', epoch'⟩ := boundRegistry_epoch w p
    exact ⟨up.trans up', epoch.trans epoch'⟩
  | objectUnheard w =>
    obtain ⟨up, epoch⟩ := destroyBoth_epoch w ((boundRegistry w p).bind (w, .object) false)
    obtain ⟨up', epoch', -⟩ := Slots.bind_fields (w, .object) false (boundRegistry w p)
    obtain ⟨up'', epoch''⟩ := boundRegistry_epoch w p
    exact ⟨up.trans (up'.trans up''), epoch.trans (epoch'.trans epoch'')⟩
  | objectBound w =>
    obtain ⟨up, epoch, -⟩ := Slots.bind_fields (w, .object) true (boundRegistry w p)
    obtain ⟨up', epoch'⟩ := boundRegistry_epoch w p
    exact ⟨up.trans up', epoch.trans epoch'⟩
  | metadataBound _ w =>
    obtain ⟨up, epoch, -⟩ := Slots.bind_fields (w, .object) true (p.use (w, .registry))
    exact ⟨up, epoch⟩
  | _ => exact ⟨rfl, rfl⟩

/-- No emission goes on and no wrapper starts or ends running. -/
structure SameRunning (s t : Wrappers ω) : Prop where
  emission : t.emission = s.emission
  running : ∀ v, (t.wrapper v).running = (s.wrapper v).running
  startedOn : ∀ v, (t.wrapper v).startedOn = (s.wrapper v).startedOn

omit [DecidableEq ω] in
theorem SameRunning.refl (s : Wrappers ω) : SameRunning s s := ⟨rfl, fun _ => rfl, fun _ => rfl⟩

omit [DecidableEq ω] in
theorem SameRunning.onProxies (h : SameRunning s t) (f : Slots (ω × ProxyField) → _) :
    SameRunning s (t.onProxies f) := ⟨h.emission, h.running, h.startedOn⟩

theorem SameRunning.modify (h : SameRunning s t) (w : ω) (f : Wrapper → Wrapper)
    (running : ∀ x, (f x).running = x.running) (startedOn : ∀ x, (f x).startedOn = x.startedOn) :
    SameRunning s (Wrappers.modify w f t) := by
  have one (v : ω) : (Wrappers.modify w f t).wrapper v = f (t.wrapper v) ∨
      (Wrappers.modify w f t).wrapper v = t.wrapper v := by
    by_cases hv : v = w
    · subst hv
      exact .inl (by simp [Wrappers.modify])
    · exact .inr (by simp [Wrappers.modify, hv])
  refine ⟨h.emission, fun v => ?_, fun v => ?_⟩
  · rw [← h.running v]
    rcases one v with e | e <;> simp [e, running]
  · rw [← h.startedOn v]
    rcases one v with e | e <;> simp [e, startedOn]

theorem SameRunning.nextGeneration (h : SameRunning s t) (w : ω) :
    SameRunning s (Wrappers.nextGeneration w t) := h.modify w _ (fun _ => rfl) fun _ => rfl

theorem reset_sameRunning (of : WrapperKind) (w : ω) (s : Wrappers ω) :
    SameRunning s (reset of w s).1 := by
  have forgotten (f : Slots (ω × ProxyField) → _) : SameRunning s (s.onProxies f) :=
    (SameRunning.refl s).onProxies f
  cases of with
  | metadata =>
    exact ((forgotten _).modify w (fun x => { x with metadataId := 0 }) (fun _ => rfl)
      fun _ => rfl).nextGeneration w
  | _ => exact (forgotten _).nextGeneration w

theorem metadataDestroyBoundProxy_sameRunning (w : ω) (s : Wrappers ω) :
    SameRunning s (metadataDestroyBoundProxy w s).1 := by
  refine SameRunning.modify ?_ w (fun x => { x with metadataId := 0 }) (fun _ => rfl) fun _ => rfl
  split <;> exact (SameRunning.refl s).onProxies _

theorem metadataStopRegistry_sameRunning (w : ω) (s : Wrappers ω) :
    SameRunning s (metadataStopRegistry w s).1 := by
  refine SameRunning.nextGeneration ?_ w
  split <;> exact (SameRunning.refl s).onProxies _

theorem stop_sameRunning (of : WrapperKind) (w : ω) (s : Wrappers ω) :
    SameRunning s (stop of w s).1 := by
  cases of with
  | registry =>
    simp only [stop, registryStop]
    split
    next => exact .refl s
    next =>
      refine SameRunning.nextGeneration ?_ w
      split
      next => exact (SameRunning.refl s).onProxies _
      next => exact .refl s
  | metadata =>
    simp only [stop, metadataStop]
    split
    next => exact .refl s
    next => exact metadataDestroyBoundProxy_sameRunning w s
  | _ =>
    simp only [stop, nodeStop, deviceStop, linkStop, objectStop]
    split
    next => exact .refl s
    next => exact ((SameRunning.refl s).nextGeneration w).onProxies _

theorem dispatchEvent_sameRunning {event : WrapperEvent} {generation : UInt32}
    (of : WrapperKind) :
    SameRunning s (dispatchEvent of result w event generation s).1 := by
  unfold dispatchEvent
  split
  next => exact .refl s
  next =>
    cases of <;> cases event <;> try exact .refl s
    case metadata.found id =>
      simp only [metadataBind]
      split
      next => exact .refl s
      next =>
        split
        next => exact .refl s
        next =>
          have used : SameRunning s (s.onProxies (Slots.use (w, .registry))) :=
            (SameRunning.refl s).onProxies _
          cases result with
          | bindFailed => exact used
          | addListenerFailed => exact used.onProxies _
          | _ =>
            exact (used.onProxies _).modify w (fun x => { x with metadataId := id, bound := true })
              (fun _ => rfl) fun _ => rfl
    case metadata.removed id =>
      simp only
      split
      next => exact metadataDestroyBoundProxy_sameRunning w s
      next => exact .refl s

theorem callMethod_sameRunning (of : WrapperKind) (w : ω) (s : Wrappers ω) :
    SameRunning s (callMethod of w s) := by
  have used : SameRunning s (s.onProxies (Slots.use (w, .object))) :=
    (SameRunning.refl s).onProxies _
  unfold callMethod
  cases of with
  | registry => exact .refl s
  | link => exact .refl s
  | _ =>
    simp only
    split
    next => exact .refl s
    next => exact used

theorem setRunning_started (w v : ω) (bound : Bool) {f : Slots (ω × ProxyField) → _}
    (epoch : (f s.proxies).epoch = s.proxies.epoch) :
    (setRunning w bound (s.onProxies f)).emission = s.emission ∧
      ((setRunning w bound (s.onProxies f)).wrapper v = s.wrapper v ∨
        ((setRunning w bound (s.onProxies f)).wrapper v).startedOn = s.proxies.epoch) := by
  refine ⟨rfl, ?_⟩
  by_cases hv : v = w
  · subst hv
    right
    rw [← epoch]
    simp [setRunning, Wrappers.modify, Wrappers.onProxies]
  · exact .inl (by simp [setRunning, Wrappers.modify, Wrappers.onProxies, hv])

theorem registryStartProxies_started (w v : ω) (s : Wrappers ω) :
    (registryStartProxies result w s).1.emission = s.emission ∧
      ((registryStartProxies result w s).1.wrapper v = s.wrapper v ∨
        ((registryStartProxies result w s).1.wrapper v).startedOn = s.proxies.epoch) := by
  obtain ⟨-, epoch, -⟩ := Slots.bind_fields (w, .registry) true s.proxies
  cases result with
  | getRegistryFailed => exact ⟨rfl, .inl rfl⟩
  | _ => exact setRunning_started w v false (f := Slots.bind (w, .registry) true) epoch

theorem objectStartProxies_started (w v : ω) (s : Wrappers ω) :
    (objectStartProxies result w s).1.emission = s.emission ∧
      ((objectStartProxies result w s).1.wrapper v = s.wrapper v ∨
        ((objectStartProxies result w s).1.wrapper v).startedOn = s.proxies.epoch) := by
  obtain ⟨-, registry⟩ := boundRegistry_epoch w s.proxies
  obtain ⟨-, object, -⟩ := Slots.bind_fields (w, .object) true (boundRegistry w s.proxies)
  have started := setRunning_started w v true (s := s)
    (f := Slots.bind (w, .object) true ∘ boundRegistry w) (object.trans registry)
  cases result with
  | succeeded => exact started
  | connectFailed => exact started
  | _ => simp [objectStartProxies, destroyPipewireObjects]

/-- A start that succeeds notes the connection, and one that fails changes no flag. -/
theorem startProxies_started (of : WrapperKind) (result : PipewireResult) (w v : ω)
    (s : Wrappers ω) :
    (startProxies of result w s).1.emission = s.emission ∧
      ((startProxies of result w s).1.wrapper v = s.wrapper v ∨
        ((startProxies of result w s).1.wrapper v).startedOn = s.proxies.epoch) := by
  cases of with
  | registry => exact registryStartProxies_started w v s
  | metadata => exact registryStartProxies_started w v s
  | _ => exact objectStartProxies_started w v s

/-- The statements that connect, disconnect, start or end running. -/
def WrapperStmt.changesRunning : WrapperStmt ω → Bool
  | .connect | .disconnect | .emitConnected | .startProxies _ _ | .clearRunning _ => true
  | _ => false

theorem wrapperExec_sameRunning (i : WrapperStmt ω) (hi : i.changesRunning = false) :
    SameRunning s (wrapperExec S result i s).1 := by
  cases i with
  | stop w => exact stop_sameRunning _ w s
  | metadataStopRegistry w => exact metadataStopRegistry_sameRunning w s
  | dispatchEvent w event generation => exact dispatchEvent_sameRunning _
  | callMethod w => exact callMethod_sameRunning _ w s
  | enumParamsCall w => exact (SameRunning.refl s).onProxies _
  | clearBound w =>
    simp only [wrapperExec]
    split
    next =>
      exact (SameRunning.refl s).modify w (fun x => { x with bound := false }) (fun _ => rfl)
        fun _ => rfl
    next => exact .refl s
  | connect => cases hi
  | disconnect => cases hi
  | emitConnected => cases hi
  | startProxies w sync => cases hi
  | clearRunning w => cases hi
  | _ =>
    simp only [wrapperExec]
    repeat' split
    all_goals exact .refl s

/-- Whether the first statement can be left to run by the second. -/
def WrapperStmt.follows (kind : ω → WrapperKind) : WrapperStmt ω → WrapperStmt ω → Prop
  | .metadataStopRegistry w, _ => kind w = .metadata
  | .disconnectReturn _ _, i => i = .disconnect
  | .emitConnected, i => i = .connect ∨ i = .disconnect ∨ i = .emitConnected
  | _, _ => True

omit [DecidableEq ω] in
theorem notifyConnected_follows {order : List ω} {i : WrapperStmt ω}
    (hi : i = .connect ∨ i = .disconnect) :
    ∀ j ∈ (notifyConnected order s).2, j.follows kind i := by
  simp only [notifyConnected]
  split
  next => simp
  next =>
    intro j hj
    simp only [List.mem_cons, List.not_mem_nil, or_false] at hj
    rcases hj with rfl | rfl
    · trivial
    · exact hi.imp_right Or.inl

theorem reset_follows {of : WrapperKind} (kind : ω → WrapperKind) (i : WrapperStmt ω) :
    ∀ j ∈ (reset of w s).2, j.follows kind i := by
  cases of <;> simp [reset, registryReset, metadataReset, nodeReset, deviceReset, linkReset,
    objectReset, WrapperStmt.follows]

theorem stop_follows (i : WrapperStmt ω) : ∀ j ∈ (stop (kind w) w s).2, j.follows kind i := by
  cases hkind : kind w with
  | registry =>
    simp only [stop, registryStop]
    split <;> simp [WrapperStmt.follows]
  | metadata =>
    simp only [stop, metadataStop]
    split <;> simp [metadataDestroyBoundProxy, WrapperStmt.follows, hkind]
  | _ =>
    simp only [stop, nodeStop, deviceStop, linkStop, objectStop]
    split <;> simp [WrapperStmt.follows]

theorem dispatchEvent_follows {of : WrapperKind} {event : WrapperEvent} {generation : UInt32}
    (i : WrapperStmt ω) :
    ∀ j ∈ (dispatchEvent of result w event generation s).2, j.follows kind i := by
  unfold dispatchEvent
  split
  next => simp
  next =>
    cases of <;> cases event <;> simp only
    case metadata.found id =>
      unfold metadataBind
      split
      next => simp
      next =>
        split
        next => simp
        next => cases result <;> simp [WrapperStmt.follows]
    case metadata.removed id =>
      split <;> simp [metadataDestroyBoundProxy, WrapperStmt.follows]
    all_goals simp [WrapperStmt.follows]

theorem wrapperExec_follows (i : WrapperStmt ω) :
    ∀ j ∈ (wrapperExec S result i s).2, j.follows S.kind i := by
  cases i with
  | emitConnected =>
    simp only [wrapperExec, emitConnected]
    split
    next => simp
    next => simp
    next w rest _ =>
      intro j hj
      rcases List.mem_append.mp hj with hj | hj
      · unfold onCoreConnectedNotify at hj
        split at hj
        next => simp at hj
        next => exact reset_follows _ _ j hj
      · simp only [List.mem_cons, List.not_mem_nil, or_false] at hj
        rcases hj with rfl | rfl
        · trivial
        · exact .inr (.inr rfl)
  | stop w => exact stop_follows _
  | dispatchEvent w event generation => exact dispatchEvent_follows _
  | connect =>
    simp only [wrapperExec, coreConnect]
    split
    next => simp
    next => cases result <;> first | exact notifyConnected_follows (.inl rfl) | simp
  | disconnect =>
    intro j hj
    rcases List.mem_append.mp hj with hj | hj
    · split at hj
      next => exact notifyConnected_follows (.inr rfl) j hj
      next => simp at hj
    · cases List.mem_singleton.mp hj
      rfl
  | startProxies w sync =>
    simp only [wrapperExec]
    split
    next => simp
    next =>
      split
      next => cases S.kind w <;> cases sync <;> simp [startNotifications, WrapperStmt.follows]
      next => simp
  | metadataStopRegistry w => simp [wrapperExec, metadataStopRegistry, WrapperStmt.follows]
  | coreSyncWait again =>
    simp only [wrapperExec]
    split
    next => cases again <;> simp [WrapperStmt.follows]
    next => simp
  | enumParams w =>
    cases hkind : S.kind w <;> simp only [wrapperExec, enumParams, hkind]
    case node => split <;> simp [WrapperStmt.follows]
    case device => split <;> simp [WrapperStmt.follows]
    all_goals simp
  | _ =>
    simp only [wrapperExec]
    repeat' split
    all_goals simp [WrapperStmt.follows]

/-- Every operation is a single statement. -/
theorem wrapperCall_eq (kind : ω → WrapperKind) {operation : WrapperCall ω}
    {r : Wrappers ω × List (WrapperStmt ω)}
    (hr : (wrapperComponent S).call operation s = some r) :
    ∃ i, r = (s, [i]) ∧ i.follows kind .handlers := by
  cases operation with
  | sync w =>
    refine ⟨if (s.wrapper w).running then .sync w else .start w true, ?_, ?_⟩
    · exact (Option.some.inj hr).symm
    · split <;> trivial
  | _ => exact ⟨_, (Option.some.inj hr).symm, trivial⟩

end PipewireGobject
