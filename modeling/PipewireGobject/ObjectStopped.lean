import PipewireGobject.ObjectWrapper

namespace PipewireGobject

/-- Of an info event, nothing is stored while the wrapper is stopped, and no session begins below
which a stop or a reset has still to look at `running`. -/
def ObjectStmt.keepsStopped (choice : ObjectChoice) (s : ObjectWrapper)
    (rest : List ObjectStmt) : ObjectStmt → Bool
  | .updateState _ _ | .appendParamInfo _ => s.running
  | .updateError error => error = none || s.running
  | .startProxies next =>
    !(objectStart choice.result next s).1.running || .clearRunning ∉ rest
  | _ => true

/-- A restriction on the steps of a node, device or link. -/
abbrev ObjectRule :=
  Config ObjectWrapper ObjectStmt → Label ObjectCall ObjectChoice ObjectCallback → Prop

def ObjectKeepsStopped (c : Config ObjectWrapper ObjectStmt) :
    Label ObjectCall ObjectChoice ObjectCallback → Prop
  | .run choice => ∀ i ∈ c.code.head?, i.keepsStopped choice c.state c.code.tail = true
  | .call _ | .environment _ => True

instance (c : Config ObjectWrapper ObjectStmt) : DecidablePred (ObjectKeepsStopped c)
  | .run choice => inferInstanceAs (Decidable (∀ i ∈ c.code.head?,
      i.keepsStopped choice c.state c.code.tail = true))
  | .call _ | .environment _ => .isTrue trivial

def ObjectChange.fits (kind : ObjectKind) : ObjectChange → Bool
  | .param _ => kind ≠ .link
  | _ => true

def ObjectSource.fits (kind : ObjectKind) : ObjectSource → Bool
  | .event e => e.change.fits kind
  | .completion _ => true

def ObjectStmt.fits (kind : ObjectKind) : ObjectStmt → Bool
  | .updateState _ _ | .updateError _ => kind ≠ .device
  | .updateParamInfos _ | .appendParamInfo _ => kind ≠ .link
  | .dispatch event => event.change.fits kind
  | _ => true

/-- A device has no state, and a link has no parameters. -/
structure ObjectFits (kind : ObjectKind) (s : ObjectWrapper) (code : List ObjectStmt) : Prop where
  device : kind = .device → s.state = none ∧ s.error = none
  link : kind = .link → s.paramInfos = [] ∧ s.params = []
  code : ∀ i ∈ code, i.fits kind = true
  queue : ∀ source ∈ s.queue, source.fits kind = true

variable {kind : ObjectKind} {objectId : UInt32} {allowed : ObjectRule}
variable {s t : ObjectWrapper} {code new rest : List ObjectStmt} {i : ObjectStmt}
variable {choice : ObjectChoice}

/-- The statements that neither touch what a wrapper has copied nor the sources of its context. -/
def ObjectStmt.keepsCopied : ObjectStmt → Bool
  | .dispatch _ | .updateState _ _ | .updateError _ | .updateParamInfos _ | .appendParamInfo _
  | .syncWait _ _ | .clearState | .clearError | .clearParamInfos | .clearParams
  | .enumParams _ => false
  | _ => true

structure SameCopied (s t : ObjectWrapper) : Prop where
  state : t.state = s.state
  error : t.error = s.error
  paramInfos : t.paramInfos = s.paramInfos
  params : t.params = s.params
  queue : t.queue = s.queue
  delivered : t.delivered = s.delivered

theorem SameCopied.refl (s : ObjectWrapper) : SameCopied s s := ⟨rfl, rfl, rfl, rfl, rfl, rfl⟩

theorem afterStart_fits (next : AfterStart) : ∀ j ∈ next.code, j.fits kind = true := by
  cases next <;> simp [AfterStart.code, ObjectStmt.fits]

theorem clearCopied_fits : ∀ j ∈ clearCopied kind, j.fits kind = true := by
  cases kind <;> simp [clearCopied, ObjectStmt.fits]

theorem objectUpdates_fits (state : Option (CString × Option CString))
    (paramInfos : Option (List ParamInfo)) :
    ∀ j ∈ objectUpdates kind state paramInfos, j.fits kind = true := by
  cases kind with
  | node | link => cases state <;> cases paramInfos <;> simp [objectUpdates, ObjectStmt.fits]
  | device => simp [objectUpdates, ObjectStmt.fits]

theorem objectOnCallback_fits {callback : ObjectCallback} {change : ObjectChange}
    (h : objectOnCallback kind objectId callback = some change) : change.fits kind = true := by
  cases callback with
  | info info =>
    obtain ⟨info, -, hi⟩ := Option.bind_eq_some_iff.mp h
    cases kind <;> simp only [objectOnInfo, nodeOnInfo, deviceOnInfo, linkOnInfo] at hi <;>
      split at hi <;> cases hi <;> rfl
  | param seq id index next pod =>
    obtain ⟨param, hp, rfl⟩ := Option.map_eq_some_iff.mp h
    unfold objectOnParam at hp
    split at hp
    next => simp at hp
    next other => simpa [ObjectChange.fits] using other
  | globalRemove id =>
    simp only [objectOnCallback] at h
    split at h <;> cases h
    rfl

theorem objectExec_keepsCopied (kind : ObjectKind) (choice : ObjectChoice) (s : ObjectWrapper)
    (hi : i.keepsCopied = true) :
    SameCopied s (objectExec kind choice i s).1 ∧
      ∀ j ∈ (objectExec kind choice i s).2, j.fits kind = true := by
  cases i with
  | handlers => exact ⟨.refl s, by simp [objectExec]⟩
  | emit signal => exact ⟨.refl s, by simp [objectExec, ObjectStmt.fits]⟩
  | connect =>
    simp only [objectExec]
    split <;> exact ⟨{ SameCopied.refl s with }, by simp [ObjectStmt.fits]⟩
  | start next =>
    simp only [objectExec]
    split
    · exact ⟨.refl s, afterStart_fits next⟩
    · split <;> exact ⟨.refl s, by simp [ObjectStmt.fits]⟩
  | startProxies next =>
    simp only [objectExec]
    obtain ⟨hasRegistry, hasObject, hs⟩ | hs := objectStart_cases choice.result next s
    · rw [hs]
      exact ⟨{ SameCopied.refl s with }, by simp⟩
    · rw [hs]
      exact ⟨{ SameCopied.refl s with }, List.forall_mem_cons.mpr
        ⟨rfl, List.forall_mem_cons.mpr ⟨rfl, afterStart_fits next⟩⟩⟩
  | coreSync caller =>
    simp only [objectExec]
    split <;> exact ⟨.refl s, by simp [ObjectStmt.fits]⟩
  | syncEnter caller =>
    simp only [objectExec]
    split <;> exact ⟨{ SameCopied.refl s with }, by simp [ObjectStmt.fits]⟩
  | syncIterate slot request =>
    simp only [objectExec]
    split
    · exact ⟨.refl s, by simp [ObjectStmt.fits]⟩
    · split <;> exact ⟨{ SameCopied.refl s with }, by simp⟩
  | stop =>
    simp only [objectExec, objectStopSession]
    split <;> exact ⟨{ SameCopied.refl s with }, by simp [objectEndSession, ObjectStmt.fits]⟩
  | coreConnectedNotify =>
    simp only [objectExec]
    split <;> exact ⟨{ SameCopied.refl s with }, by simp [objectEndSession, ObjectStmt.fits]⟩
  | clearBound =>
    simp only [objectExec]
    split <;> exact ⟨{ SameCopied.refl s with }, by simp [ObjectStmt.fits]⟩
  | clearRunning =>
    simp only [objectExec]
    split
    · exact ⟨{ SameCopied.refl s with }, List.forall_mem_cons.mpr ⟨rfl, clearCopied_fits⟩⟩
    · exact ⟨.refl s, clearCopied_fits⟩
  | enumParamsCall sync =>
    simp only [objectExec, objectEnumParamsCall]
    split
    · exact ⟨{ SameCopied.refl s with }, by simp⟩
    · exact ⟨{ SameCopied.refl s with }, by split <;> simp [ObjectStmt.fits]⟩
  | _ => simp [ObjectStmt.keepsCopied] at hi

/-- Statements come and go while what does not belong to the kind stays as it is. -/
theorem ObjectFits.step (h : ObjectFits kind s (i :: rest))
    (device : kind = .device → t.state = s.state ∧ t.error = s.error)
    (link : kind = .link → t.paramInfos = s.paramInfos ∧ t.params = s.params)
    (hn : ∀ j ∈ new, j.fits kind = true)
    (queue : ∀ source ∈ t.queue, source ∈ s.queue ∨ source.fits kind = true) :
    ObjectFits kind t (new ++ rest) where
  device hk := by
    rw [(device hk).1, (device hk).2]
    exact h.device hk
  link hk := by
    rw [(link hk).1, (link hk).2]
    exact h.link hk
  code j hj := (List.mem_append.mp hj).elim (hn j) fun hj => h.code j (List.mem_cons_of_mem i hj)
  queue source hs := (queue source hs).elim (h.queue source) id

/-- Only statements come and go. -/
theorem ObjectFits.push (h : ObjectFits kind s (i :: rest)) (hn : ∀ j ∈ new, j.fits kind = true) :
    ObjectFits kind s (new ++ rest) :=
  h.step (fun _ => ⟨rfl, rfl⟩) (fun _ => ⟨rfl, rfl⟩) hn fun _ => .inl

theorem ObjectFits.updateState (h : ObjectFits kind s (i :: rest)) (other : kind ≠ .device)
    (same : t = { s with state := t.state, error := t.error })
    (hn : ∀ j ∈ new, j.fits kind = true) : ObjectFits kind t (new ++ rest) := by
  rw [same]
  exact h.step (fun hk => absurd hk other) (fun _ => ⟨rfl, rfl⟩) hn fun _ => .inl

theorem ObjectFits.updateLists (h : ObjectFits kind s (i :: rest)) (other : kind ≠ .link)
    (same : t = { s with paramInfos := t.paramInfos, params := t.params })
    (hn : ∀ j ∈ new, j.fits kind = true) : ObjectFits kind t (new ++ rest) := by
  rw [same]
  exact h.step (fun _ => ⟨rfl, rfl⟩) (fun hk => absurd hk other) hn fun _ => .inl

theorem ObjectFits.dispatch {event : ObjectEvent}
    (h : ObjectFits kind s (.dispatch event :: rest)) :
    ObjectFits kind (objectDispatch kind event s).1 ((objectDispatch kind event s).2 ++ rest) := by
  have fits : event.change.fits kind = true := h.code _ List.mem_cons_self
  unfold objectDispatch
  split
  next => exact h.push (by simp)
  next =>
    cases hc : event.change with
    | info state paramInfos => exact h.push (objectUpdates_fits state paramInfos)
    | param param =>
      have other : kind ≠ .link := by simpa [hc, ObjectChange.fits] using fits
      exact h.updateLists other rfl (by simp [ObjectStmt.fits])
    | removed => exact h.push (by simp [ObjectStmt.fits])

theorem objectUpdateParamInfos_fits {paramInfos : List ParamInfo} (other : kind ≠ .link) :
    ∀ j ∈ (objectExec kind choice (.updateParamInfos paramInfos) s).2, j.fits kind = true := by
  intro j hj
  have fits (paramInfo : ParamInfo) : (ObjectStmt.appendParamInfo paramInfo).fits kind = true := by
    simpa [ObjectStmt.fits] using other
  rcases List.mem_cons.mp hj with rfl | hj
  · rfl
  rcases List.mem_append.mp hj with hj | hj
  · obtain ⟨paramInfo, -, rfl⟩ := List.mem_map.mp hj
    exact fits paramInfo
  · rw [List.mem_singleton.mp hj]
    rfl

theorem ObjectFits.run (h : ObjectFits kind s (i :: rest)) :
    ObjectFits kind (objectExec kind choice i s).1 ((objectExec kind choice i s).2 ++ rest) := by
  have fits := h.code i List.mem_cons_self
  by_cases hi : i.keepsCopied = true
  · obtain ⟨same, new⟩ := objectExec_keepsCopied kind choice s hi
    refine h.step (fun _ => ⟨same.state, same.error⟩) (fun _ => ⟨same.paramInfos, same.params⟩)
      new ?_
    rw [same.queue]
    exact fun _ => .inl
  cases i with
  | dispatch event => exact h.dispatch
  | updateState state error =>
    have other : kind ≠ .device := by simpa [ObjectStmt.fits] using fits
    simp only [objectExec]
    split <;> exact h.updateState other rfl (by simp [ObjectStmt.fits, other])
  | updateError error =>
    have other : kind ≠ .device := by simpa [ObjectStmt.fits] using fits
    simp only [objectExec]
    split <;> exact h.updateState other rfl (by simp [ObjectStmt.fits])
  | updateParamInfos paramInfos =>
    have other : kind ≠ .link := by simpa [ObjectStmt.fits] using fits
    exact h.updateLists other rfl (objectUpdateParamInfos_fits other)
  | appendParamInfo paramInfo =>
    have other : kind ≠ .link := by simpa [ObjectStmt.fits] using fits
    exact h.updateLists other rfl (by simp [objectExec, ObjectStmt.fits])
  | syncWait slot caller =>
    refine h.step (fun _ => ⟨rfl, rfl⟩) (fun _ => ⟨rfl, rfl⟩) ?_ ?_
    · simp only [objectExec, objectSyncWait]
      split
      · simp
      · cases caller <;> simp [ObjectStmt.fits]
    · intro source hs
      refine (List.mem_append.mp hs).imp_right fun hs => ?_
      rw [List.eq_of_mem_replicate hs]
      rfl
  | clearState | clearError =>
    simp only [objectExec]
    split <;> exact h.step (fun hk => by simp [h.device hk]) (fun _ => ⟨rfl, rfl⟩)
      (by simp [ObjectStmt.fits]) fun _ => .inl
  | clearParamInfos | clearParams =>
    exact h.step (fun _ => ⟨rfl, rfl⟩) (fun hk => by simp [objectExec, h.link hk])
      (by simp [objectExec, ObjectStmt.fits]) fun _ => .inl
  | enumParams sync =>
    simp only [objectExec]
    split
    · exact h.push (by simp)
    · exact h.step (fun _ => ⟨rfl, rfl⟩) (fun hk => by simp [h.link hk])
        (by simp [ObjectStmt.fits]) fun _ => .inl
  | _ => simp [ObjectStmt.keepsCopied] at hi

theorem objectFits_preserves :
    (objectComponent kind objectId).Preserves allowed (ObjectFits kind) where
  call operation s code r h _ _ hr := by
    obtain ⟨⟨connected, queue, completed, he, queued⟩, requested⟩ := objectCall_eq hr
    rw [he]
    refine ⟨h.device, h.link, fun j hj => ?_, fun source hs => h.queue source (queued source hs)⟩
    rcases List.mem_append.mp hj with hj | hj
    · rcases requested j hj with ⟨event, rfl, hq⟩ | made
      · exact h.queue (.event event) hq
      · cases j <;> simp [ObjectStmt.requested, ObjectStmt.fits] at made ⊢
    · exact h.code j hj
  run choice i s rest h _ := h.run
  environment callback s code t h _ ht := by
    cases Option.some.inj ht
    unfold objectReport
    split
    next => exact h
    next change hc =>
      refine ⟨h.device, h.link, h.code, fun source hs => ?_⟩
      rcases List.mem_append.mp hs with hs | hs
      · exact h.queue source hs
      · rw [List.mem_singleton.mp hs]
        exact objectOnCallback_fits hc

/-- What a statement would clear has something in it. -/
def ObjectWrapper.copied (s : ObjectWrapper) : ObjectStmt → Prop
  | .clearState => s.state ≠ none
  | .clearError => s.error ≠ none
  | .clearParamInfos => s.paramInfos ≠ []
  | .clearParams => s.params ≠ []
  | _ => False

/-- Between the statements of a stop, what a stopped wrapper still holds is about to be cleared,
and the object is unbound before `running` is looked at. -/
structure ObjectSettled (s : ObjectWrapper) (code : List ObjectStmt) : Prop where
  bound : s.running = false → s.bound = false
  leaving : .clearRunning ∈ code → s.bound = false
  copied : s.running = false → ∀ j, s.copied j → j ∈ code

theorem SameCopied.copied (h : SameCopied s t) {j : ObjectStmt} (hj : t.copied j) :
    s.copied j := by
  obtain ⟨state, error, paramInfos, params, -, -⟩ := h
  cases j <;> simp only [ObjectWrapper.copied, state, error, paramInfos, params] at hj ⊢ <;>
    exact hj

theorem ObjectSettled.step (h : ObjectSettled s (i :: rest)) (running : t.running = s.running)
    (bound : t.bound = true → s.bound = true) (leaving : .clearRunning ∈ new → t.bound = false)
    (copied : t.running = false → ∀ j, t.copied j → s.copied j ∧ j ≠ i) :
    ObjectSettled t (new ++ rest) where
  bound stopped := by
    have unbound := h.bound (running ▸ stopped)
    cases hb : t.bound with
    | false => rfl
    | true => simp [bound hb] at unbound
  leaving hm := by
    rcases List.mem_append.mp hm with hm | hm
    · exact leaving hm
    have unbound := h.leaving (List.mem_cons_of_mem i hm)
    cases hb : t.bound with
    | false => rfl
    | true => simp [bound hb] at unbound
  copied stopped j hj := by
    obtain ⟨hs, other⟩ := copied stopped j hj
    have pending := h.copied (running ▸ stopped) j hs
    exact List.mem_append_right new ((List.mem_cons.mp pending).resolve_left other)

theorem objectUpdates_keepsRunning (state : Option (CString × Option CString))
    (paramInfos : Option (List ParamInfo)) :
    .clearRunning ∉ objectUpdates kind state paramInfos := by
  cases kind with
  | node | link => cases state <;> cases paramInfos <;> simp [objectUpdates]
  | device => simp [objectUpdates]

/-- The statements that begin no session and end none. -/
def ObjectStmt.keepsRunning : ObjectStmt → Bool
  | .startProxies _ | .clearRunning => false
  | _ => true

theorem objectExec_keepsRunning (kind : ObjectKind) (choice : ObjectChoice) (s : ObjectWrapper)
    (hi : i.keepsRunning = true) :
    (objectExec kind choice i s).1.running = s.running ∧
      ((objectExec kind choice i s).1.bound = true → s.bound = true) ∧
      (.clearRunning ∈ (objectExec kind choice i s).2 →
        (objectExec kind choice i s).1.bound = false) := by
  cases i with
  | dispatch event =>
    simp only [objectExec, objectDispatch]
    split
    · simp
    · cases event.change <;> simp [objectUpdates_keepsRunning]
  | updateState | updateError | connect | syncEnter | clearState | clearError | enumParams =>
    simp only [objectExec]
    split <;> simp
  | start next =>
    simp only [objectExec]
    split
    · exact ⟨rfl, id, fun hm => by cases next <;> simp [AfterStart.code] at hm⟩
    · split <;> simp
  | coreSync caller =>
    simp only [objectExec]
    split <;> simp
  | syncWait slot caller =>
    simp only [objectExec, objectSyncWait]
    split
    · simp
    · cases caller <;> simp
  | syncIterate slot request =>
    simp only [objectExec]
    split
    · simp
    · cases request <;> simp
  | stop =>
    simp only [objectExec, objectStopSession]
    split <;> simp [objectEndSession]
  | coreConnectedNotify =>
    simp only [objectExec]
    split <;> simp [objectEndSession]
  | clearBound =>
    simp only [objectExec]
    split
    next => simp
    next unbound => simpa using unbound
  | enumParamsCall sync =>
    simp only [objectExec, objectEnumParamsCall]
    split
    · simp
    · cases sync <;> simp
  | startProxies | clearRunning => simp [ObjectStmt.keepsRunning] at hi
  | _ => simp [objectExec]

theorem ObjectSettled.clearRunning (h : ObjectSettled s (.clearRunning :: rest))
    (fits : ObjectFits kind s (.clearRunning :: rest)) :
    ObjectSettled (objectExec kind choice .clearRunning s).1
      ((objectExec kind choice .clearRunning s).2 ++ rest) := by
  have unbound := h.leaving List.mem_cons_self
  have clears (j : ObjectStmt) (hj : s.copied j) : j ∈ clearCopied kind := by
    cases hk : kind with
    | node => cases j <;> simp_all [ObjectWrapper.copied, clearCopied]
    | device =>
      have none := fits.device hk
      cases j <;> simp_all [ObjectWrapper.copied, clearCopied]
    | link =>
      have none := fits.link hk
      cases j <;> simp_all [ObjectWrapper.copied, clearCopied]
  simp only [objectExec]
  split
  next =>
    refine ⟨fun _ => unbound, fun _ => unbound, fun _ j hj => ?_⟩
    exact List.mem_append_left rest (List.mem_cons_of_mem _ (clears j hj))
  next =>
    exact ⟨fun _ => unbound, fun _ => unbound,
      fun _ j hj => List.mem_append_left rest (clears j hj)⟩

theorem ObjectSettled.startProxies {next : AfterStart}
    (h : ObjectSettled s (.startProxies next :: rest))
    (settled : (ObjectStmt.startProxies next).keepsStopped choice s rest = true) :
    ObjectSettled (objectExec kind choice (.startProxies next) s).1
      ((objectExec kind choice (.startProxies next) s).2 ++ rest) := by
  simp only [objectExec]
  simp only [ObjectStmt.keepsStopped, Bool.or_eq_true, Bool.not_eq_true', decide_eq_true_eq]
    at settled
  obtain ⟨hasRegistry, hasObject, hs⟩ | hs := objectStart_cases choice.result next s
  · rw [hs]
    exact h.step rfl id (by simp) fun _ j hj =>
      ⟨hj, fun he => by simp [he, ObjectWrapper.copied] at hj⟩
  · rw [hs] at settled ⊢
    refine ⟨by simp, fun hm => ?_, by simp⟩
    have fresh : .clearRunning ∉ rest := settled.resolve_left (by simp)
    have other : .clearRunning ∉ next.code := by cases next <;> simp [AfterStart.code]
    simp [fresh, other] at hm

/-- Nothing new is copied while the wrapper is stopped. -/
theorem objectExec_copied (stopped : s.running = false) (hr : i.keepsRunning = true)
    (settled : i.keepsStopped choice s rest = true) {j : ObjectStmt}
    (hj : (objectExec kind choice i s).1.copied j) : s.copied j ∧ j ≠ i := by
  by_cases hi : i.keepsCopied = true
  · obtain ⟨same, -⟩ := objectExec_keepsCopied kind choice s hi
    refine ⟨same.copied hj, fun he => ?_⟩
    subst he
    cases j <;> simp_all [ObjectStmt.keepsCopied, ObjectWrapper.copied]
  cases i with
  | dispatch event =>
    have skip : objectDispatch kind event s = (s, []) := if_pos (.inl stopped)
    rw [objectExec, skip] at hj
    exact ⟨hj, fun he => by simp [he, ObjectWrapper.copied] at hj⟩
  | updateState | appendParamInfo => exact absurd (stopped.symm.trans settled) (by simp)
  | updateError error =>
    have none : error = none := by simpa [ObjectStmt.keepsStopped, stopped] using settled
    simp only [objectExec, none] at hj
    split at hj <;> cases j <;> simp_all [ObjectWrapper.copied]
  | clearState | clearError | enumParams =>
    simp only [objectExec] at hj
    split at hj <;> cases j <;> simp_all [ObjectWrapper.copied]
  | updateParamInfos | clearParamInfos | clearParams | syncWait =>
    cases j <;> simp_all [objectExec, objectSyncWait, ObjectWrapper.copied]
  | _ => simp [ObjectStmt.keepsCopied] at hi

theorem ObjectSettled.run (h : ObjectSettled s (i :: rest)) (fits : ObjectFits kind s (i :: rest))
    (settled : i.keepsStopped choice s rest = true) :
    ObjectSettled (objectExec kind choice i s).1 ((objectExec kind choice i s).2 ++ rest) := by
  by_cases hr : i.keepsRunning = true
  · obtain ⟨running, bound, leaving⟩ := objectExec_keepsRunning kind choice s hr
    refine h.step running bound leaving fun stopped j hj => ?_
    exact objectExec_copied (running ▸ stopped) hr settled hj
  cases i with
  | startProxies next => exact h.startProxies settled
  | clearRunning => exact h.clearRunning fits
  | _ => simp [ObjectStmt.keepsRunning] at hr

theorem objectFits_init : ObjectFits kind objectInit.state objectInit.code :=
  ⟨fun _ => ⟨rfl, rfl⟩, fun _ => ⟨rfl, rfl⟩, by simp [objectInit], by simp [objectInit]⟩

theorem objectSettled_init : ObjectSettled objectInit.state objectInit.code :=
  ⟨fun _ => rfl, fun _ => rfl, fun _ j hj => by
    cases j <;> simp [objectInit, ObjectWrapper.copied] at hj⟩

theorem objectSettled_preserves :
    (objectComponent kind objectId).Preserves
      (fun c label => ObjectKeepsStopped c label ∧ ObjectFits kind c.state c.code)
      ObjectSettled where
  call operation s code r h _ _ hr := by
    obtain ⟨⟨connected, queue, completed, he, -⟩, requested⟩ := objectCall_eq hr
    rw [he]
    refine ⟨h.bound, fun hm => ?_, fun stopped j hj =>
      List.mem_append_right r.2 (h.copied stopped j hj)⟩
    rcases List.mem_append.mp hm with hm | hm
    · have made := requested _ hm
      simp [ObjectStmt.requested] at made
    · exact h.leaving hm
  run choice i s rest h settled := h.run settled.2 (settled.1 i rfl)
  environment callback s code t h _ ht := by
    cases Option.some.inj ht
    unfold objectReport
    split
    · exact h
    · exact ⟨h.bound, h.leaving, h.copied⟩

/-- A stopped wrapper holds nothing of an object. -/
structure HoldsNothing (s : ObjectWrapper) : Prop where
  bound : s.bound = false
  state : s.state = none
  error : s.error = none
  paramInfos : s.paramInfos = []
  params : s.params = []

theorem objectStopped_holdsNothing {c : Config ObjectWrapper ObjectStmt}
    (h : Reach (objectComponent kind objectId).step ObjectKeepsStopped objectInit c)
    (idle : c.code = []) (stopped : c.state.running = false) : HoldsNothing c.state := by
  have settled := ((objectFits_preserves.under objectSettled_preserves).reach h
    ⟨objectFits_init, objectSettled_init⟩).2
  rw [idle] at settled
  have empty (j : ObjectStmt) : ¬ c.state.copied j := fun hj =>
    List.not_mem_nil (settled.copied stopped j hj)
  exact ⟨settled.bound stopped, not_not.mp (empty .clearState), not_not.mp (empty .clearError),
    not_not.mp (empty .clearParamInfos), not_not.mp (empty .clearParams)⟩

/-- An info of a node is dispatched. -/
def objectInfoSchedule (info : ObjectInfo) : List (Label ObjectCall ObjectChoice ObjectCallback) :=
  [.environment (.info info), .call .iterate]

/-- A handler of `notify::param-infos` stops the node. -/
def stoppedWithParamInfos : Config ObjectWrapper ObjectStmt :=
  final (objectComponent .node 7).step objectInit
    (objectStartSchedule ++ objectInfoSchedule ⟨true, true, [114], none, some [⟨2, 6⟩]⟩ ++
      List.replicate 12 (.run {}) ++ .call .stop :: List.replicate 18 (.run {}))

theorem objectStopped_holdsNothing_stoppedWithParamInfos :
    stoppedWithParamInfos.state.running = false ∧ HoldsNothing stoppedWithParamInfos.state :=
  ⟨by decide +kernel, objectStopped_holdsNothing (c := stoppedWithParamInfos)
    (reach_final (by decide +kernel)) (by decide +kernel) (by decide +kernel)⟩

/-- The state of a node becomes an error, and a handler of `notify::state` stops the node. -/
def stoppedOnError : Config ObjectWrapper ObjectStmt :=
  final (objectComponent .node 7).step objectInit
    (objectStartSchedule ++ objectInfoSchedule ⟨true, true, [101], some [120], some [⟨2, 6⟩]⟩ ++
      List.replicate 3 (.run {}) ++ .call .stop :: List.replicate 29 (.run {}))

theorem objectStopped_holdsNothing_fails :
    Reach (objectComponent .node 7).step anyStep objectInit stoppedOnError ∧
      stoppedOnError.code = [] ∧ stoppedOnError.state.running = false ∧
      ¬ HoldsNothing stoppedOnError.state := by
  refine ⟨reach_final (allAllowed_anyStep _ _), by decide +kernel, by decide +kernel, fun h => ?_⟩
  -- the rest of the update has stored the error and the parameters
  have error := h.error
  revert error
  decide +kernel

end PipewireGobject
