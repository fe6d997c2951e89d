import PipewireGobject.MetadataWrapper

namespace PipewireGobject

/-- A property event that gives the cache a value comes from the proxy that is bound. -/
def MetadataStmt.fromBoundProxy (s : MetadataWrapper) : MetadataStmt → Bool
  | .dispatch event =>
    match event.news with
    | .changed proxy change =>
      !(s.running && event.generation = s.generation) || MetadataWrapper.changedKey change = none ||
        s.bound && proxy = s.proxies
    | _ => true
  | _ => true

def MetadataFromBoundProxy (c : Config MetadataWrapper MetadataStmt) :
    Label MetadataCall MetadataChoice MetadataCallback → Prop
  | .run _ => ∀ i ∈ c.code.head?, i.fromBoundProxy c.state = true
  | .call _ | .environment _ => True

/-- Handlers do not re-enter the wrapper; a sync iterates the main context while it waits. -/
def MetadataHandlersReturn (c : Config MetadataWrapper MetadataStmt) :
    Label MetadataCall MetadataChoice MetadataCallback → Prop
  | .call _ => c.code.head? ≠ some .handlers
  | .run _ | .environment _ => True

instance (c : Config MetadataWrapper MetadataStmt) : DecidablePred (MetadataFromBoundProxy c)
  | .run _ => inferInstanceAs (Decidable (∀ i ∈ c.code.head?, i.fromBoundProxy c.state = true))
  | .call _ | .environment _ => .isTrue trivial

instance (c : Config MetadataWrapper MetadataStmt) : DecidablePred (MetadataHandlersReturn c)
  | .call _ => inferInstanceAs (Decidable (c.code.head? ≠ some .handlers))
  | .run _ | .environment _ => .isTrue trivial

variable {name : CString} {s t : MetadataWrapper} {code new rest : List MetadataStmt}
variable {i : MetadataStmt} {choice : MetadataChoice}

/-- A roundtrip waits. -/
def MetadataStmt.waits : MetadataStmt → Bool
  | .syncWait _ _ | .syncIterate _ _ => true
  | _ => false

/-- The statements that a function of the wrapper begins with or ends in. -/
def MetadataStmt.outermost : MetadataStmt → Bool
  | .dispatch _ | .start _ | .startRegistry _ | .sync | .coreSync _ | .syncEnter _
  | .syncWait _ _ | .syncIterate _ _ | .stop | .coreConnectedNotify => true
  | _ => false

/-- The statements that lead to an empty cache. -/
def MetadataStmt.clears : MetadataStmt → Bool
  | .clearRunning | .clearEntries => true
  | _ => false

/-- Functions are only called where nothing runs but roundtrips that wait. -/
def MetadataNested (code : List MetadataStmt) : Prop :=
  code.Pairwise fun i j => i.outermost = true → j.waits = true

/-- An unbound wrapper caches nothing, and a bound one only what its proxy reports. -/
structure MetadataCacheBound (s : MetadataWrapper) (code : List MetadataStmt) : Prop where
  nested : MetadataNested code
  unbound : s.bound = false → (∃ j ∈ code, j.clears = true) ∨ s.entries = ∅
  origins : s.bound = true → ∀ key ∈ s.entries, s.origins key = s.proxies

theorem MetadataNested.push (h : MetadataNested (i :: rest))
    (hn : new.Pairwise fun i j => i.outermost = true → j.waits = true)
    (outermost : i.outermost = false → ∀ j ∈ new, j.outermost = false) :
    MetadataNested (new ++ rest) := by
  obtain ⟨below, nested⟩ := List.pairwise_cons.mp h
  refine List.pairwise_append.mpr ⟨hn, nested, fun j hj k hk hout => ?_⟩
  cases hi : i.outermost with
  | true => exact below k hk hi
  | false => exact absurd hout (by simp [outermost hi j hj])

/-- Only a roundtrip waits below a dispatch. -/
theorem MetadataNested.dispatch {event : MetadataEvent}
    (h : MetadataNested (.dispatch event :: rest)) : ∀ j ∈ rest, j.clears = false := by
  intro j hj
  have waits := (List.pairwise_cons.mp h).1 j hj rfl
  cases j <;> first | rfl | simp [MetadataStmt.waits] at waits

theorem metadataDispatch_outermost (result : PipewireResult) (event : MetadataEvent)
    (s : MetadataWrapper) : ∀ j ∈ (s.dispatchEvent result event).2, j.outermost = false := by
  unfold MetadataWrapper.dispatchEvent
  split
  · simp
  · split
    next =>
      unfold MetadataWrapper.bind
      split
      · simp
      · split
        · simp
        · split <;> simp [MetadataStmt.outermost]
    next =>
      unfold MetadataWrapper.destroyBoundProxy
      split
      · split <;> simp [MetadataStmt.outermost]
      · simp
    next => simp [MetadataStmt.outermost]

theorem metadataExec_nested (choice : MetadataChoice) (s : MetadataWrapper)
    (h : MetadataNested (i :: rest)) : MetadataNested ((s.exec choice i).2 ++ rest) := by
  have inner (hn : ∀ j ∈ (s.exec choice i).2, j.outermost = false) :
      MetadataNested ((s.exec choice i).2 ++ rest) := by
    refine h.push (List.pairwise_of_forall_mem_list fun j hj k _ hout => ?_) fun _ => hn
    simp [hn j hj] at hout
  have outer (hi : i.outermost = true) (hn : (s.exec choice i).2.Pairwise
      fun i j => i.outermost = true → j.waits = true) :
      MetadataNested ((s.exec choice i).2 ++ rest) := h.push hn (by simp [hi])
  cases i with
  | dispatch event => exact inner (metadataDispatch_outermost choice.result event s)
  | handlers | emit | destroyRegistry | clearEntries =>
    exact inner (by simp [MetadataWrapper.exec, MetadataStmt.outermost])
  | connect =>
    refine inner ?_
    simp only [MetadataWrapper.exec]
    split <;> simp [MetadataStmt.outermost]
  | stop =>
    refine inner ?_
    simp only [MetadataWrapper.exec, MetadataWrapper.stop]
    split <;> simp [MetadataStmt.outermost]
  | coreConnectedNotify =>
    refine inner ?_
    simp only [MetadataWrapper.exec, MetadataWrapper.reset]
    split
    · simp
    · split <;> simp [MetadataStmt.outermost]
  | destroyBoundProxy =>
    refine inner ?_
    simp only [MetadataWrapper.exec, MetadataWrapper.destroyBoundProxy]
    split <;> simp [MetadataStmt.outermost]
  | clearRunning =>
    refine inner ?_
    simp only [MetadataWrapper.exec]
    split <;> simp [MetadataStmt.outermost]
  | start sync =>
    refine outer rfl ?_
    simp only [MetadataWrapper.exec]
    split
    · cases sync <;> simp
    · split <;> simp [MetadataStmt.outermost]
  | startRegistry sync =>
    refine outer rfl ?_
    simp only [MetadataWrapper.exec, MetadataWrapper.startRegistry]
    split
    · simp
    · split
      · simp
      · cases sync <;> simp [MetadataStmt.outermost]
  | sync => exact outer rfl (by simp [MetadataWrapper.exec])
  | coreSync | syncEnter | syncWait =>
    refine outer rfl ?_
    simp only [MetadataWrapper.exec]
    split <;> simp [MetadataStmt.outermost]
  | syncIterate slot again =>
    refine outer rfl ?_
    simp only [MetadataWrapper.exec]
    split
    · simp
    · split <;> simp

/-- The cache, and the proxy that it belongs to, are the same. -/
structure SameCache (s t : MetadataWrapper) : Prop where
  bound : t.bound = s.bound
  entries : t.entries = s.entries
  proxies : t.proxies = s.proxies
  origins : t.origins = s.origins

theorem SameCache.refl (s : MetadataWrapper) : SameCache s s := ⟨rfl, rfl, rfl, rfl⟩

theorem MetadataCacheBound.keep (h : MetadataCacheBound s (i :: rest)) (same : SameCache s t)
    (other : i.clears = false) (nested : MetadataNested (new ++ rest)) :
    MetadataCacheBound t (new ++ rest) where
  nested := nested
  unbound hb := by
    rw [same.entries]
    rcases h.unbound (same.bound ▸ hb) with ⟨j, hj, clears⟩ | empty
    · rcases List.mem_cons.mp hj with rfl | hj
      · simp [other] at clears
      · exact .inl ⟨j, List.mem_append_right new hj, clears⟩
    · exact .inr empty
  origins hb := by
    rw [same.entries, same.proxies, same.origins]
    exact h.origins (same.bound ▸ hb)

theorem MetadataCacheBound.unbind (unbound : t.bound = false) (nested : MetadataNested code)
    (clears : ∃ j ∈ code, j.clears = true) : MetadataCacheBound t code :=
  ⟨nested, fun _ => .inl clears, fun hb => absurd hb (by simp [unbound])⟩

theorem metadataCacheChange_empty {change : MetadataChange}
    (h : MetadataWrapper.changedKey change = none) : metadataCacheChange change ∅ = ∅ := by
  unfold metadataCacheChange
  unfold MetadataWrapper.changedKey at h
  cases hk : change.key with
  | none => rfl
  | some key =>
    cases hv : change.value with
    | none => rfl
    | some value => simp [hk, hv] at h

/-- An entry that a change leaves in the cache was there before, or is the one that it sets. -/
theorem mem_metadataCacheChange {change : MetadataChange} {entries : MetadataEntries}
    {key : CString} (h : key ∈ metadataCacheChange change entries) :
    MetadataWrapper.changedKey change = some key ∨ key ∈ entries := by
  unfold metadataCacheChange at h
  unfold MetadataWrapper.changedKey
  cases hk : change.key with
  | none =>
    simp only [hk] at h
    exact .inr (Table.mem_of_mem_keep h)
  | some changed =>
    cases hv : change.value with
    | none =>
      simp only [hk, hv] at h
      exact .inr (AList.mem_erase.mp h).2
    | some value =>
      simp only [hk, hv] at h
      rcases (AList.mem_insert _).mp h with rfl | h
      · exact .inl rfl
      · exact .inr h

theorem MetadataCacheBound.emptyUnbound {event : MetadataEvent}
    (h : MetadataCacheBound s (.dispatch event :: rest)) (unbound : s.bound = false) :
    s.entries = ∅ := by
  refine (h.unbound unbound).resolve_left ?_
  rintro ⟨j, hj, clears⟩
  rcases List.mem_cons.mp hj with rfl | hj
  · simp [MetadataStmt.clears] at clears
  · simp [h.nested.dispatch j hj] at clears

theorem MetadataCacheBound.change {event : MetadataEvent} {proxy : Nat} {change : MetadataChange}
    (h : MetadataCacheBound s (.dispatch event :: rest))
    (own : MetadataWrapper.changedKey change = none ∨ s.bound = true ∧ proxy = s.proxies)
    (nested : MetadataNested (new ++ rest)) :
    MetadataCacheBound (s.cacheChange proxy change) (new ++ rest) where
  nested := nested
  unbound hb := by
    have empty := h.emptyUnbound hb
    have unset : MetadataWrapper.changedKey change = none :=
      own.resolve_right fun bound => absurd (hb.symm.trans bound.1) (by simp)
    right
    show metadataCacheChange change s.entries = ∅
    rw [empty, metadataCacheChange_empty unset]
  origins hb key hk := by
    show (if MetadataWrapper.changedKey change = some key then proxy else s.origins key) = s.proxies
    split
    next set =>
      rcases own with unset | bound
      · simp [set] at unset
      · exact bound.2
    next other => exact h.origins hb key ((mem_metadataCacheChange hk).resolve_left other)

theorem MetadataCacheBound.dispatch {event : MetadataEvent}
    (h : MetadataCacheBound s (.dispatch event :: rest))
    (own : (MetadataStmt.dispatch event).fromBoundProxy s = true) :
    MetadataCacheBound (s.exec choice (.dispatch event)).1
      ((s.exec choice (.dispatch event)).2 ++ rest) := by
  have nested := metadataExec_nested choice s h.nested
  revert nested
  simp only [MetadataWrapper.exec, MetadataWrapper.dispatchEvent]
  split
  next => exact h.keep (.refl s) rfl
  next live =>
    cases hn : event.news with
    | found id version =>
      dsimp only
      obtain same | ⟨unbound, he⟩ := MetadataWrapper.bind_cases choice.result id s
      · rw [same]
        exact h.keep (.refl s) rfl
      · -- the old proxy is gone, and its entries with it
        have empty := h.emptyUnbound unbound
        rw [he]
        refine fun nested => ⟨nested, by simp, fun _ key hk => ?_⟩
        rw [show _ = s.entries from rfl, empty] at hk
        exact absurd hk (AList.notMem_empty key)
    | removed id =>
      dsimp only
      split
      next =>
        exact fun nested => .unbind rfl nested
          ⟨.clearEntries, by simp [MetadataWrapper.destroyBoundProxy], rfl⟩
      next => exact h.keep (.refl s) rfl
    | changed proxy change =>
      refine h.change ?_
      simp only [not_or, Bool.not_eq_false, ne_eq, not_not] at live
      simpa [MetadataStmt.fromBoundProxy, hn, live] using own

theorem MetadataCacheBound.run (h : MetadataCacheBound s (i :: rest))
    (own : i.fromBoundProxy s = true) :
    MetadataCacheBound (s.exec choice i).1 ((s.exec choice i).2 ++ rest) := by
  have nested := metadataExec_nested choice s h.nested
  cases i with
  | dispatch event => exact h.dispatch own
  | destroyBoundProxy =>
    exact .unbind rfl nested
      ⟨.clearEntries, by simp [MetadataWrapper.exec, MetadataWrapper.destroyBoundProxy], rfl⟩
  | clearRunning =>
    exact ⟨nested, fun _ => .inl ⟨.clearEntries, by simp [MetadataWrapper.exec], rfl⟩, h.origins⟩
  | clearEntries =>
    exact ⟨nested, fun _ => .inr rfl, fun _ key hk => absurd hk (AList.notMem_empty key)⟩
  | coreConnectedNotify =>
    revert nested
    simp only [MetadataWrapper.exec]
    split
    next => exact h.keep (.refl s) rfl
    next =>
      exact fun nested => .unbind rfl nested
        ⟨.clearRunning, by simp [MetadataWrapper.reset], rfl⟩
  | stop =>
    revert nested
    simp only [MetadataWrapper.exec, MetadataWrapper.stop]
    split <;> exact h.keep (.refl s) rfl
  | startRegistry sync =>
    revert nested
    simp only [MetadataWrapper.exec, MetadataWrapper.startRegistry]
    split
    · exact h.keep (.refl s) rfl
    · split <;> exact h.keep { SameCache.refl s with } rfl
  | start | connect | coreSync | syncEnter | syncIterate =>
    revert nested
    simp only [MetadataWrapper.exec]
    split <;> first
      | exact h.keep { SameCache.refl s with } rfl
      | split <;> exact h.keep (.refl s) rfl
  | _ => exact h.keep { SameCache.refl s with } rfl nested

/-- Handlers that return leave only roundtrips that wait below a call. -/
theorem MetadataNested.onlyWaits (h : MetadataNested code)
    (returned : code.head? ≠ some .handlers)
    (idle : (metadataComponent name).applicationRuns code = true) :
    ∀ j ∈ code, j.waits = true := by
  intro j hj
  cases code with
  | nil => simp at hj
  | cons head below =>
    have emission : head.emission = true := by
      simpa [Component.applicationRuns, metadataComponent] using idle
    have waiting : head.waits = true := by
      cases head <;> first
        | rfl
        | exact absurd rfl returned
        | simp [MetadataStmt.emission] at emission
    rcases List.mem_cons.mp hj with rfl | hj
    · exact waiting
    · refine (List.pairwise_cons.mp h).1 j hj ?_
      cases head <;> first | rfl | simp [MetadataStmt.waits] at waiting

/-- A call begins with at most one statement. -/
theorem MetadataCacheBound.push (h : MetadataCacheBound s code)
    (waits : ∀ j ∈ code, j.waits = true) (same : SameCache s t) (one : new.length ≤ 1) :
    MetadataCacheBound t (new ++ code) := by
  refine ⟨?_, fun hb => ?_, fun hb => ?_⟩
  · refine List.pairwise_append.mpr ⟨?_, h.nested, fun _ _ j hj _ => waits j hj⟩
    cases new with
    | nil => exact .nil
    | cons j new =>
      have none : new = [] := by
        apply List.eq_nil_of_length_eq_zero
        simp only [List.length_cons] at one
        omega
      rw [none]
      exact List.pairwise_singleton _ j
  · rw [same.entries]
    rcases h.unbound (same.bound ▸ hb) with ⟨j, hj, clears⟩ | empty
    · exact .inl ⟨j, List.mem_append_right new hj, clears⟩
    · exact .inr empty
  · rw [same.entries, same.proxies, same.origins]
    exact h.origins (same.bound ▸ hb)

theorem MetadataCacheBound.call {r : MetadataWrapper × List MetadataStmt} {operation : MetadataCall}
    (h : MetadataCacheBound s code) (returned : code.head? ≠ some .handlers)
    (idle : (metadataComponent name).applicationRuns code = true)
    (hr : MetadataWrapper.call operation s = some r) : MetadataCacheBound r.1 (r.2 ++ code) := by
  have waits := h.nested.onlyWaits returned idle
  cases operation with
  | iterate =>
    simp only [MetadataWrapper.call] at hr
    split at hr
    next => simp at hr
    next =>
      cases Option.some.inj hr
      exact h.push waits { SameCache.refl s with } (by simp)
    next =>
      cases Option.some.inj hr
      exact h.push waits { SameCache.refl s with } (by simp)
  | clear result =>
    cases Option.some.inj hr
    show MetadataCacheBound (s.clear result).1 code
    unfold MetadataWrapper.clear
    split
    next => exact h
    next => exact ⟨h.nested, fun _ => .inr rfl, fun _ key hk => absurd hk (AList.notMem_empty key)⟩
  | _ =>
    cases Option.some.inj hr
    exact h.push waits { SameCache.refl s with } (by simp)

theorem metadataCacheBound_preserves :
    (metadataComponent name).Preserves
      (fun c label => MetadataHandlersReturn c label ∧ MetadataFromBoundProxy c label)
      MetadataCacheBound where
  call operation s code r h hc allowed hr := h.call allowed.1 hc hr
  run choice i s rest h allowed := h.run (allowed.2 i rfl)
  environment callback s code t h _ ht := by
    simp only [metadataComponent, MetadataWrapper.report] at ht
    split at ht
    next =>
      cases Option.some.inj ht
      exact ⟨h.nested, h.unbound, h.origins⟩
    next => simp at ht

/-- The cache follows the proxy. -/
structure MetadataFollowsProxy (s : MetadataWrapper) : Prop where
  unbound : s.bound = false → s.entries = ∅
  bound : s.bound = true → ∀ key ∈ s.entries, s.origins key = s.proxies

theorem metadataEntries_followProxy {c : Config MetadataWrapper MetadataStmt}
    (h : Reach (metadataComponent name).step
      (fun c label => MetadataHandlersReturn c label ∧ MetadataFromBoundProxy c label)
      metadataInit c) (idle : c.code = []) : MetadataFollowsProxy c.state := by
  have settled := metadataCacheBound_preserves.reach h
    ⟨List.Pairwise.nil, fun _ => .inr rfl, fun _ key hk => absurd hk (AList.notMem_empty key)⟩
  rw [idle] at settled
  exact ⟨fun hb => (settled.unbound hb).resolve_left (by simp), settled.origins⟩

abbrev MetadataSchedule := List (Label MetadataCall MetadataChoice MetadataCallback)

/-- The wrapper is started on a core that is connected. -/
def metadataStartSchedule : MetadataSchedule :=
  [.call (.setConnected true), .call .start] ++ List.replicate 4 (.run {})

/-- The main context dispatches its first event. -/
def metadataIterateSchedule : MetadataSchedule := .call .iterate :: List.replicate 3 (.run {})

/-- A metadata object appears under the name that the wrapper looks for. -/
def metadataAppears (id : UInt32) : Label MetadataCall MetadataChoice MetadataCallback :=
  .environment (.global id 0 (some interfaceMetadata) 3 (some [(some keyMetadataName, some [109])]))

def metadataSets (subject : UInt32) (key value : CString) :
    Label MetadataCall MetadataChoice MetadataCallback :=
  .environment (.property ⟨subject, some key, none, some value⟩)

/-- The object is removed, another appears under its name, and reports the same key. -/
def reboundMetadata : Config MetadataWrapper MetadataStmt :=
  final (metadataComponent [109]).step metadataInit
    (metadataStartSchedule ++ metadataAppears 7 :: metadataIterateSchedule ++
      metadataSets 0 [107] [65] :: metadataIterateSchedule ++
      .environment (.globalRemove 7) :: metadataIterateSchedule ++ [.run {}] ++
      metadataAppears 8 :: metadataIterateSchedule ++
      metadataSets 0 [107] [66] :: metadataIterateSchedule)

theorem metadataEntries_followProxy_reboundMetadata :
    metadataDupValue reboundMetadata.state.entries 0 [107] = some [66] ∧
      MetadataFollowsProxy reboundMetadata.state :=
  ⟨by decide +kernel, metadataEntries_followProxy (c := reboundMetadata)
    (reach_final (by decide +kernel)) (by decide +kernel)⟩

/-- A property of the object comes after its removal, before the removal is dispatched. -/
def changedWhileRemoved : Config MetadataWrapper MetadataStmt :=
  final (metadataComponent [109]).step metadataInit
    (metadataStartSchedule ++ metadataAppears 7 :: metadataIterateSchedule ++
      [.environment (.globalRemove 7), metadataSets 0 [107] [65]] ++
      metadataIterateSchedule ++ [.run {}] ++ metadataIterateSchedule)

theorem metadataEntries_followProxy_fails :
    Reach (metadataComponent [109]).step MetadataHandlersReturn metadataInit changedWhileRemoved ∧
      changedWhileRemoved.code = [] ∧ ¬ MetadataFollowsProxy changedWhileRemoved.state := by
  refine ⟨reach_final (by decide +kernel), by decide +kernel, fun h => ?_⟩
  -- the wrapper is unbound, and caches what the old object has reported
  have empty := congrArg (fun entries => metadataDupValue entries 0 [107])
    (h.unbound (by decide +kernel))
  revert empty
  decide +kernel

end PipewireGobject
