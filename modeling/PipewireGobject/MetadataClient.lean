import PipewireGobject.MetadataServer

namespace PipewireGobject

variable {name : CString} {s t : MetadataSite} {ahead : List MetadataEvent} {slot : Nat}
  {event : MetadataEvent}

theorem announced_later (first : List (Presence UInt32)) {news : List (Presence UInt32)}
    {there : UInt32 → Prop} (h : ∀ before id after, first ++ news = before ++ .appears id :: after →
      .disappears id ∈ after ∨ there id) :
    ∀ before id after, news = before ++ .appears id :: after → .disappears id ∈ after ∨ there id :=
  fun before id after hn => h (first ++ before) id after (by rw [hn, List.append_assoc])

/-- The wrapper is not bound any more, or still not. -/
theorem SiteState.unbound (h : SiteState name s ahead) (wrapper : MetadataWrapper)
    {later : List MetadataEvent} (connected : wrapper.connected = true)
    (unbound : wrapper.bound = false ∧ wrapper.hasMetadata = false)
    (stopped : wrapper.running = false → wrapper.hasRegistry = false)
    (filed : MetadataFiled wrapper.entries) (proxies : wrapper.proxies = s.wrapper.proxies)
    (news : (∃ first, s.news name ahead = first ++ { s with wrapper := wrapper }.news name later) ∧
        wrapper.hasRegistry = s.wrapper.hasRegistry ∨
      { s with wrapper := wrapper }.news name later = []) :
    SiteState name { s with wrapper := wrapper } later := by
  have stays : KnownStays s { s with wrapper := wrapper } :=
    ⟨Nat.le_refl _, Nat.le_refl _, Nat.le_of_eq proxies.symm,
      fun bound => absurd bound (by simp [unbound.1])⟩
  exact {
    connected := connected
    proxy := unbound.2.trans unbound.1.symm
    stopped := fun running => ⟨unbound.1, stopped running⟩
    registered := fun bound => by
      rw [unbound.1] at bound
      cases bound
    filed := filed
    outbox := fun request hr => (h.outbox request hr).stays stays
    inbox := fun message hm => (h.inbox message hm).stays stays
    bindings := fun binding hb => by
      obtain ⟨there, known, -⟩ := h.bindings binding hb
      exact ⟨there, Nat.le_trans known stays.proxies, fun bound =>
        absurd bound (by simp [unbound.1])⟩
    registries := h.registries
    distinct := h.distinct
    listeners := h.listeners
    entered := h.entered
    announced := by
      rcases news with ⟨⟨first, news⟩, -⟩ | news
      · refine announced_later first ?_
        rw [← news]
        exact h.announced
      · rw [news]
        simp
    heard := fun id hn => by
      rcases news with ⟨⟨first, news⟩, registry⟩ | news
      · obtain ⟨listens, served⟩ := h.heard id (by rw [news]; exact List.mem_append_right _ hn)
        exact ⟨registry.trans listens, served⟩
      · rw [news] at hn
        cases hn
    lines := fun bound => by
      rw [unbound.1] at bound
      cases bound }

/-- A cache with what an event brings. -/
def MetadataSite.cache (s : MetadataSite) (entries : MetadataEntries) (origins : CString → Nat)
    (changes : List MetadataChange) : MetadataSite :=
  { s with
    wrapper := { s.wrapper with entries := entries, origins := origins }
    later := fun slot => s.later slot ++ changes }

theorem line_cons : s.line (event :: ahead) slot =
    (event.item s.wrapper.generation).toList ++ s.line ahead slot := by
  rw [MetadataSite.line, MetadataSite.line, ← List.append_assoc]
  congr 1
  show ((.event event :: s.sources ahead).filterMap _) = _
  have item : MetadataSource.item s.wrapper.generation slot (.event event) =
      event.item s.wrapper.generation := rfl
  rw [List.filterMap_cons, item]
  cases event.item s.wrapper.generation <;> rfl

theorem news_cons : s.news name (event :: ahead) =
    (event.presence s.wrapper.generation).toList ++ s.news name ahead := by
  rw [MetadataSite.news, MetadataSite.news, ← List.append_assoc]
  congr 1
  show ((event :: (s.sources ahead).filterMap _).filterMap _) = _
  rw [List.filterMap_cons]
  cases event.presence s.wrapper.generation <;> rfl

theorem BoundSite.cache {entries : MetadataEntries}
    {origins : CString → Nat} {changes : List MetadataChange} (h : BoundSite s [event] slot)
    (view : metadataView entries = s.view.after changes)
    (brought : lineChanges (event.item s.wrapper.generation).toList = changes)
    (kept : event.item s.wrapper.generation ≠ some (.removed s.wrapper.metadataId)) :
    BoundSite (s.cache entries origins changes) [] slot := by
  have line : s.line [event] slot =
      (event.item s.wrapper.generation).toList ++ (s.cache entries origins changes).line [] slot :=
    line_cons
  have stays : ∀ rest : List LineItem, .removed s.wrapper.metadataId ∈
      (event.item s.wrapper.generation).toList ++ rest →
        .removed s.wrapper.metadataId ∈ rest := by
    intro rest hr
    exact (List.mem_append.mp hr).resolve_left fun hi => kept (Option.mem_toList.mp hi)
  have after : ∀ rest : List LineItem, (s.cache entries origins changes).view.after
      (lineChanges rest) =
        s.view.after (lineChanges ((event.item s.wrapper.generation).toList ++ rest)) := by
    intro rest
    rw [lineChanges_append, MetadataMap.after_append, brought, ← view]
    rfl
  exact {
    object := h.object.imp_left fun hr => stays _ (by rw [← line]; exact hr)
    copied := fun known uncleared => by
      rw [after, ← line]
      exact h.copied known uncleared
    requested := h.requested
    unanswered := fun current earlier later ho => by
      obtain ⟨requests, unmarked, incomplete⟩ := h.unanswered current earlier later ho
      refine ⟨requests, fun hm => unmarked ?_, incomplete⟩
      rw [line]
      exact List.mem_append_right _ hm
    marked := fun current before later hl => by
      rw [after]
      have split : s.line [event] slot =
          ((event.item s.wrapper.generation).toList ++ before) ++ .mark :: later := by
        rw [line, hl, List.append_assoc]
      exact (h.marked current _ later split).imp_left (stays before)
    completed := fun current done => by
      show PartialCopy ((s.answered slot).after (s.later slot ++ changes)) (metadataView entries)
      rw [MetadataMap.after_append, view]
      exact MetadataMap.after_partialCopy (h.completed current done) changes }

theorem SiteState.cache {entries : MetadataEntries}
    {origins : CString → Nat} {changes : List MetadataChange} (h : SiteState name s [event])
    (filed : MetadataFiled entries) (view : metadataView entries = s.view.after changes)
    (brought : s.wrapper.bound = true →
      lineChanges (event.item s.wrapper.generation).toList = changes ∧
      event.item s.wrapper.generation ≠ some (.removed s.wrapper.metadataId)) :
    SiteState name (s.cache entries origins changes) [] := by
  have news : s.news name [event] = (event.presence s.wrapper.generation).toList ++
      (s.cache entries origins changes).news name [] := news_cons
  exact { h with
    filed := filed
    outbox := fun request hr => (h.outbox request hr).stays (.unchanged rfl rfl rfl rfl rfl)
    inbox := fun message hm => (h.inbox message hm).stays (.unchanged rfl rfl rfl rfl rfl)
    announced := by
      refine announced_later (event.presence s.wrapper.generation).toList ?_
      rw [← news]
      exact h.announced
    heard := fun id hn => h.heard id (by rw [news]; exact List.mem_append_right _ hn)
    lines := fun bound slot =>
      (h.lines bound slot).cache view (brought bound).1 (brought bound).2 }

theorem removed_line {id : UInt32} (h : .disappears id ∈ s.news name ahead) :
    .removed id ∈ s.line ahead slot := by
  rcases List.mem_append.mp h with hq | hi
  · obtain ⟨event, he, hp⟩ := List.mem_filterMap.mp hq
    obtain ⟨source, hs, hd⟩ := List.mem_filterMap.mp he
    refine List.mem_append_left _ (List.mem_filterMap.mpr ⟨source, hs, ?_⟩)
    cases source with
    | completion k => cases hd
    | event e =>
      cases hd
      simp only [MetadataEvent.presence] at hp
      split at hp
      next hg =>
        simp only [MetadataSource.item, MetadataEvent.item, if_pos hg]
        cases hn : event.news with
        | found k version =>
          rw [hn] at hp
          cases hp
        | removed k =>
          rw [hn] at hp
          cases hp
          rfl
        | changed proxy change =>
          rw [hn] at hp
          cases hp
      next => cases hp
  · obtain ⟨message, hm, hp⟩ := List.mem_filterMap.mp hi
    refine List.mem_append_right _ (List.mem_filterMap.mpr ⟨message, hm, ?_⟩)
    cases message with
    | registry r callback =>
      simp only [MetadataSite.presence] at hp
      split at hp
      next current =>
        obtain rfl := presence_disappears.mp hp
        exact if_pos current.2
      next => cases hp
    | property proxy change => cases hp
    | done seq => cases hp

/-- The wrapper binds a new object. -/
def MetadataSite.bind (s : MetadataSite) (id : UInt32) : MetadataSite :=
  { s with
    wrapper := { s.wrapper with
      hasMetadata := true, metadataId := id, bound := true, proxies := s.wrapper.proxies + 1 }
    outbox := s.outbox ++ [.bind (s.wrapper.proxies + 1) id]
    epoch := s.epoch + 1 }

theorem SiteState.bindNew (h : SiteState name s [event]) {id version : UInt32}
    (found : event = ⟨s.wrapper.generation, .found id version⟩)
    (running : s.wrapper.running = true) : SiteState name (s.bind id) [] := by
  have news : s.news name [event] = .appears id :: (s.bind id).news name [] := by
    rw [found]
    refine news_cons.trans ?_
    simp [MetadataEvent.presence]
    rfl
  have appears : .appears id ∈ s.news name [event] := by
    rw [news]
    exact List.mem_cons_self
  have fresh : ∀ slot, s.entered slot ≠ s.epoch + 1 := fun slot he => by
    have := h.entered slot
    omega
  have stays : KnownStays s (s.bind id) :=
    ⟨Nat.le_refl _, Nat.le_refl _, Nat.le_succ _, fun _ same =>
      absurd same.symm (Nat.succ_ne_self _)⟩
  exact {
    connected := h.connected
    proxy := rfl
    stopped := fun stopped => by
      have stopped : s.wrapper.running = false := stopped
      rw [running] at stopped
      cases stopped
    registered := fun _ => h.heard id appears
    filed := h.filed
    outbox := stays.send h.outbox ⟨Nat.le_refl _, fun _ _ => rfl⟩
    inbox := fun message hm => (h.inbox message hm).stays stays
    bindings := fun binding hb => by
      obtain ⟨there, known, -⟩ := h.bindings binding hb
      refine ⟨there, Nat.le_succ_of_le known, fun _ he => ?_⟩
      have he : binding.1 = s.wrapper.proxies + 1 := he
      omega
    registries := h.registries
    distinct := h.distinct
    listeners := h.listeners
    entered := fun slot => Nat.le_succ_of_le (h.entered slot)
    announced := by
      refine announced_later [.appears id] ?_
      show ∀ before id' after, .appears id :: (s.bind id).news name [] = _ → _
      rw [← news]
      exact h.announced
    heard := fun id' hn => h.heard id' (by rw [news]; exact List.mem_cons_of_mem _ hn)
    lines := fun _ slot => {
      object := by
        rcases h.announced [] id _ news with removed | there
        · exact .inl (removed_line removed)
        · exact .inr ⟨there, .inl (by simp [MetadataSite.bind])⟩
      copied := fun known _ => by
        have old := (h.bindings _ known).2.1
        have new : (s.bind id).wrapper.proxies = s.wrapper.proxies + 1 := rfl
        omega
      requested := fun current => absurd current (fresh slot)
      unanswered := fun current => absurd current (fresh slot)
      marked := fun current => absurd current (fresh slot)
      completed := fun current => absurd current (fresh slot) } }

/-- An event comes to its end without anything of it being left. -/
theorem SiteState.ignore (h : SiteState name s [event])
    (ignored : s.wrapper.bound = true →
      event.item s.wrapper.generation = none ∨
        ∃ id, event.item s.wrapper.generation = some (.removed id) ∧ id ≠ s.wrapper.metadataId) :
    SiteState name s [] := by
  have cached : s.cache s.wrapper.entries s.wrapper.origins [] = s := by
    simp [MetadataSite.cache]
  rw [← cached]
  refine h.cache h.filed rfl fun bound => ?_
  rcases ignored bound with none | ⟨id, removed, other⟩
  · simp [none, lineChanges]
  · refine ⟨by rw [removed]; rfl, fun he => other ?_⟩
    rw [removed] at he
    cases he
    rfl

theorem dispatch_rests {result : PipewireResult} {code : List MetadataStmt}
    {wrapper : MetadataWrapper} (proxies : wrapper.proxies = s.wrapper.proxies)
    (dispatched : s.wrapper.dispatchEvent result event = (wrapper, code)) :
    (s.dispatch result event).1 = { s with
      wrapper := wrapper
      later := fun slot => s.later slot ++ s.wrapper.cached event } := by
  simp [MetadataSite.dispatch, dispatched, proxies]

theorem dispatch_ignores {result : PipewireResult} {code : List MetadataStmt}
    (dispatched : s.wrapper.dispatchEvent result event = (s.wrapper, code))
    (uncached : s.wrapper.cached event = []) : (s.dispatch result event).1 = s := by
  simp [dispatch_rests rfl dispatched, uncached]

theorem SiteState.dispatch {result : PipewireResult} (h : SiteState name s [event]) :
    SiteState name (s.dispatch result event).1 [] := by
  by_cases active : s.wrapper.running = true ∧ event.generation = s.wrapper.generation
  · obtain ⟨running, generation⟩ := active
    have inactive : ¬(s.wrapper.running = false ∨ event.generation ≠ s.wrapper.generation) := by
      simp [running, generation]
    cases hn : event.news with
    | found id version =>
      have dispatched : s.wrapper.dispatchEvent result event = s.wrapper.bind result id := by
        rw [MetadataWrapper.dispatchEvent, if_neg inactive, hn]
      have uncached : s.wrapper.cached event = [] := by
        rw [MetadataWrapper.cached, if_neg inactive, hn]
      rcases MetadataWrapper.bind_cases result id s.wrapper with he | ⟨-, he⟩
      · rw [dispatch_ignores (dispatched.trans he) uncached]
        exact h.ignore fun _ => .inl (by simp [MetadataEvent.item, hn])
      · have bound : (s.dispatch result event).1 = s.bind id := by
          simp [MetadataSite.dispatch, dispatched.trans he, uncached, MetadataSite.bind]
        have found : event = ⟨s.wrapper.generation, .found id version⟩ := by
          rw [← generation, ← hn]
        rw [bound]
        exact h.bindNew found running
    | removed id =>
      have uncached : s.wrapper.cached event = [] := by
        rw [MetadataWrapper.cached, if_neg inactive, hn]
      by_cases same : s.wrapper.metadataId = id
      · have dispatched : s.wrapper.dispatchEvent result event = s.wrapper.destroyBoundProxy := by
          rw [MetadataWrapper.dispatchEvent, if_neg inactive, hn]
          exact if_pos same
        have proxies : s.wrapper.destroyBoundProxy.1.proxies = s.wrapper.proxies := rfl
        rw [dispatch_rests proxies dispatched, uncached]
        simp only [List.append_nil]
        refine h.unbound _ h.connected ⟨rfl, rfl⟩ (fun stopped => ?_) h.filed rfl (.inl ⟨?_, rfl⟩)
        · exact (h.stopped stopped).2
        · exact ⟨_, news_cons⟩
      · have dispatched : s.wrapper.dispatchEvent result event = (s.wrapper, []) := by
          rw [MetadataWrapper.dispatchEvent, if_neg inactive, hn]
          exact if_neg same
        rw [dispatch_ignores dispatched uncached]
        refine h.ignore fun _ => .inr ⟨id, ?_, fun he => same he.symm⟩
        rw [MetadataEvent.item, if_pos generation, hn]
    | changed proxy change =>
      have dispatched : s.wrapper.dispatchEvent result event =
          (s.wrapper.cacheChange proxy change, [.emit (.changed change)]) := by
        rw [MetadataWrapper.dispatchEvent, if_neg inactive, hn]
      have cached : s.wrapper.cached event = [change] := by
        rw [MetadataWrapper.cached, if_neg inactive, hn]
      have proxies : (s.wrapper.cacheChange proxy change).proxies = s.wrapper.proxies := rfl
      have brought : lineChanges (event.item s.wrapper.generation).toList = [change] ∧
          event.item s.wrapper.generation ≠ some (.removed s.wrapper.metadataId) := by
        rw [MetadataEvent.item, if_pos generation, hn]
        exact ⟨rfl, by simp⟩
      rw [dispatch_rests proxies dispatched, cached]
      exact h.cache (h.filed.change change) (metadataView_change h.filed change) fun _ => brought
  · have inactive : s.wrapper.running = false ∨ event.generation ≠ s.wrapper.generation := by
      rcases not_and_or.mp active with stopped | other
      · exact .inl (by simpa using stopped)
      · exact .inr other
    have dispatched : s.wrapper.dispatchEvent result event = (s.wrapper, []) := by
      rw [MetadataWrapper.dispatchEvent, if_pos inactive]
    have uncached : s.wrapper.cached event = [] := by
      rw [MetadataWrapper.cached, if_pos inactive]
    rw [dispatch_ignores dispatched uncached]
    refine h.ignore fun bound => .inl ?_
    rcases inactive with stopped | other
    · rw [(h.stopped stopped).1] at bound
      cases bound
    · exact if_neg other

theorem SiteState.startRegistry (h : SiteState name s []) {result : PipewireResult} {sync : Bool}
    (stopped : s.wrapper.running = false)
    (new : ∀ source ∈ s.wrapper.queue, ∀ e ∈ source.queued,
      e.generation ≠ s.wrapper.generation + 1) :
    SiteState name (s.startRegistry result sync).1 [] := by
  obtain ⟨unbound, silent⟩ := h.stopped stopped
  have connected : ¬s.wrapper.connected = false := by simp [h.connected]
  by_cases hr : result = .getRegistryFailed
  · have same : { s.wrapper with hasRegistry := false } = s.wrapper := by rw [← silent]
    have started : (s.startRegistry result sync).1 = s := by
      simp only [MetadataSite.startRegistry, MetadataWrapper.startRegistry, if_neg connected, hr,
        same]
      rw [if_neg (by simp [silent])]
    rw [started]
    exact h
  · have started : (s.startRegistry result sync).1 = { s with
        wrapper := { s.wrapper with
          hasRegistry := true, generation := s.wrapper.generation + 1, running := true }
        registry := s.registry + 1
        outbox := s.outbox ++ [.getRegistry (s.registry + 1)] } := by
      simp only [MetadataSite.startRegistry, MetadataWrapper.startRegistry, if_neg connected]
      cases result <;> first | exact absurd rfl hr | rfl
    have quiet : (s.startRegistry result sync).1.news name [] = [] := by
      rw [started]
      refine news_new new fun message hm => ?_
      have known := h.inbox message hm
      cases message with
      | registry r callback =>
        refine if_neg fun current => ?_
        have same : r = s.registry + 1 := current.2
        have := known.1
        omega
      | _ => rfl
    rw [started] at quiet ⊢
    have stays : KnownStays s { s with
        wrapper := { s.wrapper with
          hasRegistry := true, generation := s.wrapper.generation + 1, running := true }
        registry := s.registry + 1
        outbox := s.outbox ++ [.getRegistry (s.registry + 1)] } :=
      ⟨Nat.le_succ _, Nat.le_refl _, Nat.le_refl _, fun still _ => ⟨still, rfl⟩⟩
    exact {
      connected := h.connected
      proxy := h.proxy
      stopped := fun stopped => by cases stopped
      registered := fun bound => by
        rw [unbound] at bound
        cases bound
      filed := h.filed
      outbox := stays.send h.outbox (Nat.le_refl _)
      inbox := fun message hm => (h.inbox message hm).stays stays
      bindings := h.bindings
      registries := fun r hr => Nat.le_succ_of_le (h.registries r hr)
      distinct := h.distinct
      listeners := h.listeners
      entered := h.entered
      announced := by
        rw [quiet]
        simp
      heard := by
        rw [quiet]
        simp
      lines := fun bound => by
        have bound : s.wrapper.bound = true := bound
        rw [unbound] at bound
        cases bound }

/-- The address of a frame that nothing points to: no listener of the core, and no completion
that is still queued. -/
def MetadataSite.FreeFrame (s : MetadataSite) (slot : Nat) : Prop :=
  (∀ listener ∈ s.listeners, listener.1 ≠ slot) ∧ .completion slot ∉ s.wrapper.queue

theorem MetadataSite.FreeFrame.unmarked (free : s.FreeFrame slot) :
    .mark ∉ s.line [] slot := by
  intro hm
  rcases List.mem_append.mp hm with hm | hm
  · obtain ⟨source, hs, hi⟩ := List.mem_filterMap.mp hm
    cases source with
    | event e =>
      simp only [MetadataSource.item, MetadataEvent.item] at hi
      split at hi
      · split at hi <;> cases hi
      · cases hi
    | completion k =>
      simp only [MetadataSource.item] at hi
      split at hi
      next hk =>
        rw [hk] at hs
        exact free.2 hs
      next => cases hi
  · obtain ⟨m, hm, hi⟩ := List.mem_filterMap.mp hm
    cases m with
    | registry r callback =>
      cases callback with
      | globalRemove id =>
        simp only [MetadataSite.item] at hi
        split at hi <;> cases hi
      | _ => cases hi
    | property proxy change =>
      simp only [MetadataSite.item] at hi
      split at hi <;> cases hi
    | done q =>
      simp only [MetadataSite.item] at hi
      split at hi
      next listens => exact free.1 _ listens rfl
      next => cases hi

/-- A roundtrip with its data at `slot` is requested. -/
def MetadataSite.ask (s : MetadataSite) (slot : Nat) (done : List Nat) : MetadataSite :=
  { s with
    wrapper := { s.wrapper with completed := s.wrapper.completed.filter fun k => k ≠ slot }
    seq := s.seq + 1
    requested := Function.update s.requested slot s.seq
    listeners := s.listeners ++ [(slot, s.seq)]
    done := done
    outbox := s.outbox ++ [.sync s.seq]
    entered := Function.update s.entered slot s.epoch }

/-- No answer to the new request is on its way. -/
theorem SiteState.line_ask (h : SiteState name s ahead) (slot : Nat) (done : List Nat) (k : Nat) :
    (s.ask slot done).line ahead k = s.line ahead k := by
  refine congrArg (_ ++ ·) (List.filterMap_congr fun message hm => ?_)
  have known := h.inbox message hm
  cases message with
  | registry r callback => cases callback <;> rfl
  | property proxy change => rfl
  | done q =>
    have earlier : q < s.seq := known
    have same : (k, q) ∈ (s.ask slot done).listeners ↔ (k, q) ∈ s.listeners := by
      have other : (k, q) ≠ (slot, s.seq) := fun he => by
        have := (Prod.mk.inj he).2
        omega
      simp [MetadataSite.ask, other]
    simp only [MetadataSite.item, same]

theorem SiteState.askBound (h : SiteState name s []) (bound : s.wrapper.bound = true)
    (free : s.FreeFrame slot) (done : List Nat) (k : Nat) : BoundSite (s.ask slot done) [] k := by
  have site := h.lines bound k
  have line := h.line_ask slot done k
  have request : ∀ q, .sync q ∈ s.outbox → q < s.seq := fun q hq => h.outbox (.sync q) hq
  have keeps : ∀ r, r ∈ (s.ask slot done).outbox ↔ r ∈ s.outbox ∨ r = .sync s.seq := by
    simp [MetadataSite.ask]
  have copied : (s.wrapper.proxies, s.wrapper.metadataId) ∈ s.bindings →
      .clear s.wrapper.proxies ∉ (s.ask slot done).outbox →
        PartialCopy (storeView (s.stored s.wrapper.metadataId))
          (s.view.after (lineChanges (s.line [] k))) :=
    fun known uncleared => site.copied known fun hc => uncleared ((keeps _).mpr (.inl hc))
  have object : .removed s.wrapper.metadataId ∈ s.line [] k ∨ s.wrapper.metadataId ∈ s.globals ∧
      (.bind s.wrapper.proxies s.wrapper.metadataId ∈ (s.ask slot done).outbox ∨
        (s.wrapper.proxies, s.wrapper.metadataId) ∈ s.bindings) :=
    site.object.imp_right fun ho => ⟨ho.1, ho.2.imp_left fun waits => (keeps _).mpr (.inl waits)⟩
  by_cases hk : k = slot
  · subst hk
    have unmarked := free.unmarked
    have asked : (s.ask k done).requested k = s.seq := Function.update_self ..
    have incomplete : k ∉ (s.ask k done).wrapper.completed := by simp [MetadataSite.ask]
    refine ⟨?_, ?_, ?_, ?_, ?_, ?_⟩
    · rw [line]
      exact object
    · rw [line]
      exact copied
    · intro _
      rw [asked]
      exact Nat.lt_succ_self _
    · intro _ earlier later ho
      rw [asked] at ho ⊢
      rw [line]
      refine ⟨?_, unmarked, incomplete⟩
      rcases split_append ho with ⟨middle, hs, -⟩ | ⟨middle, -, hm⟩
      · exact absurd (request s.seq (by rw [hs]; simp)) (Nat.lt_irrefl _)
      · cases middle with
        | nil =>
          obtain ⟨-, rfl⟩ := List.cons.inj hm
          simp
        | cons r middle => simp at hm
    · intro _ before after hl
      rw [line] at hl
      exact absurd (by rw [hl]; simp) unmarked
    · exact fun _ done => absurd done incomplete
  · have entered : (s.ask slot done).entered k = s.entered k := Function.update_of_ne hk ..
    have requested : (s.ask slot done).requested k = s.requested k := Function.update_of_ne hk ..
    have completed : k ∈ (s.ask slot done).wrapper.completed ↔ k ∈ s.wrapper.completed := by
      simp [MetadataSite.ask, hk]
    have answered : (s.ask slot done).answered k = s.answered k := by
      rw [MetadataSite.answered, requested]
      rfl
    refine ⟨?_, ?_, ?_, ?_, ?_, ?_⟩
    · rw [line]
      exact object
    · rw [line]
      exact copied
    · rw [entered, requested]
      exact fun current => Nat.lt_succ_of_lt (site.requested current)
    · rw [entered, requested, line, completed]
      intro current earlier later ho
      have new : s.requested k ≠ s.seq := Nat.ne_of_lt (site.requested current)
      rcases split_append ho with ⟨middle, hs, rfl⟩ | ⟨middle, -, hm⟩
      · obtain ⟨⟨unbound, uncleared, once⟩, rest⟩ := site.unanswered current earlier middle hs
        refine ⟨⟨fun id => ?_, ?_, ?_⟩, rest⟩
        · simp only [List.mem_append, List.mem_singleton, not_or]
          exact ⟨unbound id, by simp⟩
        · simp only [List.mem_append, List.mem_singleton, not_or]
          exact ⟨uncleared, by simp⟩
        · simp only [List.mem_append, List.mem_singleton, not_or]
          exact ⟨once, fun he => new (SiteRequest.sync.inj he)⟩
      · cases middle with
        | nil => exact absurd (SiteRequest.sync.inj (List.cons.inj hm).1).symm new
        | cons r middle => simp at hm
    · rw [entered, line, answered]
      exact site.marked
    · rw [entered, completed, answered]
      exact site.completed

theorem ask_stays {done : List Nat} : KnownStays s (s.ask slot done) :=
  ⟨Nat.le_refl _, Nat.le_succ _, Nat.le_refl _, fun still _ => ⟨still, rfl⟩⟩

theorem SiteState.ask (h : SiteState name s []) (free : s.FreeFrame slot) (done : List Nat) :
    SiteState name (s.ask slot done) [] where
  connected := h.connected
  proxy := h.proxy
  stopped := h.stopped
  registered := h.registered
  filed := h.filed
  outbox := ask_stays.send h.outbox (Nat.lt_succ_self _)
  inbox message hm := (h.inbox message hm).stays ask_stays
  bindings := h.bindings
  registries := h.registries
  distinct := by
    refine List.nodup_append.mpr ⟨h.distinct, List.nodup_singleton _, ?_⟩
    intro listener hl other ho he
    rw [List.mem_singleton.mp ho] at he
    exact free.1 listener hl (by rw [he])
  listeners listener hl := by
    rcases List.mem_append.mp hl with hl | hl
    · exact (h.listeners listener hl).trans (Function.update_of_ne (free.1 listener hl) ..).symm
    · rw [List.mem_singleton.mp hl]
      show s.seq = Function.update s.requested slot s.seq slot
      rw [Function.update_self]
  entered k := by
    show Function.update s.entered slot s.epoch k ≤ s.epoch
    by_cases hk : k = slot
    · rw [hk, Function.update_self]
    · rw [Function.update_of_ne hk]
      exact h.entered k
  announced := h.announced
  heard := h.heard
  lines bound k := h.askBound bound free done k

theorem SiteState.syncEnter (h : SiteState name s []) {failed again : Bool}
    (free : s.FreeFrame slot) : SiteState name (s.syncEnter slot failed again).1 [] := by
  unfold MetadataSite.syncEnter
  split
  next => exact h
  next => exact h.ask free _

/-- A line loses marks. -/
theorem filterMap_unmarked {α : Type*} {f f' : α → Option LineItem}
    (loses : ∀ x, f' x = f x ∨ f x = some .mark ∧ f' x = none) {xs : List α}
    {before after : List LineItem} (h : xs.filterMap f' = before ++ .mark :: after) :
    ∃ before' after', xs.filterMap f = before' ++ .mark :: after' ∧
      lineChanges before' = lineChanges before ∧
        ∀ id, .removed id ∈ before' → .removed id ∈ before := by
  induction xs generalizing before with
  | nil => simp at h
  | cons x xs ih =>
    have skip : ∀ y, f x = some y → f' x = none ∨ f' x = some y := by
      intro y hy
      rcases loses x with same | ⟨-, none⟩
      · exact .inr (same.trans hy)
      · exact .inl none
    cases hf : f x with
    | none =>
      have hf' : f' x = none := by
        rcases loses x with same | ⟨mark, -⟩
        · exact same.trans hf
        · rw [hf] at mark
          cases mark
      rw [List.filterMap_cons_none hf'] at h
      rw [List.filterMap_cons_none hf]
      exact ih h
    | some y =>
      rw [List.filterMap_cons_some hf]
      rcases skip y hf with none | same
      · -- the mark that is lost
        have mark : y = .mark := by
          rcases loses x with same | ⟨mark, -⟩
          · rw [none, hf] at same
            cases same
          · exact Option.some.inj (hf.symm.trans mark)
        rw [List.filterMap_cons_none none] at h
        obtain ⟨before', after', he, changes, removed⟩ := ih h
        refine ⟨.mark :: before', after', by rw [mark, he]; rfl, changes, fun id hid => ?_⟩
        exact removed id ((List.mem_cons.mp hid).resolve_left (by simp))
      · rw [List.filterMap_cons_some same] at h
        cases before with
        | nil =>
          obtain ⟨rfl, -⟩ := List.cons.inj h
          exact ⟨[], _, rfl, rfl, by simp⟩
        | cons z before =>
          obtain ⟨rfl, tail⟩ := List.cons.inj h
          obtain ⟨before', after', he, changes, removed⟩ := ih tail
          refine ⟨y :: before', after', by rw [he]; rfl, ?_, fun id hid => ?_⟩
          · rw [lineChanges, lineChanges, List.filterMap_cons, List.filterMap_cons]
            rw [lineChanges, lineChanges] at changes
            rw [changes]
          · rcases List.mem_cons.mp hid with he | hid
            · exact List.mem_cons.mpr (.inl he)
            · exact List.mem_cons_of_mem _ (removed id hid)

/-- Listeners are removed. -/
def MetadataSite.unlisten (s : MetadataSite) (stays : Nat × Nat → Bool) : MetadataSite :=
  { s with listeners := s.listeners.filter stays }

theorem item_unlisten (stays : Nat × Nat → Bool) (message : SiteMessage) :
    (s.unlisten stays).item slot message = s.item slot message ∨
      s.item slot message = some .mark ∧ (s.unlisten stays).item slot message = none := by
  cases message with
  | registry r callback => cases callback <;> exact .inl rfl
  | property proxy change => exact .inl rfl
  | done q =>
    simp only [MetadataSite.item, MetadataSite.unlisten, List.mem_filter]
    by_cases listens : (slot, q) ∈ s.listeners
    · by_cases still : stays (slot, q) = true <;> simp [listens, still]
    · simp [listens]

theorem BoundSite.unlisten (h : BoundSite s ahead slot) (stays : Nat × Nat → Bool) :
    BoundSite (s.unlisten stays) ahead slot := by
  have keeps : ∀ x, x ≠ .mark → x ∈ s.line ahead slot → x ∈ (s.unlisten stays).line ahead slot := by
    intro x hx hm
    rcases List.mem_append.mp hm with hm | hm
    · exact List.mem_append_left _ hm
    · obtain ⟨message, hi, he⟩ := List.mem_filterMap.mp hm
      refine List.mem_append_right _ (List.mem_filterMap.mpr ⟨message, hi, ?_⟩)
      rcases @item_unlisten s slot stays message with same | ⟨mark, -⟩
      · exact same.trans he
      · rw [he] at mark
        exact absurd (Option.some.inj mark) hx
  have changes : lineChanges ((s.unlisten stays).line ahead slot) =
      lineChanges (s.line ahead slot) := by
    unfold MetadataSite.line
    rw [lineChanges_append, lineChanges_append]
    refine congrArg _ ?_
    rw [lineChanges, lineChanges, List.filterMap_filterMap, List.filterMap_filterMap]
    refine List.filterMap_congr fun message _ => ?_
    rcases @item_unlisten s slot stays message with same | ⟨mark, none⟩
    · rw [same]
    · rw [mark, none]
      rfl
  exact {
    object := h.object.imp_left (keeps _ (by simp))
    copied := by
      rw [changes]
      exact h.copied
    requested := h.requested
    unanswered := fun current earlier later ho => by
      obtain ⟨requests, unmarked, incomplete⟩ := h.unanswered current earlier later ho
      refine ⟨requests, fun hm => unmarked ?_, incomplete⟩
      rcases List.mem_append.mp hm with hm | hm
      · exact List.mem_append_left _ hm
      · obtain ⟨message, hi, he⟩ := List.mem_filterMap.mp hm
        refine List.mem_append_right _ (List.mem_filterMap.mpr ⟨message, hi, ?_⟩)
        rcases @item_unlisten s slot stays message with same | ⟨-, none⟩
        · exact same.symm.trans he
        · rw [he] at none
          cases none
    marked := fun current before after hl => by
      rcases split_append hl with ⟨later, hq, -⟩ | ⟨middle, hb, hi⟩
      · refine h.marked current before (later ++ s.inbox.filterMap (s.item slot)) ?_
        refine (congrArg (· ++ s.inbox.filterMap (s.item slot)) hq).trans ?_
        simp
      · obtain ⟨before', after', he, same, removed⟩ :=
          filterMap_unmarked (fun message => item_unlisten stays message) hi
        have he : s.inbox.filterMap (s.item slot) = before' ++ .mark :: after' := he
        have split : s.line ahead slot =
            ((s.sources ahead).filterMap (MetadataSource.item s.wrapper.generation slot) ++
              before') ++ .mark :: after' := by
          rw [MetadataSite.line, he, List.append_assoc]
        rw [hb, lineChanges_append, ← same, ← lineChanges_append]
        refine (h.marked current _ after' split).imp_left fun hr => ?_
        rcases List.mem_append.mp hr with hr | hr
        · exact List.mem_append_left _ hr
        · exact List.mem_append_right _ (removed _ hr)
    completed := h.completed }

theorem SiteState.unlisten (h : SiteState name s ahead) (stays : Nat × Nat → Bool) :
    SiteState name (s.unlisten stays) ahead :=
  { h with
    outbox := fun request hr => (h.outbox request hr).stays (.unchanged rfl rfl rfl rfl rfl)
    inbox := fun message hm => (h.inbox message hm).stays (.unchanged rfl rfl rfl rfl rfl)
    distinct := h.distinct.filter _
    listeners := fun listener hl => h.listeners listener (List.mem_filter.mp hl).1
    lines := fun bound slot => (h.lines bound slot).unlisten stays }

theorem SiteState.syncWait (h : SiteState name s ahead) {failed again : Bool} :
    SiteState name (s.syncWait slot failed again).1 ahead := by
  unfold MetadataSite.syncWait
  split
  · exact h.unlisten _
  · split
    · exact h.unlisten _
    · exact h

/-- Something leaves the queue of the main context, and the roundtrips are told. -/
theorem SiteState.requeue (h : SiteState name s ahead) {ahead' : List MetadataEvent}
    {queue : List MetadataSource} {completed : List Nat} {later : Nat → List MetadataChange}
    (ht : t = { s with
      wrapper := { s.wrapper with queue := queue, completed := completed }, later := later })
    (news : t.news name ahead' = s.news name ahead)
    (lines : s.wrapper.bound = true → ∀ slot, BoundSite t ahead' slot) :
    SiteState name t ahead' := by
  subst ht
  exact { h with
    outbox := fun request hr => (h.outbox request hr).stays (.unchanged rfl rfl rfl rfl rfl)
    inbox := fun message hm => (h.inbox message hm).stays (.unchanged rfl rfl rfl rfl rfl)
    announced := by
      rw [news]
      exact h.announced
    heard := by
      rw [news]
      exact h.heard
    lines := lines }

/-- An event is taken out of the queue. -/
theorem SiteState.take (h : SiteState name s []) {rest : List MetadataSource}
    (hq : s.wrapper.queue = .event event :: rest) :
    SiteState name { s with wrapper := { s.wrapper with queue := rest } } [event] := by
  have sources : s.sources [] = .event event :: rest := hq
  have line : ∀ k, { s with wrapper := { s.wrapper with queue := rest } }.line [event] k =
      s.line [] k := by
    intro k
    rw [MetadataSite.line, MetadataSite.line, sources]
    rfl
  have news : { s with wrapper := { s.wrapper with queue := rest } }.news name [event] =
      s.news name [] := by
    rw [MetadataSite.news, MetadataSite.news, sources]
    rfl
  refine h.requeue rfl news fun bound k => ?_
  have site := h.lines bound k
  refine ⟨?_, ?_, site.requested, ?_, ?_, site.completed⟩ <;> rw [line]
  · exact site.object
  · exact site.copied
  · exact site.unanswered
  · exact site.marked

/-- The completion of a roundtrip is dispatched. -/
def MetadataSite.complete (s : MetadataSite) (slot : Nat) (rest : List MetadataSource) :
    MetadataSite :=
  { s with
    wrapper := { s.wrapper with queue := rest, completed := slot :: s.wrapper.completed }
    later := Function.update s.later slot [] }

theorem BoundSite.complete (h : BoundSite s [] slot) {k : Nat} {rest : List MetadataSource}
    (hq : s.wrapper.queue = .completion k :: rest) : BoundSite (s.complete k rest) [] slot := by
  have line : s.line [] slot =
      (if k = slot then [.mark] else []) ++ (s.complete k rest).line [] slot := by
    have sources : s.sources [] = .completion k :: rest := hq
    rw [MetadataSite.line, MetadataSite.line, sources, ← List.append_assoc]
    congr 1
    rw [List.filterMap_cons]
    by_cases hk : k = slot <;> simp only [MetadataSource.item, hk, if_true, if_false] <;> rfl
  by_cases hk : k = slot
  · subst hk
    rw [if_pos rfl] at line
    have stays : .removed s.wrapper.metadataId ∈ s.line [] k →
        .removed s.wrapper.metadataId ∈ (s.complete k rest).line [] k := by
      intro hr
      rw [line] at hr
      exact (List.mem_cons.mp hr).resolve_left (by simp)
    have changes : lineChanges (s.line [] k) = lineChanges ((s.complete k rest).line [] k) := by
      rw [line]
      rfl
    exact {
      object := h.object.imp_left stays
      copied := by
        rw [← changes]
        exact h.copied
      requested := h.requested
      unanswered := fun current earlier later ho =>
        absurd (by rw [line]; simp) (h.unanswered current earlier later ho).2.1
      marked := fun current before after hl => by
        refine (h.marked current (.mark :: before) after (by rw [line, hl]; rfl)).imp_left ?_
        intro hr
        exact (List.mem_cons.mp hr).resolve_left (by simp)
      completed := fun current _ => by
        have answered := (h.marked current [] _ line).resolve_left (by simp)
        show PartialCopy ((s.answered k).after (Function.update s.later k [] k)) s.view
        rw [Function.update_self]
        exact answered }
  · rw [if_neg hk, List.nil_append] at line
    have other : slot ≠ k := fun he => hk he.symm
    have completed : slot ∈ (s.complete k rest).wrapper.completed ↔ slot ∈ s.wrapper.completed := by
      simp [MetadataSite.complete, other]
    have later : (s.complete k rest).later slot = s.later slot := Function.update_of_ne other ..
    refine ⟨?_, ?_, h.requested, ?_, ?_, ?_⟩
    · rw [← line]
      exact h.object
    · rw [← line]
      exact h.copied
    · rw [← line, completed]
      exact h.unanswered
    · rw [← line]
      exact h.marked
    · rw [completed, later]
      exact h.completed

theorem SiteState.complete (h : SiteState name s []) {k : Nat} {rest : List MetadataSource}
    (hq : s.wrapper.queue = .completion k :: rest) : SiteState name (s.complete k rest) [] := by
  have news : (s.complete k rest).news name [] = s.news name [] := by
    have sources : s.sources [] = .completion k :: rest := hq
    rw [MetadataSite.news, MetadataSite.news, sources]
    rfl
  exact h.requeue rfl news fun bound slot => (h.lines bound slot).complete hq

theorem SiteState.set (h : SiteState name s ahead) (proxy : Nat) (change : MetadataChange) :
    SiteState name { s with outbox := s.outbox ++ [.set proxy change] } ahead :=
  { h with
    outbox := (KnownStays.unchanged rfl rfl rfl rfl rfl).send h.outbox trivial
    inbox := fun message hm => (h.inbox message hm).stays (.unchanged rfl rfl rfl rfl rfl)
    lines := fun bound slot => by
      have site := h.lines bound slot
      refine ⟨?_, ?_, site.requested, ?_, site.marked, site.completed⟩
      · refine site.object.imp_right fun ho => ⟨ho.1, ho.2.imp_left fun waits => ?_⟩
        exact List.mem_append_left _ waits
      · exact fun known uncleared => site.copied known fun hc =>
          uncleared (List.mem_append_left _ hc)
      · intro current earlier later ho
        rcases split_append ho with ⟨middle, hs, rfl⟩ | ⟨middle, -, hm⟩
        · obtain ⟨⟨unbound, uncleared, once⟩, others⟩ := site.unanswered current earlier middle hs
          refine ⟨⟨fun id => ?_, ?_, ?_⟩, others⟩
          · simpa using unbound id
          · simpa using uncleared
          · simpa using once
        · cases middle with
          | nil => cases (List.cons.inj hm).1
          | cons r middle => simp at hm }

/-- The wrapper clears the object, and its cache. -/
theorem SiteState.clearCache (h : SiteState name s ahead) :
    SiteState name { s with
      wrapper := { s.wrapper with entries := ∅ }
      outbox := s.outbox ++ [.clear s.wrapper.proxies]
      epoch := s.epoch + 1 } ahead := by
  have fresh : ∀ slot, s.entered slot ≠ s.epoch + 1 := fun slot he => by
    have := h.entered slot
    omega
  exact { h with
    filed := filed_empty
    outbox := (KnownStays.unchanged rfl rfl rfl rfl rfl).send h.outbox (Nat.le_refl _)
    inbox := fun message hm => (h.inbox message hm).stays (.unchanged rfl rfl rfl rfl rfl)
    entered := fun slot => Nat.le_succ_of_le (h.entered slot)
    lines := fun bound slot => {
      object := by
        refine (h.lines bound slot).object.imp_right fun ho => ⟨ho.1, ho.2.imp_left fun waits => ?_⟩
        exact List.mem_append_left _ waits
      copied := fun _ uncleared => absurd (by simp) uncleared
      requested := fun current => absurd current (fresh slot)
      unanswered := fun current => absurd current (fresh slot)
      marked := fun current => absurd current (fresh slot)
      completed := fun current => absurd current (fresh slot) } }

end PipewireGobject
