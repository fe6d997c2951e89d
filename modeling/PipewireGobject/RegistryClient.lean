import PipewireGobject.RegistryLine

namespace PipewireGobject

open RegistrySite

variable {s t : RegistrySite} {ahead : List RegistryEvent} {event : RegistryEvent}
variable {callback : RegistryCallback} {slot seq : Nat}

/-- A message is taken out of the wire, and leaves sources behind. -/
def RegistrySite.pull (s : RegistrySite) (inbox : List RegistryMessage)
    (queued : List RegistryChange) (sources : List RegistrySource) (done : List Nat) :
    RegistrySite :=
  { s with
    session := { s.session with queued := queued }
    sources := s.sources ++ sources
    inbox := inbox
    done := done }

/-- What the line loses or gets by that are marks of a roundtrip that has been answered. -/
theorem RegistrySiteState.pull {message : RegistryMessage} {rest : List RegistryMessage}
    {sources : List RegistrySource} {queued : List RegistryChange} {done : List Nat}
    (h : RegistrySiteState s ahead) (first : s.inbox = message :: rest)
    (frames : ∀ slot ∈ sources.filterMap RegistrySource.frame,
      message.answers = some (s.requested slot))
    (line : s.session.registry.running = true → ∀ before after source,
      Mirrors viewChange s.snapshot s.taken (before ++ (s.passMessage message).toList ++ after)
        source →
      Mirrors viewChange s.snapshot s.taken (before ++ sources.filterMap s.passSource ++ after)
        source) :
    RegistrySiteState (s.pull rest queued sources done) ahead := by
  have answered : ∀ k ∈ (s.pull rest queued sources done).answered, k ∈ s.answered := by
    intro k hk
    simp only [RegistrySite.answered, RegistrySite.pull, List.filterMap_append, List.map_append,
      List.mem_append, first] at hk ⊢
    rcases hk with (hk | hk) | hk | hk
    · exact .inl hk
    · obtain ⟨slot, hs, rfl⟩ := List.mem_map.mp hk
      refine .inr (.inl ?_)
      rw [List.filterMap_cons_some (frames slot hs)]
      exact List.mem_cons_self
    · refine .inr (.inl ?_)
      obtain ⟨m, hm, ha⟩ := List.mem_filterMap.mp hk
      exact List.mem_filterMap.mpr ⟨m, List.mem_cons_of_mem _ hm, ha⟩
    · exact .inr (.inr hk)
  refine ⟨?_, fun running => ?_⟩
  · exact {
      connected := h.requests.connected
      once := h.requests.once
      asked := h.requests.asked
      messages := fun r callback hm =>
        h.requests.messages r callback (first ▸ List.mem_cons_of_mem _ hm)
      syncs := h.requests.syncs
      unanswered := fun k hk => by
        obtain ⟨small, before⟩ := h.requests.unanswered k hk
        exact ⟨small, fun ha => before (answered k ha)⟩
      answered := fun k hk => h.requests.answered k (answered k hk)
      listeners := h.requests.listeners }
  · have mirrored := h.mirrored running
    exact {
      hasRegistry := mirrored.hasRegistry
      asked := mirrored.asked
      served := mirrored.served
      mirrors := by
        have mirrors := mirrored.mirrors
        have split : s.inbox.filterMap s.passMessage =
            (s.passMessage message).toList ++ rest.filterMap s.passMessage := by
          rw [first]
          cases passes : s.passMessage message with
          | none => exact List.filterMap_cons_none passes
          | some p => exact List.filterMap_cons_some passes
        rw [RegistrySite.line, split, ← List.append_assoc, ← List.append_assoc] at mirrors
        have moved := line running _ _ _ mirrors
        rw [List.append_assoc, List.append_assoc] at moved
        rw [RegistrySite.line, RegistrySite.pull, List.filterMap_append, List.append_assoc]
        exact moved
      completed := mirrored.completed }

theorem RegistrySiteState.receive {message : RegistryMessage} {rest : List RegistryMessage}
    (h : RegistrySiteState s ahead) (first : s.inbox = message :: rest) :
    RegistrySiteState ({ s with inbox := rest }.receive message) ahead := by
  cases message with
  | registry registry callback =>
    simp only [RegistrySite.receive]
    split
    next own =>
      refine h.pull first (by simp [RegistrySource.frame]) fun _ before after source hm => ?_
      have event : s.passSource (.event (registryQueueEvent (registryCallback callback)
          s.session.registry)) = some (.change (registryCallback callback)) := if_pos rfl
      have message : s.passMessage (.registry registry callback) =
          some (.change (registryCallback callback)) := if_pos own.2
      rw [message] at hm
      rw [List.filterMap_cons_some event]
      exact hm
    next other =>
      have whole : RegistrySiteState (s.pull rest s.session.queued [] s.done) ahead := by
        refine h.pull first (by simp) fun running before after source hm => ?_
        have stale : registry ≠ s.registry := fun own =>
          other ⟨(h.mirrored running).hasRegistry, own⟩
        have message : s.passMessage (.registry registry callback) = none := if_neg stale
        rw [message] at hm
        exact hm
      rw [RegistrySite.pull, List.append_nil] at whole
      exact whole
  | done seq =>
    have frames : ∀ slot ∈ (s.listeners.filter fun listener => listener.2 = seq).map Prod.fst,
        seq = s.requested slot := by
      intro slot hs
      obtain ⟨listener, hl, rfl⟩ := List.mem_map.mp hs
      obtain ⟨hl, own⟩ := List.mem_filter.mp hl
      have own : listener.2 = seq := by simpa using own
      exact own.symm.trans (h.requests.listeners listener hl)
    let slots := (s.listeners.filter fun listener => listener.2 = seq).map Prod.fst
    have whole : RegistrySiteState (s.pull rest s.session.queued (slots.map .completion)
        (s.done ++ slots)) ahead := by
      refine h.pull first (fun slot hs => ?_) fun _ before after source hm => ?_
      · obtain ⟨completion, hc, he⟩ := List.mem_filterMap.mp hs
        obtain ⟨slot', hs', rfl⟩ := List.mem_map.mp hc
        cases he
        exact congrArg some (frames slot hs')
      · have passes : ∀ completion ∈ slots.map RegistrySource.completion,
            s.passSource completion = s.passMark seq := by
          intro completion hc
          obtain ⟨slot, hs, rfl⟩ := List.mem_map.mp hc
          exact congrArg s.passMark (frames slot hs).symm
        rw [List.filterMap_congr passes]
        have message : s.passMessage (.done seq) = s.passMark seq := rfl
        rw [message] at hm
        cases mark : s.passMark seq with
        | none =>
          rw [mark] at hm
          rw [List.filterMap_eq_nil_iff.mpr fun _ _ => rfl]
          exact hm
        | some p =>
          rw [mark, passMark_mark mark, Option.toList_some, List.append_assoc] at hm
          refine hm.remark fun q hq => ?_
          obtain ⟨-, -, he⟩ := List.mem_filterMap.mp hq
          cases he
          exact passMark_mark mark
    exact whole

/-- The main context dispatches an event. -/
theorem RegistrySiteState.iterate {rest : List RegistrySource} (h : RegistrySiteState s [])
    (first : s.sources = .event event :: rest) :
    RegistrySiteState { s with sources := rest } [event] := by
  have answered : ({ s with sources := rest } : RegistrySite).answered = s.answered := by
    simp only [RegistrySite.answered, first]
    rfl
  refine ⟨?_, fun running => ?_⟩
  · exact { h.requests with
      unanswered := answered ▸ h.requests.unanswered
      answered := answered ▸ h.requests.answered }
  · have mirrored := h.mirrored running
    have line : ({ s with sources := rest } : RegistrySite).line [event] = s.line [] := by
      have split : s.sources.filterMap s.passSource =
          [event].filterMap s.passEvent ++ rest.filterMap s.passSource := by
        rw [first]
        have same : s.passSource (.event event) = s.passEvent event := rfl
        cases passes : s.passEvent event with
        | none =>
          rw [List.filterMap_cons_none passes, List.filterMap_cons_none (same.trans passes)]
          rfl
        | some p =>
          rw [List.filterMap_cons_some passes, List.filterMap_cons_some (same.trans passes)]
          rfl
      rw [RegistrySite.line, RegistrySite.line, split, List.append_assoc]
      rfl
    exact { mirrored with
      mirrors := by
        rw [line]
        exact mirrored.mirrors }

/-- The main context dispatches the completion of a roundtrip. -/
theorem RegistrySiteState.complete {rest : List RegistrySource} (h : RegistrySiteState s [])
    (first : s.sources = .completion slot :: rest) :
    RegistrySiteState { s with
      sources := rest
      completed := slot :: s.completed
      later := fun k => if k = slot then [] else s.later k } [] := by
  have answered : ∀ k, k ∈ ({ s with
      sources := rest
      completed := slot :: s.completed } : RegistrySite).answered ↔ k ∈ s.answered := by
    intro k
    have split : s.sources.filterMap RegistrySource.frame =
        slot :: rest.filterMap RegistrySource.frame := by
      rw [first]
      rfl
    simp only [RegistrySite.answered, split, List.map_cons, List.mem_append, List.mem_cons]
    constructor
    · rintro (hk | hk | hk | hk)
      · exact .inl (.inr hk)
      · exact .inr (.inl hk)
      · exact .inl (.inl hk)
      · exact .inr (.inr hk)
    · rintro ((hk | hk) | hk | hk)
      · exact .inr (.inr (.inl hk))
      · exact .inl hk
      · exact .inr (.inl hk)
      · exact .inr (.inr (.inr hk))
  refine ⟨?_, fun running => ?_⟩
  · exact { h.requests with
      unanswered := fun k hk => by
        obtain ⟨small, before⟩ := h.requests.unanswered k hk
        exact ⟨small, fun ha => before ((answered k).mp ha)⟩
      answered := fun k hk => h.requests.answered k ((answered k).mp hk) }
  · have mirrored := h.mirrored running
    have mirrors := mirrored.mirrors
    have split : s.line [] = (s.passMark (s.requested slot)).toList ++
        ({ s with sources := rest } : RegistrySite).line [] := by
      have same : s.passSource (.completion slot) = s.passMark (s.requested slot) := rfl
      rw [RegistrySite.line, first]
      cases passes : s.passMark (s.requested slot) with
      | none =>
        rw [List.filterMap_cons_none (same.trans passes)]
        rfl
      | some p =>
        rw [List.filterMap_cons_some (same.trans passes)]
        rfl
    rw [split] at mirrors
    exact { mirrored with
      mirrors := by
        cases mark : s.passMark (s.requested slot) with
        | none =>
          rw [mark] at mirrors
          exact mirrors
        | some p =>
          rw [mark, passMark_mark mark] at mirrors
          exact mirrors.pass.2
      completed := fun k hk session => by
        by_cases own : k = slot
        · subst own
          rw [show s.passMark (s.requested k) = some (.mark (s.requested k)) from if_pos session]
            at mirrors
          have later : (if k = k then [] else s.later k) = [] := if_pos rfl
          exact mirrors.pass.1.trans (congrArg (List.foldl viewChange _) later.symm)
        · have later : (if k = slot then [] else s.later k) = s.later k := if_neg own
          have hk := (List.mem_cons.mp hk).resolve_left own
          exact (mirrored.completed k hk session).trans
            (congrArg (List.foldl viewChange _) later.symm) }

/-- Only the session changes, and not in what its line depends on. -/
theorem RegistrySiteState.withSession {session : RegistrySession} (h : RegistrySiteState s ahead)
    (connected : session.connected = s.session.connected)
    (kept : session.registry.running = true →
      s.session.registry.running = true ∧ session.hasRegistry = s.session.hasRegistry ∧
        session.registry.generation = s.session.registry.generation ∧
        session.dispatched = s.session.dispatched) :
    RegistrySiteState { s with session := session } ahead := by
  refine ⟨{ h.requests with connected := connected.trans h.requests.connected },
    fun running => ?_⟩
  obtain ⟨before, hasRegistry, generation, dispatched⟩ := kept running
  have mirrored := h.mirrored before
  have line : ({ s with session := session } : RegistrySite).line ahead = s.line ahead := by
    have events : ({ s with session := session } : RegistrySite).passEvent = s.passEvent := by
      funext event
      simp only [passEvent, generation]
    have sources : ({ s with session := session } : RegistrySite).passSource = s.passSource := by
      funext source
      cases source with
      | event event => exact congrFun events event
      | completion slot => rfl
    rw [RegistrySite.line, events, sources]
    rfl
  have taken : ({ s with session := session } : RegistrySite).taken = s.taken := by
    simp only [RegistrySite.taken, dispatched]
  exact {
    hasRegistry := hasRegistry.trans mirrored.hasRegistry
    asked := mirrored.asked
    served := mirrored.served
    mirrors := by
      rw [line, taken]
      exact mirrored.mirrors
    completed := by
      rw [taken]
      exact mirrored.completed }

theorem registryDispatch_fixed (event : RegistryEvent) (s : RegistrySession) :
    (registryDispatch event s).1.connected = s.connected ∧
      (registryDispatch event s).1.hasRegistry = s.hasRegistry := by
  unfold registryDispatch
  split
  next => exact ⟨rfl, rfl⟩
  next =>
    split <;> split <;> exact ⟨rfl, rfl⟩

/-- An event is dispatched: if it is not stale, the list takes its change. -/
theorem RegistrySiteState.dispatch (h : RegistrySiteState s [event]) :
    RegistrySiteState (s.dispatch event).1 [] := by
  obtain ⟨connected, hasRegistry⟩ := registryDispatch_fixed event s.session
  obtain ⟨runs, generation⟩ := registryDispatch_session event s.session
  refine ⟨{ h.requests with connected := connected.trans h.requests.connected },
    fun running => ?_⟩
  have before : s.session.registry.running = true := runs.symm.trans running
  have mirrored := h.mirrored before
  have mirrors := mirrored.mirrors
  have line : (s.dispatch event).1.line [] = s.line [] := by
    have events : (s.dispatch event).1.passEvent = s.passEvent := by
      funext event
      exact if_congr (by rw [← generation]; rfl) rfl rfl
    have sources : (s.dispatch event).1.passSource = s.passSource := by
      funext source
      cases source with
      | event event => exact congrFun events event
      | completion slot => rfl
    rw [RegistrySite.line, events, sources]
    rfl
  by_cases current : event.generation = s.session.registry.generation
  · obtain ⟨-, -, dispatched⟩ := registryDispatch_live before current
    have taken : (s.dispatch event).1.taken = viewChange s.taken event.change := by
      rw [RegistrySite.taken, RegistrySite.taken, ← lookup_globalsAfter_concat, ← dispatched]
      rfl
    have takes : s.takes event = [event.change] := if_neg (by simp [before, current])
    have split : s.line [event] = .change event.change :: s.line [] := by
      have passes : s.passEvent event = some (.change event.change) := if_pos current
      rw [RegistrySite.line, List.filterMap_cons_some passes]
      rfl
    rw [split] at mirrors
    exact {
      hasRegistry := hasRegistry.trans mirrored.hasRegistry
      asked := mirrored.asked
      served := mirrored.served
      mirrors := by
        rw [line, taken]
        exact mirrors.take
      completed := fun slot hs session => by
        have later : (s.dispatch event).1.later slot = s.later slot ++ [event.change] :=
          congrArg _ takes
        rw [taken, later, List.foldl_append, mirrored.completed slot hs session]
        rfl }
  · have stale : s.session.registry.running = false ∨
        event.generation ≠ s.session.registry.generation := .inr current
    have session : (s.dispatch event).1.session = s.session :=
      congrArg Prod.fst (registryDispatch_stale stale)
    have takes : s.takes event = [] := if_pos stale
    have split : s.line [event] = s.line [] := by
      have passes : s.passEvent event = none := if_neg current
      rw [RegistrySite.line, List.filterMap_cons_none passes]
      rfl
    have taken : (s.dispatch event).1.taken = s.taken := by
      rw [RegistrySite.taken, session]
      rfl
    rw [split] at mirrors
    exact {
      hasRegistry := hasRegistry.trans mirrored.hasRegistry
      asked := mirrored.asked
      served := mirrored.served
      mirrors := by
        rw [line, taken]
        exact mirrors
      completed := fun slot hs session => by
        have later : (s.dispatch event).1.later slot = s.later slot ++ [] := congrArg _ takes
        rw [taken, later, List.append_nil]
        exact mirrored.completed slot hs session }

/-- A registry that is stopped is started, or stays as it is. -/
theorem registryStart_cases (result : PipewireResult) (sync : Bool) (s : RegistrySession) :
    (s.connected = true ∧ result ≠ .getRegistryFailed ∧
        (registryStart result sync s).1 = { s with
          hasRegistry := true
          registry := { s.registry with generation := s.registry.generation + 1, running := true }
          queued := []
          dispatched := [] }) ∨
      ¬ (s.connected = true ∧ result ≠ .getRegistryFailed) ∧
        (registryStart result sync s).1.registry = s.registry ∧
        (registryStart result sync s).1.connected = s.connected := by
  unfold registryStart
  split
  next off => exact .inr ⟨by simp [off], rfl, rfl⟩
  next on =>
    have on : s.connected = true := by simpa using on
    split
    next => exact .inr ⟨by simp, rfl, rfl⟩
    next other => exact .inl ⟨on, other, rfl⟩

/-- A session begins, and its registry is requested. -/
def RegistrySite.opened (s : RegistrySite) : RegistrySite :=
  { s with
    session := { s.session with
      hasRegistry := true
      registry := { s.session.registry with
        generation := s.session.registry.generation + 1, running := true }
      queued := []
      dispatched := [] }
    registry := s.registry + 1
    outbox := s.outbox ++ [.getRegistry (s.registry + 1)]
    since := s.seq }

/-- Nothing is on its way in a session that begins. -/
theorem RegistrySiteState.startProxies {result : PipewireResult} {sync : Bool}
    (h : RegistrySiteState s []) (stopped : s.session.registry.running = false)
    (new : s.NewGeneration) : RegistrySiteState (s.startProxies result sync).1 [] := by
  simp only [RegistrySite.startProxies]
  rcases registryStart_cases result sync s.session with ⟨on, works, session⟩ |
    ⟨fails, registry, connected⟩
  · rw [if_pos ⟨on, works⟩, session]
    have unasked : s.registry + 1 ∉ s.asked := by
      intro hm
      have := h.requests.asked _ hm
      omega
    have split : s.registries ++ (s.outbox ++ [RegistryRequest.getRegistry
        (s.registry + 1)]).filterMap RegistryRequest.asks = s.asked ++ [s.registry + 1] := by
      rw [List.filterMap_append, ← List.append_assoc]
      rfl
    have syncs : (s.outbox ++ [RegistryRequest.getRegistry (s.registry + 1)]).filterMap
        RegistryRequest.syncs = s.outbox.filterMap RegistryRequest.syncs := by
      rw [List.filterMap_append]
      exact List.append_nil _
    have unsent : ∀ k, .sync k ∈ s.outbox ++ [RegistryRequest.getRegistry (s.registry + 1)] →
        .sync k ∈ s.outbox := by
      intro k hk
      rcases List.mem_append.mp hk with hk | hk
      · exact hk
      · cases List.mem_singleton.mp hk
    refine ⟨?_, fun _ => ?_⟩
    · exact {
        connected := h.requests.connected
        once := by
          unfold RegistrySite.asked
          rw [split]
          refine List.nodup_append.mpr ⟨h.requests.once, List.nodup_singleton _, ?_⟩
          intro k hk _ own
          rw [List.mem_singleton.mp own]
          rintro rfl
          exact unasked hk
        asked := fun registry hr => by
          unfold RegistrySite.asked at hr
          rw [split] at hr
          rcases List.mem_append.mp hr with hr | hr
          · exact Nat.le_succ_of_le (h.requests.asked registry hr)
          · exact Nat.le_of_eq (List.mem_singleton.mp hr)
        messages := fun r callback hm => Nat.le_succ_of_le (h.requests.messages r callback hm)
        syncs := by
          rw [syncs]
          exact h.requests.syncs
        unanswered := fun k hk => h.requests.unanswered k (unsent k hk)
        answered := h.requests.answered
        listeners := h.requests.listeners }
    · have untold : s.registry + 1 ∉ s.registries := fun hm =>
        unasked (List.mem_append_left _ hm)
      exact {
        hasRegistry := rfl
        asked := by
          unfold RegistrySite.asked
          rw [split]
          exact List.mem_append_right _ List.mem_cons_self
        served := by
          refine List.pairwise_of_forall_mem_list fun a ha b _ => ?_
          cases a with
          | getRegistry registry => trivial
          | sync k =>
            cases b with
            | getRegistry registry =>
              intro session
              exact absurd session (Nat.not_le_of_lt (h.requests.unanswered k (unsent k ha)).1)
            | sync k' => trivial
        mirrors := by
          have old (m : Nat) (hm : m ∈ s.answered) : ¬ s.seq ≤ m :=
            Nat.not_le_of_lt (h.requests.answered m hm)
          have sources : s.sources.filterMap (s.opened).passSource = [] := by
            rw [List.filterMap_eq_nil_iff]
            intro source hs
            cases source with
            | event event => exact if_neg (new event (List.mem_filterMap.mpr ⟨_, hs, rfl⟩))
            | completion k =>
              refine if_neg (old _ (List.mem_append_left _ (List.mem_map_of_mem ?_)))
              exact List.mem_filterMap.mpr ⟨_, hs, rfl⟩
          have inbox : s.inbox.filterMap (s.opened).passMessage = [] := by
            rw [List.filterMap_eq_nil_iff]
            intro message hm
            cases message with
            | registry registry callback =>
              have known := h.requests.messages registry callback hm
              exact if_neg (Nat.ne_of_lt (Nat.lt_succ_of_le known))
            | done k =>
              refine if_neg (old k (List.mem_append_right _ (List.mem_append_left _ ?_)))
              exact List.mem_filterMap.mpr ⟨_, hm, rfl⟩
          have line : (s.opened).line [] = [] := by
            rw [RegistrySite.line]
            exact congrArg₂ (· ++ ·) sources inbox
          have told : (s.opened).told = (s.opened).taken := if_neg untold
          have mirrors : Mirrors viewChange s.snapshot (s.opened).taken ((s.opened).line [])
              (s.opened).told := by
            rw [line, told]
            exact .agree _
          exact mirrors
        completed := fun k hk session =>
          absurd session (Nat.not_le_of_lt (h.requests.answered _ (completed_answered hk))) }
  · rw [if_neg fails]
    refine h.withSession connected fun running => ?_
    rw [registry, stopped] at running
    cases running

def RegistrySite.request (s : RegistrySite) (slot : Nat) : RegistrySite :=
  { s with
    completed := s.completed.filter fun k => k ≠ slot
    seq := s.seq + 1
    requested := fun k => if k = slot then s.seq else s.requested k
    listeners := s.listeners ++ [(slot, s.seq)]
    done := s.done.filter fun k => k ≠ slot
    outbox := s.outbox ++ [.sync s.seq] }

/-- A roundtrip is requested, with its data in a frame that nothing points to. -/
theorem RegistrySiteState.syncEnter {failed : Bool} (h : RegistrySiteState s ahead)
    (free : s.FreeFrame slot) : RegistrySiteState (s.syncEnter slot failed).1 ahead := by
  unfold RegistrySite.syncEnter
  split
  next => exact h
  next =>
    have kept : ∀ k, k ≠ slot → (if k = slot then s.seq else s.requested k) = s.requested k :=
      fun k hk => if_neg hk
    have queued : ∀ k ∈ s.sources.filterMap RegistrySource.frame, k ≠ slot := by
      intro k hk
      obtain ⟨source, hs, hf⟩ := List.mem_filterMap.mp hk
      cases source with
      | event event => cases hf
      | completion k' =>
        cases hf
        rintro rfl
        exact free.2 hs
    have completed : ∀ k ∈ s.completed.filter fun k => k ≠ slot, k ∈ s.completed ∧ k ≠ slot := by
      intro k hk
      simpa using hk
    have answered : ∀ m ∈ (s.request slot).answered, m ∈ s.answered := by
      intro m hm
      simp only [RegistrySite.answered, RegistrySite.request, List.mem_append] at hm ⊢
      rcases hm with hm | hm | hm
      · obtain ⟨k, hk, rfl⟩ := List.mem_map.mp hm
        rw [kept k (queued k hk)]
        exact .inl (List.mem_map_of_mem hk)
      · exact .inr (.inl hm)
      · obtain ⟨k, hk, rfl⟩ := List.mem_map.mp hm
        obtain ⟨hk, other⟩ := completed k hk
        rw [kept k other]
        exact .inr (.inr (List.mem_map_of_mem hk))
    have asked : (s.request slot).asked = s.asked := by
      have split : (s.outbox ++ [RegistryRequest.sync s.seq]).filterMap RegistryRequest.asks =
          s.outbox.filterMap RegistryRequest.asks := by
        rw [List.filterMap_append]
        exact List.append_nil _
      exact congrArg (s.registries ++ ·) split
    have line : (s.request slot).line ahead = s.line ahead := by
      have sources : s.sources.filterMap (s.request slot).passSource =
          s.sources.filterMap s.passSource := by
        refine List.filterMap_congr fun source hs => ?_
        cases source with
        | event event => rfl
        | completion k =>
          have other := kept k (queued k (List.mem_filterMap.mpr ⟨_, hs, rfl⟩))
          exact congrArg s.passMark other
      exact congrArg (fun passages => _ ++ (passages ++ _)) sources
    have whole : RegistrySiteState (s.request slot) ahead := by
      refine ⟨?_, fun running => ?_⟩
      · exact {
          connected := h.requests.connected
          once := asked ▸ h.requests.once
          asked := asked ▸ h.requests.asked
          messages := h.requests.messages
          syncs := by
            have split : (s.outbox ++ [RegistryRequest.sync s.seq]).filterMap
                RegistryRequest.syncs = s.outbox.filterMap RegistryRequest.syncs ++ [s.seq] :=
              List.filterMap_append
            refine (congrArg List.Nodup split).mpr (List.nodup_append.mpr
              ⟨h.requests.syncs, List.nodup_singleton _, fun k hk k' hk' => ?_⟩)
            obtain ⟨request, hr, he⟩ := List.mem_filterMap.mp hk
            cases request with
            | getRegistry registry => cases he
            | sync k =>
              cases he
              rw [List.mem_singleton.mp hk']
              exact Nat.ne_of_lt (h.requests.unanswered k hr).1
          unanswered := fun k hk => by
            rcases List.mem_append.mp hk with hk | hk
            · obtain ⟨small, before⟩ := h.requests.unanswered k hk
              exact ⟨Nat.lt_succ_of_lt small, fun ha => before (answered k ha)⟩
            · cases List.mem_singleton.mp hk
              refine ⟨Nat.lt_succ_self _, fun ha => ?_⟩
              exact Nat.lt_irrefl _ (h.requests.answered _ (answered _ ha))
          answered := fun k hk => Nat.lt_succ_of_lt (h.requests.answered k (answered k hk))
          listeners := fun listener hl => by
            rcases List.mem_append.mp hl with hl | hl
            · exact (h.requests.listeners listener hl).trans (kept _ (free.1 listener hl)).symm
            · cases List.mem_singleton.mp hl
              exact (if_pos rfl).symm }
      · have mirrored := h.mirrored running
        exact {
          hasRegistry := mirrored.hasRegistry
          asked := asked ▸ mirrored.asked
          served := by
            refine List.pairwise_append.mpr ⟨mirrored.served, List.pairwise_singleton .., ?_⟩
            intro a _ b hb
            rw [List.mem_singleton.mp hb]
            cases a <;> trivial
          mirrors := by
            rw [line]
            exact mirrored.mirrors
          completed := fun k hk session => by
            obtain ⟨hk, other⟩ := completed k hk
            have same : (s.request slot).requested k = s.requested k := kept k other
            rw [same] at session ⊢
            exact mirrored.completed k hk session }
    exact whole

theorem RegistrySiteState.syncWait {failed : Bool} (h : RegistrySiteState s ahead) :
    RegistrySiteState (s.syncWait slot failed).1 ahead := by
  have unlisten : RegistrySiteState { s with
      listeners := s.listeners.filter fun listener => listener.1 ≠ slot } ahead := by
    refine ⟨?_, fun running => ?_⟩
    · exact { h.requests with
        listeners := fun listener hl => h.requests.listeners listener (List.mem_filter.mp hl).1 }
    · exact { h.mirrored running with }
  unfold RegistrySite.syncWait
  split
  next => exact unlisten
  next =>
    split
    next => exact unlisten
    next => exact h

end PipewireGobject
