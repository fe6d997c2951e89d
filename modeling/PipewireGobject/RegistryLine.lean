import PipewireGobject.Mirror
import PipewireGobject.RegistrySite

namespace PipewireGobject

/-- What a change makes of the globals by id. -/
def viewChange (view : UInt32 → Option Global) (change : RegistryChange) (id : UInt32) :
    Option Global :=
  if id = change.id then change.leaves else view id

theorem lookup_globalsAfter_concat (changes : List RegistryChange) (change : RegistryChange) :
    registryLookupGlobal (globalsAfter (changes ++ [change])) =
      viewChange (registryLookupGlobal (globalsAfter changes)) change := by
  rw [globalsAfter_concat]
  exact funext (registryLookupGlobal_change _ change)

/-- A new registry is told of every global. -/
theorem announce_view (items : List (Sigma fun _ : UInt32 => ServerGlobal))
    (nodup : items.NodupKeys) (view : UInt32 → Option Global) (id : UInt32) :
    (items.map fun item => registryCallback (item.2.announce item.1)).foldl viewChange view id =
      ((items.dlookup id).map (ServerGlobal.described id)).or (view id) := by
  induction items generalizing view with
  | nil => rfl
  | cons item items ih =>
    obtain ⟨k, global⟩ := item
    obtain ⟨fresh, nodup⟩ := List.nodupKeys_cons.mp nodup
    rw [List.map_cons, List.foldl_cons]
    refine (ih nodup _).trans ?_
    by_cases hi : id = k
    · subst hi
      rw [List.dlookup_eq_none.mpr fresh, List.dlookup_cons_eq]
      exact if_pos rfl
    · rw [List.dlookup_cons_ne _ _ hi]
      exact congrArg _ (if_neg hi)

def RegistryRequest.asks : RegistryRequest → Option Nat
  | .getRegistry registry => some registry
  | .sync _ => none

def RegistryRequest.syncs : RegistryRequest → Option Nat
  | .getRegistry _ => none
  | .sync seq => some seq

def RegistryMessage.answers : RegistryMessage → Option Nat
  | .registry _ _ => none
  | .done seq => some seq

def RegistrySource.frame : RegistrySource → Option Nat
  | .event _ => none
  | .completion slot => some slot

namespace RegistrySite

/-- An event that is not stale is on its way to the list. -/
def passEvent (s : RegistrySite) (event : RegistryEvent) : Option (Passage RegistryChange Nat) :=
  if event.generation = s.session.registry.generation then some (.change event.change) else none

/-- A roundtrip of the session that runs is a mark. -/
def passMark (s : RegistrySite) (seq : Nat) : Option (Passage RegistryChange Nat) :=
  if s.since ≤ seq then some (.mark seq) else none

def passSource (s : RegistrySite) : RegistrySource → Option (Passage RegistryChange Nat)
  | .event event => s.passEvent event
  | .completion slot => s.passMark (s.requested slot)

def passMessage (s : RegistrySite) : RegistryMessage → Option (Passage RegistryChange Nat)
  | .registry registry callback =>
    if registry = s.registry then some (.change (registryCallback callback)) else none
  | .done seq => s.passMark seq

/-- What is on its way from the server to the list. The events `ahead` are dispatched next. -/
def line (s : RegistrySite) (ahead : List RegistryEvent) : List (Passage RegistryChange Nat) :=
  ahead.filterMap s.passEvent ++ (s.sources.filterMap s.passSource ++
    s.inbox.filterMap s.passMessage)

/-- What the server has told the registry of the session. -/
def told (s : RegistrySite) : UInt32 → Option Global :=
  if s.registry ∈ s.registries then s.view else fun _ => none

/-- What the changes dispatched in the session make up. -/
def taken (s : RegistrySite) : UInt32 → Option Global :=
  registryLookupGlobal (globalsAfter s.session.dispatched)

def asked (s : RegistrySite) : List Nat :=
  s.registries ++ s.outbox.filterMap RegistryRequest.asks

/-- The roundtrips that the server has answered. -/
def answered (s : RegistrySite) : List Nat :=
  (s.sources.filterMap RegistrySource.frame).map s.requested ++
    (s.inbox.filterMap RegistryMessage.answers ++ s.completed.map s.requested)

end RegistrySite

open RegistrySite

/-- No roundtrip of the session that runs is requested before its registry. -/
def RegistrySite.Precedes (s : RegistrySite) : RegistryRequest → RegistryRequest → Prop
  | .sync seq, .getRegistry registry => s.since ≤ seq → registry ≠ s.registry
  | _, _ => True

/-- Each registry is asked for once, and each roundtrip answered once. -/
structure RegistrySiteRequests (s : RegistrySite) : Prop where
  connected : s.session.connected = true
  once : s.asked.Nodup
  asked : ∀ registry ∈ s.asked, registry ≤ s.registry
  messages : ∀ registry callback, .registry registry callback ∈ s.inbox → registry ≤ s.registry
  syncs : (s.outbox.filterMap RegistryRequest.syncs).Nodup
  unanswered : ∀ seq, .sync seq ∈ s.outbox → seq < s.seq ∧ seq ∉ s.answered
  answered : ∀ seq ∈ s.answered, seq < s.seq
  listeners : ∀ listener ∈ s.listeners, listener.2 = s.requested listener.1

/-- Of a session that runs: the list follows the server, and a roundtrip that is complete has
brought what the server had when it answered. -/
structure RegistrySiteMirrored (s : RegistrySite) (ahead : List RegistryEvent) : Prop where
  hasRegistry : s.session.hasRegistry = true
  asked : s.registry ∈ s.asked
  served : s.outbox.Pairwise s.Precedes
  mirrors : Mirrors viewChange s.snapshot s.taken (s.line ahead) s.told
  completed : ∀ slot ∈ s.completed, s.since ≤ s.requested slot →
    s.taken = (s.later slot).foldl viewChange (s.snapshot (s.requested slot))

structure RegistrySiteState (s : RegistrySite) (ahead : List RegistryEvent) : Prop where
  requests : RegistrySiteRequests s
  mirrored : s.session.registry.running = true →
    RegistrySiteMirrored s ahead

variable {s t : RegistrySite} {ahead : List RegistryEvent} {event : RegistryEvent}
variable {callback : RegistryCallback} {slot seq : Nat}

theorem passMark_mark {p : Passage RegistryChange Nat} (h : s.passMark seq = some p) :
    p = .mark seq := by
  unfold passMark at h
  split at h
  · exact (Option.some.inj h).symm
  · cases h

theorem passEvent_mark {m : Nat} : s.passEvent event ≠ some (.mark m) := by
  unfold passEvent
  split <;> simp

/-- A mark on the line answers a roundtrip. -/
theorem mark_answered {m : Nat} (h : .mark m ∈ s.line ahead) : m ∈ s.answered := by
  rcases List.mem_append.mp h with h | h
  · obtain ⟨event, -, he⟩ := List.mem_filterMap.mp h
    exact absurd he passEvent_mark
  rcases List.mem_append.mp h with h | h
  · obtain ⟨source, hs, hp⟩ := List.mem_filterMap.mp h
    cases source with
    | event event => exact absurd hp passEvent_mark
    | completion slot =>
      cases passMark_mark hp
      refine List.mem_append_left _ (List.mem_map.mpr ⟨slot, ?_, rfl⟩)
      exact List.mem_filterMap.mpr ⟨_, hs, rfl⟩
  · obtain ⟨message, hm, hp⟩ := List.mem_filterMap.mp h
    cases message with
    | registry registry callback =>
      simp only [passMessage] at hp
      split at hp <;> cases hp
    | done seq =>
      cases passMark_mark hp
      refine List.mem_append_right _ (List.mem_append_left _ ?_)
      exact List.mem_filterMap.mpr ⟨_, hm, rfl⟩

theorem completed_answered (h : slot ∈ s.completed) : s.requested slot ∈ s.answered :=
  List.mem_append_right _ (List.mem_append_right _ (List.mem_map_of_mem h))

/-- Messages arrive behind those that are on the line already. -/
theorem line_messages (messages : List RegistryMessage) :
    ({ s with inbox := s.inbox ++ messages }).line ahead =
      s.line ahead ++ messages.filterMap s.passMessage := by
  unfold RegistrySite.line
  rw [List.filterMap_append, List.append_assoc, List.append_assoc]
  rfl

/-- The server tells registries of its globals. -/
def RegistrySite.publish (s : RegistrySite) (outbox : List RegistryRequest)
    (globals : Table UInt32 ServerGlobal) (registries : List Nat)
    (messages : List (Nat × RegistryCallback)) : RegistrySite :=
  { s with
    outbox := outbox
    globals := globals
    registries := registries
    inbox := s.inbox ++ messages.map fun message => .registry message.1 message.2 }

/-- What messages tell the registry of the session. -/
def toldChanges (s : RegistrySite) (messages : List (Nat × RegistryCallback)) :
    List RegistryChange :=
  messages.filterMap fun message =>
    if message.1 = s.registry then some (registryCallback message.2) else none

theorem passMessage_told (messages : List (Nat × RegistryCallback)) :
    (messages.map fun message => RegistryMessage.registry message.1 message.2).filterMap
      s.passMessage = (toldChanges s messages).map .change := by
  rw [List.filterMap_map, toldChanges, List.map_filterMap]
  refine List.filterMap_congr fun message _ => ?_
  by_cases own : message.1 = s.registry
  · rw [if_pos own]
    exact if_pos own
  · rw [if_neg own]
    exact if_neg own

section Publish

variable {outbox : List RegistryRequest} {globals : Table UInt32 ServerGlobal}
variable {registries : List Nat} {messages : List (Nat × RegistryCallback)}

theorem publish_answered :
    (s.publish outbox globals registries messages).answered = s.answered := by
  have none : (messages.map fun message =>
      RegistryMessage.registry message.1 message.2).filterMap RegistryMessage.answers = [] := by
    rw [List.filterMap_eq_nil_iff]
    intro m hm
    obtain ⟨message, -, rfl⟩ := List.mem_map.mp hm
    rfl
  simp only [RegistrySite.answered, publish, List.filterMap_append, none, List.append_nil]

theorem publish_line : (s.publish outbox globals registries messages).line ahead =
    s.line ahead ++ (toldChanges s messages).map .change := by
  rw [← passMessage_told]
  exact line_messages _

theorem RegistrySiteState.publish (h : RegistrySiteState s ahead)
    (handled : ∃ first, s.outbox = first ++ outbox ∧ first.filterMap RegistryRequest.syncs = [])
    (asked : (s.publish outbox globals registries messages).asked = s.asked)
    (known : ∀ message ∈ messages, message.1 ≤ s.registry)
    (told : (s.publish outbox globals registries messages).told =
      (toldChanges s messages).foldl viewChange s.told) :
    RegistrySiteState (s.publish outbox globals registries messages) ahead := by
  obtain ⟨first, layout, unsynced⟩ := handled
  refine ⟨?_, fun running => ?_⟩
  · exact {
      connected := h.requests.connected
      once := asked ▸ h.requests.once
      asked := asked ▸ h.requests.asked
      messages := fun r callback hm => by
        rcases List.mem_append.mp hm with hm | hm
        · exact h.requests.messages r callback hm
        · obtain ⟨message, hm', he⟩ := List.mem_map.mp hm
          cases he
          exact known message hm'
      syncs := by
        have syncs := h.requests.syncs
        rw [layout, List.filterMap_append, unsynced] at syncs
        exact syncs
      unanswered := fun seq hs => by
        rw [publish_answered]
        exact h.requests.unanswered seq (layout ▸ List.mem_append_right first hs)
      answered := by
        rw [publish_answered]
        exact h.requests.answered
      listeners := h.requests.listeners }
  · have mirrored := h.mirrored running
    exact {
      hasRegistry := mirrored.hasRegistry
      asked := asked ▸ mirrored.asked
      served := by
        have served := mirrored.served
        rw [layout] at served
        exact (List.pairwise_append.mp served).2.1
      mirrors := by
        rw [publish_line, told]
        exact mirrored.mirrors.send _
      completed := mirrored.completed }

end Publish

/-- The server handles the request for a registry: it tells it of all globals. -/
theorem RegistrySiteState.getRegistry {registry : Nat} {rest : List RegistryRequest}
    (h : RegistrySiteState s ahead) (first : s.outbox = .getRegistry registry :: rest) :
    RegistrySiteState ({ s with outbox := rest }.handle (.getRegistry registry)) ahead := by
  let messages := s.globals.entries.map fun item => (registry, item.2.announce item.1)
  have handled : { s with outbox := rest }.handle (.getRegistry registry) =
      s.publish rest s.globals (s.registries ++ [registry]) messages := by
    simp only [handle, RegistrySite.publish, messages, List.map_map]
    rfl
  have once := h.requests.once
  have asked := h.requests.asked
  simp only [RegistrySite.asked, first, RegistryRequest.asks, List.filterMap_cons] at once asked
  rw [handled]
  refine h.publish ⟨[.getRegistry registry], first, rfl⟩ ?_ ?_ ?_
  · simp [RegistrySite.asked, RegistrySite.publish, first, RegistryRequest.asks]
  · intro message hm
    obtain ⟨item, -, rfl⟩ := List.mem_map.mp hm
    exact asked registry (by simp)
  · by_cases own : registry = s.registry
    · subst own
      have untold : s.registry ∉ s.registries := by
        intro hm
        exact (List.nodup_append.mp once).2.2 _ hm _ List.mem_cons_self rfl
      have changes : toldChanges s messages = s.globals.entries.map fun item =>
          registryCallback (item.2.announce item.1) := by
        rw [toldChanges, List.filterMap_map, ← List.filterMap_eq_map]
        exact List.filterMap_congr fun item _ => if_pos rfl
      rw [changes, told, told, if_neg untold, if_pos (by simp [RegistrySite.publish])]
      funext id
      refine (Eq.trans ?_ (announce_view s.globals.entries s.globals.nodupKeys _ id).symm)
      exact (Option.or_none).symm
    · have changes : toldChanges s messages = [] := by
        rw [toldChanges, List.filterMap_eq_nil_iff]
        intro message hm
        obtain ⟨item, -, rfl⟩ := List.mem_map.mp hm
        exact if_neg own
      have same : s.registry ∈ s.registries ++ [registry] ↔ s.registry ∈ s.registries := by
        simp [Ne.symm own]
      rw [changes]
      exact if_congr same rfl rfl

/-- The server handles a roundtrip, and with it remembers its globals. -/
theorem RegistrySiteState.sync {rest : List RegistryRequest} (h : RegistrySiteState s ahead)
    (first : s.outbox = .sync seq :: rest) :
    RegistrySiteState ({ s with outbox := rest }.handle (.sync seq)) ahead := by
  obtain ⟨known, unanswered⟩ := h.requests.unanswered seq (first ▸ List.mem_cons_self)
  have syncs := h.requests.syncs
  rw [first] at syncs
  obtain ⟨once, syncs⟩ := List.nodup_cons.mp syncs
  have answered : ∀ k, k ∈ ({ s with outbox := rest }.handle (.sync seq)).answered ↔
      k ∈ s.answered ∨ k = seq := by
    intro k
    simp only [RegistrySite.answered, handle, List.filterMap_append, List.mem_append]
    have done : k ∈ [RegistryMessage.done seq].filterMap RegistryMessage.answers ↔ k = seq :=
      List.mem_singleton
    rw [done]
    constructor
    · rintro (hk | (hk | hk) | hk)
      · exact .inl (.inl hk)
      · exact .inl (.inr (.inl hk))
      · exact .inr hk
      · exact .inl (.inr (.inr hk))
    · rintro ((hk | hk | hk) | hk)
      · exact .inl hk
      · exact .inr (.inl (.inl hk))
      · exact .inr (.inr hk)
      · exact .inr (.inl (.inr hk))
  have asked : ({ s with outbox := rest }.handle (.sync seq)).asked = s.asked := by
    unfold RegistrySite.asked
    rw [first]
    rfl
  have line : ({ s with outbox := rest }.handle (.sync seq)).line ahead =
      s.line ahead ++ (s.passMark seq).toList := by
    refine (line_messages [.done seq]).trans (congrArg _ ?_)
    cases passes : s.passMark seq with
    | none => exact List.filterMap_cons_none passes
    | some p => exact List.filterMap_cons_some passes
  refine ⟨?_, fun running => ?_⟩
  · exact {
      connected := h.requests.connected
      once := asked ▸ h.requests.once
      asked := asked ▸ h.requests.asked
      messages := fun r callback hm => by
        rcases List.mem_append.mp hm with hm | hm
        · exact h.requests.messages r callback hm
        · cases List.mem_singleton.mp hm
      syncs := syncs
      unanswered := fun k hk => by
        obtain ⟨small, before⟩ := h.requests.unanswered k (first ▸ List.mem_cons_of_mem _ hk)
        refine ⟨small, fun ha => ?_⟩
        rcases (answered k).mp ha with ha | rfl
        · exact before ha
        · exact once (List.mem_filterMap.mpr ⟨_, hk, rfl⟩)
      answered := fun k hk => by
        rcases (answered k).mp hk with hk | rfl
        · exact h.requests.answered k hk
        · exact known
      listeners := h.requests.listeners }
  · have mirrored := h.mirrored running
    obtain ⟨behind, served⟩ := List.pairwise_cons.mp (first ▸ mirrored.served)
    have fresh : .mark seq ∉ s.line ahead := fun hm => unanswered (mark_answered hm)
    exact {
      hasRegistry := mirrored.hasRegistry
      asked := asked ▸ mirrored.asked
      served := served
      mirrors := by
        rw [line]
        unfold passMark
        split
        next session =>
          have unasked : s.registry ∉ rest.filterMap RegistryRequest.asks := by
            intro hm
            obtain ⟨request, hr, he⟩ := List.mem_filterMap.mp hm
            cases request with
            | getRegistry registry =>
              cases he
              exact behind _ hr session rfl
            | sync k => cases he
          have served : s.registry ∈ s.registries := by
            have hm := asked ▸ mirrored.asked
            exact (List.mem_append.mp hm).resolve_right unasked
          have told : s.told = s.view := if_pos served
          have mirrors := mirrored.mirrors.sendMark fresh
          rw [told] at mirrors
          have told' : ({ s with outbox := rest }.handle (.sync seq)).told = s.view := told
          rw [told']
          exact mirrors
        next =>
          rw [Option.toList_none, List.append_nil]
          have told' : ({ s with outbox := rest }.handle (.sync seq)).told = s.told := rfl
          rw [told']
          refine mirrored.mirrors.congr fun k hk => if_neg ?_
          rintro rfl
          exact fresh hk
      completed := fun slot hs session => by
        have other : s.requested slot ≠ seq := by
          rintro rfl
          exact unanswered (completed_answered hs)
        have same : (if s.requested slot = seq then s.view else s.snapshot (s.requested slot)) =
            s.snapshot (s.requested slot) := if_neg other
        refine (mirrored.completed slot hs session).trans ?_
        exact congrArg (fun view => List.foldl viewChange view (s.later slot)) same.symm }

/-- A registry is told once of what all are told. -/
theorem toldChanges_all (once : s.registries.Nodup) (callback : RegistryCallback) :
    toldChanges s (s.registries.map fun registry => (registry, callback)) =
      if s.registry ∈ s.registries then [registryCallback callback] else [] := by
  rw [toldChanges, List.filterMap_map]
  change (s.registries.filterMap fun registry =>
    if registry = s.registry then some (registryCallback callback) else none) = _
  generalize s.registries = registries at once ⊢
  induction registries with
  | nil => rfl
  | cons registry registries ih =>
    obtain ⟨fresh, others⟩ := List.nodup_cons.mp once
    have ih := ih others
    by_cases own : registry = s.registry
    · rw [own] at fresh
      rw [if_neg fresh] at ih
      simp [own, ih]
    · have same : s.registry ∈ registry :: registries ↔ s.registry ∈ registries := by
        simp [Ne.symm own]
      simp [own, same, ih]

/-- The server has changed its globals and tells all registries. -/
theorem RegistrySiteState.tell {globals : Table UInt32 ServerGlobal}
    (h : RegistrySiteState s ahead)
    (view : ({ s with globals := globals }).view = viewChange s.view (registryCallback callback)) :
    RegistrySiteState { s with globals := globals, inbox := s.inbox ++ s.tell callback } ahead := by
  have once := (List.nodup_append.mp h.requests.once).1
  have whole : RegistrySiteState (s.publish s.outbox globals s.registries
      (s.registries.map fun registry => (registry, callback))) ahead := by
    refine h.publish ⟨[], rfl, rfl⟩ rfl ?_ ?_
    · intro message hm
      obtain ⟨registry, hr, rfl⟩ := List.mem_map.mp hm
      exact h.requests.asked registry (List.mem_append_left _ hr)
    · rw [toldChanges_all once]
      by_cases served : s.registry ∈ s.registries
      · rw [if_pos served, told, told, if_pos served]
        exact (if_pos served).trans view
      · rw [if_neg served, told, told, if_neg served]
        exact if_neg served
  have told : s.tell callback = (s.registries.map fun registry => (registry, callback)).map
      fun message => .registry message.1 message.2 := by
    rw [List.map_map]
    rfl
  rw [told]
  exact whole

theorem RegistrySiteState.appear {id : UInt32} {global : ServerGlobal}
    (h : RegistrySiteState s ahead) :
    RegistrySiteState { s with
      globals := s.globals.insert id global
      inbox := s.inbox ++ s.tell (global.announce id) } ahead := by
  refine h.tell (funext fun k => ?_)
  by_cases hk : k = id
  · subst hk
    exact (congrArg _ (AList.lookup_insert _)).trans (if_pos rfl).symm
  · exact (congrArg _ (AList.lookup_insert_ne hk)).trans (if_neg hk).symm

theorem RegistrySiteState.vanish {id : UInt32} (h : RegistrySiteState s ahead) :
    RegistrySiteState { s with
      globals := s.globals.erase id
      inbox := s.inbox ++ s.tell (.globalRemove id) } ahead := by
  refine h.tell (funext fun k => ?_)
  by_cases hk : k = id
  · subst hk
    exact (congrArg _ (AList.lookup_erase ..)).trans (if_pos rfl).symm
  · exact (congrArg _ (AList.lookup_erase_ne hk)).trans (if_neg hk).symm

end PipewireGobject
