import PipewireGobject.MetadataLine

namespace PipewireGobject

variable {name : CString} {s t : MetadataSite} {ahead : List MetadataEvent} {slot : Nat}
  {outbox : List SiteRequest} {messages : List SiteMessage} {globals : Table UInt32 SiteGlobal}
  {registries : List Nat} {bindings : List (Nat × UInt32)} {event : MetadataEvent}

/-- What the server changes in a step, and the messages it sends. -/
def MetadataSite.serve (s : MetadataSite) (outbox : List SiteRequest)
    (messages : List SiteMessage) (globals : Table UInt32 SiteGlobal) (registries : List Nat)
    (bindings : List (Nat × UInt32)) : MetadataSite :=
  { s with
    outbox := outbox
    inbox := s.inbox ++ messages
    globals := globals
    registries := registries
    bindings := bindings }

theorem line_serve : (s.serve outbox messages globals registries bindings).line ahead slot =
    s.line ahead slot ++ messages.filterMap (s.item slot) := by
  show _ ++ (s.inbox ++ messages).filterMap (s.item slot) = _
  rw [List.filterMap_append, ← List.append_assoc]
  rfl

theorem news_serve : (s.serve outbox messages globals registries bindings).news name ahead =
    s.news name ahead ++ messages.filterMap (s.presence name) := by
  show _ ++ (s.inbox ++ messages).filterMap (s.presence name) = _
  rw [List.filterMap_append, ← List.append_assoc]
  rfl

theorem BoundSite.serve (h : BoundSite s ahead slot) (handled : ∃ first, s.outbox = first ++ outbox)
    (unmarked : .mark ∉ messages.filterMap (s.item slot))
    (object : s.wrapper.metadataId ∈ s.globals →
      .bind s.wrapper.proxies s.wrapper.metadataId ∈ s.outbox ∨
        (s.wrapper.proxies, s.wrapper.metadataId) ∈ s.bindings →
      .removed s.wrapper.metadataId ∈ messages.filterMap (s.item slot) ∨
        s.wrapper.metadataId ∈ globals ∧
          (.bind s.wrapper.proxies s.wrapper.metadataId ∈ outbox ∨
            (s.wrapper.proxies, s.wrapper.metadataId) ∈ bindings))
    (copied : (s.wrapper.proxies, s.wrapper.metadataId) ∈ bindings →
      .clear s.wrapper.proxies ∉ outbox →
        PartialCopy (storeView ((s.serve outbox messages globals registries bindings).stored
            s.wrapper.metadataId))
          ((s.view.after (lineChanges (s.line ahead slot))).after
            (lineChanges (messages.filterMap (s.item slot))))) :
    BoundSite (s.serve outbox messages globals registries bindings) ahead slot where
  object := by
    rw [line_serve]
    rcases h.object with removed | ⟨there, known⟩
    · exact .inl (List.mem_append_left _ removed)
    · exact (object there known).imp_left (List.mem_append_right _)
  copied known uncleared := by
    rw [line_serve, lineChanges_append, MetadataMap.after_append]
    exact copied known uncleared
  requested := h.requested
  unanswered current earlier later ho := by
    obtain ⟨first, hf⟩ := handled
    obtain ⟨requests, unmarked', incomplete⟩ := h.unanswered current (first ++ earlier) later (by
      rw [hf, List.append_assoc]
      exact congrArg _ ho)
    refine ⟨requests, ?_, incomplete⟩
    rw [line_serve, List.mem_append, not_or]
    exact ⟨unmarked', unmarked⟩
  marked current before after hl := by
    rw [line_serve] at hl
    rcases split_append hl with ⟨later, hs, -⟩ | ⟨middle, -, hm⟩
    · exact h.marked current before later hs
    · exact absurd (by rw [hm]; simp) unmarked
  completed current done := h.completed current done

theorem SiteState.serve (h : SiteState name s ahead)
    (handled : ∃ first, s.outbox = first ++ outbox)
    (sent : ∀ message ∈ messages, message.known s)
    (targets : ∀ binding ∈ bindings, binding.2 ∈ globals ∧
      (binding ∈ s.bindings ∨ .bind binding.1 binding.2 ∈ s.outbox))
    (served : ∀ r ∈ registries, r ≤ s.registry) (kept : ∀ r ∈ s.registries, r ∈ registries)
    (gone : ∀ id ∈ s.globals, id ∉ globals → .appears id ∈ s.news name ahead →
      .disappears id ∈ messages.filterMap (s.presence name))
    (came : ∀ id, .appears id ∈ messages.filterMap (s.presence name) →
      id ∈ globals ∧ s.wrapper.hasRegistry = true ∧ s.registry ∈ registries)
    (lines : s.wrapper.bound = true → ∀ slot,
      BoundSite (s.serve outbox messages globals registries bindings) ahead slot) :
    SiteState name (s.serve outbox messages globals registries bindings) ahead where
  connected := h.connected
  proxy := h.proxy
  stopped := h.stopped
  registered bound := ⟨(h.registered bound).1, kept _ (h.registered bound).2⟩
  filed := h.filed
  outbox request hr := by
    obtain ⟨first, hf⟩ := handled
    have known := h.outbox request (by rw [hf]; exact List.mem_append_right _ hr)
    exact known.stays (.unchanged rfl rfl rfl rfl rfl)
  inbox message hm := by
    have known : message.known s := by
      rcases List.mem_append.mp hm with hm | hm
      · exact h.inbox message hm
      · exact sent message hm
    exact known.stays (.unchanged rfl rfl rfl rfl rfl)
  bindings binding hb := by
    obtain ⟨there, known⟩ := targets binding hb
    refine ⟨there, ?_⟩
    rcases known with known | known
    · exact (h.bindings binding known).2
    · exact h.outbox _ known
  registries := served
  distinct := h.distinct
  listeners := h.listeners
  entered := h.entered
  announced before id after hn := by
    rw [news_serve] at hn
    rcases split_append hn with ⟨later, hs, rfl⟩ | ⟨middle, -, hm⟩
    · rcases h.announced before id later hs with removed | there
      · exact .inl (List.mem_append_left _ removed)
      · by_cases still : id ∈ globals
        · exact .inr still
        · exact .inl (List.mem_append_right _ (gone id there still (by rw [hs]; simp)))
    · exact .inr (came id (by rw [hm]; simp)).1
  heard id hn := by
    rw [news_serve] at hn
    rcases List.mem_append.mp hn with hn | hn
    · exact ⟨(h.heard id hn).1, kept _ (h.heard id hn).2⟩
    · exact (came id hn).2
  lines := lines

theorem mem_items_tell {id : UInt32} {changes : List MetadataChange} {x : LineItem} :
    x ∈ (s.tell id changes).filterMap (s.item slot) ↔
      (s.wrapper.proxies, id) ∈ s.bindings ∧ ∃ change ∈ changes, x = .changed change := by
  constructor
  · intro hx
    obtain ⟨message, hm, hi⟩ := List.mem_filterMap.mp hx
    obtain ⟨change, hc, hm⟩ := List.mem_flatMap.mp hm
    obtain ⟨⟨proxy, target⟩, hb, rfl⟩ := List.mem_map.mp hm
    obtain ⟨known, ht⟩ := List.mem_filter.mp hb
    have target_eq : target = id := of_decide_eq_true ht
    simp only [MetadataSite.item] at hi
    split at hi
    next hp =>
      rw [target_eq, hp] at known
      exact ⟨known, change, hc, (Option.some.inj hi).symm⟩
    next => cases hi
  · rintro ⟨hb, change, hc, rfl⟩
    refine List.mem_filterMap.mpr ⟨.property s.wrapper.proxies change, ?_, if_pos rfl⟩
    refine List.mem_flatMap.mpr ⟨change, hc, List.mem_map.mpr
      ⟨(s.wrapper.proxies, id), ?_, rfl⟩⟩
    exact List.mem_filter.mpr ⟨hb, decide_eq_true rfl⟩

theorem presence_tell {id : UInt32} {changes : List MetadataChange} :
    (s.tell id changes).filterMap (s.presence name) = [] := by
  refine List.filterMap_eq_nil_iff.mpr fun message hm => ?_
  obtain ⟨change, -, hm⟩ := List.mem_flatMap.mp hm
  obtain ⟨binding, -, rfl⟩ := List.mem_map.mp hm
  rfl

theorem stored_insert {id : UInt32} {global : SiteGlobal} {other : UInt32} :
    (s.serve outbox messages (s.globals.insert id global) registries bindings).stored other =
      if other = id then global.entries else s.stored other := by
  unfold MetadataSite.stored MetadataSite.serve
  by_cases ho : other = id
  · rw [ho, if_pos rfl, AList.lookup_insert]
    rfl
  · simp [ho, AList.lookup_insert_ne]

/-- The properties of an object change, and the proxies of the object are told. -/
theorem SiteState.setStored (h : SiteState name s ahead) (first : List SiteRequest)
    (handled : s.outbox = first ++ outbox) (unbound : ∀ proxy id, .bind proxy id ∉ first)
    {id : UInt32} {global : SiteGlobal} {changes : List MetadataChange}
    (copied : s.wrapper.bound = true →
      (s.wrapper.proxies, s.wrapper.metadataId) ∈ s.bindings → .clear s.wrapper.proxies ∉ outbox →
        ∀ slot, PartialCopy
          (storeView (if s.wrapper.metadataId = id then global.entries
            else s.stored s.wrapper.metadataId))
          ((s.view.after (lineChanges (s.line ahead slot))).after
            (lineChanges ((s.tell id changes).filterMap (s.item slot))))) :
    SiteState name (s.serve outbox (s.tell id changes) (s.globals.insert id global) s.registries
      s.bindings) ahead := by
  refine h.serve ⟨first, handled⟩ ?_ ?_ h.registries (fun _ hr => hr) ?_ ?_ ?_
  · intro message hm
    obtain ⟨change, -, hm⟩ := List.mem_flatMap.mp hm
    obtain ⟨binding, -, rfl⟩ := List.mem_map.mp hm
    trivial
  · intro binding hb
    exact ⟨(AList.mem_insert _).mpr (.inr (h.bindings binding hb).1), .inl hb⟩
  · intro other there gone
    exact absurd ((AList.mem_insert _).mpr (.inr there)) gone
  · rw [presence_tell]
    simp
  · intro bound slot
    refine (h.lines bound slot).serve ⟨first, handled⟩ ?_ ?_ ?_
    · rw [mem_items_tell]
      simp
    · rintro there (waits | known)
      · rw [handled] at waits
        have later := (List.mem_append.mp waits).resolve_left (unbound _ _)
        exact .inr ⟨(AList.mem_insert _).mpr (.inr there), .inl later⟩
      · exact .inr ⟨(AList.mem_insert _).mpr (.inr there), .inr known⟩
    · intro known uncleared
      rw [stored_insert]
      exact copied bound known uncleared slot

/-- A change that reaches the copy at least once. -/
theorem PartialCopy.repeated {m m' : MetadataMap} {change : MetadataChange}
    {changes : List MetadataChange} (h : PartialCopy m m') (same : ∀ c ∈ changes, c = change)
    (some : changes ≠ []) : PartialCopy (m.change change) (m'.after changes) := by
  induction changes using List.reverseRecOn with
  | nil => exact absurd rfl some
  | append_singleton changes last ih =>
    rw [same last (by simp), MetadataMap.after_concat]
    by_cases hc : changes = []
    · rw [hc]
      exact MetadataMap.change_partialCopy h change
    · have before := ih (fun c hm => same c (List.mem_append_left _ hm)) hc
      intro i
      rcases MetadataMap.change_apply change i with keeps | ⟨b, assigned⟩
      · rw [keeps (m'.after changes)]
        exact before i
      · rw [assigned, assigned]
        exact .inl rfl

/-- A request is dropped. -/
theorem SiteState.drop (h : SiteState name s ahead) {request : SiteRequest}
    (handled : s.outbox = request :: outbox)
    (unbound : ∀ id, request = .bind s.wrapper.proxies id → id ∉ s.globals)
    (uncleared : request = .clear s.wrapper.proxies → .clear s.wrapper.proxies ∈ outbox ∨
      ∀ id, (s.wrapper.proxies, id) ∉ s.bindings) :
    SiteState name (s.serve outbox [] s.globals s.registries s.bindings) ahead := by
  refine h.serve ⟨[request], handled⟩ (by simp) (fun b hb => ⟨(h.bindings b hb).1, .inl hb⟩)
    h.registries (fun _ hr => hr) (fun id there gone => absurd there gone) (by simp) ?_
  intro bound slot
  have site := h.lines bound slot
  refine site.serve ⟨[request], handled⟩ (by simp) ?_ ?_
  · intro there known
    refine .inr ⟨there, known.imp_left fun waits => ?_⟩
    rw [handled] at waits
    rcases List.mem_cons.mp waits with he | waits
    · exact absurd there (unbound _ he.symm)
    · exact waits
  · intro known settled
    refine site.copied known fun hc => settled ?_
    rw [handled] at hc
    rcases List.mem_cons.mp hc with he | hc
    · exact (uncleared he.symm).resolve_right fun none => none _ known
    · exact hc

theorem SiteState.getRegistry (h : SiteState name s ahead) {r : Nat}
    (handled : s.outbox = .getRegistry r :: outbox) :
    SiteState name (s.serve outbox
      (s.globals.entries.map fun item => .registry r (MetadataSite.announce item.1 item.2))
      s.globals (s.registries ++ [r]) s.bindings) ahead := by
  have known : r ≤ s.registry := h.outbox (.getRegistry r) (by simp [handled])
  have silent : ∀ slot, (s.globals.entries.map fun item =>
      SiteMessage.registry r (MetadataSite.announce item.1 item.2)).filterMap (s.item slot) =
        [] := by
    intro slot
    refine List.filterMap_eq_nil_iff.mpr fun message hm => ?_
    obtain ⟨item, -, rfl⟩ := List.mem_map.mp hm
    rfl
  refine h.serve ⟨[.getRegistry r], handled⟩ ?_ (fun b hb => ⟨(h.bindings b hb).1, .inl hb⟩) ?_
    (fun _ hr => List.mem_append_left _ hr) (fun id there gone => absurd there gone) ?_ ?_
  · intro message hm
    obtain ⟨item, -, rfl⟩ := List.mem_map.mp hm
    exact ⟨known, rfl⟩
  · intro k hk
    rcases List.mem_append.mp hk with hk | hk
    · exact h.registries k hk
    · rw [List.mem_singleton.mp hk]
      exact known
  · intro id hid
    obtain ⟨message, hm, hp⟩ := List.mem_filterMap.mp hid
    obtain ⟨item, hi, rfl⟩ := List.mem_map.mp hm
    simp only [MetadataSite.presence] at hp
    split at hp
    next current =>
      obtain ⟨listens, rfl⟩ := current
      refine ⟨?_, listens, by simp⟩
      simp only [MetadataSite.announce, metadataPresence] at hp
      split at hp
      · cases hp
        exact AList.mem_keys.mpr (List.mem_map.mpr ⟨item, hi, rfl⟩)
      · cases hp
    next => cases hp
  · intro bound slot
    have site := h.lines bound slot
    refine site.serve ⟨[.getRegistry r], handled⟩ (by rw [silent]; simp) ?_ ?_
    · intro there object
      refine .inr ⟨there, object.imp_left fun waits => ?_⟩
      simpa [handled] using waits
    · intro object uncleared
      rw [silent]
      exact site.copied object (by simpa [handled] using uncleared)

/-- The properties of an object, sent to the proxy that is bound to it, make a copy of it. -/
theorem partialCopy_dump {proxy : Nat} (hp : proxy = s.wrapper.proxies) (store : MetadataStore)
    (view : MetadataMap) : PartialCopy (storeView store)
      (view.after (lineChanges ((store.entries.map fun item => SiteMessage.property proxy
        ⟨item.1.1, some item.1.2, item.2.1, some item.2.2⟩).filterMap (s.item slot)))) := by
  have dump : lineChanges ((store.entries.map fun item => SiteMessage.property proxy
      ⟨item.1.1, some item.1.2, item.2.1, some item.2.2⟩).filterMap (s.item slot)) =
      store.entries.map fun item => ⟨item.1.1, some item.1.2, item.2.1, some item.2.2⟩ := by
    rw [lineChanges, List.filterMap_filterMap, List.filterMap_map, ← List.filterMap_eq_map]
    congr 1
    funext item
    simp [MetadataSite.item, hp, LineItem.change]
  rw [dump]
  intro i
  have copied := after_dump store.entries store.nodupKeys view i
  cases hi : storeView store i with
  | none => exact .inr rfl
  | some b =>
    have looked : store.entries.dlookup i = some b := hi
    rw [looked] at copied
    exact .inl copied.symm

/-- The server binds a proxy, and tells it what the object holds. -/
theorem SiteState.bind (h : SiteState name s ahead) {proxy : Nat} {id : UInt32}
    {global : SiteGlobal} (handled : s.outbox = .bind proxy id :: outbox)
    (found : s.globals.lookup id = some global) :
    SiteState name (s.serve outbox
      (global.entries.entries.map fun item =>
        .property proxy ⟨item.1.1, some item.1.2, item.2.1, some item.2.2⟩)
      s.globals s.registries (s.bindings ++ [(proxy, id)])) ahead := by
  have there : id ∈ s.globals := AList.lookup_isSome.mp (by rw [found]; rfl)
  have known := h.outbox (.bind proxy id) (by simp [handled])
  have silent : (global.entries.entries.map fun item => SiteMessage.property proxy
      ⟨item.1.1, some item.1.2, item.2.1, some item.2.2⟩).filterMap (s.presence name) = [] := by
    refine List.filterMap_eq_nil_iff.mpr fun message hm => ?_
    obtain ⟨item, -, rfl⟩ := List.mem_map.mp hm
    rfl
  refine h.serve ⟨[.bind proxy id], handled⟩ ?_ ?_ h.registries (fun _ hr => hr)
    (fun id there gone => absurd there gone) ?_ ?_
  · intro message hm
    obtain ⟨item, -, rfl⟩ := List.mem_map.mp hm
    trivial
  · intro b hb
    rcases List.mem_append.mp hb with hb | hb
    · exact ⟨(h.bindings b hb).1, .inl hb⟩
    · rw [List.mem_singleton.mp hb]
      exact ⟨there, .inr (by simp [handled])⟩
  · rw [silent]
    simp
  · intro bound slot
    have site := h.lines bound slot
    refine site.serve ⟨[.bind proxy id], handled⟩ ?_ ?_ ?_
    · intro hm
      obtain ⟨message, hm, hi⟩ := List.mem_filterMap.mp hm
      obtain ⟨item, -, rfl⟩ := List.mem_map.mp hm
      simp only [MetadataSite.item] at hi
      split at hi <;> cases hi
    · rintro there' (waits | bindsTo)
      · rw [handled] at waits
        rcases List.mem_cons.mp waits with he | waits
        · cases he
          exact .inr ⟨there', .inr (by simp)⟩
        · exact .inr ⟨there', .inl waits⟩
      · exact .inr ⟨there', .inr (List.mem_append_left _ bindsTo)⟩
    · intro bindsTo uncleared
      by_cases hp : proxy = s.wrapper.proxies
      · obtain rfl := known.2 bound hp
        have stored : s.stored s.wrapper.metadataId = global.entries := by
          rw [MetadataSite.stored, found]
          rfl
        show PartialCopy (storeView (s.stored s.wrapper.metadataId)) _
        rw [stored]
        exact partialCopy_dump hp global.entries _
      · have silent : (global.entries.entries.map fun item => SiteMessage.property proxy
            ⟨item.1.1, some item.1.2, item.2.1, some item.2.2⟩).filterMap (s.item slot) = [] := by
          refine List.filterMap_eq_nil_iff.mpr fun message hm => ?_
          obtain ⟨item, -, rfl⟩ := List.mem_map.mp hm
          exact if_neg hp
        rw [silent]
        have other : (s.wrapper.proxies, s.wrapper.metadataId) ∈ s.bindings := by
          rcases List.mem_append.mp bindsTo with bindsTo | new
          · exact bindsTo
          · cases List.mem_singleton.mp new
            exact absurd rfl hp
        exact site.copied other (by simpa [handled] using uncleared)

/-- The server answers a roundtrip. -/
def MetadataSite.answer (s : MetadataSite) (outbox : List SiteRequest) (seq : Nat) : MetadataSite :=
  { s with
    outbox := outbox
    inbox := s.inbox ++ [.done seq]
    snapshot := Function.update s.snapshot seq fun id => s.stored id }

theorem line_answer {seq : Nat} : (s.answer outbox seq).line ahead slot =
    s.line ahead slot ++ if (slot, seq) ∈ s.listeners then [.mark] else [] := by
  have item : [SiteMessage.done seq].filterMap (s.item slot) =
      if (slot, seq) ∈ s.listeners then [.mark] else [] := by
    by_cases hm : (slot, seq) ∈ s.listeners <;> simp [MetadataSite.item, hm]
  rw [← item]
  show _ ++ (s.inbox ++ [SiteMessage.done seq]).filterMap (s.item slot) = _
  rw [List.filterMap_append, ← List.append_assoc]
  rfl

theorem answered_answer {seq : Nat} : (s.answer outbox seq).answered slot =
    if s.requested slot = seq then storeView (s.stored s.wrapper.metadataId)
    else s.answered slot := by
  unfold MetadataSite.answered MetadataSite.answer
  by_cases hs : s.requested slot = seq
  · simp [hs]
  · simp [hs]

theorem BoundSite.answer {seq : Nat} (h : BoundSite s ahead slot)
    (handled : s.outbox = .sync seq :: outbox)
    (listeners : ∀ listener ∈ s.listeners, listener.2 = s.requested listener.1) :
    BoundSite (s.answer outbox seq) ahead slot where
  object := by
    rw [line_answer]
    refine h.object.imp (List.mem_append_left _) ?_
    rintro ⟨there, known⟩
    refine ⟨there, known.imp_left fun waits => ?_⟩
    rw [handled] at waits
    exact (List.mem_cons.mp waits).resolve_left (by simp)
  copied known uncleared := by
    have unmarked :
        lineChanges (if (slot, seq) ∈ s.listeners then [LineItem.mark] else []) = [] := by
      split <;> rfl
    rw [line_answer, lineChanges_append, unmarked, List.append_nil]
    refine h.copied known fun hc => uncleared ?_
    rw [handled] at hc
    exact (List.mem_cons.mp hc).resolve_left (by simp)
  requested := h.requested
  unanswered current earlier later (ho : outbox = _) := by
    obtain ⟨requests, unmarked, incomplete⟩ := h.unanswered current (.sync seq :: earlier) later (by
      rw [handled, ho]
      rfl)
    refine ⟨requests, ?_, incomplete⟩
    rw [line_answer, if_neg, List.append_nil]
    · exact unmarked
    · intro hm
      have same : seq = s.requested slot := listeners _ hm
      have once := (h.unanswered current [] outbox (by rw [handled, same]; rfl)).1.2.2
      rw [ho] at once
      exact once (List.mem_append_right _ List.mem_cons_self)
  marked current before after hl := by
    rw [line_answer] at hl
    rw [answered_answer]
    have asked : ∀ same : s.requested slot = seq,
        ((∀ id, .bind s.wrapper.proxies id ∉ outbox) ∧ .clear s.wrapper.proxies ∉ outbox ∧
          .sync (s.requested slot) ∉ outbox) ∧
        .mark ∉ s.line ahead slot ∧ slot ∉ s.wrapper.completed := fun same =>
      h.unanswered current [] outbox (by rw [handled, same]; rfl)
    rcases split_append hl with ⟨later, hs, -⟩ | ⟨middle, hb, hm⟩
    · rw [if_neg fun same => (asked same).2.1 (by rw [hs]; simp)]
      exact h.marked current before later hs
    · have listens : (slot, seq) ∈ s.listeners := by
        by_contra hn
        rw [if_neg hn] at hm
        simp at hm
      have same : s.requested slot = seq := (listeners _ listens).symm
      rw [if_pos listens] at hm
      have empty : middle = [] := by
        cases middle with
        | nil => rfl
        | cons x middle => simp at hm
      rw [if_pos same, hb, empty, List.append_nil]
      obtain ⟨⟨unbound, uncleared, -⟩, -⟩ := asked same
      refine h.object.imp_right ?_
      rintro ⟨-, waits | known⟩
      · rw [handled] at waits
        exact absurd ((List.mem_cons.mp waits).resolve_left (by simp)) (unbound _)
      · refine h.copied known fun hc => uncleared ?_
        rw [handled] at hc
        exact (List.mem_cons.mp hc).resolve_left (by simp)
  completed current done := by
    have other : s.requested slot ≠ seq := fun same =>
      (h.unanswered current [] outbox (by rw [handled, same]; rfl)).2.2 done
    rw [answered_answer, if_neg other]
    exact h.completed current done

theorem SiteState.answer {seq : Nat} (h : SiteState name s ahead)
    (handled : s.outbox = .sync seq :: outbox) : SiteState name (s.answer outbox seq) ahead := by
  have known : seq < s.seq := h.outbox (.sync seq) (by simp [handled])
  have news : (s.answer outbox seq).news name ahead = s.news name ahead := by
    show _ ++ (s.inbox ++ [SiteMessage.done seq]).filterMap (s.presence name) = _
    rw [List.filterMap_append, ← List.append_assoc]
    exact List.append_nil _
  exact { h with
    outbox := fun request hr => by
      have before := h.outbox request (by rw [handled]; exact List.mem_cons_of_mem _ hr)
      exact before.stays (.unchanged rfl rfl rfl rfl rfl)
    inbox := fun message hm => by
      rcases List.mem_append.mp hm with hm | hm
      · exact (h.inbox message hm).stays (.unchanged rfl rfl rfl rfl rfl)
      · rw [List.mem_singleton.mp hm]
        exact known
    announced := fun before id after hn => h.announced before id after (by rw [← news, hn])
    heard := fun id hn => h.heard id (by rw [← news]; exact hn)
    lines := fun bound slot => (h.lines bound slot).answer handled h.listeners }

theorem target_mem {proxy : Nat} {id : UInt32} (h : s.target proxy = some id) :
    (proxy, id) ∈ s.bindings := by
  obtain ⟨binding, hf, rfl⟩ := Option.map_eq_some_iff.mp h
  have same : binding.1 = proxy := by simpa using List.find?_some hf
  rw [← same]
  exact List.mem_of_find?_eq_some hf

theorem target_none {proxy : Nat} (h : s.target proxy = none) (id : UInt32) :
    (proxy, id) ∉ s.bindings := by
  intro hm
  have none := List.find?_eq_none.mp (Option.map_eq_none_iff.mp h) _ hm
  simp at none

/-- Only the object that the wrapper is bound to tells its proxy. -/
theorem SiteState.unheard (h : SiteState name s ahead) (bound : s.wrapper.bound = true)
    {id : UInt32} (other : s.wrapper.metadataId ≠ id) (changes : List MetadataChange) :
    (s.tell id changes).filterMap (s.item slot) = [] := by
  refine List.eq_nil_iff_forall_not_mem.mpr fun x hx => ?_
  obtain ⟨known, -⟩ := mem_items_tell.mp hx
  exact other ((h.bindings _ known).2.2 bound rfl).symm

theorem SiteState.publish (h : SiteState name s ahead) (first : List SiteRequest)
    (handled : s.outbox = first ++ outbox)
    (quiet : ∀ request ∈ first, ∃ proxy change, request = .set proxy change)
    {id : UInt32} {change : MetadataChange}
    (ht : { s with outbox := outbox }.publish id change = some t) : SiteState name t ahead := by
  obtain ⟨global, found, rfl⟩ := Option.map_eq_some_iff.mp ht
  refine h.setStored first handled ?_ ?_
  · intro proxy id hm
    obtain ⟨_, _, he⟩ := quiet _ hm
    cases he
  · intro bound known uncleared slot
    have before := (h.lines bound slot).copied known fun hc => by
      rw [handled] at hc
      rcases List.mem_append.mp hc with hc | hc
      · obtain ⟨_, _, he⟩ := quiet _ hc
        cases he
      · exact uncleared hc
    split
    next same =>
      have stored : s.stored s.wrapper.metadataId = global.entries := by
        have found : s.globals.lookup id = some global := found
        rw [MetadataSite.stored, same, found]
        rfl
      rw [stored] at before
      rw [storeView_change]
      have told : .changed change ∈ (s.tell id [change]).filterMap (s.item slot) :=
        mem_items_tell.mpr ⟨by rw [← same]; exact known, change, by simp, rfl⟩
      refine before.repeated ?_ ?_
      · intro c hc
        obtain ⟨x, hx, hi⟩ := List.mem_filterMap.mp hc
        obtain ⟨-, c', hm, rfl⟩ := mem_items_tell.mp hx
        rw [← Option.some.inj hi]
        exact List.mem_singleton.mp hm
      · exact List.ne_nil_of_mem (List.mem_filterMap.mpr ⟨_, told, rfl⟩)
    next other =>
      rw [h.unheard bound other]
      exact before

theorem SiteState.clear (h : SiteState name s ahead) {proxy : Nat} {id : UInt32}
    {global : SiteGlobal} {changes : List MetadataChange}
    (handled : s.outbox = .clear proxy :: outbox) (target : (proxy, id) ∈ s.bindings) :
    SiteState name (s.serve outbox (s.tell id changes)
      (s.globals.insert id { global with entries := ∅ }) s.registries s.bindings) ahead := by
  refine h.setStored [.clear proxy] handled (by simp) ?_
  intro bound known uncleared slot
  split
  next => exact PartialCopy.empty _
  next other =>
    rw [h.unheard bound other]
    refine (h.lines bound slot).copied known fun hc => ?_
    rw [handled] at hc
    rcases List.mem_cons.mp hc with he | hc
    · cases he
      exact other ((h.bindings _ target).2.2 bound rfl).symm
    · exact uncleared hc

theorem SiteState.handle (h : SiteState name s ahead) {applied : Bool} {subjects : List UInt32}
    {request : SiteRequest} (handled : s.outbox = request :: outbox)
    (kept : applied = false → request = .clear s.wrapper.proxies →
      .clear s.wrapper.proxies ∈ outbox)
    (ht : { s with outbox := outbox }.handle applied subjects request = some t) :
    SiteState name t ahead := by
  have same : s.serve outbox [] s.globals s.registries s.bindings =
      { s with outbox := outbox } := by
    rw [MetadataSite.serve, List.append_nil]
  cases request with
  | getRegistry r =>
    cases ht
    exact h.getRegistry handled
  | bind proxy id =>
    simp only [MetadataSite.handle] at ht
    split at ht
    next missing =>
      cases ht
      rw [← same]
      refine h.drop handled ?_ (by simp)
      intro id' he there
      cases he
      exact absurd (AList.lookup_isSome.mpr there) (by rw [missing]; simp)
    next global found =>
      cases ht
      exact h.bind handled found
  | sync seq =>
    cases ht
    exact h.answer handled
  | set proxy change =>
    have dropped : SiteState name { s with outbox := outbox } ahead := by
      rw [← same]
      exact h.drop handled (by simp) (by simp)
    simp only [MetadataSite.handle] at ht
    split at ht
    · split at ht
      next =>
        cases ht
        exact dropped
      next id target => exact h.publish [.set proxy change] handled (by simp) ht
    · cases ht
      exact dropped
  | clear proxy =>
    simp only [MetadataSite.handle] at ht
    split at ht
    · split at ht
      next missing =>
        cases ht
        rw [← same]
        refine h.drop handled (by simp) fun he => .inr ?_
        cases he
        exact target_none missing
      next id target =>
        have known : (proxy, id) ∈ s.bindings := target_mem target
        split at ht
        next missing =>
          exact absurd (AList.lookup_isSome.mpr (h.bindings _ known).1) (by simp [missing])
        next global found =>
          split at ht
          · cases ht
            exact h.clear handled known
          · cases ht
    next refused =>
      cases ht
      rw [← same]
      exact h.drop handled (by simp) fun he => .inl (kept (by simpa using refused) he)

theorem SiteState.appear (h : SiteState name s ahead) {id : UInt32} {global : SiteGlobal}
    (new : id ∉ s.globals) :
    SiteState name (s.serve s.outbox
      (s.registries.map fun r => .registry r (MetadataSite.announce id global))
      (s.globals.insert id global) s.registries s.bindings) ahead := by
  have there : ∀ other ∈ s.globals, other ∈ s.globals.insert id global :=
    fun other ho => (AList.mem_insert _).mpr (.inr ho)
  refine h.serve ⟨[], rfl⟩ ?_ (fun b hb => ⟨there _ (h.bindings b hb).1, .inl hb⟩) h.registries
    (fun _ hr => hr) (fun other ho gone => absurd (there other ho) gone) ?_ ?_
  · intro message hm
    obtain ⟨r, hr, rfl⟩ := List.mem_map.mp hm
    exact ⟨h.registries r hr, rfl⟩
  · intro other ho
    obtain ⟨message, hm, hp⟩ := List.mem_filterMap.mp ho
    obtain ⟨r, hr, rfl⟩ := List.mem_map.mp hm
    simp only [MetadataSite.presence] at hp
    split at hp
    next current =>
      obtain ⟨listens, rfl⟩ := current
      refine ⟨?_, listens, hr⟩
      simp only [MetadataSite.announce, metadataPresence] at hp
      split at hp
      · cases hp
        exact (AList.mem_insert _).mpr (.inl rfl)
      · cases hp
    next => cases hp
  · intro bound slot
    have site := h.lines bound slot
    have silent : (s.registries.map fun r =>
        SiteMessage.registry r (MetadataSite.announce id global)).filterMap (s.item slot) = [] := by
      refine List.filterMap_eq_nil_iff.mpr fun message hm => ?_
      obtain ⟨r, -, rfl⟩ := List.mem_map.mp hm
      rfl
    refine site.serve ⟨[], rfl⟩ (by rw [silent]; simp) (fun ho known => .inr ⟨there _ ho, known⟩) ?_
    intro known uncleared
    have old : s.wrapper.metadataId ≠ id := by
      intro he
      have bound := (h.bindings _ known).1
      rw [he] at bound
      exact new bound
    rw [silent, stored_insert, if_neg old]
    exact site.copied known uncleared

theorem SiteState.vanish (h : SiteState name s ahead) {id : UInt32} :
    SiteState name (s.serve s.outbox (s.registries.map fun r => .registry r (.globalRemove id))
      (s.globals.erase id) s.registries (s.bindings.filter fun binding => binding.2 ≠ id))
      ahead := by
  have stays : ∀ other ∈ s.globals, other ≠ id → other ∈ s.globals.erase id :=
    fun other ho hne => AList.mem_erase.mpr ⟨hne, ho⟩
  refine h.serve ⟨[], rfl⟩ ?_ ?_ h.registries (fun _ hr => hr) ?_ ?_ ?_
  · intro message hm
    obtain ⟨r, hr, rfl⟩ := List.mem_map.mp hm
    exact ⟨h.registries r hr, rfl⟩
  · intro binding hb
    obtain ⟨hb, other⟩ := List.mem_filter.mp hb
    exact ⟨stays _ (h.bindings _ hb).1 (of_decide_eq_true other), .inl hb⟩
  · intro other there gone appears
    obtain ⟨listens, served⟩ := h.heard other appears
    have same : other = id := by
      by_contra hne
      exact gone (stays other there hne)
    rw [same]
    refine List.mem_filterMap.mpr ⟨_, List.mem_map.mpr ⟨s.registry, served, rfl⟩, ?_⟩
    exact if_pos ⟨listens, rfl⟩
  · intro other ho
    obtain ⟨message, hm, hp⟩ := List.mem_filterMap.mp ho
    obtain ⟨r, hr, rfl⟩ := List.mem_map.mp hm
    simp only [MetadataSite.presence, metadataPresence] at hp
    split at hp <;> cases hp
  · intro bound slot
    have site := h.lines bound slot
    refine site.serve ⟨[], rfl⟩ ?_ ?_ ?_
    · intro hm
      obtain ⟨message, hm, hi⟩ := List.mem_filterMap.mp hm
      obtain ⟨r, -, rfl⟩ := List.mem_map.mp hm
      simp only [MetadataSite.item] at hi
      split at hi <;> cases hi
    · intro there known
      by_cases same : s.wrapper.metadataId = id
      · refine .inl (List.mem_filterMap.mpr
          ⟨_, List.mem_map.mpr ⟨s.registry, (h.registered bound).2, rfl⟩, ?_⟩)
        rw [same]
        exact if_pos rfl
      · refine .inr ⟨stays _ there same, known.imp_right fun hb => ?_⟩
        exact List.mem_filter.mpr ⟨hb, decide_eq_true same⟩
    · intro known uncleared
      obtain ⟨known, other⟩ := List.mem_filter.mp known
      have other : s.wrapper.metadataId ≠ id := of_decide_eq_true other
      have silent : lineChanges ((s.registries.map fun r =>
          SiteMessage.registry r (.globalRemove id)).filterMap (s.item slot)) = [] := by
        refine List.filterMap_eq_nil_iff.mpr fun x hx => ?_
        obtain ⟨message, hm, hi⟩ := List.mem_filterMap.mp hx
        obtain ⟨r, -, rfl⟩ := List.mem_map.mp hm
        simp only [MetadataSite.item] at hi
        split at hi
        · rw [← Option.some.inj hi]
          rfl
        · cases hi
      have stored : (s.serve s.outbox (s.registries.map fun r => .registry r (.globalRemove id))
          (s.globals.erase id) s.registries
          (s.bindings.filter fun binding => binding.2 ≠ id)).stored s.wrapper.metadataId =
          s.stored s.wrapper.metadataId := by
        unfold MetadataSite.stored MetadataSite.serve
        rw [AList.lookup_erase_ne other]
      rw [silent, stored]
      exact site.copied known uncleared

/-- What the PipeWire thread makes of a message: sources in the main context. -/
def MetadataSite.queue (s : MetadataSite) (inbox : List SiteMessage)
    (sources : List MetadataSource) (done : List Nat) : MetadataSite :=
  { s with
    inbox := inbox
    wrapper := { s.wrapper with queue := s.wrapper.queue ++ sources }
    done := done }

theorem SiteState.queue (h : SiteState name s ahead) {message : SiteMessage}
    {inbox : List SiteMessage} (sources : List MetadataSource) (done : List Nat)
    (received : s.inbox = message :: inbox)
    (moved : s.wrapper.bound = true → ∀ slot,
      sources.filterMap (MetadataSource.item s.wrapper.generation slot) =
        (s.item slot message).toList)
    (told : (sources.filterMap MetadataSource.queued).filterMap
      (MetadataEvent.presence s.wrapper.generation) = (s.presence name message).toList) :
    SiteState name (s.queue inbox sources done) ahead := by
  have later : (s.queue inbox sources done).sources ahead = s.sources ahead ++ sources :=
    (List.append_assoc ..).symm
  have line : s.wrapper.bound = true → ∀ slot,
      (s.queue inbox sources done).line ahead slot = s.line ahead slot := by
    intro bound slot
    have items : s.inbox.filterMap (s.item slot) =
        (s.item slot message).toList ++ inbox.filterMap (s.item slot) := by
      rw [received, List.filterMap_cons]
      cases s.item slot message <;> rfl
    rw [MetadataSite.line, MetadataSite.line, later, items, ← List.append_assoc, ← moved bound slot,
      ← List.filterMap_append]
    rfl
  have news : (s.queue inbox sources done).news name ahead = s.news name ahead := by
    have items : s.inbox.filterMap (s.presence name) =
        (s.presence name message).toList ++ inbox.filterMap (s.presence name) := by
      rw [received, List.filterMap_cons]
      cases s.presence name message <;> rfl
    rw [MetadataSite.news, MetadataSite.news, later, items, ← List.append_assoc, ← told,
      ← List.filterMap_append, ← List.filterMap_append]
    rfl
  exact { h with
    outbox := fun request hr => (h.outbox request hr).stays (.unchanged rfl rfl rfl rfl rfl)
    inbox := fun message' hm => by
      have known := h.inbox message' (by rw [received]; exact List.mem_cons_of_mem _ hm)
      exact known.stays (.unchanged rfl rfl rfl rfl rfl)
    announced := fun before id after hn => h.announced before id after (by rw [← news, hn])
    heard := fun id hn => h.heard id (by rw [← news]; exact hn)
    lines := fun bound slot => by
      have site := h.lines bound slot
      exact {
        object := by
          rw [line bound slot]
          exact site.object
        copied := by
          rw [line bound slot]
          exact site.copied
        requested := site.requested
        unanswered := by
          rw [line bound slot]
          exact site.unanswered
        marked := by
          rw [line bound slot]
          exact site.marked
        completed := site.completed } }

theorem listeners_mark {listeners : List (Nat × Nat)} (distinct : listeners.Nodup)
    (slot seq : Nat) :
    ((listeners.filter fun listener => listener.2 = seq).map Prod.fst).filterMap
        (fun k => if k = slot then some LineItem.mark else none) =
      if (slot, seq) ∈ listeners then [.mark] else [] := by
  induction listeners with
  | nil => rfl
  | cons listener listeners ih =>
    obtain ⟨new, others⟩ := List.nodup_cons.mp distinct
    have rest := ih others
    obtain ⟨k, q⟩ := listener
    by_cases hq : q = seq
    · by_cases hk : k = slot
      · rw [hk, hq] at new ⊢
        rw [if_neg new] at rest
        simp [rest]
      · have hn : (slot, seq) ≠ (k, q) := fun he => hk (Prod.mk.inj he).1.symm
        simp only [hq, decide_true, List.filter_cons_of_pos, List.map_cons, List.filterMap_cons,
          if_neg hk, List.mem_cons]
        rw [rest, hq] at *
        simp [hn]
    · have hn : (slot, seq) ≠ (k, q) := fun he => hq (Prod.mk.inj he).2.symm
      simp [hq, rest, hn]

/-- A message that no proxy listens for is dropped. -/
theorem SiteState.ignoreMessage (h : SiteState name s ahead) {message : SiteMessage}
    {inbox : List SiteMessage} (received : s.inbox = message :: inbox)
    (unmoved : s.wrapper.bound = true → ∀ slot, s.item slot message = none)
    (untold : s.presence name message = none) : SiteState name { s with inbox := inbox } ahead := by
  have queued := h.queue [] s.done received
    (fun bound slot => by rw [unmoved bound slot]; rfl) (by rw [untold]; rfl)
  rw [MetadataSite.queue, List.append_nil] at queued
  exact queued

/-- The registry of the session tells of an object. -/
theorem SiteState.hearRegistry (h : SiteState name s ahead) {r : Nat}
    {callback : MetadataCallback} {inbox : List SiteMessage} {wrapper : MetadataWrapper}
    (received : s.inbox = .registry r callback :: inbox)
    (current : s.wrapper.hasRegistry = true ∧ r = s.registry)
    (hw : s.wrapper.report name callback = some wrapper) :
    SiteState name { s with inbox := inbox, wrapper := wrapper } ahead := by
  obtain ⟨-, fromRegistry⟩ := h.inbox (.registry r callback) (by simp [received])
  have listens : s.wrapper.listens callback = true := by
    cases callback with
    | property change => cases fromRegistry
    | _ => exact current.1
  rw [MetadataWrapper.report, if_pos listens] at hw
  cases hw
  refine h.queue _ s.done received ?_ ?_
  · intro bound slot
    cases callback with
    | global id permissions type version props =>
      simp only [MetadataWrapper.onCallback, MetadataSite.item]
      split
      · rfl
      · split
        · rfl
        · simp [MetadataSource.item, MetadataEvent.item]
    | globalRemove id =>
      simp [MetadataWrapper.onCallback, MetadataSource.item, MetadataEvent.item,
        MetadataSite.item, current.2]
    | property change => cases fromRegistry
  · have queued : ((s.wrapper.onCallback name callback).map fun news =>
        (.event ⟨s.wrapper.generation, news⟩ : MetadataSource)).toList.filterMap
          MetadataSource.queued = (s.wrapper.reported name callback).toList := by
      unfold MetadataWrapper.reported
      cases s.wrapper.onCallback name callback <;> rfl
    refine (congrArg _ queued).trans ((reported_presence name callback s.wrapper).trans ?_)
    rw [registryCallbacks, if_pos fromRegistry, List.filterMap_cons]
    have presence : s.presence name (.registry r callback) = metadataPresence name callback :=
      if_pos current
    rw [presence]
    cases metadataPresence name callback <;> rfl

theorem SiteState.receive (h : SiteState name s ahead) {message : SiteMessage}
    {inbox : List SiteMessage} (received : s.inbox = message :: inbox)
    (ht : { s with inbox := inbox }.receive name message = some t) : SiteState name t ahead := by
  cases message with
  | registry r callback =>
    simp only [MetadataSite.receive] at ht
    split at ht
    next current =>
      obtain ⟨wrapper, hw, rfl⟩ := Option.map_eq_some_iff.mp ht
      exact h.hearRegistry received current hw
    next other =>
      cases ht
      refine h.ignoreMessage received ?_ (if_neg other)
      intro bound slot
      cases callback with
      | globalRemove id =>
        exact if_neg fun hr => other ⟨(h.registered bound).1, hr⟩
      | _ => rfl
  | property proxy change =>
    simp only [MetadataSite.receive] at ht
    split at ht
    next current =>
      obtain ⟨wrapper, hw, rfl⟩ := Option.map_eq_some_iff.mp ht
      obtain ⟨listens, rfl⟩ := current
      have listens : s.wrapper.listens (.property change) = true := listens
      rw [MetadataWrapper.report, if_pos listens] at hw
      cases hw
      refine h.queue _ s.done received ?_ ?_
      · intro bound slot
        simp [MetadataWrapper.onCallback, MetadataSource.item, MetadataEvent.item,
          MetadataSite.item]
      · simp [MetadataWrapper.onCallback, MetadataSource.queued, MetadataEvent.presence,
          MetadataSite.presence]
    next other =>
      cases ht
      refine h.ignoreMessage received ?_ rfl
      intro bound slot
      exact if_neg fun hp => other ⟨by rw [h.proxy, bound], hp⟩
  | done seq =>
    cases ht
    refine h.queue _ _ received ?_ ?_
    · intro bound slot
      rw [List.filterMap_map]
      refine (listeners_mark h.distinct slot seq).trans ?_
      by_cases hm : (slot, seq) ∈ s.listeners <;> simp [MetadataSite.item, hm]
    · have none : ∀ slots : List Nat,
          (slots.map MetadataSource.completion).filterMap MetadataSource.queued = [] := by
        intro slots
        refine List.filterMap_eq_nil_iff.mpr fun source hs => ?_
        obtain ⟨k, -, rfl⟩ := List.mem_map.mp hs
        rfl
      rw [none]
      rfl

/-- A clear is refused only where it is not one of the bound proxy, or another one waits behind. -/
def MetadataSite.HandlesClears (s : MetadataSite) : SiteEvent → Prop
  | .handle applied _ => applied = false → s.outbox.head? = some (.clear s.wrapper.proxies) →
      .clear s.wrapper.proxies ∈ s.outbox.tail
  | _ => True

instance (s : MetadataSite) : (event : SiteEvent) → Decidable (s.HandlesClears event)
  | .handle applied _ =>
    inferInstanceAs (Decidable (applied = false → s.outbox.head? = some _ → _ ∈ s.outbox.tail))
  | .appear _ _ | .vanish _ | .otherClient _ _ | .receive => .isTrue trivial

theorem SiteState.environment (h : SiteState name s ahead) {event : SiteEvent}
    (handles : s.HandlesClears event) (ht : MetadataSite.environment name event s = some t) :
    SiteState name t ahead := by
  cases event with
  | handle applied subjects =>
    simp only [MetadataSite.environment] at ht
    split at ht
    next => cases ht
    next request rest ho =>
      refine h.handle ho ?_ ht
      intro refused clears
      have waits := handles refused
      rw [ho] at waits
      exact waits (by rw [clears]; rfl)
  | appear id global =>
    simp only [MetadataSite.environment] at ht
    split at ht
    next => cases ht
    next new =>
      cases ht
      exact h.appear new
  | vanish id =>
    simp only [MetadataSite.environment] at ht
    split at ht
    next =>
      cases ht
      exact h.vanish
    next => cases ht
  | otherClient id change => exact h.publish [] rfl (by simp) ht
  | receive =>
    simp only [MetadataSite.environment] at ht
    split at ht
    next => cases ht
    next message rest hi => exact h.receive hi ht

end PipewireGobject
