import PipewireGobject.MetadataSite

namespace PipewireGobject

/-- What is on its way to a wrapper that is bound. A `mark` completes the roundtrip of a frame. -/
inductive LineItem
  | removed (id : UInt32)
  | changed (change : MetadataChange)
  | mark
  deriving DecidableEq

def LineItem.change : LineItem → Option MetadataChange
  | .changed change => some change
  | _ => none

/-- The changes on their way. -/
def lineChanges (line : List LineItem) : List MetadataChange := line.filterMap LineItem.change

def MetadataEvent.item (generation : UInt32) (event : MetadataEvent) : Option LineItem :=
  if event.generation = generation then
    match event.news with
    | .found _ _ => none
    | .removed id => some (.removed id)
    | .changed _ change => some (.changed change)
  else none

def MetadataSource.item (generation : UInt32) (slot : Nat) : MetadataSource → Option LineItem
  | .event e => e.item generation
  | .completion k => if k = slot then some .mark else none

namespace MetadataSite

def item (s : MetadataSite) (slot : Nat) : SiteMessage → Option LineItem
  | .registry r (.globalRemove id) => if r = s.registry then some (.removed id) else none
  | .registry _ _ => none
  | .property proxy change =>
    if proxy = s.wrapper.proxies then some (.changed change) else none
  | .done seq => if (slot, seq) ∈ s.listeners then some .mark else none

def presence (name : CString) (s : MetadataSite) : SiteMessage → Option (Presence UInt32)
  | .registry r callback =>
    if s.wrapper.hasRegistry = true ∧ r = s.registry then metadataPresence name callback else none
  | _ => none

/-- The sources of the main context that have not been dispatched; the event in `ahead` has
been taken out of the queue. -/
def sources (s : MetadataSite) (ahead : List MetadataEvent) : List MetadataSource :=
  ahead.map .event ++ s.wrapper.queue

def line (s : MetadataSite) (ahead : List MetadataEvent) (slot : Nat) : List LineItem :=
  (s.sources ahead).filterMap (MetadataSource.item s.wrapper.generation slot) ++
    s.inbox.filterMap (s.item slot)

/-- The metadata objects of the name that appear and disappear before the wrapper's eyes. -/
def news (name : CString) (s : MetadataSite) (ahead : List MetadataEvent) :
    List (Presence UInt32) :=
  ((s.sources ahead).filterMap MetadataSource.queued).filterMap
      (MetadataEvent.presence s.wrapper.generation) ++
    s.inbox.filterMap (s.presence name)

def view (s : MetadataSite) : MetadataMap := metadataView s.wrapper.entries

/-- What the object that the wrapper is bound to held when the server handled the roundtrip of a
frame. -/
def answered (s : MetadataSite) (slot : Nat) : MetadataMap :=
  storeView (s.snapshot (s.requested slot) s.wrapper.metadataId)

end MetadataSite

/-- The cache of a bound wrapper and the changes on their way make up what the object holds; what
they made up when the server answered a roundtrip is in the cache where that is complete. -/
structure BoundSite (s : MetadataSite) (ahead : List MetadataEvent) (slot : Nat) : Prop where
  object : .removed s.wrapper.metadataId ∈ s.line ahead slot ∨
    s.wrapper.metadataId ∈ s.globals ∧
      (.bind s.wrapper.proxies s.wrapper.metadataId ∈ s.outbox ∨
        (s.wrapper.proxies, s.wrapper.metadataId) ∈ s.bindings)
  copied : (s.wrapper.proxies, s.wrapper.metadataId) ∈ s.bindings →
    .clear s.wrapper.proxies ∉ s.outbox →
      PartialCopy (storeView (s.stored s.wrapper.metadataId))
        (s.view.after (lineChanges (s.line ahead slot)))
  requested : s.entered slot = s.epoch → s.requested slot < s.seq
  unanswered : s.entered slot = s.epoch → ∀ earlier later,
    s.outbox = earlier ++ .sync (s.requested slot) :: later →
      ((∀ id, .bind s.wrapper.proxies id ∉ later) ∧ .clear s.wrapper.proxies ∉ later ∧
        .sync (s.requested slot) ∉ later) ∧
      .mark ∉ s.line ahead slot ∧ slot ∉ s.wrapper.completed
  marked : s.entered slot = s.epoch → ∀ before after,
    s.line ahead slot = before ++ .mark :: after →
      .removed s.wrapper.metadataId ∈ before ∨
        PartialCopy (s.answered slot) (s.view.after (lineChanges before))
  completed : s.entered slot = s.epoch → slot ∈ s.wrapper.completed →
    PartialCopy ((s.answered slot).after (s.later slot)) s.view

def SiteRequest.known (s : MetadataSite) : SiteRequest → Prop
  | .getRegistry r => r ≤ s.registry
  | .bind proxy id => proxy ≤ s.wrapper.proxies ∧
      (s.wrapper.bound = true → proxy = s.wrapper.proxies → id = s.wrapper.metadataId)
  | .sync seq => seq < s.seq
  | .clear proxy => proxy ≤ s.wrapper.proxies
  | .set _ _ => True

def SiteMessage.known (s : MetadataSite) : SiteMessage → Prop
  | .registry r callback => r ≤ s.registry ∧ callback.fromRegistry = true
  | .done seq => seq < s.seq
  | .property _ _ => True

variable {name : CString} {s t : MetadataSite} {ahead : List MetadataEvent} {slot : Nat}

/-- A new generation hears nothing that was sent before it. -/
theorem news_new (new : ∀ source ∈ s.wrapper.queue, ∀ e ∈ source.queued,
      e.generation ≠ s.wrapper.generation)
    (unsent : ∀ message ∈ s.inbox, s.presence name message = none) : s.news name [] = [] := by
  refine List.append_eq_nil_iff.mpr ⟨List.filterMap_eq_nil_iff.mpr fun e he => ?_,
    List.filterMap_eq_nil_iff.mpr unsent⟩
  obtain ⟨source, hs, hd⟩ := List.mem_filterMap.mp he
  exact if_neg (new source hs e hd)

/-- What is known of the requests and messages under way at `s` still is at `t`. -/
structure KnownStays (s t : MetadataSite) : Prop where
  registry : s.registry ≤ t.registry
  seq : s.seq ≤ t.seq
  proxies : s.wrapper.proxies ≤ t.wrapper.proxies
  object : t.wrapper.bound = true → s.wrapper.proxies = t.wrapper.proxies →
    s.wrapper.bound = true ∧ t.wrapper.metadataId = s.wrapper.metadataId

theorem KnownStays.unchanged (registry : t.registry = s.registry) (seq : t.seq = s.seq)
    (proxies : t.wrapper.proxies = s.wrapper.proxies) (bound : t.wrapper.bound = s.wrapper.bound)
    (object : t.wrapper.metadataId = s.wrapper.metadataId) : KnownStays s t where
  registry := Nat.le_of_eq registry.symm
  seq := Nat.le_of_eq seq.symm
  proxies := Nat.le_of_eq proxies.symm
  object still _ := ⟨bound.symm.trans still, object⟩

theorem SiteRequest.known.stays {request : SiteRequest} (known : request.known s)
    (stays : KnownStays s t) : request.known t := by
  cases request with
  | getRegistry r => exact Nat.le_trans known stays.registry
  | bind proxy id =>
    refine ⟨Nat.le_trans known.1 stays.proxies, fun bound current => ?_⟩
    have same : s.wrapper.proxies = t.wrapper.proxies := by
      have before := known.1
      have after := stays.proxies
      omega
    obtain ⟨before, object⟩ := stays.object bound same
    rw [object]
    exact known.2 before (current.trans same.symm)
  | sync seq => exact Nat.lt_of_lt_of_le known stays.seq
  | clear proxy => exact Nat.le_trans known stays.proxies
  | set proxy change => trivial

/-- A request is sent. -/
theorem KnownStays.send (stays : KnownStays s t) (known : ∀ request ∈ s.outbox, request.known s)
    {sent : SiteRequest} (new : sent.known t) :
    ∀ request ∈ s.outbox ++ [sent], request.known t := by
  intro request hr
  rcases List.mem_append.mp hr with hr | hr
  · exact (known request hr).stays stays
  · rw [List.mem_singleton.mp hr]
    exact new

theorem SiteMessage.known.stays {message : SiteMessage} (known : message.known s)
    (stays : KnownStays s t) : message.known t := by
  cases message with
  | registry r callback => exact ⟨Nat.le_trans known.1 stays.registry, known.2⟩
  | done seq => exact Nat.lt_of_lt_of_le known stays.seq
  | property proxy change => trivial

structure SiteState (name : CString) (s : MetadataSite) (ahead : List MetadataEvent) : Prop where
  connected : s.wrapper.connected = true
  proxy : s.wrapper.hasMetadata = s.wrapper.bound
  stopped : s.wrapper.running = false → s.wrapper.bound = false ∧ s.wrapper.hasRegistry = false
  registered : s.wrapper.bound = true →
    s.wrapper.hasRegistry = true ∧ s.registry ∈ s.registries
  filed : MetadataFiled s.wrapper.entries
  outbox : ∀ request ∈ s.outbox, request.known s
  inbox : ∀ message ∈ s.inbox, message.known s
  bindings : ∀ binding ∈ s.bindings, binding.2 ∈ s.globals ∧ binding.1 ≤ s.wrapper.proxies ∧
    (s.wrapper.bound = true → binding.1 = s.wrapper.proxies → binding.2 = s.wrapper.metadataId)
  registries : ∀ registry ∈ s.registries, registry ≤ s.registry
  distinct : s.listeners.Nodup
  listeners : ∀ listener ∈ s.listeners, listener.2 = s.requested listener.1
  entered : ∀ slot, s.entered slot ≤ s.epoch
  announced : ∀ before id after, s.news name ahead = before ++ .appears id :: after →
    .disappears id ∈ after ∨ id ∈ s.globals
  heard : ∀ id, .appears id ∈ s.news name ahead →
    s.wrapper.hasRegistry = true ∧ s.registry ∈ s.registries
  lines : s.wrapper.bound = true → ∀ slot, BoundSite s ahead slot

/-- Statements that only come first. -/
def MetadataStmt.first : MetadataStmt → Bool
  | .dispatch _ | .startRegistry _ | .clearRunning => true
  | _ => false

def MetadataStmt.fits (s : MetadataWrapper) : MetadataStmt → Prop
  | .startRegistry _ => s.running = false
  | .clearRunning => s.bound = false ∧ s.hasRegistry = false
  | _ => True

structure CodeFits (s : MetadataWrapper) (code : List MetadataStmt) : Prop where
  head : ∀ i, code.head? = some i → i.fits s
  tail : ∀ i ∈ code.tail, i.first = false

theorem split_append {α : Type*} {xs ys before after : List α} {a : α}
    (h : xs ++ ys = before ++ a :: after) :
    (∃ later, xs = before ++ a :: later ∧ after = later ++ ys) ∨
      ∃ middle, before = xs ++ middle ∧ ys = middle ++ a :: after := by
  rcases List.append_eq_append_iff.mp h with ⟨middle, hb, hy⟩ | ⟨middle, hx, ha⟩
  · exact .inr ⟨middle, hb, hy⟩
  · cases middle with
    | nil => exact .inr ⟨[], by simpa using hx.symm, by simpa using ha.symm⟩
    | cons b middle =>
      obtain ⟨rfl, rfl⟩ := List.cons.inj ha
      exact .inl ⟨middle, hx, rfl⟩

theorem lineChanges_append (xs ys : List LineItem) :
    lineChanges (xs ++ ys) = lineChanges xs ++ lineChanges ys := List.filterMap_append

end PipewireGobject
