import PipewireGobject.MetadataClient

namespace PipewireGobject

variable {name : CString} {s t : MetadataSite} {ahead : List MetadataEvent} {slot : Nat}

/-- No event has waited in the main context while the generation went all the way round. -/
def MetadataSite.NewGeneration (s : MetadataSite) : Prop :=
  ∀ source ∈ s.wrapper.queue, ∀ e ∈ source.queued, e.generation ≠ s.wrapper.generation + 1

/-- Where a removal or a stop has unbound the wrapper, it stays unbound until the function is
through; and the data of a roundtrip has its place for itself. -/
def MetadataStmt.Undisturbed (choice : MetadataChoice) (s : MetadataSite) : MetadataStmt → Prop
  | .clearEntries => s.wrapper.bound = false
  | .destroyRegistry => s.wrapper.bound = false ∧ s.NewGeneration
  | .startRegistry _ => s.NewGeneration
  | .syncEnter _ => s.FreeFrame choice.slot
  | _ => True

instance (s : MetadataSite) : Decidable s.NewGeneration :=
  inferInstanceAs (Decidable (∀ source ∈ s.wrapper.queue, ∀ e ∈ source.queued, _))

instance (s : MetadataSite) (slot : Nat) : Decidable (s.FreeFrame slot) :=
  inferInstanceAs (Decidable (_ ∧ _))

instance (choice : MetadataChoice) (s : MetadataSite) :
    (i : MetadataStmt) → Decidable (i.Undisturbed choice s)
  | .clearEntries => inferInstanceAs (Decidable (s.wrapper.bound = false))
  | .destroyRegistry => inferInstanceAs (Decidable (s.wrapper.bound = false ∧ s.NewGeneration))
  | .startRegistry _ => inferInstanceAs (Decidable s.NewGeneration)
  | .syncEnter _ => inferInstanceAs (Decidable (s.FreeFrame choice.slot))
  | .handlers | .emit _ | .dispatch _ | .connect | .start _ | .sync | .coreSync _ | .syncWait _ _
  | .syncIterate _ _ | .stop | .coreConnectedNotify | .destroyBoundProxy | .clearRunning =>
    .isTrue trivial

/-- Statements run undisturbed, and the server refuses no clear. -/
def Undisturbed (c : Config MetadataSite MetadataStmt) :
    Label SiteCall MetadataChoice SiteEvent → Prop
  | .run choice => ∀ i ∈ c.code.head?, i.Undisturbed choice c.state
  | .environment event => c.state.HandlesClears event
  | .call _ => True

instance (c : Config MetadataSite MetadataStmt) :
    (label : Label SiteCall MetadataChoice SiteEvent) → Decidable (Undisturbed c label)
  | .run choice => inferInstanceAs (Decidable (∀ i ∈ c.code.head?, i.Undisturbed choice c.state))
  | .environment event => inferInstanceAs (Decidable (c.state.HandlesClears event))
  | .call _ => .isTrue trivial

structure SiteInv (name : CString) (s : MetadataSite) (code : List MetadataStmt) : Prop where
  state : SiteState name s (code.filterMap MetadataStmt.dispatches)
  code : CodeFits s.wrapper code

variable {code rest : List MetadataStmt} {i : MetadataStmt} {choice : MetadataChoice}

theorem first_dispatches (h : i.first = false) : i.dispatches = none := by
  cases i with
  | dispatch event => cases h
  | _ => rfl

theorem first_fits {w : MetadataWrapper} (h : i.first = false) : i.fits w := by
  cases i with
  | startRegistry sync | clearRunning => cases h
  | _ => trivial

theorem ahead_nil (plain : ∀ j ∈ code, j.first = false) :
    code.filterMap MetadataStmt.dispatches = [] :=
  List.filterMap_eq_nil_iff.mpr fun j hj => first_dispatches (plain j hj)

/-- Statements that need not come first are left to run. -/
theorem SiteState.plain (h : SiteState name s []) (plain : ∀ j ∈ code, j.first = false) :
    SiteInv name s code := by
  refine ⟨?_, fun j hj => first_fits (plain j (List.mem_of_mem_head? hj)),
    fun j hj => plain j (List.mem_of_mem_tail hj)⟩
  rw [ahead_nil plain]
  exact h

theorem SiteState.before (h : SiteState name s []) (plain : ∀ j ∈ rest, j.first = false)
    (quiet : i.dispatches = none) (fits : i.fits s.wrapper) : SiteInv name s (i :: rest) := by
  refine ⟨?_, fun j hj => ?_, plain⟩
  · rw [List.filterMap_cons_none quiet, ahead_nil plain]
    exact h
  · cases hj
    exact fits

theorem dispatch_plain {result : PipewireResult} {w : MetadataWrapper} :
    ∀ j ∈ (w.dispatchEvent result event).2, j.first = false := by
  unfold MetadataWrapper.dispatchEvent
  split
  · simp
  · cases event.news with
    | found id version =>
      rcases MetadataWrapper.bind_cases result id w with he | ⟨-, he⟩ <;>
        simp [he, MetadataStmt.first]
    | removed id =>
      simp only
      split
      · cases hb : w.bound <;> simp [MetadataWrapper.destroyBoundProxy, MetadataStmt.first, hb]
      · simp
    | changed proxy change => simp [MetadataStmt.first]

theorem SiteInv.run (h : SiteInv name s (i :: rest))
    (undisturbed : Undisturbed ⟨s, i :: rest⟩ (.run choice)) :
    SiteInv name (MetadataSite.exec choice i s).1 ((MetadataSite.exec choice i s).2 ++ rest) := by
  have plain : ∀ j ∈ rest, j.first = false := h.code.tail
  have fits : i.fits s.wrapper := h.code.head i rfl
  have ha : i.Undisturbed choice s := undisturbed i rfl
  have both : ∀ {code : List MetadataStmt}, (∀ j ∈ code, j.first = false) →
      ∀ j ∈ code ++ rest, j.first = false := by
    intro code hc j hj
    rcases List.mem_append.mp hj with hj | hj
    · exact hc j hj
    · exact plain j hj
  have ahead := h.state
  rw [List.filterMap_cons, ahead_nil plain] at ahead
  cases i with
  | dispatch event => exact ahead.dispatch.plain (both dispatch_plain)
  | startRegistry sync =>
    refine (ahead.startRegistry fits ha).plain (both ?_)
    simp only [MetadataSite.exec, MetadataSite.startRegistry, MetadataWrapper.startRegistry]
    split
    · simp
    · split
      · simp
      · cases sync <;> simp [MetadataStmt.first]
  | syncEnter again =>
    refine (ahead.syncEnter ha).plain (both ?_)
    simp only [MetadataSite.exec, MetadataSite.syncEnter]
    split <;> simp [MetadataStmt.first]
  | syncWait slot again =>
    refine ahead.syncWait.plain (both ?_)
    simp only [MetadataSite.exec, MetadataSite.syncWait]
    split
    · simp
    · split <;> simp [MetadataStmt.first]
  | handlers | emit signal | sync =>
    exact ahead.plain (both (by simp [MetadataSite.exec, MetadataWrapper.exec, MetadataStmt.first]))
  | connect =>
    simp only [MetadataSite.exec, MetadataWrapper.exec, ahead.connected]
    exact ahead.plain (both (by simp))
  | coreSync again =>
    simp only [MetadataSite.exec, MetadataWrapper.exec, ahead.connected]
    exact ahead.plain (both (by simp [MetadataStmt.first]))
  | coreConnectedNotify =>
    simp only [MetadataSite.exec, MetadataWrapper.exec, ahead.connected]
    exact ahead.plain (both (by simp))
  | start sync =>
    cases hr : s.wrapper.running with
    | true =>
      simp only [MetadataSite.exec, MetadataWrapper.exec, hr]
      refine ahead.plain (both ?_)
      cases sync <;> simp [MetadataStmt.first]
    | false =>
      simp only [MetadataSite.exec, MetadataWrapper.exec, hr, ahead.connected]
      exact ahead.before plain rfl hr
  | syncIterate slot again =>
    simp only [MetadataSite.exec, MetadataWrapper.exec]
    split
    · exact ahead.plain (both (by simp [MetadataStmt.first]))
    · refine ahead.plain (both ?_)
      split <;> simp [MetadataStmt.first]
  | stop =>
    simp only [MetadataSite.exec, MetadataWrapper.exec, MetadataWrapper.stop]
    split
    · exact ahead.plain (both (by simp))
    · exact ahead.plain (both (by simp [MetadataStmt.first]))
  | destroyBoundProxy =>
    have unbound := ahead.unbound s.wrapper.destroyBoundProxy.1 ahead.connected
      ⟨rfl, rfl⟩ (fun stopped => (ahead.stopped stopped).2) ahead.filed rfl (.inl ⟨⟨[], rfl⟩, rfl⟩)
    refine unbound.plain (both ?_)
    cases hb : s.wrapper.bound <;>
      simp [MetadataSite.exec, MetadataWrapper.exec, MetadataWrapper.destroyBoundProxy,
        MetadataStmt.first, hb]
  | destroyRegistry =>
    obtain ⟨unbound, new⟩ := ha
    have silent : { s with wrapper := { s.wrapper with
        hasRegistry := false, generation := s.wrapper.generation + 1 } }.news name [] = [] := by
      refine news_new new fun message _ => ?_
      cases message with
      | registry r callback => simp [MetadataSite.presence]
      | _ => rfl
    refine SiteState.before ?_ plain rfl ⟨unbound, rfl⟩
    exact ahead.unbound _ ahead.connected ⟨unbound, ahead.proxy.trans unbound⟩ (fun _ => rfl)
      ahead.filed rfl (.inr silent)
  | clearRunning =>
    obtain ⟨unbound, unregistered⟩ := fits
    have stopped := ahead.unbound { s.wrapper with running := false } ahead.connected
      ⟨unbound, ahead.proxy.trans unbound⟩ (fun _ => unregistered) ahead.filed rfl
      (.inl ⟨⟨[], rfl⟩, rfl⟩)
    refine stopped.plain (both ?_)
    cases hr : s.wrapper.running <;>
      simp [MetadataSite.exec, MetadataWrapper.exec, MetadataStmt.first, hr]
  | clearEntries =>
    have unbound : s.wrapper.bound = false := ha
    refine SiteState.plain ?_ (both (by simp [MetadataSite.exec, MetadataWrapper.exec]))
    exact ahead.unbound _ ahead.connected ⟨unbound, ahead.proxy.trans unbound⟩
      (fun stopped => (ahead.stopped stopped).2) filed_empty rfl (.inl ⟨⟨[], rfl⟩, rfl⟩)

theorem publish_wrapper {id : UInt32} {change : MetadataChange}
    (ht : s.publish id change = some t) : t.wrapper = s.wrapper := by
  obtain ⟨global, -, rfl⟩ := Option.map_eq_some_iff.mp ht
  rfl

theorem handle_wrapper {applied : Bool} {subjects : List UInt32} {request : SiteRequest}
    (ht : s.handle applied subjects request = some t) : t.wrapper = s.wrapper := by
  cases request with
  | getRegistry r | sync seq =>
    cases ht
    rfl
  | bind proxy id =>
    simp only [MetadataSite.handle] at ht
    split at ht <;> (cases ht; rfl)
  | set proxy change =>
    simp only [MetadataSite.handle] at ht
    split at ht
    · split at ht
      next =>
        cases ht
        rfl
      next => exact publish_wrapper ht
    · cases ht
      rfl
  | clear proxy =>
    simp only [MetadataSite.handle] at ht
    split at ht
    · split at ht
      next =>
        cases ht
        rfl
      next =>
        split at ht
        next =>
          cases ht
          rfl
        next =>
          split at ht
          · cases ht
            rfl
          · cases ht
    · cases ht
      rfl

theorem receive_wrapper {message : SiteMessage} (ht : s.receive name message = some t) :
    ∃ queue, t.wrapper = { s.wrapper with queue := queue } := by
  have reported : ∀ {callback : MetadataCallback} {w : MetadataWrapper},
      s.wrapper.report name callback = some w → ∃ queue, w = { s.wrapper with queue := queue } := by
    intro callback w hw
    simp only [MetadataWrapper.report] at hw
    split at hw
    · exact ⟨_, (Option.some.inj hw).symm⟩
    · cases hw
  cases message with
  | registry r callback =>
    simp only [MetadataSite.receive] at ht
    split at ht
    · obtain ⟨w, hw, rfl⟩ := Option.map_eq_some_iff.mp ht
      exact reported hw
    · cases ht
      exact ⟨s.wrapper.queue, rfl⟩
  | property proxy change =>
    simp only [MetadataSite.receive] at ht
    split at ht
    · obtain ⟨w, hw, rfl⟩ := Option.map_eq_some_iff.mp ht
      exact reported hw
    · cases ht
      exact ⟨s.wrapper.queue, rfl⟩
  | done seq =>
    cases ht
    exact ⟨_, rfl⟩

/-- The server and the PipeWire thread leave the wrapper as it is, up to its queue. -/
theorem environment_wrapper {event : SiteEvent}
    (ht : MetadataSite.environment name event s = some t) :
    ∃ queue, t.wrapper = { s.wrapper with queue := queue } := by
  cases event with
  | handle applied subjects =>
    simp only [MetadataSite.environment] at ht
    split at ht
    next => cases ht
    next request rest ho =>
      have same := handle_wrapper ht
      exact ⟨s.wrapper.queue, same⟩
  | appear id global =>
    simp only [MetadataSite.environment] at ht
    split at ht
    · cases ht
    · cases ht
      exact ⟨s.wrapper.queue, rfl⟩
  | vanish id =>
    simp only [MetadataSite.environment] at ht
    split at ht
    · cases ht
      exact ⟨s.wrapper.queue, rfl⟩
    · cases ht
  | otherClient id change => exact ⟨s.wrapper.queue, publish_wrapper ht⟩
  | receive =>
    simp only [MetadataSite.environment] at ht
    split at ht
    next => cases ht
    next message rest hi =>
      obtain ⟨queue, same⟩ := receive_wrapper ht
      exact ⟨queue, same⟩

theorem SiteInv.call {operation : SiteCall} {r : MetadataSite × List MetadataStmt}
    (h : SiteInv name s code) (control : (metadataSite name).applicationRuns code = true)
    (hr : s.call operation = some r) : SiteInv name r.1 (r.2 ++ code) := by
  have plain : ∀ j ∈ code, j.first = false := by
    intro j hj
    cases code with
    | nil => cases hj
    | cons i rest =>
      rcases List.mem_cons.mp hj with rfl | hj
      · cases j with
        | dispatch _ | startRegistry _ | clearRunning => cases control
        | _ => rfl
      · exact h.code.tail j hj
  have state := h.state
  rw [ahead_nil plain] at state
  have push : ∀ i, i.first = false → SiteInv name s ([i] ++ code) := by
    intro i hi
    refine state.plain fun j hj => ?_
    rcases List.mem_cons.mp hj with rfl | hj
    · exact hi
    · exact plain j hj
  cases operation with
  | iterate =>
    simp only [MetadataSite.call] at hr
    split at hr
    next => cases hr
    next event queue hq =>
      cases hr
      refine ⟨?_, fun j hj => ?_, plain⟩
      · rw [List.singleton_append, List.filterMap_cons, ahead_nil plain]
        exact state.take hq
      · cases hj
        trivial
    next k queue hq =>
      cases hr
      exact (state.complete hq).plain plain
  | start | sync | stop =>
    cases hr
    exact push _ rfl
  | set change result =>
    cases hr
    split
    · exact (state.set _ change).plain plain
    · exact state.plain plain
  | clear result =>
    cases hr
    by_cases refused : s.wrapper.hasMetadata = false ∨ s.wrapper.connected = false ∨ result < 0
    · have cleared : s.wrapper.clear result = (s.wrapper, false) := if_pos refused
      rw [cleared]
      exact state.plain plain
    · have cleared : s.wrapper.clear result = ({ s.wrapper with entries := ∅ }, true) :=
        if_neg refused
      rw [cleared]
      exact state.clearCache.plain plain

theorem metadataSite_preserved :
    (metadataSite name).Preserves Undisturbed fun s code => SiteInv name s code where
  call operation s code r h control _ hr := h.call control hr
  run choice i s rest h ha := h.run ha
  environment event s code t h ha ht := by
    refine ⟨h.state.environment ha ht, fun i hi => ?_, h.code.tail⟩
    obtain ⟨queue, same⟩ := environment_wrapper ht
    have fits := h.code.head i hi
    cases i with
    | startRegistry sync | clearRunning =>
      rw [same]
      exact fits
    | _ => trivial

/-- A wrapper on a connected core that has not been started, or has been stopped or reset; events
of earlier sessions may still be queued. -/
structure SiteStarts (s : MetadataSite) : Prop where
  connected : s.wrapper.connected = true
  stopped : s.wrapper.running = false ∧ s.wrapper.hasRegistry = false
  unbound : s.wrapper.bound = false ∧ s.wrapper.hasMetadata = false
  filed : MetadataFiled s.wrapper.entries
  stale : ∀ source ∈ s.wrapper.queue, ∀ e ∈ source.queued, e.generation ≠ s.wrapper.generation
  quiet : s.outbox = [] ∧ s.inbox = [] ∧ s.listeners = []
  unserved : s.registries = [] ∧ s.bindings = []
  entered : ∀ slot, s.entered slot ≤ s.epoch

theorem SiteStarts.state (h : SiteStarts s) : SiteState name s [] := by
  obtain ⟨outbox, inbox, listeners⟩ := h.quiet
  obtain ⟨registries, bindings⟩ := h.unserved
  have news : s.news name [] = [] := by
    rw [MetadataSite.news, inbox]
    refine List.append_eq_nil_iff.mpr ⟨List.filterMap_eq_nil_iff.mpr fun e he => ?_, rfl⟩
    obtain ⟨source, hs, hd⟩ := List.mem_filterMap.mp he
    exact if_neg (h.stale source hs e hd)
  exact {
    connected := h.connected
    proxy := h.unbound.2.trans h.unbound.1.symm
    stopped := fun _ => ⟨h.unbound.1, h.stopped.2⟩
    registered := fun bound => absurd bound (by simp [h.unbound.1])
    filed := h.filed
    outbox := by simp [outbox]
    inbox := by simp [inbox]
    bindings := by simp [bindings]
    registries := by simp [registries]
    distinct := by simp [listeners]
    listeners := by simp [listeners]
    entered := h.entered
    announced := by simp [news]
    heard := by simp [news]
    lines := fun bound => absurd bound (by simp [h.unbound.1]) }

/-- A sync is about to return `TRUE`: the roundtrip with its data at `slot` is complete, and no
other one follows. -/
def SyncReturns (c : Config MetadataSite MetadataStmt) (slot : Nat) : Prop :=
  c.code.head? = some (.syncIterate slot false) ∧ slot ∈ c.state.wrapper.completed

/-- What the object that the wrapper is bound to held when the server handled the last roundtrip
is in the cache, as the changes dispatched later have left it. -/
def MetadataVisible (s : MetadataSite) (slot : Nat) : Prop :=
  PartialCopy ((s.answered slot).after (s.later slot)) (metadataView s.wrapper.entries)

theorem metadataSync_visible {c : Config MetadataSite MetadataStmt} (start : SiteStarts s)
    (h : Reach (metadataSite name).step Undisturbed ⟨s, []⟩ c) (returns : SyncReturns c slot)
    (bound : c.state.wrapper.bound = true) (kept : c.state.entered slot = c.state.epoch) :
    MetadataVisible c.state slot := by
  have inv := metadataSite_preserved.reach h (start.state.plain (by simp))
  exact (inv.state.lines bound slot).completed kept returns.2

def siteObject (value : CString) : SiteGlobal :=
  ⟨0, some interfaceMetadata, 3, some [(some keyMetadataName, some [109])],
    AList.singleton (0, [107]) (none, value)⟩

/-- The server has a metadata object of the name. -/
def firstSite : MetadataSite where
  wrapper := { connected := true }
  globals := AList.singleton 35 (siteObject [65])

theorem firstSite_starts : SiteStarts firstSite where
  connected := rfl
  stopped := ⟨rfl, rfl⟩
  unbound := ⟨rfl, rfl⟩
  filed := filed_empty
  stale := by decide
  quiet := ⟨rfl, rfl, rfl⟩
  unserved := ⟨rfl, rfl⟩
  entered _ := Nat.le_refl 0

abbrev SiteSchedule := List (Label SiteCall MetadataChoice SiteEvent)

def siteRuns (n : Nat) : SiteSchedule := List.replicate n (.run {})

def siteHandles (n : Nat) : SiteSchedule := List.replicate n (.environment (.handle true []))

def siteReceives (n : Nat) : SiteSchedule := List.replicate n (.environment .receive)

/-- A sync starts the wrapper, and finds the object in its first roundtrip. -/
def firstSync : SiteSchedule :=
  .call .sync :: siteRuns 7 ++ siteHandles 2 ++ siteReceives 2 ++ siteRuns 1 ++
    .call (.iterate) :: siteRuns 3 ++ [.call .iterate] ++ siteRuns 3 ++
    siteHandles 2 ++ siteReceives 2 ++ siteRuns 1 ++
    .call .iterate :: siteRuns 3 ++ [.call .iterate]

theorem metadataSync_visible_first :
    MetadataVisible (final (metadataSite [109]).step ⟨firstSite, []⟩ firstSync).state 0 ∧
      metadataDupValue (final (metadataSite [109]).step
        ⟨firstSite, []⟩ firstSync).state.wrapper.entries 0 [107] = some [65] :=
  ⟨@metadataSync_visible [109] firstSite 0 _ firstSite_starts (reach_final (by decide +kernel))
    ⟨by decide +kernel, by decide +kernel⟩ (by decide +kernel) (by decide +kernel),
    by decide +kernel⟩

/-- The object is replaced while the next sync is on its way. -/
def replacingSync : SiteSchedule :=
  firstSync ++ siteRuns 1 ++
    [.environment (.vanish 35), .environment (.appear 36 (siteObject [66])), .call .sync] ++
    siteRuns 4 ++ siteHandles 1 ++ siteReceives 3 ++ siteRuns 1 ++
    .call .iterate :: siteRuns 4 ++ .call .iterate :: siteRuns 3 ++ [.call .iterate]

theorem metadataSync_visible_fails :
    ∃ c, Reach (metadataSite [109]).step Undisturbed ⟨firstSite, []⟩ c ∧ SyncReturns c 0 ∧
      c.state.wrapper.bound = true ∧ ¬MetadataVisible c.state 0 := by
  refine ⟨final (metadataSite [109]).step ⟨firstSite, []⟩ replacingSync,
    reach_final (by decide +kernel), ⟨by decide +kernel, by decide +kernel⟩, by decide +kernel,
    fun h => ?_⟩
  exact absurd (h (0, [107])) (by decide +kernel)

end PipewireGobject
