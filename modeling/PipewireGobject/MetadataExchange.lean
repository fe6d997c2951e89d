import Mathlib.Data.List.Dedup
import PipewireGobject.MetadataWrapper

namespace PipewireGobject

section PartialCopy

variable {ι : Type*} {β : Type*}

/-- A map that agrees with another wherever it is defined. -/
def PartialCopy (m' m : ι → Option β) : Prop := ∀ i, m' i = m i ∨ m' i = none

theorem PartialCopy.refl (m : ι → Option β) : PartialCopy m m := fun _ => .inl rfl

theorem PartialCopy.empty (m : ι → Option β) : PartialCopy (fun _ => none) m := fun _ => .inr rfl

theorem PartialCopy.trans {m₁ m₂ m₃ : ι → Option β} (h : PartialCopy m₁ m₂)
    (h' : PartialCopy m₂ m₃) : PartialCopy m₁ m₃ := by
  intro i
  rcases h i with he | hn
  · rw [he]
    exact h' i
  · exact .inr hn

/-- Where nothing that the other map holds is missing, the two are the same. -/
theorem PartialCopy.eq {m' m : ι → Option β} (h : PartialCopy m' m)
    (complete : ∀ i, m' i = none → m i = none) : m' = m := by
  funext i
  rcases h i with he | hn
  · exact he
  · rw [hn, complete i hn]

end PartialCopy

namespace MetadataMap

def after (changes : List MetadataChange) (m : MetadataMap) : MetadataMap :=
  changes.foldl (fun m change => m.change change) m

theorem after_append (xs ys : List MetadataChange) (m : MetadataMap) :
    m.after (xs ++ ys) = (m.after xs).after ys := List.foldl_append

theorem after_concat (xs : List MetadataChange) (change : MetadataChange) (m : MetadataMap) :
    m.after (xs ++ [change]) = (m.after xs).change change := after_append xs [change] m

/-- A change overwrites an index, or leaves it as it is. -/
theorem change_apply (change : MetadataChange) (i : UInt32 × CString) :
    (∀ m : MetadataMap, m.change change i = m i) ∨
      ∃ b, ∀ m : MetadataMap, m.change change i = b := by
  unfold MetadataMap.change
  cases change.key with
  | none =>
    by_cases hi : i.1 = change.subject
    · exact .inr ⟨none, fun m => if_pos hi⟩
    · exact .inl fun m => if_neg hi
  | some key =>
    by_cases hi : i = (change.subject, key)
    · refine .inr ⟨change.value.map fun value => (change.type, value), fun m => ?_⟩
      rw [hi]
      exact Function.update_self ..
    · exact .inl fun m => Function.update_of_ne hi ..

theorem change_partialCopy {m' m : MetadataMap} (h : PartialCopy m' m) (change : MetadataChange) :
    PartialCopy (m'.change change) (m.change change) := by
  intro i
  rcases change_apply change i with same | ⟨b, assigned⟩
  · rw [same, same]
    exact h i
  · rw [assigned, assigned]
    exact .inl rfl

theorem after_partialCopy {m' m : MetadataMap} (h : PartialCopy m' m)
    (changes : List MetadataChange) : PartialCopy (m'.after changes) (m.after changes) := by
  induction changes generalizing m' m with
  | nil => exact h
  | cons change changes ih => exact ih (change_partialCopy h change)

/-- The change that clears a subject. -/
def clearedSubject (subject : UInt32) : MetadataChange := ⟨subject, none, none, none⟩

theorem after_clearedSubjects (subjects : List UInt32) (m : MetadataMap) (i : UInt32 × CString) :
    m.after (subjects.map clearedSubject) i = if i.1 ∈ subjects then none else m i := by
  induction subjects generalizing m with
  | nil => simp [after]
  | cons subject subjects ih =>
    show (m.change (clearedSubject subject)).after (subjects.map clearedSubject) i = _
    rw [ih]
    by_cases hs : i.1 = subject <;> simp [MetadataMap.change, clearedSubject, hs]

end MetadataMap

/-- The metadata that a server keeps of an object. -/
abbrev MetadataStore := Table (UInt32 × CString) (Option CString × CString)

def storeChange (change : MetadataChange) (store : MetadataStore) : MetadataStore :=
  match change.key with
  | none => Table.keepKeys (fun i => i.1 ≠ change.subject) store
  | some key =>
    match change.value with
    | none => store.erase (change.subject, key)
    | some value => store.insert (change.subject, key) (change.type, value)

def storeView (store : MetadataStore) : MetadataMap := fun i => store.lookup i

theorem storeView_change (change : MetadataChange) (store : MetadataStore) :
    storeView (storeChange change store) = (storeView store).change change := by
  funext i
  unfold storeChange storeView MetadataMap.change
  cases change.key with
  | none =>
    refine (Table.lookup_keepKeys _ store i).trans ?_
    by_cases hi : i.1 = change.subject <;> simp [hi]
  | some key =>
    by_cases hi : i = (change.subject, key)
    · subst hi
      cases change.value <;> simp
    · dsimp only
      rw [Function.update_of_ne hi]
      cases change.value with
      | none => exact AList.lookup_erase_ne hi
      | some value => exact AList.lookup_insert_ne hi

/-- A request of the wrapper for which the server has not decided yet. -/
inductive MetadataRequest
  | set (change : MetadataChange)
  | clear
  deriving DecidableEq

/-- A server and the wrapper that is bound to its object. `requests` are on their way to the
server, and the events that it has `sent` are on their way to the wrapper. -/
structure MetadataExchange where
  store : MetadataStore
  requests : List MetadataRequest := []
  sent : List MetadataChange
  wrapper : MetadataWrapper

/-- What the application, the server, other clients and the two threads of the client do. For a
clear, `subjects` is the order in which the server sends its events. -/
inductive MetadataExchangeLabel
  | set (subject : UInt32) (key : CString) (type value : Option CString) (result : Int)
  | clear (result : Int)
  | handle (applied : Bool) (subjects : List UInt32)
  | otherClient (change : MetadataChange)
  | receive
  | dispatch
  deriving DecidableEq

def storeSubjects (store : MetadataStore) : List UInt32 := (store.keys.map Prod.fst).dedup

namespace MetadataExchange

/-- The store changes, and the wrapper will hear of it. -/
def publish (change : MetadataChange) (s : MetadataExchange) : MetadataExchange :=
  { s with store := storeChange change s.store, sent := s.sent ++ [change] }

def step (s : MetadataExchange) : MetadataExchangeLabel → Option MetadataExchange
  | .set subject key type value result =>
    some (if s.wrapper.set result then
      { s with requests := s.requests ++ [.set ⟨subject, some key, type, value⟩] } else s)
  | .clear result =>
    some { s with
      wrapper := (s.wrapper.clear result).1
      requests := if (s.wrapper.clear result).2 then s.requests ++ [.clear] else s.requests }
  | .handle applied subjects =>
    match s.requests with
    | [] => none
    | .set change :: rest =>
      some (if applied then { s with requests := rest }.publish change
        else { s with requests := rest })
    | .clear :: rest =>
      if applied = false then some { s with requests := rest }
      else if subjects.Perm (storeSubjects s.store) then
        some { s with
          store := ∅
          requests := rest
          sent := s.sent ++ subjects.map MetadataMap.clearedSubject }
      else none
  | .otherClient change => some (s.publish change)
  | .receive =>
    match s.sent with
    | [] => none
    | change :: rest =>
      (s.wrapper.report [] (.property change)).map fun wrapper =>
        { s with sent := rest, wrapper := wrapper }
  | .dispatch =>
    match s.wrapper.queue with
    | .event event :: rest =>
      some { s with
        wrapper := ({ s.wrapper with queue := rest }.dispatchEvent .succeeded event).1 }
    | _ => none

end MetadataExchange

/-- The change that an event brings. -/
def MetadataSource.change : MetadataSource → Option MetadataChange
  | .event e =>
    match e.news with
    | .changed _ change => some change
    | _ => none
  | .completion _ => none

namespace MetadataExchange

/-- The changes that the cache has not seen yet. -/
def pending (s : MetadataExchange) : List MetadataChange :=
  s.wrapper.queue.filterMap MetadataSource.change ++ s.sent

/-- What the cache will hold after the changes that are on their way. -/
def expected (s : MetadataExchange) : MetadataMap :=
  (metadataView s.wrapper.entries).after s.pending

/-- The wrapper is bound to an object, and the server sends what it has of it. -/
def init (id generation : UInt32) (store : MetadataStore) : MetadataExchange where
  store := store
  sent := store.entries.map fun item => ⟨item.1.1, some item.1.2, item.2.1, some item.2.2⟩
  wrapper :=
    { running := true
      bound := true
      metadataId := id
      generation := generation
      hasRegistry := true
      hasMetadata := true
      connected := true
      proxies := 1 }

/-- A clear is refused only where another one waits behind it, or where no entry of the store
is missing in the cache, the changes on their way included. -/
def keepsStore (s : MetadataExchange) : MetadataExchangeLabel → Bool
  | .handle false _ =>
    match s.requests with
    | .clear :: rest =>
      .clear ∈ rest || s.store.keys.all fun i => (s.expected i).isSome
    | _ => true
  | _ => true

end MetadataExchange

variable {s t : MetadataExchange}

/-- The cache and what is on its way to it make a part of the store, and the whole store unless a
clear of the wrapper is still to be handled. -/
structure ExchangeSettled (s : MetadataExchange) : Prop where
  running : s.wrapper.running = true
  live : ∀ source ∈ s.wrapper.queue, ∃ proxy change,
    source = .event ⟨s.wrapper.generation, .changed proxy change⟩
  filed : MetadataFiled s.wrapper.entries
  copy : PartialCopy s.expected (storeView s.store)
  settled : .clear ∉ s.requests → s.expected = storeView s.store

theorem ExchangeSettled.publish (h : ExchangeSettled s) (change : MetadataChange) :
    ExchangeSettled (s.publish change) := by
  have expected : (s.publish change).expected = s.expected.change change := by
    show (metadataView s.wrapper.entries).after (_ ++ (s.sent ++ [change])) = _
    rw [← List.append_assoc, MetadataMap.after_concat]
    rfl
  have store : storeView (s.publish change).store = (storeView s.store).change change :=
    storeView_change change s.store
  refine ⟨h.running, h.live, h.filed, ?_, fun hr => ?_⟩
  · rw [expected, store]
    exact MetadataMap.change_partialCopy h.copy change
  · rw [expected, store, h.settled hr]

/-- The requests change, and with them nothing that the wrapper sees. -/
theorem ExchangeSettled.requests (h : ExchangeSettled s) (requests : List MetadataRequest)
    (settled : .clear ∉ requests → s.expected = storeView s.store) :
    ExchangeSettled { s with requests := requests } :=
  ⟨h.running, h.live, h.filed, h.copy, settled⟩

theorem ExchangeSettled.clear (h : ExchangeSettled s) (result : Int) :
    ExchangeSettled { s with
      wrapper := (s.wrapper.clear result).1
      requests := if (s.wrapper.clear result).2 then s.requests ++ [.clear] else s.requests } := by
  unfold MetadataWrapper.clear
  split
  next => exact h
  next =>
    refine ⟨h.running, h.live, filed_empty, ?_, fun hr => absurd hr (by simp)⟩
    -- what is on its way reaches an empty cache
    refine PartialCopy.trans ?_ h.copy
    have empty : metadataView ∅ = fun _ => none := rfl
    show PartialCopy ((metadataView ∅).after s.pending) _
    rw [empty]
    exact MetadataMap.after_partialCopy (PartialCopy.empty _) s.pending

theorem ExchangeSettled.cleared {rest : List MetadataRequest} {subjects : List UInt32}
    (h : ExchangeSettled s) (present : subjects.Perm (storeSubjects s.store)) :
    ExchangeSettled { s with
      store := ∅
      requests := rest
      sent := s.sent ++ subjects.map MetadataMap.clearedSubject } := by
  have empty : (s.expected.after (subjects.map MetadataMap.clearedSubject)) = fun _ => none := by
    funext i
    rw [MetadataMap.after_clearedSubjects]
    split
    next => rfl
    next absent =>
      have missing : storeView s.store i = none := by
        refine AList.lookup_eq_none.mpr fun hi => absent (present.mem_iff.mpr ?_)
        exact List.mem_dedup.mpr (List.mem_map.mpr ⟨i, AList.mem_keys.mp hi, rfl⟩)
      exact (h.copy i).elim (fun he => he.trans missing) id
  have expected : MetadataExchange.expected { s with
      store := ∅
      requests := rest
      sent := s.sent ++ subjects.map MetadataMap.clearedSubject } = fun _ => none := by
    rw [← empty]
    show (metadataView s.wrapper.entries).after (_ ++ (s.sent ++ _)) = _
    rw [← List.append_assoc, MetadataMap.after_append]
    rfl
  refine ⟨h.running, h.live, h.filed, ?_, fun _ => ?_⟩
  · rw [expected]
    exact PartialCopy.empty _
  · rw [expected]
    rfl

/-- A clear is refused that leaves nothing missing, or not for long. -/
theorem ExchangeSettled.refused {subjects : List UInt32}
    {rest : List MetadataRequest} (h : ExchangeSettled s) (hr : s.requests = .clear :: rest)
    (kept : s.keepsStore (.handle false subjects) = true) :
    ExchangeSettled { s with requests := rest } := by
  refine h.requests rest fun last => ?_
  have complete : ∀ i ∈ s.store.keys, (s.expected i).isSome := by
    simpa [MetadataExchange.keepsStore, hr, last] using kept
  refine h.copy.eq fun i missing => AList.lookup_eq_none.mpr fun hi => ?_
  have found := complete i (AList.mem_keys.mp hi)
  simp [missing] at found

theorem ExchangeSettled.receive {change : MetadataChange} {rest : List MetadataChange}
    {wrapper : MetadataWrapper} (h : ExchangeSettled s) (hs : s.sent = change :: rest)
    (hw : s.wrapper.report [] (.property change) = some wrapper) :
    ExchangeSettled { s with sent := rest, wrapper := wrapper } := by
  unfold MetadataWrapper.report at hw
  split at hw
  next =>
    cases Option.some.inj hw
    have expected : MetadataExchange.expected { s with
        sent := rest
        wrapper := { s.wrapper with
          queue := s.wrapper.queue ++
            [.event ⟨s.wrapper.generation, .changed s.wrapper.proxies change⟩] } } =
        s.expected := by
      show (metadataView s.wrapper.entries).after (List.filterMap _ (_ ++ [_]) ++ rest) = _
      rw [List.filterMap_append, List.append_assoc]
      show _ = (metadataView s.wrapper.entries).after (_ ++ s.sent)
      rw [hs]
      rfl
    refine ⟨h.running, fun source hm => ?_, h.filed, ?_, fun hr => ?_⟩
    · rcases List.mem_append.mp hm with hm | hm
      · exact h.live source hm
      · exact ⟨s.wrapper.proxies, change, List.mem_singleton.mp hm⟩
    · exact expected.symm ▸ h.copy
    · exact expected.trans (h.settled hr)
  next => simp at hw

theorem ExchangeSettled.dispatch {event : MetadataEvent} {rest : List MetadataSource}
    (h : ExchangeSettled s) (hq : s.wrapper.queue = .event event :: rest) :
    ExchangeSettled { s with
      wrapper := ({ s.wrapper with queue := rest }.dispatchEvent .succeeded event).1 } := by
  obtain ⟨proxy, change, he⟩ := h.live (.event event) (by simp [hq])
  cases he
  have applied : (({ s.wrapper with queue := rest } : MetadataWrapper).dispatchEvent .succeeded
      ⟨s.wrapper.generation, .changed proxy change⟩).1 =
        ({ s.wrapper with queue := rest } : MetadataWrapper).cacheChange proxy change := by
    simp [MetadataWrapper.dispatchEvent, h.running]
  rw [applied]
  have expected : MetadataExchange.expected { s with
      wrapper := ({ s.wrapper with queue := rest } : MetadataWrapper).cacheChange proxy change } =
      s.expected := by
    show (metadataView (metadataCacheChange change s.wrapper.entries)).after _ = _
    rw [metadataView_change h.filed]
    show _ = (metadataView s.wrapper.entries).after (List.filterMap _ s.wrapper.queue ++ s.sent)
    rw [hq]
    rfl
  refine ⟨h.running, fun source hm => ?_, h.filed.change change, ?_, fun hr => ?_⟩
  · exact h.live source (by rw [hq]; exact List.mem_cons_of_mem _ hm)
  · exact expected.symm ▸ h.copy
  · exact expected.trans (h.settled hr)

theorem ExchangeSettled.step {label : MetadataExchangeLabel} (h : ExchangeSettled s)
    (kept : s.keepsStore label = true) (hs : s.step label = some t) : ExchangeSettled t := by
  cases label with
  | set subject key type value result =>
    cases Option.some.inj hs
    split
    next => exact h.requests _ fun hr => h.settled fun hm => hr (List.mem_append_left _ hm)
    next => exact h
  | clear result =>
    cases Option.some.inj hs
    exact h.clear result
  | handle applied subjects =>
    simp only [MetadataExchange.step] at hs
    split at hs
    next => simp at hs
    next change rest hr =>
      cases Option.some.inj hs
      have handled : ExchangeSettled { s with requests := rest } :=
        h.requests rest fun hm => h.settled (by simpa [hr] using hm)
      split
      next => exact handled.publish change
      next => exact handled
    next rest hr =>
      split at hs
      next refused =>
        cases Option.some.inj hs
        subst refused
        exact h.refused hr kept
      next =>
        split at hs
        next present =>
          cases Option.some.inj hs
          exact h.cleared present
        next => simp at hs
  | otherClient change =>
    cases Option.some.inj hs
    exact h.publish change
  | receive =>
    simp only [MetadataExchange.step] at hs
    split at hs
    next => simp at hs
    next change rest hsent =>
      obtain ⟨wrapper, hw, rfl⟩ := Option.map_eq_some_iff.mp hs
      exact h.receive hsent hw
  | dispatch =>
    simp only [MetadataExchange.step] at hs
    split at hs
    next event rest hq =>
      cases Option.some.inj hs
      exact h.dispatch hq
    next => simp at hs

/-- The events of a new binding set what the store holds. -/
theorem after_dump (items : List (Sigma fun _ : UInt32 × CString => Option CString × CString))
    (nodup : items.NodupKeys) (m : MetadataMap) (i : UInt32 × CString) :
    m.after (items.map fun item => ⟨item.1.1, some item.1.2, item.2.1, some item.2.2⟩) i =
      (items.dlookup i).or (m i) := by
  induction items generalizing m with
  | nil => rfl
  | cons item items ih =>
    obtain ⟨k, b⟩ := item
    obtain ⟨fresh, nodup⟩ := List.nodupKeys_cons.mp nodup
    rw [List.map_cons, MetadataMap.after, List.foldl_cons]
    refine (ih nodup _).trans ?_
    by_cases hi : i = k
    · subst hi
      rw [List.dlookup_eq_none.mpr fresh, List.dlookup_cons_eq]
      simp [MetadataMap.change]
    · rw [List.dlookup_cons_ne _ _ hi]
      simp [MetadataMap.change, Function.update_of_ne hi]

theorem exchangeSettled_init (id generation : UInt32) (store : MetadataStore) :
    ExchangeSettled (.init id generation store) := by
  have expected : (MetadataExchange.init id generation store).expected = storeView store := by
    funext i
    refine (after_dump store.entries store.nodupKeys _ i).trans ?_
    show (store.lookup i).or none = store.lookup i
    exact Option.or_none
  refine ⟨rfl, by simp [MetadataExchange.init], filed_empty, ?_, fun _ => expected⟩
  rw [expected]
  exact PartialCopy.refl _

/-- Every request has been handled, and every event dispatched. -/
def MetadataExchange.Quiescent (s : MetadataExchange) : Prop :=
  s.requests = [] ∧ s.sent = [] ∧ s.wrapper.queue = []

instance (s : MetadataExchange) : Decidable s.Quiescent :=
  inferInstanceAs (Decidable (s.requests = [] ∧ s.sent = [] ∧ s.wrapper.queue = []))

theorem metadataCache_agrees {id generation : UInt32} {store : MetadataStore}
    (h : Reach MetadataExchange.step (fun s label => s.keepsStore label = true)
      (.init id generation store) s) (quiescent : s.Quiescent) :
    metadataView s.wrapper.entries = storeView s.store := by
  have settled := h.invariant (exchangeSettled_init id generation store)
    fun _ _ _ hi kept hs => hi.step kept hs
  obtain ⟨requests, sent, queue⟩ := quiescent
  have expected : s.expected = metadataView s.wrapper.entries := by
    unfold MetadataExchange.expected MetadataExchange.pending
    rw [sent, queue]
    rfl
  rw [← expected]
  exact settled.settled (by simp [requests])

/-- Another client sets a key between the clear and the decision of the server, which refuses
the clear and applies the one behind it. -/
def clearedTwice : MetadataExchange :=
  final MetadataExchange.step (.init 7 1 (AList.singleton (0, [107]) (none, [65])))
    [.receive, .dispatch, .clear 0, .otherClient ⟨4, some [120], none, some [66]⟩, .clear 0,
      .handle false [], .set 4 [121] none (some [67]) 0, .receive, .dispatch, .handle true [4, 0],
      .handle true [], .receive, .dispatch, .receive, .receive, .dispatch, .dispatch]

theorem metadataCache_agrees_clearedTwice :
    metadataDupValue clearedTwice.wrapper.entries 4 [121] = some [67] ∧
      metadataView clearedTwice.wrapper.entries = storeView clearedTwice.store :=
  ⟨by decide +kernel, metadataCache_agrees (s := clearedTwice)
    (reach_final (by decide +kernel)) (by decide +kernel)⟩

/-- The server refuses a clear. -/
def clearRefused : MetadataExchange :=
  final MetadataExchange.step (.init 7 1 (AList.singleton (0, [107]) (none, [65])))
    [.receive, .dispatch, .clear 0, .handle false []]

theorem metadataCache_agrees_fails :
    Reach MetadataExchange.step anyStep (.init 7 1 (AList.singleton (0, [107]) (none, [65])))
        clearRefused ∧
      clearRefused.Quiescent ∧
      metadataView clearRefused.wrapper.entries ≠ storeView clearRefused.store := by
  refine ⟨reach_final (allAllowed_anyStep _ _), by decide +kernel, fun h => ?_⟩
  have agree := congrFun h (0, [107])
  revert agree
  decide +kernel

end PipewireGobject
