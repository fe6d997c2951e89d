import PipewireGobject.ObjectParams

namespace PipewireGobject

/-- The parameter that an event brings. -/
def ObjectEvent.carried (event : ObjectEvent) : Option Param :=
  match event.change with
  | .param param => some param
  | _ => none

def ObjectStmt.carried : ObjectStmt → Option Param
  | .dispatch event => event.carried
  | _ => none

def ObjectSource.carried : ObjectSource → Option Param
  | .event e => e.carried
  | .completion _ => none

/-- The parameters on their way into the list: one that is dispatched, and the queued ones. -/
def paramsInFlight (s : ObjectWrapper) (code : List ObjectStmt) : List Param :=
  code.filterMap ObjectStmt.carried ++ s.queue.filterMap ObjectSource.carried

def SyncCaller.request : SyncCaller → Option Int
  | .sync => none
  | .enumParams seq => some seq

def AfterStart.request : AfterStart → Option Int
  | .sync caller => caller.request
  | _ => none

/-- The request whose synchronous enumeration a statement belongs to. -/
def ObjectStmt.request : ObjectStmt → Option Int
  | .start next | .startProxies next => next.request
  | .coreSync caller | .syncEnter caller | .syncWait _ caller => caller.request
  | .syncIterate _ request => request.map Prod.fst
  | _ => none

/-- The stack frame that a roundtrip has its data in. -/
def ObjectStmt.frame : ObjectStmt → Option Nat
  | .syncWait slot _ | .syncIterate slot _ => some slot
  | _ => none

/-- The request whose closing roundtrip is done. -/
def ObjectStmt.closed : ObjectStmt → Option Int
  | .syncIterate _ request => request.map Prod.fst
  | _ => none

/-- The list holds no parameter of a request that a synchronous enumeration waits for. -/
def nothingAwaited (s : ObjectWrapper) (rest : List ObjectStmt) : Bool :=
  rest.all fun j => j.request.all fun seq => paramsForSeq seq s.params = []

/-- Parameters that a synchronous enumeration waits for are not dropped and not cleared, and a
roundtrip gets a stack frame to which no completion is under way. -/
def ObjectStmt.keepsReplies (choice : ObjectChoice) (s : ObjectWrapper)
    (rest : List ObjectStmt) : ObjectStmt → Bool
  | .dispatch event =>
    match event.change with
    | .param param => event.live s || rest.all fun j => j.request ≠ some param.seq
    | _ => true
  | .clearParams => nothingAwaited s rest
  | .enumParams _ =>
    !(s.hasObject && s.bound && s.connected) || nothingAwaited s rest
  | .syncEnter _ =>
    choice.slot ∉ rest.filterMap ObjectStmt.frame ∧ .completion choice.slot ∉ s.queue
  | _ => true

/-- The number that `enum_params` returns for a result of PipeWire. -/
def requestSeq (result : Int) (s : ObjectWrapper) : Int :=
  if spaResultIsAsync result then result else s.nextSeq

/-- A request gets a number that no parameter has carried so far. -/
def ObjectStmt.freshRequest (choice : ObjectChoice) (s : ObjectWrapper) : ObjectStmt → Bool
  | .enumParamsCall true => paramsForSeq (requestSeq choice.number s) s.delivered = []
  | _ => true

/-- After the Done of the closing roundtrip no parameter of a request comes any more. -/
def ObjectCallback.repliesInTime (code : List ObjectStmt) : ObjectCallback → Bool
  | .param seq _ _ _ _ => code.all fun j => j.closed ≠ some seq
  | _ => true

/-- The server answers a request before a later roundtrip, and numbers differ. -/
def ServerAnswers (c : Config ObjectWrapper ObjectStmt) :
    Label ObjectCall ObjectChoice ObjectCallback → Prop
  | .run choice => ∀ i ∈ c.code.head?, i.freshRequest choice c.state = true
  | .environment callback => callback.repliesInTime c.code = true
  | .call _ => True

def ObjectKeepsReplies (c : Config ObjectWrapper ObjectStmt) :
    Label ObjectCall ObjectChoice ObjectCallback → Prop
  | .run choice => ∀ i ∈ c.code.head?, i.keepsReplies choice c.state c.code.tail = true
  | .call _ | .environment _ => True

instance (c : Config ObjectWrapper ObjectStmt) : DecidablePred (ServerAnswers c)
  | .run choice => inferInstanceAs (Decidable (∀ i ∈ c.code.head?,
      i.freshRequest choice c.state = true))
  | .environment callback => inferInstanceAs (Decidable (callback.repliesInTime c.code = true))
  | .call _ => .isTrue trivial

instance (c : Config ObjectWrapper ObjectStmt) : DecidablePred (ObjectKeepsReplies c)
  | .run choice => inferInstanceAs (Decidable (∀ i ∈ c.code.head?,
      i.keepsReplies choice c.state c.code.tail = true))
  | .call _ | .environment _ => .isTrue trivial

variable {kind : ObjectKind} {objectId : UInt32}
variable {s t : ObjectWrapper} {code new rest : List ObjectStmt} {i : ObjectStmt}
variable {choice : ObjectChoice} {seq : Int} {slot : Nat} {expected : List Param}

theorem paramsForSeq_append (seq : Int) (xs ys : List Param) :
    paramsForSeq seq (xs ++ ys) = paramsForSeq seq xs ++ paramsForSeq seq ys :=
  List.filter_append xs ys

theorem paramsForSeq_eq_nil {params : List Param} :
    paramsForSeq seq params = [] ↔ ∀ p ∈ params, p.seq ≠ seq := by
  simp [paramsForSeq, List.filter_eq_nil_iff]

/-- After its Done, what belongs to a request has been queued ahead of the completion. -/
structure ClosedFrame (s : ObjectWrapper) (flight : List Param) (slot : Nat) (seq : Int)
    (expected : List Param) : Prop where
  expected : expected = paramsForSeq seq s.delivered
  ordered : ∀ before after, s.queue = before ++ .completion slot :: after →
    paramsForSeq seq (after.filterMap ObjectSource.carried) = []
  completed : slot ∈ s.completed → paramsForSeq seq flight = []

/-- Every parameter of a request that is waited for is in the list or on its way into it. -/
structure Enumerating (s : ObjectWrapper) (code : List ObjectStmt) : Prop where
  dispatching : ∀ j ∈ code.tail, j.carried = none
  known : ∀ p ∈ s.params ++ paramsInFlight s code, p ∈ s.delivered
  kept : ∀ j ∈ code, ∀ seq, j.request = some seq →
    paramsForSeq seq (s.params ++ paramsInFlight s code) = paramsForSeq seq s.delivered
  closed : ∀ slot seq expected, .syncIterate slot (some (seq, expected)) ∈ code →
    ClosedFrame s (paramsInFlight s code) slot seq expected
  waiting : ∀ slot caller, .syncWait slot caller ∈ code →
    slot ∉ s.completed ∧ .completion slot ∉ s.queue
  frames : (code.filterMap ObjectStmt.frame).Nodup
  exact : ∀ r ∈ s.enumerated, r.returned = r.expected

theorem paramsInFlight_of_none (h : ∀ j ∈ code, j.carried = none) :
    paramsInFlight s code = s.queue.filterMap ObjectSource.carried := by
  rw [paramsInFlight, List.filterMap_eq_nil_iff.mpr h, List.nil_append]

theorem Enumerating.paramsInFlight_cons (h : Enumerating s (i :: rest)) :
    paramsInFlight s (i :: rest) = i.carried.toList ++ s.queue.filterMap ObjectSource.carried := by
  have none : rest.filterMap ObjectStmt.carried = [] := List.filterMap_eq_nil_iff.mpr h.dispatching
  rw [paramsInFlight, List.filterMap_cons]
  cases i.carried <;> simp [none]

/-- What has been delivered, queued and completed is the same. -/
structure SameReplies (s t : ObjectWrapper) : Prop where
  delivered : t.delivered = s.delivered
  queue : t.queue = s.queue
  completed : t.completed = s.completed
  enumerated : t.enumerated = s.enumerated

theorem SameReplies.refl (s : ObjectWrapper) : SameReplies s s := ⟨rfl, rfl, rfl, rfl⟩

/-- A statement that brings no parameter and uses no frame. -/
def ObjectStmt.plain (j : ObjectStmt) : Bool := j.carried = none && j.frame = none

/-- The statements that neither bring a parameter nor belong to a roundtrip. -/
def ObjectStmt.idle : ObjectStmt → Bool
  | .dispatch _ | .start _ | .startProxies _ | .coreSync _ | .syncEnter _ | .syncWait _ _
  | .syncIterate _ _ => false
  | _ => true

theorem ObjectStmt.idle_spec {j : ObjectStmt} (h : j.idle = true) :
    j.plain = true ∧ j.request = none := by
  cases j <;> first | exact ⟨rfl, rfl⟩ | simp [ObjectStmt.idle] at h

theorem Enumerating.step (h : Enumerating s (i :: rest)) (same : SameReplies s t)
    (hn : ∀ j ∈ new, j.plain = true)
    (known : ∀ p ∈ t.params, p ∈ s.params ++ paramsInFlight s (i :: rest))
    (kept : ∀ j ∈ new ++ rest, ∀ seq, j.request = some seq →
      paramsForSeq seq (t.params ++ s.queue.filterMap ObjectSource.carried) =
        paramsForSeq seq s.delivered) :
    Enumerating t (new ++ rest) := by
  have plain (j : ObjectStmt) (hj : j ∈ new) : j.carried = none ∧ j.frame = none := by
    simpa [ObjectStmt.plain] using hn j hj
  have restCarried : ∀ j ∈ rest, j.carried = none := h.dispatching
  have codeCarried : ∀ j ∈ new ++ rest, j.carried = none := fun j hj =>
    (List.mem_append.mp hj).elim (fun hj => (plain j hj).1) (restCarried j)
  have flight : paramsInFlight t (new ++ rest) = s.queue.filterMap ObjectSource.carried := by
    rw [paramsInFlight_of_none codeCarried, same.queue]
  have before := h.paramsInFlight_cons
  have framed (j : ObjectStmt) (hj : j ∈ new ++ rest) (hf : j.frame ≠ none) : j ∈ i :: rest :=
    (List.mem_append.mp hj).elim (fun hj => absurd (plain j hj).2 hf) (List.mem_cons_of_mem i)
  refine ⟨fun j hj => codeCarried j (List.mem_of_mem_tail hj), fun p hp => ?_, ?_, ?_, ?_, ?_, ?_⟩
  · rw [same.delivered]
    rcases List.mem_append.mp hp with hp | hp
    · exact h.known p (known p hp)
    · rw [flight] at hp
      refine h.known p (List.mem_append_right _ ?_)
      rw [before]
      exact List.mem_append_right _ hp
  · intro j hj seq hr
    rw [flight, same.delivered]
    exact kept j hj seq hr
  · intro slot seq expected hj
    have frame := h.closed slot seq expected (framed _ hj (by simp [ObjectStmt.frame]))
    refine ⟨by rw [same.delivered]; exact frame.expected, ?_, fun hc => ?_⟩
    · rw [same.queue]
      exact frame.ordered
    · rw [same.completed] at hc
      have empty := frame.completed hc
      rw [before, paramsForSeq_append] at empty
      rw [flight]
      exact (List.append_eq_nil_iff.mp empty).2
  · intro slot caller hj
    rw [same.completed, same.queue]
    exact h.waiting slot caller (framed _ hj (by simp [ObjectStmt.frame]))
  · have none : new.filterMap ObjectStmt.frame = [] :=
      List.filterMap_eq_nil_iff.mpr fun j hj => (plain j hj).2
    rw [List.filterMap_append, none, List.nil_append]
    exact h.frames.sublist ((List.sublist_cons_self i rest).filterMap _)
  · rw [same.enumerated]
    exact h.exact

/-- A statement that goes on with a request that was waited for before, or with none. -/
def ObjectStmt.continues (i j : ObjectStmt) : Bool :=
  j.plain && (j.request = none || j.request = i.request)

theorem continues_of_idle (h : ∀ j ∈ new, j.idle = true) : ∀ j ∈ new, i.continues j = true := by
  intro j hj
  obtain ⟨plain, request⟩ := ObjectStmt.idle_spec (h j hj)
  simp [ObjectStmt.continues, plain, request]

theorem Enumerating.keep (h : Enumerating s (i :: rest)) (same : SameReplies s t)
    (params : t.params = s.params) (carried : i.carried = none)
    (hn : ∀ j ∈ new, i.continues j = true) : Enumerating t (new ++ rest) := by
  have flight := h.paramsInFlight_cons
  rw [carried] at flight
  have continues (j : ObjectStmt) (hj : j ∈ new) :
      j.plain = true ∧ (j.request = none ∨ j.request = i.request) := by
    simpa [ObjectStmt.continues] using hn j hj
  refine h.step same (fun j hj => (continues j hj).1) (fun p hp => ?_) fun j hj seq hr => ?_
  · exact List.mem_append_left _ (params ▸ hp)
  rw [params]
  rcases List.mem_append.mp hj with hj | hj
  · have other := (continues j hj).2.resolve_left (by simp [hr])
    have kept := h.kept i List.mem_cons_self seq (other.symm.trans hr)
    rwa [flight] at kept
  · have kept := h.kept j (List.mem_cons_of_mem i hj) seq hr
    rwa [flight] at kept

theorem Enumerating.append {param : Param} (h : Enumerating s (i :: rest))
    (carried : i.carried = some param) (same : SameReplies s t)
    (params : t.params = s.params ++ [param])
    (hn : ∀ j ∈ new, j.idle = true) : Enumerating t (new ++ rest) := by
  have flight := h.paramsInFlight_cons
  rw [carried] at flight
  have moved : t.params ++ s.queue.filterMap ObjectSource.carried =
      s.params ++ paramsInFlight s (i :: rest) := by
    rw [params, flight, List.append_assoc]
    rfl
  refine h.step same (fun j hj => (ObjectStmt.idle_spec (hn j hj)).1) (fun p hp => ?_)
    fun j hj seq hr => ?_
  · rw [← moved]
    exact List.mem_append_left _ hp
  · rw [moved]
    rcases List.mem_append.mp hj with hj | hj
    · simp [(ObjectStmt.idle_spec (hn j hj)).2] at hr
    · exact h.kept j (List.mem_cons_of_mem i hj) seq hr

/-- A parameter that nobody waits for is dropped. -/
theorem Enumerating.drop {param : Param} (h : Enumerating s (i :: rest))
    (carried : i.carried = some param) (unawaited : ∀ j ∈ rest, j.request ≠ some param.seq) :
    Enumerating s rest := by
  have flight := h.paramsInFlight_cons
  rw [carried] at flight
  rw [← List.nil_append rest]
  refine h.step (.refl s) (by simp) (fun p hp => List.mem_append_left _ hp) ?_
  intro j hj seq hr
  have kept := h.kept j (List.mem_cons_of_mem i hj) seq hr
  have other : param.seq ≠ seq := fun he => unawaited j hj (he ▸ hr)
  rw [flight, paramsForSeq_append, paramsForSeq_append] at kept
  rw [paramsForSeq_append, ← kept]
  simp [paramsForSeq, other]

/-- The list is cleared while it holds nothing that is waited for. -/
theorem Enumerating.clear (h : Enumerating s (i :: rest)) (same : SameReplies s t)
    (params : t.params = []) (carried : i.carried = none)
    (hn : ∀ j ∈ new, j.idle = true)
    (nothing : nothingAwaited s rest = true) : Enumerating t (new ++ rest) := by
  have flight := h.paramsInFlight_cons
  rw [carried] at flight
  refine h.step same (fun j hj => (ObjectStmt.idle_spec (hn j hj)).1) (by simp [params])
    fun j hj seq hr => ?_
  rcases List.mem_append.mp hj with hj | hj
  · simp [(ObjectStmt.idle_spec (hn j hj)).2] at hr
  have kept := h.kept j (List.mem_cons_of_mem i hj) seq hr
  have empty : paramsForSeq seq s.params = [] := by
    have each := List.all_eq_true.mp nothing j hj
    simpa [hr] using each
  rw [flight, paramsForSeq_append, empty] at kept
  rw [params]
  exact kept

theorem Enumerating.request (h : Enumerating s (i :: rest)) (same : SameReplies s t)
    (params : t.params = s.params) (carried : i.carried = none)
    (fresh : paramsForSeq seq s.delivered = []) :
    Enumerating t ([.start (.sync (.enumParams seq))] ++ rest) := by
  have flight := h.paramsInFlight_cons
  rw [carried] at flight
  refine h.step same (by simp [ObjectStmt.plain,
    ObjectStmt.carried, ObjectStmt.frame]) (fun p hp => List.mem_append_left _ (params ▸ hp)) ?_
  intro j hj seq' hr
  rw [params]
  rcases List.mem_cons.mp hj with rfl | hj
  · cases Option.some.inj hr
    rw [fresh]
    refine paramsForSeq_eq_nil.mpr fun p hp => ?_
    refine paramsForSeq_eq_nil.mp fresh p (h.known p ?_)
    rwa [flight]
  · have kept := h.kept j (List.mem_cons_of_mem i hj) seq' hr
    rwa [flight] at kept

/-- A roundtrip begins in a frame that nothing else uses. -/
theorem Enumerating.enter {caller : SyncCaller} (h : Enumerating s (.syncEnter caller :: rest))
    (unused : slot ∉ rest.filterMap ObjectStmt.frame) (idle : .completion slot ∉ s.queue) :
    Enumerating { s with completed := s.completed.filter fun other => other ≠ slot }
      (.syncWait slot caller :: rest) := by
  have restCarried : ∀ j ∈ rest, j.carried = none := h.dispatching
  refine ⟨restCarried, h.known, fun j hj seq hr => ?_, ?_, ?_, ?_, h.exact⟩
  · rcases List.mem_cons.mp hj with rfl | hj
    · exact h.kept _ List.mem_cons_self seq hr
    · exact h.kept j (List.mem_cons_of_mem _ hj) seq hr
  · intro other seq expected hj
    have hj := (List.mem_cons.mp hj).resolve_left (by simp)
    have frame := h.closed other seq expected (List.mem_cons_of_mem _ hj)
    exact ⟨frame.expected, frame.ordered, fun hc => frame.completed (List.mem_filter.mp hc).1⟩
  · intro other caller' hj
    rcases List.mem_cons.mp hj with he | hj
    · cases he
      exact ⟨fun hc => by simpa using (List.mem_filter.mp hc).2, idle⟩
    · obtain ⟨hc, hq⟩ := h.waiting other caller' (List.mem_cons_of_mem _ hj)
      exact ⟨fun hm => hc (List.mem_filter.mp hm).1, hq⟩
  · exact List.nodup_cons.mpr ⟨unused, h.frames⟩

theorem completions_carried (n : Nat) (slot : Nat) :
    (List.replicate n (ObjectSource.completion slot)).filterMap ObjectSource.carried = [] :=
  List.filterMap_eq_nil_iff.mpr fun source hs => by rw [List.eq_of_mem_replicate hs]; rfl

/-- Completions at the end of the queue have nothing behind them. -/
theorem carried_after_completions {before after queue : List ObjectSource} {n other : Nat}
    (h : queue ++ List.replicate n (.completion slot) = before ++ .completion other :: after)
    (ordered : ∀ before after, queue = before ++ .completion other :: after →
      paramsForSeq seq (after.filterMap ObjectSource.carried) = []) :
    paramsForSeq seq (after.filterMap ObjectSource.carried) = [] := by
  rcases List.append_eq_append_iff.mp h with ⟨middle, -, he⟩ | ⟨middle, hq, he⟩
  · have none := completions_carried n slot
    rw [he, List.filterMap_append, List.append_eq_nil_iff, List.filterMap_cons] at none
    have none : after.filterMap ObjectSource.carried = [] := none.2
    rw [none]
    rfl
  · cases middle with
    | nil =>
      have none := completions_carried n slot
      rw [← List.nil_append (List.replicate n _), ← he, List.filterMap_cons] at none
      have none : after.filterMap ObjectSource.carried = [] := none
      rw [none]
      rfl
    | cons first middle =>
      rw [List.cons_append] at he
      obtain ⟨rfl, ha⟩ := List.cons.inj he
      rw [ha, List.filterMap_append, completions_carried, List.append_nil]
      exact ordered before middle hq

/-- Completions are queued for a roundtrip that does not wait for its Done any more. -/
theorem Enumerating.signal (h : Enumerating s code) (n : Nat)
    (ended : ∀ caller, .syncWait slot caller ∉ code) :
    Enumerating { s with queue := s.queue ++ List.replicate n (.completion slot) } code := by
  have flight : paramsInFlight { s with queue := s.queue ++ List.replicate n (.completion slot) }
      code = paramsInFlight s code := by
    rw [paramsInFlight, List.filterMap_append, completions_carried, List.append_nil]
    rfl
  refine ⟨h.dispatching, ?_, ?_, ?_, ?_, h.frames, h.exact⟩
  · rw [flight]
    exact h.known
  · rw [flight]
    exact h.kept
  · intro other seq expected hj
    have frame := h.closed other seq expected hj
    rw [flight]
    exact ⟨frame.expected, fun before after he => carried_after_completions he frame.ordered,
      frame.completed⟩
  · intro other caller hj
    obtain ⟨hc, hq⟩ := h.waiting other caller hj
    refine ⟨hc, fun hm => ?_⟩
    rcases List.mem_append.mp hm with hm | hm
    · exact hq hm
    · cases List.eq_of_mem_replicate hm
      exact ended caller hj

/-- A roundtrip goes on to iterate the main context, where its completion is still to come. -/
theorem Enumerating.close {caller : SyncCaller} {request : Option (Int × List Param)}
    (h : Enumerating s (.syncWait slot caller :: rest))
    (hr : ∀ seq expected, request = some (seq, expected) →
      caller = .enumParams seq ∧ expected = paramsForSeq seq s.delivered) :
    Enumerating s (.syncIterate slot request :: rest) := by
  obtain ⟨unfinished, idle⟩ := h.waiting slot caller List.mem_cons_self
  refine ⟨h.dispatching, h.known, fun j hj seq awaited => ?_, fun other seq expected hj => ?_,
    fun other caller' hj => ?_, h.frames, h.exact⟩
  · rcases List.mem_cons.mp hj with rfl | hj
    · obtain ⟨made, hm, rfl⟩ := Option.map_eq_some_iff.mp awaited
      have same := (hr made.1 made.2 hm).1
      exact h.kept _ List.mem_cons_self made.1 (by rw [same]; rfl)
    · exact h.kept j (List.mem_cons_of_mem _ hj) seq awaited
  · rcases List.mem_cons.mp hj with he | hj
    · cases he
      refine ⟨(hr _ _ rfl).2, fun before after hq => absurd ?_ idle, fun hc => absurd hc unfinished⟩
      rw [hq]
      simp
    · exact h.closed other seq expected (List.mem_cons_of_mem _ hj)
  · have hj := (List.mem_cons.mp hj).resolve_left (by simp)
    exact h.waiting other caller' (List.mem_cons_of_mem _ hj)

/-- The Done of a roundtrip has been processed. -/
theorem Enumerating.done {caller : SyncCaller} (h : Enumerating s (.syncWait slot caller :: rest))
    (n : Nat) (hn : new = [] ∨ ∃ request, new = [.syncIterate slot request] ∧
      ∀ seq expected, request = some (seq, expected) →
        caller = .enumParams seq ∧ expected = paramsForSeq seq s.delivered) :
    Enumerating { s with queue := s.queue ++ List.replicate n (.completion slot) }
      (new ++ rest) := by
  have ended (caller' : SyncCaller) : .syncWait slot caller' ∉ rest := fun hj =>
    (List.nodup_cons.mp h.frames).1 (List.mem_filterMap.mpr ⟨_, hj, rfl⟩)
  rcases hn with rfl | ⟨request, rfl, hr⟩
  · have failed : Enumerating s ([] ++ rest) := h.keep (.refl s) rfl rfl (by simp)
    exact failed.signal n ended
  · refine (h.close hr).signal n fun caller' hj => ?_
    exact ended caller' ((List.mem_cons.mp hj).resolve_left (by simp))

/-- The completion of a roundtrip has been dispatched, and with it everything ahead of it. -/
theorem Enumerating.finish (h : Enumerating s (.syncIterate slot (some (seq, expected)) :: rest))
    (hc : slot ∈ s.completed) : Enumerating
      { s with enumerated := s.enumerated ++ [⟨paramsForSeq seq s.params, expected⟩] } rest := by
  have base : Enumerating s ([] ++ rest) := h.keep (.refl s) rfl rfl (by simp)
  have frame := h.closed slot seq expected List.mem_cons_self
  have returned : paramsForSeq seq s.params = expected := by
    have kept := h.kept _ List.mem_cons_self seq rfl
    rw [paramsForSeq_append, frame.completed hc, List.append_nil] at kept
    exact kept.trans frame.expected.symm
  refine ⟨base.dispatching, base.known, base.kept, ?_, base.waiting, base.frames, ?_⟩
  · intro other seq expected hj
    have frame := base.closed other seq expected hj
    exact ⟨frame.expected, frame.ordered, frame.completed⟩
  · intro r hr
    rcases List.mem_append.mp hr with hr | hr
    · exact h.exact r hr
    · rw [List.mem_singleton.mp hr]
      exact returned

/-- The statements that leave the parameters and the frames alone. -/
def ObjectStmt.leavesReplies : ObjectStmt → Bool
  | .dispatch _ | .clearParams | .enumParams _ | .enumParamsCall _ | .syncEnter _
  | .syncWait _ _ | .syncIterate _ _ => false
  | _ => true

theorem objectUpdates_idle (state : Option (CString × Option CString))
    (paramInfos : Option (List ParamInfo)) :
    ∀ j ∈ objectUpdates kind state paramInfos, j.idle = true := by
  cases kind with
  | node | link => cases state <;> cases paramInfos <;> simp [objectUpdates, ObjectStmt.idle]
  | device => simp [objectUpdates, ObjectStmt.idle]

/-- A call for the same request. -/
theorem continues_of_call {j : ObjectStmt} (plain : j.plain = true)
    (request : j.request = i.request) : i.continues j = true := by
  simp [ObjectStmt.continues, plain, request]

theorem afterStart_continues (next : AfterStart) (h : next.request = i.request) :
    ∀ j ∈ next.code, i.continues j = true := by
  cases next with
  | nothing => simp [AfterStart.code]
  | enumParams => exact continues_of_idle (by simp [AfterStart.code, ObjectStmt.idle])
  | sync caller =>
    intro j hj
    rw [List.mem_singleton.mp hj]
    exact continues_of_call rfl h

theorem objectExec_leavesReplies (kind : ObjectKind) (choice : ObjectChoice) (s : ObjectWrapper)
    (hi : i.leavesReplies = true) :
    SameReplies s (objectExec kind choice i s).1 ∧
      (objectExec kind choice i s).1.params = s.params ∧
      ∀ j ∈ (objectExec kind choice i s).2, i.continues j = true := by
  cases i with
  | handlers | appendParamInfo | clearParamInfos | emit =>
    exact ⟨{ SameReplies.refl s with }, rfl,
      continues_of_idle (by simp [objectExec, ObjectStmt.idle])⟩
  | updateState | updateError | connect | clearState | clearError | clearBound =>
    simp only [objectExec]
    split <;> exact ⟨{ SameReplies.refl s with }, rfl,
      continues_of_idle (by simp [ObjectStmt.idle])⟩
  | updateParamInfos paramInfos =>
    refine ⟨{ SameReplies.refl s with }, rfl, continues_of_idle fun j hj => ?_⟩
    rcases List.mem_cons.mp hj with rfl | hj
    · rfl
    rcases List.mem_append.mp hj with hj | hj
    · obtain ⟨paramInfo, -, rfl⟩ := List.mem_map.mp hj
      rfl
    · cases List.mem_singleton.mp hj
      rfl
  | start next =>
    simp only [objectExec]
    split
    · exact ⟨.refl s, rfl, afterStart_continues next rfl⟩
    · split <;> exact ⟨.refl s, rfl, by simp [ObjectStmt.continues, ObjectStmt.plain,
        ObjectStmt.carried, ObjectStmt.frame, ObjectStmt.request]⟩
  | startProxies next =>
    simp only [objectExec]
    obtain ⟨hasRegistry, hasObject, hs⟩ | hs := objectStart_cases choice.result next s
    · rw [hs]
      exact ⟨{ SameReplies.refl s with }, rfl, by simp⟩
    · rw [hs]
      have emitted : ∀ j ∈ [.emit .notifyRunning, .emit .notifyBound],
          (ObjectStmt.startProxies next).continues j = true :=
        continues_of_idle (by simp [ObjectStmt.idle])
      exact ⟨{ SameReplies.refl s with }, rfl,
        List.forall_mem_append.mpr ⟨emitted, afterStart_continues next rfl⟩⟩
  | coreSync caller =>
    simp only [objectExec]
    split <;> exact ⟨.refl s, rfl, by simp [ObjectStmt.continues, ObjectStmt.plain,
      ObjectStmt.carried, ObjectStmt.frame, ObjectStmt.request]⟩
  | stop =>
    simp only [objectExec, objectStopSession]
    split <;> exact ⟨{ SameReplies.refl s with }, rfl,
      continues_of_idle (by simp [objectEndSession, ObjectStmt.idle])⟩
  | coreConnectedNotify =>
    simp only [objectExec]
    split <;> exact ⟨{ SameReplies.refl s with }, rfl,
      continues_of_idle (by simp [objectEndSession, ObjectStmt.idle])⟩
  | clearRunning =>
    simp only [objectExec]
    split <;> cases kind <;> exact ⟨{ SameReplies.refl s with }, rfl,
      continues_of_idle (by simp [clearCopied, ObjectStmt.idle])⟩
  | _ => simp [ObjectStmt.leavesReplies] at hi

/-- A stale event is dropped, and with it a parameter that nobody waits for. -/
theorem Enumerating.stale {event : ObjectEvent} (h : Enumerating s (.dispatch event :: rest))
    (dead : event.live s = false)
    (replies : (ObjectStmt.dispatch event).keepsReplies choice s rest = true) :
    Enumerating s rest := by
  have carried : (ObjectStmt.dispatch event).carried = event.carried := rfl
  cases hc : event.change with
  | param param =>
    have brought : (ObjectStmt.dispatch event).carried = some param := by
      rw [carried, ObjectEvent.carried, hc]
    have unawaited : ∀ j ∈ rest, j.request ≠ some param.seq := by
      simpa [ObjectStmt.keepsReplies, hc, dead] using replies
    exact h.drop brought unawaited
  | info | removed =>
    have brought : (ObjectStmt.dispatch event).carried = none := by
      rw [carried, ObjectEvent.carried, hc]
    show Enumerating s ([] ++ rest)
    exact h.keep (.refl s) rfl brought (by simp)

theorem Enumerating.dispatch {event : ObjectEvent} (h : Enumerating s (.dispatch event :: rest))
    (replies : (ObjectStmt.dispatch event).keepsReplies choice s rest = true) :
    Enumerating (objectDispatch kind event s).1 ((objectDispatch kind event s).2 ++ rest) := by
  have carried : (ObjectStmt.dispatch event).carried = event.carried := rfl
  unfold objectDispatch
  split
  next stale =>
    have dead : event.live s = false := by
      rcases stale with stopped | other
      · simp [ObjectEvent.live, stopped]
      · simp [ObjectEvent.live, other]
    exact h.stale dead replies
  next =>
    cases hc : event.change with
    | info state paramInfos =>
      exact h.keep (.refl s) rfl (by rw [carried, ObjectEvent.carried, hc])
        (continues_of_idle (objectUpdates_idle state paramInfos))
    | param param =>
      exact h.append (by rw [carried, ObjectEvent.carried, hc]) { SameReplies.refl s with } rfl
        (by simp [ObjectStmt.idle])
    | removed =>
      exact h.keep (.refl s) rfl (by rw [carried, ObjectEvent.carried, hc])
        (continues_of_idle (by simp [ObjectStmt.idle]))

theorem Enumerating.run (h : Enumerating s (i :: rest))
    (replies : i.keepsReplies choice s rest = true) (fresh : i.freshRequest choice s = true) :
    Enumerating (objectExec kind choice i s).1 ((objectExec kind choice i s).2 ++ rest) := by
  by_cases hi : i.leavesReplies = true
  · obtain ⟨same, params, new⟩ := objectExec_leavesReplies kind choice s hi
    have carried : i.carried = none := by
      cases i <;> first | rfl | simp [ObjectStmt.leavesReplies] at hi
    exact h.keep same params carried new
  cases i with
  | dispatch event => exact h.dispatch replies
  | clearParams =>
    exact h.clear { SameReplies.refl s with } rfl rfl
      (by simp [objectExec, ObjectStmt.idle]) replies
  | enumParams sync =>
    simp only [objectExec]
    split
    next => exact h.keep (.refl s) rfl rfl (by simp)
    next ready =>
      refine h.clear { SameReplies.refl s with } rfl rfl (by simp [ObjectStmt.idle]) ?_
      simp only [not_or, Bool.not_eq_false] at ready
      simpa [ObjectStmt.keepsReplies, ready] using replies
  | enumParamsCall sync =>
    simp only [objectExec, objectEnumParamsCall]
    split
    next => exact h.keep { SameReplies.refl s with } rfl rfl (by simp)
    next =>
      cases sync with
      | false => exact h.keep { SameReplies.refl s with } rfl rfl (by simp)
      | true =>
        refine h.request { SameReplies.refl s with } rfl rfl ?_
        exact of_decide_eq_true fresh
  | syncEnter caller =>
    simp only [objectExec]
    split
    next => exact h.keep (.refl s) rfl rfl (by simp)
    next =>
      have unused : choice.slot ∉ rest.filterMap ObjectStmt.frame ∧
          .completion choice.slot ∉ s.queue := by
        simpa [ObjectStmt.keepsReplies] using replies
      exact h.enter unused.1 unused.2
  | syncWait slot caller =>
    refine h.done choice.dones ?_
    simp only [objectExec, objectSyncWait]
    split
    · exact .inl rfl
    · right
      cases caller with
      | sync => exact ⟨none, rfl, by simp⟩
      | enumParams seq => exact ⟨_, rfl, by simp⟩
  | syncIterate slot request =>
    simp only [objectExec]
    split
    next => exact h
    next hc =>
      have hc : slot ∈ s.completed := not_not.mp hc
      cases request with
      | none => exact h.keep (.refl s) rfl rfl (by simp)
      | some request => exact h.finish hc
  | _ => simp [ObjectStmt.leavesReplies] at hi

theorem Enumerating.emission (h : Enumerating s code) (idle : ∀ j ∈ code, j.carried = none) :
    Enumerating s (.handlers :: code) := by
  have flight : paramsInFlight s (.handlers :: code) = paramsInFlight s code := rfl
  refine ⟨idle, h.known, fun j hj seq hr => ?_, fun slot seq expected hj => ?_,
    fun slot caller hj => ?_, h.frames, h.exact⟩
  · rcases List.mem_cons.mp hj with rfl | hj
    · simp [ObjectStmt.request] at hr
    · exact h.kept j hj seq hr
  · exact h.closed slot seq expected ((List.mem_cons.mp hj).resolve_left (by simp))
  · exact h.waiting slot caller ((List.mem_cons.mp hj).resolve_left (by simp))

/-- An event is taken from the queue. -/
theorem Enumerating.take {event : ObjectEvent} {queue : List ObjectSource}
    (h : Enumerating s code) (idle : ∀ j ∈ code, j.carried = none)
    (hq : s.queue = .event event :: queue) :
    Enumerating { s with queue := queue } (.dispatch event :: code) := by
  have flight : paramsInFlight { s with queue := queue } (.dispatch event :: code) =
      paramsInFlight s code := by
    rw [paramsInFlight_of_none idle, hq, paramsInFlight, List.filterMap_cons, List.filterMap_cons,
      List.filterMap_eq_nil_iff.mpr idle]
    simp only [ObjectStmt.carried, ObjectSource.carried]
    cases event.carried <;> rfl
  refine ⟨idle, ?_, fun j hj seq hr => ?_, fun slot seq expected hj => ?_,
    fun slot caller hj => ?_, h.frames, h.exact⟩
  · rw [flight]
    exact h.known
  · rw [flight]
    rcases List.mem_cons.mp hj with rfl | hj
    · simp [ObjectStmt.request] at hr
    · exact h.kept j hj seq hr
  · have frame := h.closed slot seq expected ((List.mem_cons.mp hj).resolve_left (by simp))
    rw [flight]
    refine ⟨frame.expected, fun before after he => ?_, frame.completed⟩
    refine frame.ordered (.event event :: before) after ?_
    rw [hq, List.cons_append, ← he]
  · obtain ⟨hc, hm⟩ := h.waiting slot caller ((List.mem_cons.mp hj).resolve_left (by simp))
    exact ⟨hc, fun hm' => hm (by rw [hq]; exact List.mem_cons_of_mem _ hm')⟩

/-- A completion is taken from the queue, and with it all replies have been dispatched. -/
theorem Enumerating.complete {queue : List ObjectSource}
    (h : Enumerating s code) (idle : ∀ j ∈ code, j.carried = none)
    (hq : s.queue = .completion slot :: queue) :
    Enumerating { s with queue := queue, completed := slot :: s.completed } code := by
  have queued : s.queue.filterMap ObjectSource.carried = queue.filterMap ObjectSource.carried := by
    rw [hq]
    rfl
  have flight : paramsInFlight { s with queue := queue, completed := slot :: s.completed } code =
      paramsInFlight s code := by
    rw [paramsInFlight_of_none idle, paramsInFlight_of_none idle, queued]
  refine ⟨h.dispatching, ?_, ?_, fun other seq expected hj => ?_, fun other caller hj => ?_,
    h.frames, h.exact⟩
  · rw [flight]
    exact h.known
  · rw [flight]
    exact h.kept
  · have frame := h.closed other seq expected hj
    rw [flight]
    refine ⟨frame.expected, fun before after he => ?_, fun hc => ?_⟩
    · refine frame.ordered (.completion slot :: before) after ?_
      rw [hq, List.cons_append, ← he]
    rcases List.mem_cons.mp hc with rfl | hc
    · rw [paramsInFlight_of_none idle, queued]
      exact frame.ordered [] queue hq
    · exact frame.completed hc
  · obtain ⟨hc, hm⟩ := h.waiting other caller hj
    rw [hq] at hm
    obtain ⟨different, hm⟩ := not_or.mp (List.mem_cons.not.mp hm)
    refine ⟨fun hc' => ?_, hm⟩
    rcases List.mem_cons.mp hc' with rfl | hc'
    · exact different rfl
    · exact hc hc'

/-- An event is queued; a parameter that it brings is in time for its request. -/
theorem Enumerating.queue {event : ObjectEvent} (h : Enumerating s code)
    (inTime : ∀ p, event.carried = some p → ∀ j ∈ code, j.closed ≠ some p.seq) :
    Enumerating
      { s with
        queue := s.queue ++ [.event event]
        delivered := s.delivered ++ event.carried.toList } code := by
  have carried : List.filterMap ObjectSource.carried [.event event] = event.carried.toList := by
    rw [List.filterMap_cons, ObjectSource.carried]
    cases event.carried <;> rfl
  have flight : paramsInFlight
      { s with
        queue := s.queue ++ [.event event]
        delivered := s.delivered ++ event.carried.toList } code =
      paramsInFlight s code ++ event.carried.toList := by
    rw [paramsInFlight, List.filterMap_append, carried, ← List.append_assoc]
    rfl
  refine ⟨h.dispatching, fun p hp => ?_, fun j hj seq hr => ?_, fun slot seq expected hj => ?_,
    fun slot caller hj => ?_, h.frames, h.exact⟩
  · rw [flight, ← List.append_assoc] at hp
    rcases List.mem_append.mp hp with hp | hp
    · exact List.mem_append_left _ (h.known p hp)
    · exact List.mem_append_right _ hp
  · rw [flight, ← List.append_assoc, paramsForSeq_append, h.kept j hj seq hr,
      paramsForSeq_append]
  · have frame := h.closed slot seq expected hj
    have none : paramsForSeq seq event.carried.toList = [] :=
      paramsForSeq_eq_nil.mpr fun p hp he =>
        inTime p (Option.mem_toList.mp hp) _ hj (he ▸ rfl)
    rw [flight]
    refine ⟨?_, fun before after he => ?_, fun hc => ?_⟩
    · rw [paramsForSeq_append, none, List.append_nil]
      exact frame.expected
    · rcases List.eq_nil_or_concat after with rfl | ⟨init, last, rfl⟩
      · rfl
      rw [List.concat_eq_append, ← List.cons_append, ← List.append_assoc] at he
      obtain ⟨hq, hl⟩ := List.append_inj' he rfl
      have ordered := frame.ordered before init hq
      rw [List.concat_eq_append, ← hl, List.filterMap_append, carried, paramsForSeq_append,
        ordered, none]
      rfl
    · rw [paramsForSeq_append, frame.completed hc, none]
      rfl
  · obtain ⟨hc, hm⟩ := h.waiting slot caller hj
    exact ⟨hc, by simpa using hm⟩

theorem objectOnCallback_param {callback : ObjectCallback} {param : Param}
    (h : objectOnCallback kind objectId callback = some (.param param)) :
    ∃ id index next pod, callback = .param param.seq id index next pod := by
  cases callback with
  | info info =>
    obtain ⟨info, -, hi⟩ := Option.bind_eq_some_iff.mp h
    cases kind <;> simp only [objectOnInfo, nodeOnInfo, deviceOnInfo, linkOnInfo] at hi <;>
      split at hi <;> simp at hi
  | param seq id index next pod =>
    obtain ⟨made, hm, he⟩ := Option.map_eq_some_iff.mp h
    cases he
    unfold objectOnParam at hm
    split at hm
    next => simp at hm
    next =>
      obtain ⟨bytes, -, rfl⟩ := Option.map_eq_some_iff.mp hm
      exact ⟨id, index, next, pod, rfl⟩
  | globalRemove id =>
    simp only [objectOnCallback] at h
    split at h <;> simp at h

/-- A dispatch runs before handlers do, so that none is under way where the application has
control. -/
theorem Enumerating.nothingCarried (h : Enumerating s code)
    (hc : (objectComponent kind objectId).applicationRuns code = true) :
    ∀ j ∈ code, j.carried = none := by
  intro j hj
  cases code with
  | nil => simp at hj
  | cons head tail =>
    rcases List.mem_cons.mp hj with rfl | hj
    · cases j <;> first | rfl | simp [Component.applicationRuns, objectComponent,
        ObjectStmt.emission] at hc
    · exact h.dispatching j hj

theorem Enumerating.call {operation : ObjectCall} {r : ObjectWrapper × List ObjectStmt}
    (h : Enumerating s code) (hc : (objectComponent kind objectId).applicationRuns code = true)
    (hr : objectCall kind operation s = some r) : Enumerating r.1 (r.2 ++ code) := by
  have idle := h.nothingCarried hc
  have called (t : ObjectWrapper) (new : List ObjectStmt) (same : SameReplies s t)
      (params : t.params = s.params) (hn : ∀ j ∈ new, j.plain = true ∧ j.request = none) :
      Enumerating t (new ++ code) :=
    (h.emission idle).keep same params rfl fun j hj => by simp [ObjectStmt.continues, hn j hj]
  cases operation with
  | iterate =>
    simp only [objectCall] at hr
    split at hr
    next => simp at hr
    next event queue hq =>
      cases Option.some.inj hr
      exact h.take idle hq
    next slot queue hq =>
      cases Option.some.inj hr
      exact h.complete idle hq
  | enumParams | enumParamsSync | subscribeParams =>
    simp only [objectCall] at hr
    split at hr
    next => simp at hr
    next =>
      cases Option.some.inj hr
      exact called _ _ (.refl s) rfl (by simp [ObjectStmt.plain, ObjectStmt.carried,
        ObjectStmt.frame, ObjectStmt.request, AfterStart.request])
  | _ =>
    cases Option.some.inj hr
    exact called _ _ { SameReplies.refl s with } rfl (by simp [ObjectStmt.plain, ObjectStmt.carried,
      ObjectStmt.frame, ObjectStmt.request, AfterStart.request, SyncCaller.request])

/-- A callback whose parameter, if any, comes in time for its request. -/
theorem Enumerating.report {callback : ObjectCallback} (h : Enumerating s code)
    (inTime : callback.repliesInTime code = true) :
    Enumerating (objectReport kind objectId callback s) code := by
  unfold objectReport
  split
  next => exact h
  next change hc =>
    have carriedInTime : ∀ p, (ObjectEvent.mk s.generation change).carried = some p →
        ∀ j ∈ code, j.closed ≠ some p.seq := by
      intro p hp
      cases change with
      | param param =>
        cases Option.some.inj hp
        obtain ⟨id, index, next, pod, rfl⟩ := objectOnCallback_param hc
        simpa [ObjectCallback.repliesInTime] using inTime
      | info | removed => simp [ObjectEvent.carried] at hp
    have queued := h.queue carriedInTime
    cases change with
    | param => exact queued
    | info | removed =>
      rw [show (ObjectEvent.mk s.generation _).carried = none from rfl, Option.toList_none,
        List.append_nil] at queued
      exact queued

theorem enumerating_preserves :
    (objectComponent kind objectId).Preserves
      (fun c label => ServerAnswers c label ∧ ObjectKeepsReplies c label) Enumerating where
  call _ _ _ _ h hc _ hr := h.call hc hr
  run choice i s rest h allowed := h.run (allowed.2 i rfl) (allowed.1 i rfl)
  environment _ _ _ _ h allowed ht := by
    cases Option.some.inj ht
    exact h.report allowed.1

theorem objectEnumerated_exact {c : Config ObjectWrapper ObjectStmt}
    (h : Reach (objectComponent kind objectId).step
      (fun c label => ServerAnswers c label ∧ ObjectKeepsReplies c label) objectInit c) :
    ∀ r ∈ c.state.enumerated, r.returned = r.expected :=
  (enumerating_preserves.reach h ⟨by simp [objectInit], by simp [objectInit, paramsInFlight],
    by simp [objectInit], by simp [objectInit], by simp [objectInit], by simp [objectInit],
    by simp [objectInit]⟩).exact

/-- A synchronous enumeration is called, and waits for the Done of its roundtrip. -/
def objectEnumSyncSchedule (number : Int) : List (Label ObjectCall ObjectChoice ObjectCallback) :=
  .call .enumParamsSync :: List.replicate 8 (.run { number := number })

def objectReply (seq : Int) (index : UInt32) : Label ObjectCall ObjectChoice ObjectCallback :=
  .environment (.param seq 3 index 0 (some []))

/-- The enumeration iterates the main context, which dispatches a parameter. -/
def objectIterateSchedule : List (Label ObjectCall ObjectChoice ObjectCallback) :=
  .call .iterate :: List.replicate 5 (.run {})

/-- A subscription brings parameters before, between and after the replies. -/
def enumeratedSync : Config ObjectWrapper ObjectStmt :=
  final (objectComponent .node 7).step objectInit
    (objectStartSchedule ++ objectEnumSyncSchedule 1073741830 ++
      [objectReply 1 0, objectReply 1073741830 0, objectReply 1 1, objectReply 1073741830 1,
        .run {}, objectReply 1 2] ++
      objectIterateSchedule ++ objectIterateSchedule ++ objectIterateSchedule ++
      objectIterateSchedule ++ [.call .iterate, .run {}])

theorem objectEnumerated_exact_enumeratedSync :
    enumeratedSync.state.enumerated.map (fun r => r.returned.map Param.index) = [[0, 1]] ∧
      ∀ r ∈ enumeratedSync.state.enumerated, r.returned = r.expected :=
  ⟨by decide +kernel, objectEnumerated_exact (c := enumeratedSync)
    (reach_final (by decide +kernel))⟩

/-- A handler of `param` makes another request while the enumeration waits. -/
def enumeratedMeanwhile : Config ObjectWrapper ObjectStmt :=
  final (objectComponent .node 7).step objectInit
    (objectStartSchedule ++ objectEnumSyncSchedule 1073741830 ++
      [objectReply 1073741830 0, objectReply 1073741830 1, .run {}, .call .iterate] ++
      List.replicate 4 (.run {}) ++ objectEnumSchedule 1073741831 ++ [.run {}] ++
      objectIterateSchedule ++ [.call .iterate, .run {}])

theorem objectEnumerated_exact_fails :
    Reach (objectComponent .node 7).step ServerAnswers objectInit enumeratedMeanwhile ∧
      ¬ ∀ r ∈ enumeratedMeanwhile.state.enumerated, r.returned = r.expected := by
  refine ⟨reach_final (by decide +kernel), fun h => ?_⟩
  -- the first of the two replies has been cleared
  have exact := h ⟨[⟨1073741830, 3, 1, 0, []⟩],
    [⟨1073741830, 3, 0, 0, []⟩, ⟨1073741830, 3, 1, 0, []⟩]⟩ (by decide +kernel)
  revert exact
  decide +kernel

end PipewireGobject
