import PipewireGobject.StreamPhase
import PipewireGobject.History
import Mathlib.Data.List.DropRight

namespace PipewireGobject

variable {allowed : StreamRule} {s t : StreamRun} {code rest : List StreamStmt}
  {i : StreamStmt} {outcome : StartOutcome}

/-- A snapshot of the newest revision carries the rate observed last, and while none is
pending, one of them is still to be published or the published rate is right. -/
structure GraphRateInv (s : StreamRun) (code : List StreamStmt) : Prop where
  idle : s.stream.threadLoop = false →
    s.stream.observedGraphRate = 0 ∧ s.stream.hasPendingGraphRate = false
  session : s.stream.threadLoop = true → s.stream.observedGraphRate = s.observed.getLastD 0
  pending : s.stream.hasPendingGraphRate = true →
    s.stream.pendingGraphRate = s.stream.observedGraphRate
  older : ∀ has rate revision, .dispatchGraphRate has rate revision ∈ code →
    revision ≤ s.stream.graphRateRevision
  current : ∀ rate, .dispatchGraphRate true rate s.stream.graphRateRevision ∈ code →
    rate = s.stream.observedGraphRate ∧ s.stream.threadLoop = true
  published : s.stream.hasPendingGraphRate = false →
    s.stream.graphRate = s.stream.observedGraphRate ∨
      .dispatchGraphRate true s.stream.observedGraphRate s.stream.graphRateRevision ∈ code

/-- The graph rate and its pending values do not change, nor do the snapshots in flight. -/
theorem GraphRateInv.of_same {code' : List StreamStmt} (h : GraphRateInv s code)
    (threadLoop : t.stream.threadLoop = s.stream.threadLoop)
    (graphRate : t.stream.graphRate = s.stream.graphRate)
    (observedGraphRate : t.stream.observedGraphRate = s.stream.observedGraphRate)
    (pendingGraphRate : t.stream.pendingGraphRate = s.stream.pendingGraphRate)
    (hasPendingGraphRate : t.stream.hasPendingGraphRate = s.stream.hasPendingGraphRate)
    (revision : t.stream.graphRateRevision = s.stream.graphRateRevision)
    (observed : t.observed = s.observed)
    (snapshots : ∀ has rate revision, .dispatchGraphRate has rate revision ∈ code' ↔
      .dispatchGraphRate has rate revision ∈ code) : GraphRateInv t code' where
  idle := by rw [threadLoop, observedGraphRate, hasPendingGraphRate]; exact h.idle
  session := by rw [threadLoop, observedGraphRate, observed]; exact h.session
  pending := by rw [hasPendingGraphRate, pendingGraphRate, observedGraphRate]; exact h.pending
  older has rate v hm := by rw [revision]; exact h.older has rate v ((snapshots _ _ _).mp hm)
  current rate hm := by
    rw [observedGraphRate, threadLoop]
    exact h.current rate ((snapshots _ _ _).mp (revision ▸ hm))
  published hp := by
    rw [graphRate, observedGraphRate, revision]
    exact (h.published (hasPendingGraphRate ▸ hp)).imp_right (snapshots _ _ _).mpr

theorem GraphRateInv.take (h : GraphRateInv s (.dispatchTake :: rest)) :
    GraphRateInv (streamExec outcome .dispatchTake s).1
      ((streamExec outcome .dispatchTake s).2 ++ rest) where
  idle hl := ⟨(h.idle hl).1, rfl⟩
  session := h.session
  pending hp := by simp [streamExec, StreamRun.record, streamTakePending] at hp
  older has rate v hm := by
    simp only [streamExec, List.cons_append, List.nil_append, List.mem_cons, reduceCtorEq,
      false_or, StreamStmt.dispatchGraphRate.injEq] at hm
    rcases hm with ⟨-, -, rfl⟩ | hm
    · exact Nat.le_refl _
    · exact h.older has rate v (by simp [hm])
  current rate hm := by
    simp only [streamExec, List.cons_append, List.nil_append, List.mem_cons, reduceCtorEq,
      false_or, StreamStmt.dispatchGraphRate.injEq] at hm
    rcases hm with ⟨hp, rfl, -⟩ | hm
    · refine ⟨h.pending hp.symm, ?_⟩
      cases hl : s.stream.threadLoop with
      | false => simp [(h.idle hl).2] at hp
      | true => exact hl
    · exact h.current rate (List.mem_cons_of_mem _ hm)
  published _ := by
    cases hp : s.stream.hasPendingGraphRate with
    | false =>
      refine (h.published hp).imp_right fun hm => ?_
      rcases List.mem_cons.mp hm with he | hm
      · cases he
      · simp [streamExec, streamTakePending, hm]
    | true =>
      right
      simp [streamExec, streamTakePending, hp, h.pending hp]

/-- The second critical section publishes a snapshot unless a newer one supersedes it. -/
theorem GraphRateInv.publish {has : Bool} {rate : UInt32} {revision : Nat}
    (h : GraphRateInv s (.dispatchGraphRate has rate revision :: rest))
    (phase : StreamPhase s (.dispatchGraphRate has rate revision :: rest)) :
    GraphRateInv (streamExec outcome (.dispatchGraphRate has rate revision) s).1
      ((streamExec outcome (.dispatchGraphRate has rate revision) s).2 ++ rest) := by
  have older : ∀ has rate v, .dispatchGraphRate has rate v ∈ rest →
      v ≤ s.stream.graphRateRevision := fun has rate v hm => h.older has rate v (by simp [hm])
  have current : ∀ rate, .dispatchGraphRate true rate s.stream.graphRateRevision ∈ rest →
      rate = s.stream.observedGraphRate ∧ s.stream.threadLoop = true :=
    fun rate hm => h.current rate (by simp [hm])
  simp only [streamExec]
  split
  next hc =>
    obtain ⟨hhas, -, rfl, -⟩ := hc
    subst hhas
    exact {
      idle := h.idle
      session := h.session
      pending := h.pending
      older := by simpa using older
      current := by simpa using current
      published := fun _ => .inl (h.current rate (by simp)).1 }
  next hc =>
    refine {
      idle := h.idle
      session := h.session
      pending := h.pending
      older := by simpa using older
      current := by simpa using current
      published := fun hp => ?_ }
    rcases h.published hp with hg | hm
    · exact .inl hg
    · rcases List.mem_cons.mp hm with he | hm
      · -- the snapshot is the newest one, so the stream still runs and has the rate already
        cases he
        have hr := phase.head_settled (i := .dispatchGraphRate _ _ _) rfl
        rw [(h.current _ List.mem_cons_self).2] at hr
        exact .inl (Classical.not_not.mp fun hne => hc ⟨rfl, hr, rfl, hne⟩)
      · exact .inr (by simpa using hm)

theorem GraphRateInv.clear {wasRunning : Bool} {mark : QueueMark}
    (h : GraphRateInv s (.stopLoop wasRunning mark :: rest)) :
    GraphRateInv (streamExec outcome (.stopLoop wasRunning mark) s).1
      ((streamExec outcome (.stopLoop wasRunning mark) s).2 ++ rest) := by
  have hcode : ∀ has rate v, .dispatchGraphRate has rate v ∈
      (streamExec outcome (.stopLoop wasRunning mark) s).2 ++ rest →
        v ≤ s.stream.graphRateRevision := by
    intro has rate v hm
    refine h.older has rate v ?_
    simp only [streamExec] at hm
    split at hm <;> split at hm <;> simpa using hm
  exact {
    idle := fun _ => ⟨rfl, rfl⟩
    session := by simp [streamExec, StreamRun.record, streamClearPending]
    pending := by simp [streamExec, StreamRun.record, streamClearPending]
    older := fun has rate v hm => Nat.le_succ_of_le (hcode has rate v hm)
    current := fun rate hm => absurd (hcode true rate _ hm) (Nat.not_succ_le_self _)
    published := fun _ => .inl rfl }

theorem GraphRateInv.run (h : GraphRateInv s (i :: rest)) (phase : StreamPhase s (i :: rest)) :
    GraphRateInv (streamExec outcome i s).1 ((streamExec outcome i s).2 ++ rest) := by
  by_cases hp : i.publishes = true
  · obtain ⟨hsame, hnew⟩ := streamExec_publishes outcome s hp
    refine h.of_same hsame.threadLoop hsame.graphRate hsame.observedGraphRate
      hsame.pendingGraphRate hsame.hasPendingGraphRate hsame.graphRateRevision hsame.observed ?_
    intro has rate revision
    have hne : StreamStmt.dispatchGraphRate has rate revision ≠ i := by
      rintro rfl
      simp [StreamStmt.publishes] at hp
    have hno : .dispatchGraphRate has rate revision ∉ (streamExec outcome i s).2 := fun hm => by
      simpa [StreamStmt.publishes] using hnew _ hm
    simp [hne, hno]
  cases i with
  | dispatchTake => exact h.take
  | dispatchGraphRate hasGraphRate graphRate revision => exact h.publish phase
  | start =>
    have same := phase.head_settled (i := .start) rfl
    simp only [streamExec]
    split
    next => exact h.of_same rfl rfl rfl rfl rfl rfl rfl (by simp)
    next hr =>
      have hl : s.stream.threadLoop = false := by simpa [same] using hr
      cases outcome with
      | nothingCreated => exact h.of_same rfl rfl rfl rfl rfl rfl rfl (by simp)
      | failed => exact h.of_same rfl rfl rfl rfl rfl rfl rfl (by simp)
      | started =>
        obtain ⟨hobs, hpend⟩ := h.idle hl
        exact {
          idle := by simp
          session := fun _ => by simpa using hobs
          pending := h.pending
          older := fun has rate v hm => h.older has rate v (by simpa using hm)
          current := fun rate hm => ⟨(h.current rate (by simpa using hm)).1, rfl⟩
          published := fun hp => (h.published hp).imp_right (by simp) }
  | startRunning =>
    refine h.of_same rfl rfl rfl rfl rfl rfl rfl ?_
    simp [streamExec]
  | stop =>
    refine h.of_same rfl rfl rfl rfl rfl rfl rfl ?_
    simp [streamExec]
  | stopLoop wasRunning mark => exact h.clear
  | _ => simp [StreamStmt.publishes] at hp

theorem GraphRateInv.callback (h : GraphRateInv s code) (hl : s.stream.threadLoop = true)
    (event : StreamCallback) : GraphRateInv (streamCallback event s) code := by
  cases event with
  | queuePeak peak =>
    apply h.of_same <;> simp [streamCallback, streamQueuePeak, streamQueueDispatchLocked_eq]
  | queueFormat format =>
    apply h.of_same <;> simp [streamCallback, streamQueueFormat, streamQueueDispatchLocked_eq]
  | queueAudioBlock block =>
    simp only [streamCallback]
    split
    · exact h
    · next hd =>
      apply h.of_same <;> simp [streamQueueAudioBlock, streamQueueDispatchLocked_eq, hd]
  | queueGraphRate rate =>
    simp only [streamCallback, streamQueueGraphRate]
    split
    next he =>
      exact { h with session := fun _ => by simpa using he }
    next =>
      -- the new revision outdates every snapshot in flight
      have outdated : ∀ has rate, .dispatchGraphRate has rate (s.stream.graphRateRevision + 1) ∉
          code := fun has rate hm => Nat.not_succ_le_self _ (h.older has rate _ hm)
      rw [streamQueueDispatchLocked_eq]
      exact {
        idle := by simp [hl]
        session := by simp
        pending := by simp
        older := fun has r v hm => Nat.le_succ_of_le (h.older has r v hm)
        current := fun r hm => absurd hm (outdated true r)
        published := by simp }

theorem graphRate_preserves : streamComponent.Preserves allowed
    fun s code => StreamPhase s code ∧ GraphRateInv s code := by
  refine streamPhase_preserves.under {
    call := ?_
    run := fun outcome i s rest h ha => h.run ha.2
    environment := ?_ }
  · intro operation s code r h _ _ hr
    obtain ⟨sources, rfl⟩ := streamCall_eq hr
    refine h.of_same rfl rfl rfl rfl rfl rfl rfl ?_
    cases operation <;> simp [StreamCall.stmt]
  · intro event s code t h _ ht
    obtain ⟨hl, rfl⟩ := streamEnvironment_eq ht
    exact h.callback hl event

theorem graphRate_init : GraphRateInv streamInit.state streamInit.code := by
  constructor <;> simp [streamInit]


def StreamEvent.changesGraphRate : StreamEvent → Bool
  | .graphRateChanged _ _ => true
  | _ => false

/-- Its handlers begin to run, in an emission of their own or when that is restarted. -/
def StreamEvent.emitsGraphRate : StreamEvent → Bool
  | .emitted property _ => property = .graphRate
  | _ => false

def graphRateChanges (history : List StreamEvent) : Nat :=
  history.countP StreamEvent.changesGraphRate

def graphRateNotifications (history : List StreamEvent) : Nat :=
  history.count (.notified .graphRate)

/-- What has happened since the handlers of `notify::graph-rate` began to run last. -/
def sinceEmitted (history : List StreamEvent) : List StreamEvent :=
  history.rtakeWhile fun event => !event.emitsGraphRate

/-- One change more than notifications came before each notification. -/
def NotifiesOneChange (before : List StreamEvent) (event : StreamEvent) : Prop :=
  event = .notified .graphRate → graphRateChanges before = graphRateNotifications before + 1

/-- The handlers run for exactly one change. -/
def EmitsOneChange (before : List StreamEvent) (event : StreamEvent) : Prop :=
  ∀ again, event = .emitted .graphRate again → graphRateChanges (sinceEmitted before) = 1

/-- The handlers run for a change, and in an emission of their own for exactly one. -/
def EmitsChange (before : List StreamEvent) (event : StreamEvent) : Prop :=
  ∀ again, event = .emitted .graphRate again →
    0 < graphRateChanges (sinceEmitted before) ∧
      (again = false → graphRateChanges (sinceEmitted before) = 1)

structure GraphRateNotified (s : StreamRun) (code : List StreamStmt) : Prop where
  counted : graphRateChanges s.history =
    graphRateNotifications s.history + code.count (.notify .graphRate)
  since : graphRateChanges (sinceEmitted s.history) =
    graphRateNotifications (sinceEmitted s.history) + code.count (.notify .graphRate)
  restarted : .graphRate ∈ s.emissions.restarted ↔
    0 < graphRateNotifications (sinceEmitted s.history)
  notify_next : .notify .graphRate ∉ code.tail
  justified : Justified NotifiesOneChange s.history
  emitted : Justified EmitsChange s.history
  actual : ∀ old new, .graphRateChanged old new ∈ s.history → old ≠ new

/-- Events that neither change nor announce the graph rate. -/
def StreamEvent.otherThanGraphRate (event : StreamEvent) : Prop :=
  event.changesGraphRate = false ∧ event ≠ .notified .graphRate ∧ event.emitsGraphRate = false

section Events

variable {history events : List StreamEvent}

theorem graphRate_other (history : List StreamEvent)
    (other : ∀ e ∈ events, e.otherThanGraphRate) :
    graphRateChanges (history ++ events) = graphRateChanges history ∧
      graphRateNotifications (history ++ events) = graphRateNotifications history := by
  have hc : graphRateChanges events = 0 := by
    simpa [graphRateChanges, List.countP_eq_zero] using fun e he => (other e he).1
  have hn : graphRateNotifications events = 0 := by
    simpa [graphRateNotifications, List.count_eq_zero] using fun he => (other _ he).2.1 rfl
  simp only [graphRateChanges, graphRateNotifications] at hc hn ⊢
  rw [List.countP_append, List.count_append, hc, hn]
  exact ⟨rfl, rfl⟩

theorem sinceEmitted_append (silent : ∀ e ∈ events, e.emitsGraphRate = false) :
    sinceEmitted (history ++ events) = sinceEmitted history ++ events := by
  induction events using List.reverseRecOn with
  | nil => simp
  | append_singleton events e ih =>
    have last : (!e.emitsGraphRate) = true := by simp [silent e (by simp)]
    rw [← List.append_assoc, sinceEmitted, List.rtakeWhile_concat_pos (x := e) (h := last),
      ← sinceEmitted, ih fun e he => silent e (by simp [he]), List.append_assoc]

theorem sinceEmitted_emitted (again : Bool) :
    sinceEmitted (history ++ [.emitted .graphRate again]) = [] :=
  List.rtakeWhile_concat_neg _ _ _ (by simp [StreamEvent.emitsGraphRate])

end Events

theorem GraphRateNotified.of_other {code' : List StreamStmt} {events : List StreamEvent}
    (h : GraphRateNotified s code) (history : t.history = s.history ++ events)
    (other : ∀ e ∈ events, e.otherThanGraphRate)
    (restarted : .graphRate ∈ t.emissions.restarted ↔ .graphRate ∈ s.emissions.restarted)
    (kept : code'.count (.notify .graphRate) = code.count (.notify .graphRate))
    (next : .notify .graphRate ∉ code'.tail) : GraphRateNotified t code' where
  counted := by
    obtain ⟨changes, notifications⟩ := graphRate_other s.history other
    rw [history, changes, notifications, kept]
    exact h.counted
  since := by
    obtain ⟨changes, notifications⟩ := graphRate_other (sinceEmitted s.history) other
    rw [history, sinceEmitted_append fun e he => (other e he).2.2, changes, notifications, kept]
    exact h.since
  restarted := by
    rw [restarted, h.restarted, history, sinceEmitted_append fun e he => (other e he).2.2,
      (graphRate_other _ other).2]
  notify_next := next
  justified := by
    rw [history]
    exact h.justified.append fun e he _ hn => absurd hn (other e he).2.1
  emitted := by
    rw [history]
    refine h.emitted.append fun e he _ again hn => ?_
    have silent := (other e he).2.2
    simp [hn, StreamEvent.emitsGraphRate] at silent
  actual old new hm := by
    rw [history] at hm
    rcases List.mem_append.mp hm with hm | hm
    · exact h.actual old new hm
    · simpa [StreamEvent.changesGraphRate] using (other _ hm).1

/-- Apart from its own notification, publishing leaves the graph rate unmentioned. -/
theorem streamExec_other (outcome : StartOutcome) (s : StreamRun) (hi : i.publishes = true)
    (notification : i ≠ .notify .graphRate) (handlers : i ≠ .handlers (some .graphRate)) :
    ∃ events, (streamExec outcome i s).1.history = s.history ++ events ∧
      (∀ e ∈ events, e.otherThanGraphRate) ∧
      (.graphRate ∈ (streamExec outcome i s).1.emissions.restarted ↔
        .graphRate ∈ s.emissions.restarted) ∧
      .notify .graphRate ∉ (streamExec outcome i s).2 := by
  have silent {event : StreamEvent} (he : event.otherThanGraphRate) :
      ∀ e ∈ [event], e.otherThanGraphRate := fun e hm => by rwa [List.mem_singleton.mp hm]
  cases i with
  | handlers notified =>
    cases notified with
    | none => exact ⟨[], by simp [streamExec]⟩
    | some property =>
      have other : property ≠ .graphRate := fun he => handlers (by rw [he])
      refine ⟨_, rfl, ?_, ?_, ?_⟩
      · split <;> simp [StreamEvent.otherThanGraphRate, StreamEvent.changesGraphRate,
          StreamEvent.emitsGraphRate, other]
      · show .graphRate ∈ (s.emissions.handled property).1.restarted ↔ _
        rw [Emissions.mem_restarted_handled]
        exact and_iff_left other.symm
      · simp only [streamExec, streamHandled]
        split <;> simp
  | notify property =>
    have other : property ≠ .graphRate := fun he => notification (by rw [he])
    refine ⟨_, rfl, ?_, ?_, ?_⟩
    · split <;> simp [StreamEvent.otherThanGraphRate, StreamEvent.changesGraphRate,
        StreamEvent.emitsGraphRate, other]
    · show .graphRate ∈ (s.emissions.emit property).1.restarted ↔ _
      rw [Emissions.mem_restarted_emit]
      exact or_iff_left fun he => other he.1.symm
    · simp only [streamExec, streamNotify]
      split <;> simp
  | dispatchFormat format => cases format <;> exact ⟨[], by simp [streamExec]⟩
  | dispatchPeak peak =>
    cases peak with
    | none => exact ⟨[], by simp [streamExec]⟩
    | some peak =>
      simp only [streamExec]
      split
      · exact ⟨[.peakStored peak], rfl, silent ⟨rfl, by simp, rfl⟩, .rfl, by simp⟩
      · exact ⟨[], by simp⟩
  | emitLevel peak =>
    exact ⟨[.level peak], rfl, silent ⟨rfl, by simp, rfl⟩, .rfl, by simp [streamExec]⟩
  | dispatchBlocks blocks =>
    cases blocks with
    | nil => exact ⟨[], by simp [streamExec]⟩
    | cons block blocks =>
      simp only [streamExec]
      split
      · exact ⟨[.audioBlock block], rfl, silent ⟨rfl, by simp, rfl⟩, .rfl, by simp⟩
      · exact ⟨[.blockDiscarded block.sequence], rfl, silent ⟨rfl, by simp, rfl⟩, .rfl, by simp⟩
  | stopReturn mark =>
    exact ⟨[.stopReturned mark], rfl, silent ⟨rfl, by simp, rfl⟩, .rfl, by simp [streamExec]⟩
  | setDeliverAudioBlocks deliver =>
    simp only [streamExec]
    split <;> exact ⟨[], by simp⟩
  | _ => simp [StreamStmt.publishes] at hi

/-- The graph rate changes and its notification comes next. -/
theorem GraphRateNotified.change {code' : List StreamStmt} {events : List StreamEvent}
    {old new : UInt32} (h : GraphRateNotified s code)
    (history : t.history = s.history ++ (events ++ [.graphRateChanged old new]))
    (other : ∀ e ∈ events, e.otherThanGraphRate) (changed : old ≠ new)
    (emissions : t.emissions = s.emissions)
    (none_left : .notify .graphRate ∉ code) (after : .notify .graphRate ∉ code') :
    GraphRateNotified t (.notify .graphRate :: code') := by
  have h' : GraphRateNotified { s with history := s.history ++ events } code :=
    h.of_other rfl other .rfl rfl h.notify_next
  have h0 : code.count (.notify .graphRate) = 0 := List.count_eq_zero.mpr none_left
  have h1 : code'.count (.notify .graphRate) = 0 := List.count_eq_zero.mpr after
  have later (earlier : List StreamEvent) :
      graphRateChanges (earlier ++ [.graphRateChanged old new]) = graphRateChanges earlier + 1 ∧
        graphRateNotifications (earlier ++ [.graphRateChanged old new]) =
          graphRateNotifications earlier := by
    simp [graphRateChanges, graphRateNotifications, StreamEvent.changesGraphRate]
  have since : sinceEmitted t.history =
      sinceEmitted (s.history ++ events) ++ [.graphRateChanged old new] := by
    rw [history, ← List.append_assoc, sinceEmitted_append]
    simp [StreamEvent.emitsGraphRate]
  rw [← List.append_assoc] at history
  exact {
    counted := by
      have hc := h'.counted
      rw [h0] at hc
      rw [history, (later _).1, (later _).2, List.count_cons_self, h1, hc]
    since := by
      have hc := h'.since
      rw [h0] at hc
      rw [since, (later _).1, (later _).2, List.count_cons_self, h1, hc]
    restarted := by
      rw [emissions, since, (later _).2]
      exact h'.restarted
    notify_next := after
    justified := by
      rw [history, justified_concat]
      exact ⟨h'.justified, fun he => by cases he⟩
    emitted := by
      rw [history, justified_concat]
      exact ⟨h'.emitted, fun again he => by cases he⟩
    actual := fun o n hm => by
      rw [history] at hm
      rcases List.mem_append.mp hm with hm | hm
      · exact h'.actual o n hm
      · simp only [List.mem_singleton, StreamEvent.graphRateChanged.injEq] at hm
        obtain ⟨rfl, rfl⟩ := hm
        exact changed }

/-- The handlers run, and nothing has happened since. -/
theorem GraphRateNotified.emit {again : Bool} (h : GraphRateNotified s code)
    (history : t.history = s.history ++ [.emitted .graphRate again])
    (silent : .graphRate ∉ t.emissions.restarted)
    (none_left : .notify .graphRate ∉ code)
    (changed : EmitsChange s.history (.emitted .graphRate again)) :
    GraphRateNotified t (.handlers (some .graphRate) :: code) where
  counted := by
    rw [history]
    simpa [graphRateChanges, graphRateNotifications, StreamEvent.changesGraphRate] using h.counted
  since := by
    rw [history, sinceEmitted_emitted, List.count_cons_of_ne (by simp),
      List.count_eq_zero.mpr none_left]
    rfl
  restarted := by
    rw [history, sinceEmitted_emitted]
    exact iff_of_false silent (Nat.not_lt_zero 0)
  notify_next := none_left
  justified := by
    rw [history, justified_concat]
    exact ⟨h.justified, fun he => by cases he⟩
  emitted := by
    rw [history, justified_concat]
    exact ⟨h.emitted, changed⟩
  actual old new hm := by
    rw [history] at hm
    exact h.actual old new (by simpa using hm)

/-- The notification is called, whose handlers do not run yet. -/
theorem GraphRateNotified.called (h : GraphRateNotified s (.notify .graphRate :: rest))
    (history : t.history = s.history ++ [.notified .graphRate])
    (restarted : .graphRate ∈ t.emissions.restarted) : GraphRateNotified t rest := by
  have none_left : .notify .graphRate ∉ rest := h.notify_next
  have later (earlier : List StreamEvent) :
      graphRateChanges (earlier ++ [.notified .graphRate]) = graphRateChanges earlier ∧
        graphRateNotifications (earlier ++ [.notified .graphRate]) =
          graphRateNotifications earlier + 1 := by
    simp [graphRateChanges, graphRateNotifications, StreamEvent.changesGraphRate]
  have since : sinceEmitted t.history = sinceEmitted s.history ++ [.notified .graphRate] := by
    rw [history, sinceEmitted_append]
    simp [StreamEvent.emitsGraphRate]
  have hc := h.counted
  have hs := h.since
  rw [List.count_cons_self, List.count_eq_zero.mpr none_left] at hc hs
  exact {
    counted := by rw [history, (later _).1, (later _).2, List.count_eq_zero.mpr none_left, hc]
    since := by rw [since, (later _).1, (later _).2, List.count_eq_zero.mpr none_left, hs]
    restarted := by
      rw [since, (later _).2]
      exact iff_of_true restarted (Nat.succ_pos _)
    notify_next := fun hm => none_left (List.mem_of_mem_tail hm)
    justified := by
      rw [history, justified_concat]
      exact ⟨h.justified, fun _ => hc⟩
    emitted := by
      rw [history, justified_concat]
      exact ⟨h.emitted, fun again he => by cases he⟩
    actual := fun old new hm => by
      rw [history] at hm
      exact h.actual old new (by simpa using hm) }

theorem GraphRateNotified.notify (h : GraphRateNotified s (.notify .graphRate :: rest))
    (emitting : StreamEmitting s (.notify .graphRate :: rest)) :
    GraphRateNotified (streamExec outcome (.notify .graphRate) s).1
      ((streamExec outcome (.notify .graphRate) s).2 ++ rest) := by
  have none_left : .notify .graphRate ∉ rest := h.notify_next
  have restarts := @Emissions.mem_restarted_emit _ _ s.emissions StreamProperty.graphRate .graphRate
  simp only [streamExec, streamNotify]
  cases began : (s.emissions.emit .graphRate).2 with
  | false =>
    refine h.called rfl ?_
    exact restarts.mpr (.inr ⟨rfl, began⟩)
  | true =>
    have fresh : .graphRate ∉ s.emissions.restarted := emitting.emit_began began
    have one : graphRateChanges (sinceEmitted s.history) = 1 := by
      have none_since := h.restarted.not.mp fresh
      rw [h.since, List.count_cons_self, List.count_eq_zero.mpr none_left]
      omega
    have called : GraphRateNotified { s with
        history := s.history ++ [.notified .graphRate]
        emissions := { s.emissions with restarted := [.graphRate] } } rest :=
      h.called rfl (List.mem_singleton_self _)
    have begun : s.history ++ [.notified .graphRate, .emitted .graphRate false] =
        s.history ++ [.notified .graphRate] ++ [.emitted .graphRate false] := by simp
    refine called.emit begun ?_ none_left fun again he => ?_
    · rw [StreamRun.record_emissions, restarts]
      simp [fresh, began]
    · rw [sinceEmitted_append (by simp [StreamEvent.emitsGraphRate])]
      have same : graphRateChanges (sinceEmitted s.history ++ [.notified .graphRate]) = 1 := by
        rw [← one]
        simp [graphRateChanges, StreamEvent.changesGraphRate]
      exact ⟨by rw [same]; exact Nat.one_pos, fun _ => same⟩

/-- The handlers have returned. Changes that were notified meanwhile make them run once more. -/
theorem GraphRateNotified.handled (h : GraphRateNotified s (.handlers (some .graphRate) :: rest)) :
    GraphRateNotified (streamExec outcome (.handlers (some .graphRate)) s).1
      ((streamExec outcome (.handlers (some .graphRate)) s).2 ++ rest) := by
  have none_left : .notify .graphRate ∉ rest := h.notify_next
  have below : GraphRateNotified s rest :=
    h.of_other (List.append_nil _).symm (by simp) .rfl (by simp)
      fun hm => none_left (List.mem_of_mem_tail hm)
  have restarts :=
    @Emissions.mem_restarted_handled _ _ s.emissions StreamProperty.graphRate .graphRate
  simp only [streamExec, streamHandled]
  cases again : (s.emissions.handled .graphRate).2 with
  | false =>
    have unrestarted : .graphRate ∉ s.emissions.restarted := by
      rw [← Emissions.handled_again, again]
      exact Bool.false_ne_true
    refine below.of_other rfl (by simp) ?_ rfl fun hm => none_left (List.mem_of_mem_tail hm)
    exact iff_of_false (fun hm => (restarts.mp hm).2 rfl) unrestarted
  | true =>
    refine below.emit rfl (fun hm => (restarts.mp hm).2 rfl) none_left fun again' he => ?_
    have notified := below.restarted.mp (Emissions.handled_again.mp again)
    have since := below.since
    obtain ⟨-, rfl⟩ := StreamEvent.emitted.inj he
    exact ⟨by omega, fun first => by cases first⟩

theorem clearEvents_other (s : Stream) : ∀ e ∈ (sequences s.pendingBlocks).map
    StreamEvent.blockDiscarded ++ [.cleared], e.otherThanGraphRate := by
  intro e he
  rcases List.mem_append.mp he with he | he
  · obtain ⟨n, -, rfl⟩ := List.mem_map.mp he
    exact ⟨rfl, by simp, rfl⟩
  · cases List.mem_singleton.mp he
    exact ⟨rfl, by simp, rfl⟩

theorem GraphRateNotified.run (h : GraphRateNotified s (i :: rest))
    (emitting : StreamEmitting s (i :: rest)) :
    GraphRateNotified (streamExec outcome i s).1 ((streamExec outcome i s).2 ++ rest) := by
  have none_left : .notify .graphRate ∉ rest := h.notify_next
  by_cases hn : i = .notify .graphRate
  · subst hn
    exact h.notify emitting
  by_cases hh : i = .handlers (some .graphRate)
  · subst hh
    exact h.handled
  have none_head : .notify .graphRate ∉ i :: rest := by
    simpa [none_left] using fun he => hn he.symm
  have unchanged : ∀ (t : StreamRun) (code' : List StreamStmt) (events : List StreamEvent),
      t.history = s.history ++ events → (∀ e ∈ events, e.otherThanGraphRate) →
      (.graphRate ∈ t.emissions.restarted ↔ .graphRate ∈ s.emissions.restarted) →
      .notify .graphRate ∉ code' → GraphRateNotified t code' := by
    intro t code' events history other restarted hno
    refine h.of_other history other restarted ?_ fun hm => hno (List.mem_of_mem_tail hm)
    rw [List.count_eq_zero.mpr hno, List.count_eq_zero.mpr none_head]
  by_cases hp : i.publishes = true
  · obtain ⟨events, history, other, restarted, hnew⟩ := streamExec_other outcome s hp hn hh
    exact unchanged _ _ events history other restarted (by simp [hnew, none_left])
  cases i with
  | dispatchTake =>
    refine unchanged _ _ [.taken (sequences s.stream.pendingBlocks)] rfl ?_ .rfl ?_
    · simp [StreamEvent.otherThanGraphRate, StreamEvent.changesGraphRate,
        StreamEvent.emitsGraphRate]
    · simp [streamExec, none_left]
  | dispatchGraphRate hasGraphRate graphRate revision =>
    simp only [streamExec]
    split
    next hc =>
      exact h.change (by simp) (fun _ he => absurd he List.not_mem_nil) hc.2.2.2 rfl none_head
        none_left
    next => exact unchanged _ _ [] (by simp) (by simp) .rfl none_left
  | start =>
    simp only [streamExec]
    split
    next => exact unchanged _ _ [] (by simp) (by simp) .rfl none_left
    next =>
      cases outcome <;> exact unchanged _ _ [] (by simp) (by simp) .rfl (by simp [none_left])
  | startRunning =>
    exact unchanged _ _ [] (by simp [streamExec]) (by simp) .rfl (by simp [streamExec, none_left])
  | stop =>
    refine unchanged _ _ [.stopCalled s.mark] rfl ?_ .rfl (by simp [streamExec, none_left])
    simp [StreamEvent.otherThanGraphRate, StreamEvent.changesGraphRate, StreamEvent.emitsGraphRate]
  | stopLoop wasRunning mark =>
    have hno : .notify .graphRate ∉ (if wasRunning then [StreamStmt.notify .running] else []) ++
        [.stopReturn mark] ++ rest := by
      cases wasRunning <;> simp [none_left]
    simp only [streamExec, clearEvents]
    split
    next => exact unchanged _ _ _ rfl (clearEvents_other s.stream) .rfl (by simpa using hno)
    next hg =>
      simp only [List.append_assoc, List.cons_append, List.nil_append]
      exact h.change (by simp) (clearEvents_other s.stream) hg rfl none_head (by simpa using hno)
  | _ => simp [StreamStmt.publishes] at hp

theorem GraphRateNotified.callback (h : GraphRateNotified s code) (event : StreamCallback) :
    GraphRateNotified (streamCallback event s) code := by
  cases event with
  | queuePeak peak =>
    refine h.of_other rfl ?_ .rfl rfl h.notify_next
    simp [StreamEvent.otherThanGraphRate, StreamEvent.changesGraphRate, StreamEvent.emitsGraphRate]
  | queueAudioBlock block =>
    simp only [streamCallback]
    split
    · exact h
    · refine h.of_other rfl ?_ .rfl rfl h.notify_next
      intro e he
      rcases List.mem_cons.mp he with rfl | he
      · exact ⟨rfl, by simp, rfl⟩
      · obtain ⟨n, -, rfl⟩ := List.mem_map.mp he
        exact ⟨rfl, by simp, rfl⟩
  | _ => exact h.of_other (List.append_nil _).symm (by simp) .rfl rfl h.notify_next

theorem graphRateNotified_preserves : streamComponent.Preserves allowed
    fun s code => StreamEmitting s code ∧ GraphRateNotified s code := by
  refine streamEmitting_preserves.under {
    call := ?_
    run := fun outcome i s rest h ha => h.run ha.2
    environment := ?_ }
  · intro operation s code r h ha _ hr
    have none_left : .notify .graphRate ∉ code := by
      rcases applicationRuns_code ha with rfl | ⟨notified, rest, rfl⟩
      · simp
      · simpa using h.notify_next
    obtain ⟨sources, rfl⟩ := streamCall_eq hr
    refine h.of_other (List.append_nil _).symm (by simp) .rfl ?_ (by simpa using none_left)
    cases operation <;> simp [StreamCall.stmt]
  · intro event s code t h _ ht
    obtain ⟨-, rfl⟩ := streamEnvironment_eq ht
    exact h.callback event

theorem graphRateNotified_init : GraphRateNotified streamInit.state streamInit.code where
  counted := rfl
  since := rfl
  restarted := by simp [streamInit, sinceEmitted, graphRateNotifications]
  notify_next := by simp [streamInit]
  justified := justified_nil
  emitted := justified_nil
  actual := by simp [streamInit]

/-- Statements of `pwg_stream_dispatch_pending`. -/
def StreamStmt.ofDispatch : StreamStmt → Bool
  | .dispatchTake | .dispatchFormat _ | .dispatchGraphRate _ _ _ | .dispatchPeak _ | .emitLevel _
  | .dispatchBlocks _ => true
  | _ => false

/-- The property is about to be notified, or its handlers run. -/
def StreamStmt.tellsOf (p : StreamProperty) : StreamStmt → Bool
  | .notify property => property = p
  | .handlers notified => notified = some p
  | _ => false

theorem streamGraphRate_converges {c : Config StreamRun StreamStmt}
    (h : Reach streamComponent.step anyStep streamInit c) :
    (c.state.stream.running = false → c.code = [] → c.state.stream.graphRate = 0) ∧
    (c.state.stream.running = true → c.state.stream.hasPendingGraphRate = false →
      (∀ i ∈ c.code, i.ofDispatch = false) →
      c.state.stream.graphRate = c.state.observed.getLastD 0) ∧
    (∀ old new, .graphRateChanged old new ∈ c.state.history → old ≠ new) ∧
    Justified NotifiesOneChange c.state.history ∧ Justified EmitsChange c.state.history ∧
    ((∀ i ∈ c.code, i.tellsOf .graphRate = false) →
      graphRateChanges (sinceEmitted c.state.history) = 0) := by
  obtain ⟨phase, rate⟩ := graphRate_preserves.reach h ⟨streamPhase_init, graphRate_init⟩
  obtain ⟨emitting, notified⟩ :=
    graphRateNotified_preserves.reach h ⟨streamEmitting_init, graphRateNotified_init⟩
  -- without a dispatch in flight no snapshot is left to publish
  have published : (∀ i ∈ c.code, i.ofDispatch = false) →
      c.state.stream.hasPendingGraphRate = false →
      c.state.stream.graphRate = c.state.stream.observedGraphRate := by
    intro hno hp
    refine (rate.published hp).resolve_right fun hm => ?_
    simpa [StreamStmt.ofDispatch] using hno _ hm
  refine ⟨?_, ?_, notified.actual, notified.justified, notified.emitted, fun quiet => ?_⟩
  · intro hr hc
    have hl : c.state.stream.threadLoop = false := by
      rw [← phase.settled (by simp [hc]), hr]
    rw [published (by simp [hc]) (rate.idle hl).2, (rate.idle hl).1]
  · intro hr hp hno
    rw [published hno hp, rate.session (phase.running_loop hr)]
  · -- an emission that is to start over has its handlers on the stack
    have unrestarted : .graphRate ∉ c.state.emissions.restarted := by
      intro hm
      obtain ⟨i, hi, he⟩ := List.mem_filterMap.mp (emitting.restarted _ hm)
      cases i with
      | handlers property =>
        cases he
        simpa [StreamStmt.tellsOf] using quiet _ hi
      | _ => cases he
    have uncalled : .notify .graphRate ∉ c.code := fun hm => by
      simpa [StreamStmt.tellsOf] using quiet _ hm
    have since := notified.since
    have none_since := notified.restarted.not.mp unrestarted
    rw [List.count_eq_zero.mpr uncalled] at since
    omega

/-- A rate observed while the first dispatch runs supersedes its snapshot. -/
def graphRateSession : List (Label StreamCall StartOutcome StreamCallback) :=
  .call .start :: List.replicate 4 (.run .started) ++
    [.environment (.queueGraphRate 44100), .call .iterate, .run .started, .run .started,
      .environment (.queueGraphRate 48000)] ++ List.replicate 3 (.run .started) ++
    .call .iterate :: List.replicate 7 (.run .started)

theorem streamGraphRate_converges_session :
    (final streamComponent.step streamInit graphRateSession).state.observed = [44100, 48000] ∧
      (final streamComponent.step streamInit graphRateSession).state.stream.graphRate =
        (final streamComponent.step streamInit graphRateSession).state.observed.getLastD 0 :=
  ⟨by decide, (streamGraphRate_converges (reach_final (allAllowed_anyStep _ _))).2.1
    (by decide) (by decide) (by decide)⟩

/-- Two more rates are published while a handler of `notify::graph-rate` iterates the context. -/
def publishedNested : Config StreamRun StreamStmt :=
  final streamComponent.step streamInit
    (.call .start :: List.replicate 4 (.run .started) ++
      [.environment (.queueGraphRate 48000), .call .iterate] ++ List.replicate 4 (.run .started) ++
      [.environment (.queueGraphRate 96000), .call .iterate] ++ List.replicate 6 (.run .started) ++
      [.environment (.queueGraphRate 44100), .call .iterate] ++ List.replicate 7 (.run .started))

theorem streamGraphRate_emitsOnce_fails :
    Reach streamComponent.step anyStep streamInit publishedNested ∧
      ¬ Justified EmitsOneChange publishedNested.state.history := by
  refine ⟨reach_final (allAllowed_anyStep _ _), fun h => ?_⟩
  have last : publishedNested.state.history =
      publishedNested.state.history.dropLast ++ [.emitted .graphRate true] := by decide +kernel
  have one := h _ _ [] last true rfl
  have two : graphRateChanges (sinceEmitted publishedNested.state.history.dropLast) = 2 := by
    decide +kernel
  omega

end PipewireGobject
