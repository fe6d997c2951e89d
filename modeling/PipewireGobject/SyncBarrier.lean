import PipewireGobject.History
import PipewireGobject.SyncSources

namespace PipewireGobject

open CoreSync

variable {κ : Type} {s t : CoreSync κ}

/-- A call that has returned `TRUE` has seen its own `Done`, and every event of a wrapper that
was handed to its context before that has been dispatched. -/
def BehindBarrier (before : List (SyncEvent κ)) (event : SyncEvent κ) : Prop :=
  ∀ slot frame c, event = .returned slot frame .synced → frame.data.mainContext = some c →
    ∃ earlier later, before = earlier ++ .core (.done pwIdCore frame.data.seq) :: later ∧
      frame.call ≤ earlier.length ∧ ∀ n, .handed c n ∈ earlier → .dispatched c n ∈ before

theorem behindBarrier_other {before : List (SyncEvent κ)} {event : SyncEvent κ}
    (other : ∀ slot frame, event ≠ .returned slot frame .synced) : BehindBarrier before event :=
  fun slot frame _ he _ => absurd he (other slot frame)

/-- The `Done` of a call has been processed, and of the events handed over before it only the
ones in `ahead` have not been dispatched. -/
def Passed (frame : SyncFrame κ) (c : κ) (ahead : List SyncSource)
    (history : List (SyncEvent κ)) : Prop :=
  ∃ earlier later, history = earlier ++ .core (.done pwIdCore frame.data.seq) :: later ∧
    frame.call ≤ earlier.length ∧
      ∀ n, .handed c n ∈ earlier → .dispatched c n ∈ history ∨ .event n ∈ ahead

/-- What a call knows of its flag and of the sources that set it. -/
structure FrameBarrier (contexts : κ → MainContext Nat SyncSource) (history : List (SyncEvent κ))
    (slot : Nat) (frame : SyncFrame κ) : Prop where
  attached : ∀ c ahead call rest,
    (contexts c).sources = ahead ++ .completion slot call :: rest → Passed frame c ahead history
  flagged : ∀ c, frame.data.mainContextDone = true → frame.data.mainContext = some c →
    Passed frame c [] history

section FrameBarrier

variable {frame next : SyncFrame κ} {c : κ} {ahead ahead' : List SyncSource}
  {history events : List (SyncEvent κ)} {contexts contexts' : κ → MainContext Nat SyncSource}
  {slot : Nat} {event : CoreEvent}

theorem Passed.mono (h : Passed frame c ahead history) (events : List (SyncEvent κ))
    (fewer : ∀ n, .event n ∈ ahead → .dispatched c n ∈ history ++ events ∨ .event n ∈ ahead') :
    Passed frame c ahead' (history ++ events) := by
  obtain ⟨earlier, later, heq, hcall, handed⟩ := h
  refine ⟨earlier, later ++ events, by simp [heq], hcall, ?_⟩
  intro n hn
  rcases handed n hn with hd | ha
  · exact .inl (List.mem_append_left _ hd)
  · exact fewer n ha

theorem Passed.after (h : Passed frame c ahead history) (ha : frame.After event next) :
    Passed next c ahead history := by
  obtain ⟨earlier, later, heq, hcall, handed⟩ := h
  exact ⟨earlier, later, by rw [ha.seq, heq], by rw [ha.call]; exact hcall, handed⟩

/-- What comes before a completion source is still there, or has been dispatched. -/
theorem FrameBarrier.mono (h : FrameBarrier contexts history slot frame)
    (events : List (SyncEvent κ))
    (kept : ∀ c ahead call rest, (contexts' c).sources = ahead ++ .completion slot call :: rest →
      ∃ ahead' call' rest', (contexts c).sources = ahead' ++ .completion slot call' :: rest' ∧
        ∀ n, .event n ∈ ahead' → .dispatched c n ∈ history ++ events ∨ .event n ∈ ahead) :
    FrameBarrier contexts' (history ++ events) slot frame where
  attached c ahead call rest heq := by
    obtain ⟨ahead', call', rest', heq', fewer⟩ := kept c ahead call rest heq
    exact (h.attached c ahead' call' rest' heq').mono events fewer
  flagged c hflag hc := (h.flagged c hflag hc).mono events (by simp)

theorem FrameBarrier.extend (h : FrameBarrier contexts history slot frame)
    (events : List (SyncEvent κ)) : FrameBarrier contexts (history ++ events) slot frame :=
  h.mono events fun _ ahead call rest heq => ⟨ahead, call, rest, heq, fun _ hn => .inr hn⟩

theorem FrameBarrier.after (h : FrameBarrier contexts history slot frame)
    (ha : frame.After event next) : FrameBarrier contexts history slot next where
  attached c ahead call rest heq := (h.attached c ahead call rest heq).after ha
  flagged c hflag hc := by
    rw [ha.mainContextDone] at hflag
    rw [ha.mainContext] at hc
    exact (h.flagged c hflag hc).after ha

variable [DecidableEq κ]

theorem FrameBarrier.attach (h : FrameBarrier s.contexts history slot frame) {source : SyncSource}
    (passed : source.pointsTo slot = true → Passed frame c (s.contexts c).sources history) :
    FrameBarrier (s.attach c source).contexts history slot frame where
  attached c' ahead call rest heq := by
    by_cases he : c' = c
    · subst he
      have hs : (s.contexts c').sources ++ [source] = ahead ++ .completion slot call :: rest := by
        rw [← attach_self, heq]
      rcases List.eq_nil_or_concat rest with rfl | ⟨older, last, rfl⟩
      · -- the source itself
        obtain ⟨rfl, hl⟩ := List.append_inj' hs rfl
        obtain rfl : source = .completion slot call := List.singleton_inj.mp hl
        exact passed (by simp [SyncSource.pointsTo])
      · have hs' : (s.contexts c').sources ++ [source] =
            (ahead ++ .completion slot call :: older) ++ [last] := by rw [hs]; simp
        exact h.attached c' ahead call older (List.append_inj' hs' rfl).1
    · rw [attach_of_ne source he] at heq
      exact h.attached c' ahead call rest heq
  flagged := h.flagged

end FrameBarrier

structure BarrierInv (s : CoreSync κ) : Prop where
  queued : ∀ c n, .handed c n ∈ s.history →
    .dispatched c n ∈ s.history ∨ .event n ∈ (s.contexts c).sources
  frames : ∀ slot frame, s.frames slot = some frame →
    FrameBarrier s.contexts s.history slot frame

section BarrierInv

variable {slot : Nat} {frame : SyncFrame κ} {c : κ} {event : CoreEvent}
  {before : List (SyncEvent κ)}

/-- Something is recorded that hands no event over. -/
theorem BarrierInv.record (h : BarrierInv s) (event : SyncEvent κ)
    (other : ∀ c n, event ≠ .handed c n) : BarrierInv (s.record event) where
  queued c n hn := by
    rcases List.mem_append.mp hn with hn | hn
    · exact (h.queued c n hn).imp (List.mem_append_left _) id
    · exact absurd (List.mem_singleton.mp hn).symm (other c n)
  frames slot frame hf := (h.frames slot frame hf).extend [event]

/-- An event is handed over, and dispatched at once. -/
theorem BarrierInv.inlined (h : BarrierInv s) (c : κ) (n : Nat) :
    BarrierInv ((s.record (.handed c n)).record (.dispatched c n)) where
  queued c' m hm := by
    have hm : .handed c' m ∈ s.history ∨ c' = c ∧ m = n := by simpa [CoreSync.record] using hm
    rcases hm with hm | ⟨rfl, rfl⟩
    · exact (h.queued c' m hm).imp (fun hd => by simp [CoreSync.record, hd]) id
    · exact .inl (by simp [CoreSync.record])
  frames slot frame hf := ((h.frames slot frame hf).extend [.handed c n]).extend [.dispatched c n]

theorem BarrierInv.of_same (h : BarrierInv s) (frames : t.frames = s.frames)
    (history : t.history = s.history)
    (sources : ∀ c, (t.contexts c).sources = (s.contexts c).sources) : BarrierInv t where
  queued c n hn := by
    rw [history] at hn ⊢
    rw [sources]
    exact h.queued c n hn
  frames slot frame hf := by
    rw [frames] at hf
    rw [history]
    obtain ⟨attached, flagged⟩ := h.frames slot frame hf
    refine ⟨fun c ahead call rest heq => ?_, flagged⟩
    rw [sources] at heq
    exact attached c ahead call rest heq

theorem BarrierInv.setFrame (h : BarrierInv s) (frame : Option (SyncFrame κ))
    (hframe : ∀ next, frame = some next → FrameBarrier s.contexts s.history slot next) :
    BarrierInv (s.setFrame slot frame) where
  queued := h.queued
  frames slot' frame' hf' := by
    rcases setFrame_frames hf' with ⟨rfl, hnext⟩ | ⟨-, hother⟩
    · exact hframe frame' hnext
    · exact h.frames slot' frame' hother

theorem BarrierInv.enter (h : BarrierInv s) (fresh : s.Unreferenced slot)
    (thread : Nat) (mainContext : Option κ) (seq : Int) (timed : Bool) : BarrierInv
      (((s.setFrame slot (some ⟨{ mainContext := mainContext, seq := seq }, timed, thread,
        s.history.length, []⟩)).push thread (.call slot)).record (.entered slot)) where
  queued := (h.record (.entered slot) (by simp)).queued
  frames slot' frame' hf' := by
    rcases setFrame_frames hf' with ⟨rfl, hnew⟩ | ⟨-, hother⟩
    · cases Option.some.inj hnew
      refine ⟨?_, by simp⟩
      intro c ahead call rest heq
      have hs : .completion slot' call ∈ (s.contexts c).sources := by
        rw [show (s.contexts c).sources = ahead ++ .completion slot' call :: rest from heq]
        simp
      simpa [SyncSource.pointsTo] using fresh c _ hs
    · exact (h.frames slot' frame' hother).extend [.entered slot]

variable [DecidableEq κ] {threadDefault : κ → Bool}

theorem BarrierInv.attach (h : BarrierInv s) {source : SyncSource}
    (passed : ∀ slot frame, s.frames slot = some frame → source.pointsTo slot = true →
      Passed frame c (s.contexts c).sources s.history) : BarrierInv (s.attach c source) where
  queued c' n hn := (h.queued c' n hn).imp id mem_attach
  frames slot frame hf := (h.frames slot frame hf).attach (passed slot frame hf)

/-- An event is handed over, and queued. -/
theorem BarrierInv.handed (h : BarrierInv s) (c : κ) (n : Nat) :
    BarrierInv ((s.record (.handed c n)).attach c (.event n)) where
  queued c' m hm := by
    rcases List.mem_append.mp hm with hm | hm
    · exact (h.queued c' m hm).imp (List.mem_append_left _) (mem_attach (s := s.record _))
    · obtain ⟨rfl, rfl⟩ := SyncEvent.handed.inj (List.mem_singleton.mp hm)
      rw [attach_self]
      exact .inr (List.mem_append_right _ (List.mem_singleton_self _))
  frames slot frame hf := by
    have extended := (h.frames slot frame hf).extend [.handed c n]
    exact FrameBarrier.attach (s := s.record (.handed c n)) extended (by simp [SyncSource.pointsTo])

theorem BarrierInv.listener (h : BarrierInv s) (calls : CallsInv s)
    (last : s.history = before ++ [.core event]) (slot : Nat) :
    BarrierInv (coreSyncListener event s slot) := by
  have effect := coreSyncListener_effect event s slot
  generalize coreSyncListener event s slot = t at effect
  cases effect with
  | absent => exact h
  | processed frame after hf ha =>
    refine h.setFrame _ fun next hnext => ?_
    cases hnext
    exact (h.frames slot frame hf).after ha
  | attached frame after c hf ha completes hc =>
    have hbarrier := h.frames slot frame hf
    have updated : BarrierInv (s.setFrame slot (some after)) := by
      refine h.setFrame _ fun next hnext => ?_
      cases hnext
      exact hbarrier.after ha
    refine updated.attach ?_
    intro slot' frame' hf' points
    have he : slot = slot' := by simpa [SyncSource.pointsTo] using points
    rcases setFrame_frames hf' with ⟨-, hafter⟩ | ⟨hne, -⟩
    · cases Option.some.inj hafter
      -- everything handed over so far is in front of the source
      refine Passed.after ?_ ha
      have hdone : event = .done pwIdCore frame.data.seq := by
        cases event with
        | done id seq => simpa [CoreEvent.completes] using completes
        | error => cases completes
      refine ⟨before, [], by rw [← hdone]; exact last, ?_, ?_⟩
      · have := calls.begun slot frame hf
        rw [last, List.length_append, List.length_singleton] at this
        omega
      · intro n hn
        exact h.queued c n (by rw [last]; exact List.mem_append_left _ hn)
    · exact absurd he.symm hne

/-- What came before a completion source is still there, or it was the source taken off. -/
theorem FrameBarrier.take (h : FrameBarrier s.contexts s.history slot frame) {source : SyncSource}
    {rest : List SyncSource} (hs : (s.contexts c).sources = source :: rest)
    (events : List (SyncEvent κ))
    (dispatched : ∀ n, source = .event n → .dispatched c n ∈ s.history ++ events) :
    FrameBarrier (s.setContext c { s.contexts c with sources := rest }).contexts
      (s.history ++ events) slot frame := by
  refine h.mono events fun c' ahead call rest' heq => ?_
  by_cases hc : c' = c
  · subst hc
    simp only [setContext, Function.update_self] at heq
    refine ⟨source :: ahead, call, rest', by simp [hs, heq], fun n hn => ?_⟩
    rcases List.mem_cons.mp hn with he | hn
    · exact .inl (dispatched n he.symm)
    · exact .inr hn
  · simp only [setContext, Function.update_of_ne hc] at heq
    exact ⟨ahead, call, rest', heq, fun _ hn => .inr hn⟩

/-- The first source of a context is taken off, and an event dispatched. -/
theorem BarrierInv.take (h : BarrierInv s) {source : SyncSource} {rest : List SyncSource}
    (hs : (s.contexts c).sources = source :: rest) (events : List (SyncEvent κ))
    (silent : ∀ c n, .handed c n ∉ events)
    (dispatched : ∀ n, source = .event n → .dispatched c n ∈ s.history ++ events) :
    BarrierInv { s.setContext c { s.contexts c with sources := rest } with
      history := s.history ++ events } where
  queued c' n hn := by
    have hn : .handed c' n ∈ s.history :=
      (List.mem_append.mp hn).resolve_right (silent c' n)
    rcases h.queued c' n hn with hd | he
    · exact .inl (List.mem_append_left _ hd)
    · by_cases hc : c' = c
      · subst hc
        rw [hs] at he
        rcases List.mem_cons.mp he with he | he
        · exact .inl (dispatched n he.symm)
        · exact .inr (by simpa [setContext] using he)
      · exact .inr (by simpa [setContext, hc] using he)
  frames slot frame hf := (h.frames slot frame hf).take hs events dispatched

/-- The first source of a context is dispatched. -/
theorem BarrierInv.dispatch (h : BarrierInv s) (frames : FramesInv s) {source : SyncSource}
    {rest : List SyncSource} (hs : (s.contexts c).sources = source :: rest)
    (thread pending : Nat) :
    BarrierInv (dispatchSource c source (callSource thread c source rest pending s)) := by
  cases source with
  | event number =>
    refine (h.take hs [.dispatched c number] (by simp) fun n hn => ?_).of_same rfl rfl fun _ => rfl
    cases hn
    exact List.mem_append_right _ (List.mem_singleton_self _)
  | completion slot call =>
    have taken : BarrierInv (callSource thread c (.completion slot call) rest pending s) := by
      refine (h.take hs [] (by simp) (by simp)).of_same rfl ?_ fun _ => rfl
      exact (List.append_nil _).symm
    simp only [dispatchSource, coreSyncOnMainContextDone]
    split
    next frame hf =>
      refine taken.setFrame _ fun next hnext => ?_
      cases hnext
      refine ⟨(taken.frames slot frame hf).attached, fun c' _ hc' => ?_⟩
      -- the source was the first one in the context of the call
      have hfirst : .completion slot call ∈ (s.contexts c).sources := by
        rw [hs]
        exact List.mem_cons_self
      have hctx : frame.data.mainContext = some c :=
        (frames slot frame hf).own c _ hfirst (by simp [SyncSource.pointsTo])
      obtain rfl : c = c' := Option.some.inj (hctx.symm.trans hc')
      exact (h.frames slot frame hf).attached c [] call rest hs
    next => exact taken

theorem BarrierInv.effect {label : SyncLabel κ} (h : BarrierInv s) (frames : FramesInv s)
    (calls : CallsInv s) (fresh : SlotsFresh s label)
    (effect : SyncEffect threadDefault s label t) : BarrierInv t := by
  cases effect with
  | refused => exact h.record _ (by simp)
  | entered slot thread mainContext seq timed ready data hdata =>
    subst hdata
    have listening : BarrierInv { s with listeners := s.listeners ++ [slot] } :=
      h.of_same rfl rfl fun _ => rfl
    exact listening.enter fresh thread mainContext seq timed
  | core event =>
    refine (listeners_preserve
      (I := fun t => BarrierInv t ∧ CallsInv t ∧ t.history = s.history ++ [.core event])
      ?_ _ ⟨h.record _ (by simp), calls.record _, rfl⟩).1
    rintro t slot ⟨ht, calls, last⟩
    exact ⟨ht.listener calls last slot, calls.listener event slot,
      (coreSyncListener_history event t slot).trans last⟩
  | inlined c =>
    have counted : BarrierInv { s with handed := s.handed + 1 } := h.of_same rfl rfl fun _ => rfl
    exact counted.inlined c s.handed
  | attached c =>
    have counted : BarrierInv { s with handed := s.handed + 1 } := h.of_same rfl rfl fun _ => rfl
    exact counted.handed c s.handed
  | stayed listeners pending => exact h.of_same rfl rfl fun _ => rfl
  | returned slot frame result listeners =>
    have removed : BarrierInv (s.setFrame slot none) := h.setFrame none (by simp)
    have gone : BarrierInv
        (({ s with listeners := listeners }.setFrame slot none).pop frame.thread) :=
      removed.of_same rfl rfl fun _ => rfl
    exact gone.record _ (by simp)
  | iterating thread c context same | ended thread c context same =>
    exact h.of_same rfl rfl (owned_sources same)
  | dispatched thread c source rest pending head hs => exact h.dispatch frames hs thread pending

end BarrierInv

section Runs

variable [DecidableEq κ] {threadDefault : κ → Bool}

theorem returnsBehind_effect {label : SyncLabel κ} (h : Justified BehindBarrier s.history)
    (inv : BarrierInv s) (effect : SyncEffect threadDefault s label t) :
    Justified BehindBarrier t.history := by
  cases effect with
  | refused => exact justified_concat.mpr ⟨h, behindBarrier_other (by simp)⟩
  | entered slot => exact justified_concat.mpr ⟨h, behindBarrier_other (by simp)⟩
  | core event =>
    rw [listeners_history]
    exact justified_concat.mpr ⟨h, behindBarrier_other (by simp)⟩
  | inlined c =>
    exact justified_concat.mpr
      ⟨justified_concat.mpr ⟨h, behindBarrier_other (by simp)⟩, behindBarrier_other (by simp)⟩
  | attached c => exact justified_concat.mpr ⟨h, behindBarrier_other (by simp)⟩
  | stayed listeners pending => exact h
  | returned slot frame result listeners hf may =>
    refine justified_concat.mpr ⟨h, ?_⟩
    intro slot' frame' c he hc
    obtain ⟨rfl, rfl, rfl⟩ := SyncEvent.returned.inj he
    have flag : frame.data.mainContextDone = true := may.resolve_left (by simp [hc])
    obtain ⟨earlier, later, heq, hcall, handed⟩ := (inv.frames slot frame hf).flagged c flag hc
    exact ⟨earlier, later, heq, hcall, fun n hn => (handed n hn).resolve_right (by simp)⟩
  | iterating thread c context same | ended thread c context same => exact h
  | dispatched thread c source rest pending head hs =>
    cases source with
    | event number => exact justified_concat.mpr ⟨h, behindBarrier_other (by simp)⟩
    | completion slot call =>
      simp only [dispatchSource, (coreSyncOnMainContextDone_fields slot _).1]
      exact h

theorem coreSync_behindBarrier (h : Reach (coreSyncStep threadDefault) SlotsFresh {} s) :
    Justified BehindBarrier s.history := by
  refine (h.invariant
    (I := fun s => FramesInv s ∧ CallsInv s ∧ BarrierInv s ∧ Justified BehindBarrier s.history)
    ⟨?_, callsInv_init, ⟨?_, ?_⟩, justified_nil⟩ ?_).2.2.2
  · intro slot frame hf
    cases hf
  · intro c n hn
    cases hn
  · intro slot frame hf
    cases hf
  · rintro s label t ⟨frames, calls, inv, behind⟩ fresh hs
    have effect := coreSyncStep_effect hs
    exact ⟨frames.effect fresh effect, calls.effect frames effect,
      inv.effect frames calls fresh effect, returnsBehind_effect behind inv effect⟩

end Runs

/-- An event is handed over while the call waits, and is dispatched before the call completes. -/
def handedBefore : CoreSync Unit :=
  final (coreSyncStep fun _ => false) {}
    [.enter 0 0 (some ()) 1 false true, .hand (), .core (.done 0 1), .wake 0, .iterateIn 0,
      .check 0 false, .dispatch 0, .detach 0, .dispatch 0, .detach 0, .iterated 0, .finish 0]

/-- A call fails after its completion, which another thread dispatches when the next call has begun
on the same frame. -/
def staleCompletion : CoreSync Unit :=
  final (coreSyncStep fun _ => true) {}
    [.iterate 1 (), .enter 0 0 (some ()) 1 false true, .core (.done 0 1),
      .core (.error 0 1 (-32) none), .wake 0, .check 1 false, .enter 0 0 (some ()) 2 false true,
      .hand (), .core (.done 0 2), .wake 0, .dispatch 1, .finish 0]

theorem coreSync_behindBarrier_handedBefore :
    handedBefore.history = [.entered 0, .handed () 0, .core (.done 0 1), .dispatched () 0,
      .returned 0 ⟨⟨some (), 1, true, true, 0, none⟩, false, 0, 0, [.done 0 1]⟩ .synced] ∧
      Justified BehindBarrier handedBefore.history :=
  ⟨by decide +kernel, coreSync_behindBarrier (s := handedBefore) (reach_final (by decide +kernel))⟩

theorem coreSync_behindBarrier_fails :
    Reach (coreSyncStep fun _ => true) anyStep {} staleCompletion ∧
      ¬ Justified BehindBarrier staleCompletion.history := by
  refine ⟨reach_final (allAllowed_anyStep _ _), fun h => ?_⟩
  have hlast : staleCompletion.history = staleCompletion.history.dropLast ++ [.returned 0
      ⟨⟨some (), 2, true, true, 0, none⟩, false, 0, 4, [.done 0 2]⟩ .synced] := by decide +kernel
  obtain ⟨earlier, later, heq, -, handed⟩ := h _ _ [] hlast 0 _ () rfl rfl
  have undispatched : .dispatched () 0 ∉ staleCompletion.history.dropLast := by decide +kernel
  -- the event was handed over before the only completion of the second call
  refine undispatched (handed 0 ?_)
  have hdone : staleCompletion.history.dropLast =
      staleCompletion.history.dropLast.dropLast ++ [.core (.done 0 2)] := by decide +kernel
  rw [hdone] at heq
  rcases List.eq_nil_or_concat later with rfl | ⟨older, last, rfl⟩
  · rw [← (List.append_inj' heq rfl).1]
    decide +kernel
  · have hsplit : staleCompletion.history.dropLast.dropLast ++ [.core (.done 0 2)] =
        (earlier ++ .core (.done pwIdCore 2) :: older) ++ [last] := by rw [heq]; simp
    have only : .core (.done 0 2) ∉ staleCompletion.history.dropLast.dropLast := by decide +kernel
    refine absurd ?_ only
    rw [(List.append_inj' hsplit rfl).1]
    simp [pwIdCore]

end PipewireGobject
