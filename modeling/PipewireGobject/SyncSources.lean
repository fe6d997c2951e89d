import PipewireGobject.CoreSync
import Mathlib.Data.Fintype.Basic

namespace PipewireGobject

open CoreSync

variable {κ : Type} {s t : CoreSync κ}

def SyncSource.pointsTo (slot : Nat) : SyncSource → Bool
  | .event _ => false
  | .completion slot' _ => slot' = slot

/-- No source whose callback is still to be called has the frame as its data. -/
def CoreSync.Unreferenced (slot : Nat) (s : CoreSync κ) : Prop :=
  ∀ c, ∀ source ∈ (s.contexts c).sources, source.pointsTo slot = false

/-- A call begins only where no source is left that is still to write to its frame. -/
def SlotsFresh (s : CoreSync κ) : SyncLabel κ → Prop
  | .enter slot _ _ _ _ _ => s.Unreferenced slot
  | _ => True

/-- A source is attached until its callback has returned. -/
def CoreSync.Attached (c : κ) (source : SyncSource) (s : CoreSync κ) : Prop :=
  source ∈ (s.contexts c).sources ∨ ∃ thread, .callback c source ∈ s.threads thread

/-- No source of the call is attached. -/
def CoreSync.Detached (slot call : Nat) (s : CoreSync κ) : Prop :=
  ∀ c, ¬ s.Attached c (.completion slot call)

/-- No thread but its own iterates the context of the call while it is in progress. -/
def IteratedByCaller (slot call : Nat) (s : CoreSync κ) : Prop :=
  ∀ frame c, s.frames slot = some frame → frame.call = call → frame.data.mainContext = some c →
    ∀ thread, ∀ activity ∈ s.threads thread, activity.iterated = some c → thread = frame.thread

/-- Calls begin on fresh frames and, where its context is not `shared`, other threads leave the
context of the call alone. -/
def SyncAllowed (shared : Bool) (slot call : Nat) (s : CoreSync κ) (label : SyncLabel κ) : Prop :=
  SlotsFresh s label ∧ (shared = false → IteratedByCaller slot call s)

instance [Fintype κ] (slot : Nat) : Decidable (s.Unreferenced slot) :=
  inferInstanceAs (Decidable (∀ c, ∀ source ∈ (s.contexts c).sources, source.pointsTo slot = false))

instance [Fintype κ] (s : CoreSync κ) : ∀ label, Decidable (SlotsFresh s label)
  | .enter slot _ _ _ _ _ => inferInstanceAs (Decidable (s.Unreferenced slot))
  | .core _ | .hand _ | .wake _ | .timeout _ _ | .iterate _ _ | .iterateIn _ | .check _ _
  | .dispatch _ | .detach _ | .iterated _ | .finish _ => .isTrue trivial

/-- Which events leave no source behind: none that attaches one or, where the call dispatches
what is attached, one that does and no error that keeps it from that. -/
def SyncClean (shared : Bool) (mainContext : Option κ) (seq : Int) (events : List CoreEvent) :
    Prop :=
  mainContext = none ∨ seq < 0 ∨ events.countP (·.completes seq) = 0 ∨
    shared = false ∧ events.countP (·.completes seq) = 1 ∧ events.countP (·.fails seq) = 0

/-- What the listener of a call knows of the sources that have its frame as data. -/
structure FrameInv (contexts : κ → MainContext Nat SyncSource) (slot : Nat)
    (frame : SyncFrame κ) : Prop where
  requested : 0 ≤ frame.data.seq
  own : ∀ c, ∀ source ∈ (contexts c).sources, source.pointsTo slot = true →
    frame.data.mainContext = some c
  counted : ∀ c, frame.data.mainContext = some c →
    (contexts c).sources.countP (·.pointsTo slot) + frame.data.mainContextDone.toNat ≤
      frame.processed.countP (·.completes frame.data.seq)
  done : frame.data.done = frame.processed.any (·.completes frame.data.seq)
  error : frame.data.errorResult < 0 ↔ frame.processed.any (·.fails frame.data.seq) = true

section FrameInv

variable {contexts contexts' : κ → MainContext Nat SyncSource} {slot : Nat}
  {frame next : SyncFrame κ} {event : CoreEvent}

theorem FrameInv.sublist (h : FrameInv contexts slot frame)
    (fewer : ∀ c, ((contexts' c).sources.filter (·.pointsTo slot)).Sublist
      ((contexts c).sources.filter (·.pointsTo slot))) : FrameInv contexts' slot frame where
  requested := h.requested
  own c source hs points := by
    have hf : source ∈ (contexts' c).sources.filter (·.pointsTo slot) :=
      List.mem_filter.mpr ⟨hs, points⟩
    exact h.own c source (List.mem_filter.mp ((fewer c).subset hf)).1 points
  counted c hc := by
    have hl := (fewer c).length_le
    rw [← List.countP_eq_length_filter, ← List.countP_eq_length_filter] at hl
    have := h.counted c hc
    omega
  done := h.done
  error := h.error

/-- An event is processed; where it completes the call, a source may have been attached. -/
theorem FrameInv.after (h : FrameInv contexts slot frame) (ha : frame.After event next)
    (own : ∀ c, ∀ source ∈ (contexts' c).sources, source.pointsTo slot = true →
      frame.data.mainContext = some c)
    (attached : ∀ c, frame.data.mainContext = some c →
      (contexts' c).sources.countP (·.pointsTo slot) ≤
        (contexts c).sources.countP (·.pointsTo slot) + (event.completes frame.data.seq).toNat) :
    FrameInv contexts' slot next where
  requested := by
    rw [ha.seq]
    exact h.requested
  own := by
    rw [ha.mainContext]
    exact own
  counted c hc := by
    rw [ha.mainContext] at hc
    have before := h.counted c hc
    have more := attached c hc
    rw [ha.mainContextDone, ha.processed, ha.seq, List.countP_append, List.countP_singleton]
    cases hcomp : event.completes frame.data.seq <;> simp [hcomp] at more ⊢ <;> omega
  done := by
    rw [ha.done, ha.processed, ha.seq, h.done, List.any_append]
    simp
  error := by
    rw [ha.error, ha.processed, ha.seq, h.error, List.any_append]
    simp

/-- The completion source of a call is dispatched. -/
theorem FrameInv.flagged {c : κ} {source : SyncSource} {rest : List SyncSource}
    (h : FrameInv contexts slot frame) (points : source.pointsTo slot = true)
    (hs : (contexts c).sources = source :: rest)
    (hc : (contexts' c).sources = rest) (hother : ∀ c', c' ≠ c → contexts' c' = contexts c') :
    FrameInv contexts' slot
      { frame with data := { frame.data with mainContextDone := true } } where
  requested := h.requested
  own c' source' hs' points' := by
    by_cases he : c' = c
    · subst he
      rw [hc] at hs'
      exact h.own c' source' (by simp [hs, hs']) points'
    · rw [hother c' he] at hs'
      exact h.own c' source' hs' points'
  counted c' hc' := by
    have hctx : frame.data.mainContext = some c := h.own c source (by simp [hs]) points
    have he : c' = c := Option.some.inj (hc'.symm.trans hctx)
    subst he
    have before := h.counted c' hctx
    have popped : (contexts c').sources.countP (·.pointsTo slot) =
        (contexts' c').sources.countP (·.pointsTo slot) + 1 := by
      rw [hs, hc, List.countP_cons, if_pos points]
    have flag : (true).toNat = 1 := rfl
    show _ + (true).toNat ≤ frame.processed.countP (·.completes frame.data.seq)
    omega
  done := h.done
  error := h.error

theorem FrameInv.unreferenced (h : FrameInv contexts slot frame) {result : SyncResult}
    (may : frame.data.MayReturn result) {shared : Bool}
    (clean : SyncClean shared frame.data.mainContext frame.data.seq frame.processed) (c : κ) :
    ∀ source ∈ (contexts c).sources, source.pointsTo slot = false := by
  intro source hs
  by_contra hp
  have points : source.pointsTo slot = true := by simpa using hp
  have hctx := h.own c source hs points
  have counted := h.counted c hctx
  have attached : 0 < (contexts c).sources.countP (·.pointsTo slot) :=
    List.countP_pos_iff.mpr ⟨source, hs, points⟩
  have requested := h.requested
  rcases clean with hnone | hseq | hzero | ⟨-, hone, hfails⟩
  · simp [hctx] at hnone
  · omega
  · omega
  · cases result with
    | synced =>
      rcases may with hnone | hflag
      · simp [hctx] at hnone
      · have flag : frame.data.mainContextDone.toNat = 1 := by rw [hflag]; rfl
        omega
    | failed errorResult message =>
      obtain ⟨event, he, fails⟩ := List.any_eq_true.mp (h.error.mp may)
      exact List.countP_eq_zero.mp hfails event he fails
    | waitFailed waitResult =>
      have undone : frame.data.done = false := may
      rw [h.done, List.any_eq_false] at undone
      have : frame.processed.countP (·.completes frame.data.seq) = 0 :=
        List.countP_eq_zero.mpr undone
      omega
    | notStarted => exact may

end FrameInv

/-- The sources that point to frames are those of the calls in progress there. -/
def FramesInv (s : CoreSync κ) : Prop :=
  ∀ slot frame, s.frames slot = some frame → FrameInv s.contexts slot frame

section FramesInv

variable {slot : Nat} {frame : SyncFrame κ} {event : CoreEvent} {c : κ} {threadDefault : κ → Bool}

theorem FramesInv.of_fewer (h : FramesInv s) (frames : t.frames = s.frames)
    (fewer : ∀ c, (t.contexts c).sources.Sublist (s.contexts c).sources) : FramesInv t := by
  intro slot frame hf
  rw [frames] at hf
  exact (h slot frame hf).sublist fun c => (fewer c).filter _

theorem FramesInv.removeFrame (h : FramesInv s) (slot : Nat) :
    FramesInv (s.setFrame slot none) := by
  intro slot' frame hf
  by_cases he : slot' = slot
  · simp [setFrame, he] at hf
  · simp only [setFrame, Function.update_of_ne he] at hf
    exact h slot' frame hf

theorem FramesInv.enter (h : FramesInv s) (fresh : s.Unreferenced slot) {mainContext : Option κ}
    {seq : Int} (requested : 0 ≤ seq) (timed : Bool) (thread call : Nat) : FramesInv (s.setFrame
      slot (some ⟨{ mainContext := mainContext, seq := seq }, timed, thread, call, []⟩)) := by
  intro slot' frame' hf'
  rcases setFrame_frames hf' with ⟨rfl, hnew⟩ | ⟨-, hother⟩
  · cases Option.some.inj hnew
    refine ⟨requested, ?_, ?_, rfl, by simp⟩
    · intro c source hs points
      simp [fresh c source hs] at points
    · intro c _
      have none_points : (s.contexts c).sources.countP (·.pointsTo slot') = 0 := by
        rw [List.countP_eq_zero]
        intro source hs
        simp [fresh c source hs]
      exact Nat.le_of_eq (by simp [setFrame, none_points])
  · exact h slot' frame' hother

variable [DecidableEq κ]

/-- A source that points elsewhere may be attached. -/
theorem FrameInv.attachOther (h : FrameInv s.contexts slot frame) {source : SyncSource}
    (other : source.pointsTo slot = false) (c : κ) :
    FrameInv (s.attach c source).contexts slot frame := by
  refine h.sublist fun c' => ?_
  by_cases he : c' = c
  · subst he
    rw [attach_self, List.filter_append, List.filter_singleton]
    simp [other]
  · rw [attach_of_ne source he]

theorem FramesInv.attachEvent (h : FramesInv s) (c : κ) (number : Nat) :
    FramesInv (s.attach c (.event number)) := by
  intro slot frame hf
  exact (h slot frame hf).attachOther rfl c

theorem FramesInv.listener (h : FramesInv s) (event : CoreEvent) (slot : Nat) :
    FramesInv (coreSyncListener event s slot) := by
  have effect := coreSyncListener_effect event s slot
  generalize coreSyncListener event s slot = t at effect
  intro slot' frame' hf'
  cases effect with
  | absent => exact h slot' frame' hf'
  | processed frame after hf ha =>
    rcases setFrame_frames hf' with ⟨rfl, hafter⟩ | ⟨-, hother⟩
    · cases Option.some.inj hafter
      exact (h slot' frame hf).after ha (h slot' frame hf).own fun c hc => Nat.le_add_right _ _
    · exact h slot' frame' hother
  | attached frame after c hf ha completes hc =>
    rcases setFrame_frames (s := s) hf' with ⟨rfl, hafter⟩ | ⟨he, hother⟩
    · cases Option.some.inj hafter
      refine (h slot' frame hf).after ha ?_ ?_
      · intro c' source hs points
        by_cases hcc : c' = c
        · rw [hcc, hc]
        · rw [attach_of_ne _ hcc] at hs
          exact (h slot' frame hf).own c' source hs points
      · intro c' hc'
        obtain rfl : c = c' := Option.some.inj (hc.symm.trans hc')
        rw [attach_self, List.countP_append, completes]
        simp [setFrame, SyncSource.pointsTo]
    · have other : (SyncSource.completion slot frame.call).pointsTo slot' = false := by
        simpa [SyncSource.pointsTo] using Ne.symm he
      exact FrameInv.attachOther (s := s.setFrame slot (some after)) (h slot' frame' hother) other c

/-- The first source of a context is dispatched. -/
theorem FramesInv.dispatch (h : FramesInv s) {source : SyncSource} {rest : List SyncSource}
    (hs : (s.contexts c).sources = source :: rest) (thread pending : Nat) :
    FramesInv (dispatchSource c source (callSource thread c source rest pending s)) := by
  have popped : FramesInv (callSource thread c source rest pending s) :=
    h.of_fewer rfl (popped_sublist hs)
  cases source with
  | event number => exact popped
  | completion slot call =>
    simp only [dispatchSource, coreSyncOnMainContextDone]
    split
    next frame hf =>
      intro slot' frame' hf'
      rcases setFrame_frames hf' with ⟨rfl, hflag⟩ | ⟨-, hother⟩
      · cases Option.some.inj hflag
        refine (h slot' frame hf).flagged (by simp [SyncSource.pointsTo]) hs ?_ ?_
        · simp [setFrame, callSource, setContext, setPending, push, setStack]
        · intro c' hc'
          simp [setFrame, callSource, setContext, setPending, push, setStack, hc']
      · exact popped slot' frame' hother
    next => exact popped

theorem FramesInv.effect {label : SyncLabel κ} (h : FramesInv s) (fresh : SlotsFresh s label)
    (effect : SyncEffect threadDefault s label t) : FramesInv t := by
  cases effect with
  | refused => exact h
  | entered slot thread mainContext seq timed ready data hdata requested =>
    subst hdata
    have listening : FramesInv { s with listeners := s.listeners ++ [slot] } := h
    exact listening.enter fresh requested timed thread s.history.length
  | core event =>
    exact listeners_preserve (I := FramesInv) (fun s slot h => h.listener event slot) _ h
  | inlined c => exact h
  | attached c =>
    have handed : FramesInv ({ s with handed := s.handed + 1 }.record (.handed c s.handed)) := h
    exact handed.attachEvent c s.handed
  | stayed listeners pending => exact h
  | returned slot frame result listeners =>
    have removed : FramesInv { s with listeners := listeners } := h
    exact removed.removeFrame slot
  | iterating thread c context same | ended thread c context same =>
    refine h.of_fewer rfl fun c' => ?_
    exact (owned_sources same c').symm ▸ List.Sublist.refl _
  | dispatched thread c source rest pending uncalled hs => exact h.dispatch hs thread pending

end FramesInv

/-- Calls are told apart by their numbers, and a completion whose callback is being called has
set the flag of its call and is innermost on its thread. -/
structure CallsInv (s : CoreSync κ) : Prop where
  begun : ∀ slot frame, s.frames slot = some frame → frame.call < s.history.length
  numbered : ∀ c slot call, s.Attached c (.completion slot call) → call < s.history.length
  called : ∀ thread c slot frame, .callback c (.completion slot frame.call) ∈ s.threads thread →
    s.frames slot = some frame →
      frame.data.mainContext = some c ∧ frame.data.mainContextDone = true
  innermost : ∀ thread c slot call, .callback c (.completion slot call) ∉ (s.threads thread).tail

theorem callsInv_init : CallsInv ({} : CoreSync κ) where
  begun slot frame hf := by cases hf
  numbered c slot call ha := by
    rcases ha with hs | ⟨thread, hm⟩
    · cases hs
    · cases hm
  called thread c slot frame hm := by cases hm
  innermost thread c slot call hm := by cases hm

section CallsInv

variable {slot call thread thread' : Nat} {frame : SyncFrame κ} {c : κ}
  {activity activity' : SyncActivity κ} {source : SyncSource}

theorem mem_push (h : activity' ∈ (s.push thread activity).threads thread') :
    thread' = thread ∧ activity' = activity ∨ activity' ∈ s.threads thread' := by
  by_cases he : thread' = thread
  · subst he
    exact (by simpa [push, setStack] using h : _ ∨ _).imp (⟨rfl, ·⟩) id
  · exact .inr (by simpa [push, setStack, he] using h)

theorem mem_tail_push (h : activity' ∈ ((s.push thread activity).threads thread').tail) :
    thread' = thread ∧ activity' ∈ s.threads thread ∨ activity' ∈ (s.threads thread').tail := by
  by_cases he : thread' = thread
  · subst he
    exact .inl ⟨rfl, by simpa [push, setStack] using h⟩
  · exact .inr (by simpa [push, setStack, he] using h)

theorem mem_pop (h : activity ∈ (s.pop thread).threads thread') : activity ∈ s.threads thread' := by
  by_cases he : thread' = thread
  · subst he
    exact List.mem_of_mem_tail (by simpa [pop, setStack] using h)
  · simpa [pop, setStack, he] using h

theorem mem_tail_pop (h : activity ∈ ((s.pop thread).threads thread').tail) :
    activity ∈ (s.threads thread').tail := by
  by_cases he : thread' = thread
  · subst he
    exact List.mem_of_mem_tail (by simpa [pop, setStack] using h)
  · simpa [pop, setStack, he] using h

theorem attached_of_fewer {c : κ} {source : SyncSource}
    (sources : source ∈ (t.contexts c).sources → source ∈ (s.contexts c).sources)
    (threads : ∀ thread, .callback c source ∈ t.threads thread →
      .callback c source ∈ s.threads thread) (h : t.Attached c source) : s.Attached c source := by
  rcases h with hs | ⟨thread, hm⟩
  · exact .inl (sources hs)
  · exact .inr ⟨thread, threads thread hm⟩

theorem CallsInv.uncalled (h : CallsInv s) (head : s.Uncalled thread) (c : κ) (slot call : Nat) :
    .callback c (.completion slot call) ∉ s.threads thread := by
  intro hm
  have inner := h.innermost thread c slot call
  have first := head c slot call
  cases hs : s.threads thread with
  | nil => simp [hs] at hm
  | cons activity below =>
    rw [hs] at hm inner first
    rcases List.mem_cons.mp hm with rfl | hb
    · exact first rfl
    · exact inner hb

/-- Calls end, sources go, and what threads are in ends. -/
theorem CallsInv.of_fewer (h : CallsInv s) (longer : s.history.length ≤ t.history.length)
    (frames : ∀ slot frame, t.frames slot = some frame → s.frames slot = some frame)
    (sources : ∀ c slot call, .completion slot call ∈ (t.contexts c).sources →
      .completion slot call ∈ (s.contexts c).sources)
    (threads : ∀ thread c slot call, .callback c (.completion slot call) ∈ t.threads thread →
      .callback c (.completion slot call) ∈ s.threads thread)
    (inner : ∀ thread c slot call, .callback c (.completion slot call) ∉ (t.threads thread).tail) :
    CallsInv t where
  begun slot frame hf := (h.begun slot frame (frames slot frame hf)).trans_le longer
  numbered c slot call ha := by
    refine (h.numbered c slot call ?_).trans_le longer
    exact attached_of_fewer (sources c slot call) (threads · c slot call) ha
  called thread c slot frame hm hf :=
    h.called thread c slot frame (threads thread c slot _ hm) (frames slot frame hf)
  innermost := inner

theorem CallsInv.record (h : CallsInv s) (event : SyncEvent κ) : CallsInv (s.record event) :=
  h.of_fewer (by simp [CoreSync.record]) (fun _ _ => id) (fun _ _ _ => id) (fun _ _ _ _ => id)
    h.innermost

theorem CallsInv.setFrame (h : CallsInv s) (hf : s.frames slot = some frame)
    {next : SyncFrame κ} (hcall : next.call = frame.call)
    (hcontext : next.data.mainContext = frame.data.mainContext)
    (hflag : frame.data.mainContextDone = true → next.data.mainContextDone = true) :
    CallsInv (s.setFrame slot (some next)) where
  begun slot' frame' hf' := by
    rcases setFrame_frames hf' with ⟨rfl, hnext⟩ | ⟨-, hother⟩
    · cases Option.some.inj hnext
      rw [hcall]
      exact h.begun slot' frame hf
    · exact h.begun slot' frame' hother
  numbered := h.numbered
  called thread c slot' frame' hm hf' := by
    rcases setFrame_frames hf' with ⟨rfl, hnext⟩ | ⟨-, hother⟩
    · cases Option.some.inj hnext
      rw [hcall] at hm
      obtain ⟨context, flag⟩ := h.called thread c slot' frame hm hf
      exact ⟨hcontext.trans context, hflag flag⟩
    · exact h.called thread c slot' frame' hm hother
  innermost := h.innermost

theorem CallsInv.enter (h : CallsInv s) (head : s.Uncalled thread) (slot : Nat)
    (data : CoreSyncData κ) (timed : Bool) : CallsInv
      (((s.setFrame slot (some ⟨data, timed, thread, s.history.length, []⟩)).push thread
        (.call slot)).record (.entered slot)) := by
  have longer : s.history.length < (s.history ++ [SyncEvent.entered slot]).length := by simp
  refine ⟨?_, ?_, ?_, ?_⟩
  · intro slot' frame' hf'
    rcases setFrame_frames hf' with ⟨-, hnew⟩ | ⟨-, hother⟩
    · cases Option.some.inj hnew
      exact longer
    · exact (h.begun slot' frame' hother).trans longer
  · rintro c slot' call (hs | ⟨thread', hm⟩)
    · exact (h.numbered c slot' call (.inl hs)).trans longer
    · rcases mem_push hm with ⟨-, he⟩ | hm
      · cases he
      · exact (h.numbered c slot' call (.inr ⟨thread', hm⟩)).trans longer
  · intro thread' c slot' frame' hm hf'
    have hm := (mem_push hm).resolve_left fun he => by cases he.2
    rcases setFrame_frames hf' with ⟨-, hnew⟩ | ⟨-, hother⟩
    · -- the call has a number of its own
      cases Option.some.inj hnew
      exact absurd (h.numbered c slot' _ (.inr ⟨thread', hm⟩)) (Nat.lt_irrefl _)
    · exact h.called thread' c slot' frame' hm hother
  · intro thread' c slot' call hm
    rcases mem_tail_push hm with ⟨-, hm⟩ | hm
    · exact h.uncalled head c slot' call hm
    · exact h.innermost thread' c slot' call hm

variable [DecidableEq κ] {threadDefault : κ → Bool}

theorem CallsInv.attach (h : CallsInv s) (c : κ)
    (numbered : ∀ slot call, source = .completion slot call → call < s.history.length) :
    CallsInv (s.attach c source) where
  begun := h.begun
  numbered c' slot call ha := by
    rcases ha with hs | hm
    · by_cases he : c' = c
      · subst he
        rw [attach_self] at hs
        rcases List.mem_append.mp hs with hs | hs
        · exact h.numbered c' slot call (.inl hs)
        · exact numbered slot call (List.mem_singleton.mp hs).symm
      · rw [attach_of_ne source he] at hs
        exact h.numbered c' slot call (.inl hs)
    · exact h.numbered c' slot call (.inr hm)
  called := h.called
  innermost := h.innermost

theorem CallsInv.listener (h : CallsInv s) (event : CoreEvent) (slot : Nat) :
    CallsInv (coreSyncListener event s slot) := by
  have effect := coreSyncListener_effect event s slot
  generalize coreSyncListener event s slot = t at effect
  cases effect with
  | absent => exact h
  | processed frame after hf ha =>
    exact h.setFrame hf ha.call ha.mainContext ha.mainContextDone.trans
  | attached frame after c hf ha completes hc =>
    have updated := h.setFrame hf ha.call ha.mainContext ha.mainContextDone.trans
    refine updated.attach c fun slot' call he => ?_
    obtain ⟨-, rfl⟩ := SyncSource.completion.inj he
    exact h.begun slot frame hf

/-- A source whose callback is called stays attached. -/
theorem attached_callSource {rest : List SyncSource} {c' : κ} {source' : SyncSource}
    {pending : Nat} (hs : (s.contexts c).sources = source :: rest)
    (h : (callSource thread c source rest pending s).Attached c' source') :
    s.Attached c' source' := by
  rcases h with hm | ⟨thread', hm⟩
  · exact .inl ((popped_sublist hs c').subset hm)
  · rcases mem_push (s := (s.setContext c _).setPending c _) hm with ⟨-, he⟩ | hm
    · obtain ⟨rfl, rfl⟩ := SyncActivity.callback.inj he
      exact .inl (by simp [hs])
    · exact .inr ⟨thread', hm⟩

theorem CallsInv.take (h : CallsInv s) (head : s.Uncalled thread) {rest : List SyncSource}
    (hs : (s.contexts c).sources = source :: rest) (pending : Nat)
    (flagged : ∀ slot frame, source = .completion slot frame.call → s.frames slot = some frame →
      frame.data.mainContext = some c ∧ frame.data.mainContextDone = true) :
    CallsInv (callSource thread c source rest pending s) where
  begun := h.begun
  numbered c' slot call ha := h.numbered c' slot call (attached_callSource hs ha)
  called thread' c' slot frame hm hf := by
    rcases mem_push (s := (s.setContext c _).setPending c _) hm with ⟨-, he⟩ | hm
    · obtain ⟨rfl, hsource⟩ := SyncActivity.callback.inj he
      exact flagged slot frame hsource.symm hf
    · exact h.called thread' c' slot frame hm hf
  innermost thread' c' slot call hm := by
    rcases mem_tail_push (s := (s.setContext c _).setPending c _) hm with ⟨-, hm⟩ | hm
    · exact h.uncalled head c' slot call hm
    · exact h.innermost thread' c' slot call hm

omit [DecidableEq κ] in
theorem CallsInv.flag (h : CallsInv s) (slot : Nat) :
    CallsInv (coreSyncOnMainContextDone slot s) := by
  unfold coreSyncOnMainContextDone
  split
  next frame hf => exact h.setFrame hf rfl rfl fun _ => rfl
  next => exact h

/-- The completion sets the flag as its callback is called. -/
theorem dispatch_completion (thread : Nat) (c : κ) (slot call : Nat) (rest : List SyncSource)
    (pending : Nat) (s : CoreSync κ) :
    dispatchSource c (.completion slot call)
        (callSource thread c (.completion slot call) rest pending s) =
      callSource thread c (.completion slot call) rest pending
        (coreSyncOnMainContextDone slot s) := by
  simp only [dispatchSource, coreSyncOnMainContextDone, callSource, push, setStack, setPending,
    setContext]
  cases s.frames slot <;> rfl

theorem CallsInv.dispatch (h : CallsInv s) (frames : FramesInv s) (head : s.Uncalled thread)
    {rest : List SyncSource} (hs : (s.contexts c).sources = source :: rest) (pending : Nat) :
    CallsInv (dispatchSource c source (callSource thread c source rest pending s)) := by
  cases source with
  | event number =>
    exact (h.take head hs pending (by simp)).record _
  | completion slot call =>
    obtain ⟨-, contexts, threads⟩ := coreSyncOnMainContextDone_fields slot s
    rw [dispatch_completion]
    refine (h.flag slot).take ?_ (by rw [contexts, hs]) pending fun slot' frame' he hf' => ?_
    · simpa only [Uncalled, threads] using head
    · obtain ⟨rfl, -⟩ := SyncSource.completion.inj he
      unfold coreSyncOnMainContextDone at hf'
      split at hf'
      next frame hf =>
        obtain ⟨-, hflag⟩ := (setFrame_frames hf').resolve_right fun h => h.1 rfl
        cases Option.some.inj hflag
        refine ⟨(frames slot frame hf).own c (.completion slot call) ?_ ?_, rfl⟩
        · simp [hs]
        · simp [SyncSource.pointsTo]
      next absent => simp [absent] at hf'

theorem CallsInv.effect {label : SyncLabel κ} (h : CallsInv s) (frames : FramesInv s)
    (effect : SyncEffect threadDefault s label t) : CallsInv t := by
  cases effect with
  | refused => exact h.record _
  | entered slot thread mainContext seq timed ready data hdata requested head =>
    have listening : CallsInv { s with listeners := s.listeners ++ [slot] } :=
      ⟨h.begun, h.numbered, h.called, h.innermost⟩
    exact listening.enter head slot data timed
  | core event =>
    exact listeners_preserve (I := CallsInv) (fun s slot h => h.listener event slot) _ (h.record _)
  | inlined c =>
    have counted : CallsInv { s with handed := s.handed + 1 } :=
      ⟨h.begun, h.numbered, h.called, h.innermost⟩
    exact (counted.record _).record _
  | attached c =>
    have counted : CallsInv { s with handed := s.handed + 1 } :=
      ⟨h.begun, h.numbered, h.called, h.innermost⟩
    exact (counted.record _).attach c (by simp)
  | stayed listeners pending => exact ⟨h.begun, h.numbered, h.called, h.innermost⟩
  | returned slot frame result listeners =>
    have gone : CallsInv
        (({ s with listeners := listeners }.setFrame slot none).pop frame.thread) := by
      refine h.of_fewer (Nat.le_refl _) (fun slot' frame' hf' => ?_) (fun _ _ _ => id)
        (fun _ _ _ _ hm => mem_pop (s := s) hm)
        fun thread c slot' call hm => h.innermost thread c slot' call (mem_tail_pop (s := s) hm)
      exact ((setFrame_frames (s := s) hf').resolve_left fun he => by cases he.2).2
    exact gone.record _
  | iterating thread c context same head =>
    refine h.of_fewer (Nat.le_refl _) (fun _ _ => id)
      (fun _ _ _ => (mem_owned same).mp) ?_ ?_
    · intro thread' c' slot call hm
      exact (mem_push (s := (s.setContext c context).setPending c none) hm).resolve_left
        fun he => by cases he.2
    · intro thread' c' slot call hm
      rcases mem_tail_push (s := (s.setContext c context).setPending c none) hm with ⟨-, hm⟩ | hm
      · exact h.uncalled head c' slot call hm
      · exact h.innermost thread' c' slot call hm
  | dispatched thread c source rest pending head hs => exact h.dispatch frames head hs pending
  | ended thread c context same =>
    exact h.of_fewer (Nat.le_refl _) (fun _ _ => id)
      (fun _ _ _ => (mem_owned same).mp)
      (fun _ _ _ _ hm => mem_pop (s := s.setContext c context) hm)
      fun thread' c' slot call hm =>
        h.innermost thread' c' slot call (mem_tail_pop (s := s.setContext c context) hm)

/-- The thread of a call that returns is in no callback, and no other thread iterates its
context. -/
theorem CallsInv.detached (h : CallsInv s) (frames : FramesInv s) {shared : Bool}
    (own : shared = false → IteratedByCaller slot frame.call s)
    (hf : s.frames slot = some frame)
    {result : SyncResult} (may : frame.data.MayReturn result)
    (runs : s.runsCall slot frame = true)
    (clean : SyncClean shared frame.data.mainContext frame.data.seq frame.processed) :
    s.Detached slot frame.call := by
  rintro c (hs | ⟨thread, hm⟩)
  · have := (frames slot frame hf).unreferenced may clean c _ hs
    simp [SyncSource.pointsTo] at this
  · obtain ⟨hctx, flag⟩ := h.called thread c slot frame hm hf
    have counted := (frames slot frame hf).counted c hctx
    have requested := (frames slot frame hf).requested
    rw [flag] at counted
    have flagged : (true).toNat = 1 := rfl
    rcases clean with hnone | hseq | hzero | ⟨unshared, -, -⟩
    · simp [hctx] at hnone
    · omega
    · omega
    · obtain rfl : thread = frame.thread := own unshared frame c hf rfl hctx thread _ hm rfl
      exact h.uncalled (uncalled_of_runsCall runs) c slot frame.call hm

end CallsInv

/-- The call, if it has returned and nothing has happened since, has left no source behind. -/
def ReturnsDetached (shared : Bool) (slot call : Nat) (s : CoreSync κ) : Prop :=
  ∀ frame result, s.history.getLast? = some (.returned slot frame result) → frame.call = call →
    SyncClean shared frame.data.mainContext frame.data.seq frame.processed →
      s.Detached slot call

section ReturnsDetached

variable {shared : Bool} {slot call : Nat}

theorem ReturnsDetached.of_last (event : SyncEvent κ) (last : s.history.getLast? = some event)
    (other : ∀ slot frame result, event ≠ .returned slot frame result) :
    ReturnsDetached shared slot call s := by
  intro frame result h
  rw [last] at h
  exact absurd (Option.some.inj h) (other slot frame result)

theorem ReturnsDetached.of_fewer (h : ReturnsDetached shared slot call s)
    (history : t.history = s.history)
    (fewer : ∀ c, t.Attached c (.completion slot call) → s.Attached c (.completion slot call)) :
    ReturnsDetached shared slot call t := by
  intro frame result hl he clean c ha
  rw [history] at hl
  exact h frame result hl he clean c (fewer c ha)

variable [DecidableEq κ] {threadDefault : κ → Bool}

theorem ReturnsDetached.effect {label : SyncLabel κ} (h : ReturnsDetached shared slot call s)
    (frames : FramesInv s) (calls : CallsInv s)
    (own : shared = false → IteratedByCaller slot call s)
    (effect : SyncEffect threadDefault s label t) : ReturnsDetached shared slot call t := by
  cases effect with
  | refused slot' thread mainContext seq timed ready frame hcall =>
    intro frame' result hl he _ c ha
    obtain ⟨-, rfl, -⟩ := SyncEvent.returned.inj (Option.some.inj (by simpa [record] using hl))
    have numbered := calls.numbered c slot call ha
    omega
  | entered slot' => exact .of_last (.entered slot') (by simp [record]) (by simp)
  | core event =>
    refine .of_last (.core event) ?_ (by simp)
    rw [listeners_history]
    exact List.getLast?_concat ..
  | inlined c =>
    exact .of_last (.dispatched c s.handed) (by simp [record]) (by simp)
  | attached c =>
    exact .of_last (.handed c s.handed) (by simp [record, attach, setContext]) (by simp)
  | stayed listeners pending => exact h
  | returned slot' frame result listeners hf may runs =>
    intro frame' result' hl he clean c ha
    obtain ⟨rfl, rfl, -⟩ : slot' = slot ∧ frame = frame' ∧ result = result' := by
      simpa [returnSync, record] using hl
    subst he
    have popped : (s.pop frame.thread).Attached c (.completion slot' frame.call) := ha
    refine calls.detached frames own hf may runs clean c (attached_of_fewer ?_ ?_ popped)
    · exact id
    · exact fun thread => mem_pop
  | iterating thread c context same head =>
    refine h.of_fewer rfl fun c' => attached_of_fewer (mem_owned same).mp ?_
    intro thread' hm
    exact (mem_push (s := (s.setContext c context).setPending c none) hm).resolve_left
      fun he => by cases he.2
  | dispatched thread c source rest pending head hs =>
    cases source with
    | event number =>
      exact .of_last (.dispatched c number) (by simp [dispatchSource, record]) (by simp)
    | completion slot' call' =>
      obtain ⟨history, contexts, threads⟩ := coreSyncOnMainContextDone_fields slot'
        (callSource thread c (.completion slot' call') rest pending s)
      refine h.of_fewer history fun c' ha => ?_
      have taken : (callSource thread c (.completion slot' call') rest pending s).Attached c'
          (.completion slot call) := by
        simpa only [dispatchSource, Attached, contexts, threads] using ha
      exact attached_callSource hs taken
  | ended thread c context same =>
    exact h.of_fewer rfl fun c' => attached_of_fewer (mem_owned same).mp
      fun _ hm => mem_pop (s := s.setContext c context) hm

end ReturnsDetached

section Runs

variable [DecidableEq κ] {threadDefault : κ → Bool} {c : κ} {seq : Int} {events : List CoreEvent}
  {frame : SyncFrame κ} {shared : Bool} {slot call : Nat}

theorem reach_returnsDetached
    (h : Reach (coreSyncStep threadDefault) (SyncAllowed shared slot call) {} s) :
    ReturnsDetached shared slot call s := by
  refine (h.invariant (I := fun s =>
    FramesInv s ∧ CallsInv s ∧ ReturnsDetached shared slot call s) ⟨?_, callsInv_init, ?_⟩ ?_).2.2
  · intro slot frame hf
    cases hf
  · intro frame result hl
    cases hl
  · rintro s label t ⟨frames, calls, detached⟩ ⟨fresh, own⟩ hs
    have effect := coreSyncStep_effect hs
    exact ⟨frames.effect fresh effect, calls.effect frames effect,
      detached.effect frames calls own effect⟩

end Runs

end PipewireGobject
