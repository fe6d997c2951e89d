import PipewireGobject.Reach

namespace PipewireGobject

/-- A context that one thread at a time can own, as often as it has acquired it. Its
sources are dispatched in the order in which they have been attached. -/
structure MainContext (τ α : Type) where
  owner : Option τ := none
  depth : Nat := 0
  sources : List α := []

namespace MainContext

variable {τ α : Type} [DecidableEq τ]

def acquire (t : τ) (c : MainContext τ α) : Option (MainContext τ α) :=
  if c.owner = none ∨ c.owner = some t then
    some { c with owner := some t, depth := c.depth + 1 }
  else none

def release (c : MainContext τ α) : MainContext τ α :=
  { c with owner := if c.depth ≤ 1 then none else c.owner, depth := c.depth - 1 }

def attach (source : α) (c : MainContext τ α) : MainContext τ α :=
  { c with sources := c.sources ++ [source] }

/-- Whether `g_main_context_invoke_full` calls the function itself: the thread owns the context,
or it can acquire it and it is the thread's own default. -/
def invokesInline (t : τ) (threadDefault : Bool) (c : MainContext τ α) : Bool :=
  c.owner = some t || (threadDefault && c.owner = none)

end MainContext

/-- The thread that iterates a context, and one that only has functions called in it. -/
inductive ContextThread
  | main
  | foreign
  deriving DecidableEq

/-- A component that handles events in a context. A `callback` of the foreign thread may
yield an event; `dispatch` begins to handle it and `exec` runs what is left, one statement
after the other. While a `handlers` statement is next, the application has control. -/
structure Dispatcher (σ ι α ε ω χ : Type) where
  callback : ε → σ → Option α
  dispatch : χ → α → σ → σ × List ι
  exec : χ → ι → σ → σ × List ι
  handlers : ι → Bool
  application : ω → σ → σ

/-- What the owner of the context has left to run: statements, an iteration that may
dispatch further sources, or a function that was called inline. -/
inductive Frame (ι : Type)
  | stmt (i : ι)
  | iteration
  | inlineCall
  deriving DecidableEq

def Frame.owns {ι : Type} : Frame ι → Bool
  | .stmt _ => false
  | .iteration | .inlineCall => true

/-- `code` is what the owner of the context has left to run, innermost first. All events
that callbacks have yielded are `invoked`, and those that were dispatched are `executed`. -/
structure DispatchRun (σ ι α : Type) where
  state : σ
  context : MainContext ContextThread α := {}
  code : List (Frame ι) := []
  invoked : List α := []
  executed : List (ContextThread × α) := []

inductive DispatchLabel (ε ω χ : Type)
  | callback (event : ε) (choice : χ)
  | beginIteration
  | dispatch (choice : χ)
  | run (choice : χ)
  | endIteration
  | application (operation : ω)
  deriving DecidableEq

variable {σ ι α ε ω χ : Type}

namespace Dispatcher

variable (D : Dispatcher σ ι α ε ω χ)

/-- The application has control: nothing runs in the context, or handlers do. -/
def applicationRuns (code : List (Frame ι)) : Bool :=
  code.head?.all fun
    | .stmt i => D.handlers i
    | _ => false

/-- Begin to handle an event on a thread. -/
def execute (choice : χ) (t : ContextThread) (event : α) (r : DispatchRun σ ι α) :
    DispatchRun σ ι α :=
  { r with
    state := (D.dispatch choice event r.state).1
    code := (D.dispatch choice event r.state).2.map .stmt ++ r.code
    executed := r.executed ++ [(t, event)] }

/-- `g_main_context_invoke_full` on the foreign thread, whose default is the context. -/
def invoke (choice : χ) (event : α) (r : DispatchRun σ ι α) : Option (DispatchRun σ ι α) :=
  if r.context.invokesInline .foreign true then
    (r.context.acquire .foreign).map fun context => D.execute choice .foreign event
      { r with
        context := context, code := .inlineCall :: r.code, invoked := r.invoked ++ [event] }
  else some { r with context := r.context.attach event, invoked := r.invoked ++ [event] }

def step (r : DispatchRun σ ι α) : DispatchLabel ε ω χ → Option (DispatchRun σ ι α)
  | .callback event choice =>
    -- the foreign thread is busy while a function it called inline runs
    if r.context.owner = some .foreign then none
    else
      match D.callback event r.state with
      | none => some r
      | some event => D.invoke choice event r
  | .beginIteration =>
    if D.applicationRuns r.code then
      (r.context.acquire (r.context.owner.getD .main)).map fun context =>
        { r with context := context, code := .iteration :: r.code }
    else none
  | .dispatch choice =>
    match r.code, r.context.owner, r.context.sources with
    | .iteration :: _, some t, event :: rest =>
      some (D.execute choice t event { r with context := { r.context with sources := rest } })
    | _, _, _ => none
  | .run choice =>
    match r.code with
    | .stmt i :: rest =>
      some { r with
        state := (D.exec choice i r.state).1
        code := (D.exec choice i r.state).2.map .stmt ++ rest }
    | .inlineCall :: rest => some { r with context := r.context.release, code := rest }
    | _ => none
  | .endIteration =>
    match r.code with
    | .iteration :: rest => some { r with context := r.context.release, code := rest }
    | _ => none
  | .application operation => some { r with state := D.application operation r.state }

/-- What a step does, and where it can be taken. -/
inductive Effect (r : DispatchRun σ ι α) :
    DispatchLabel ε ω χ → DispatchRun σ ι α → Prop
  | filtered (event : ε) (choice : χ) : D.callback event r.state = none →
      Effect r (.callback event choice) r
  | inlined (event : ε) (choice : χ) (e : α) : D.callback event r.state = some e →
      r.context.owner = none →
      Effect r (.callback event choice) (D.execute choice .foreign e { r with
        context := { r.context with owner := some .foreign, depth := r.context.depth + 1 }
        code := .inlineCall :: r.code, invoked := r.invoked ++ [e] })
  | attached (event : ε) (choice : χ) (e : α) : D.callback event r.state = some e →
      r.context.owner = some .main →
      Effect r (.callback event choice)
        { r with context := r.context.attach e, invoked := r.invoked ++ [e] }
  | began : D.applicationRuns r.code = true →
      Effect r .beginIteration { r with
        context := { r.context with
          owner := some (r.context.owner.getD .main), depth := r.context.depth + 1 }
        code := .iteration :: r.code }
  | dispatched (choice : χ) (t : ContextThread) (e : α) (code : List (Frame ι))
      (sources : List α) : r.code = .iteration :: code → r.context.owner = some t →
      r.context.sources = e :: sources →
      Effect r (.dispatch choice)
        (D.execute choice t e { r with context := { r.context with sources := sources } })
  | ran (choice : χ) (i : ι) (rest : List (Frame ι)) : r.code = .stmt i :: rest →
      Effect r (.run choice) { r with
        state := (D.exec choice i r.state).1
        code := (D.exec choice i r.state).2.map .stmt ++ rest }
  | released (label : DispatchLabel ε ω χ) (frame : Frame ι) (rest : List (Frame ι)) :
      frame.owns = true → r.code = frame :: rest →
      Effect r label { r with context := r.context.release, code := rest }
  | applied (operation : ω) :
      Effect r (.application operation) { r with state := D.application operation r.state }

theorem step_effect {r t : DispatchRun σ ι α} {label : DispatchLabel ε ω χ}
    (h : D.step r label = some t) : D.Effect r label t := by
  cases label with
  | callback event choice =>
    simp only [step] at h
    split at h
    next => cases h
    next hbusy =>
      split at h
      next hc =>
        cases Option.some.inj h
        exact .filtered event choice hc
      next e hc =>
        unfold invoke at h
        cases ho : r.context.owner with
        | none =>
          simp only [MainContext.invokesInline, MainContext.acquire, ho] at h
          cases h
          exact .inlined event choice e hc ho
        | some owner =>
          cases owner with
          | foreign => exact absurd ho hbusy
          | main =>
            simp only [MainContext.invokesInline, ho] at h
            cases h
            exact .attached event choice e hc ho
  | beginIteration =>
    simp only [step] at h
    split at h
    next ha =>
      obtain ⟨context, hc, rfl⟩ := Option.map_eq_some_iff.mp h
      unfold MainContext.acquire at hc
      split at hc
      next =>
        cases Option.some.inj hc
        exact .began ha
      next => cases hc
    next => cases h
  | dispatch choice =>
    simp only [step] at h
    split at h
    next code t e rest hc ho hs =>
      cases Option.some.inj h
      exact .dispatched choice t e code rest hc ho hs
    next => cases h
  | run choice =>
    simp only [step] at h
    split at h
    next i rest hc =>
      cases Option.some.inj h
      exact .ran choice i rest hc
    next rest hc =>
      cases Option.some.inj h
      exact .released _ .inlineCall rest rfl hc
    next => cases h
  | endIteration =>
    simp only [step] at h
    split at h
    next rest hc =>
      cases Option.some.inj h
      exact .released _ .iteration rest rfl hc
    next => cases h
  | application operation =>
    cases Option.some.inj h
    exact .applied operation

/-- The context is owned as often as the code has frames that release it again. -/
structure Balanced (r : DispatchRun σ ι α) : Prop where
  depth : r.context.depth = r.code.countP Frame.owns
  owner : r.context.owner = none ↔ r.context.depth = 0
  last : ∀ i, r.code.getLast? ≠ some (.stmt i)

theorem Balanced.idle {r : DispatchRun σ ι α} (h : Balanced r) (free : r.context.owner = none) :
    r.code = [] := by
  have unowned : r.code.countP Frame.owns = 0 := by rw [← h.depth, h.owner.mp free]
  cases hl : r.code.getLast? with
  | none => exact List.getLast?_eq_none_iff.mp hl
  | some frame =>
    have hm : frame ∈ r.code := List.mem_of_getLast? hl
    cases frame with
    | stmt i => exact absurd hl (h.last i)
    | iteration => exact absurd rfl (List.countP_eq_zero.mp unowned _ hm)
    | inlineCall => exact absurd rfl (List.countP_eq_zero.mp unowned _ hm)

theorem countP_stmts (l : List ι) (code : List (Frame ι)) :
    (l.map Frame.stmt ++ code).countP Frame.owns = code.countP Frame.owns := by
  rw [List.countP_append, List.countP_map, Nat.add_eq_right]
  exact List.countP_eq_zero.mpr fun i _ => by simp [Frame.owns]

theorem getLast_stmts {l : List ι} {code : List (Frame ι)} (hc : code ≠ []) :
    (l.map Frame.stmt ++ code).getLast? = code.getLast? := by
  rw [List.getLast?_append_of_ne_nil _ hc]

theorem Balanced.execute {r : DispatchRun σ ι α} (h : Balanced r) (hc : r.code ≠ [])
    (choice : χ) (t : ContextThread) (event : α) : Balanced (D.execute choice t event r) where
  depth := h.depth.trans (countP_stmts _ _).symm
  owner := h.owner
  last i := by
    show (_ ++ r.code).getLast? ≠ _
    rw [getLast_stmts hc]
    exact h.last i

theorem Balanced.effect {r t : DispatchRun σ ι α} {label : DispatchLabel ε ω χ}
    (h : Balanced r) (effect : D.Effect r label t) : Balanced t := by
  cases effect with
  | filtered => exact h
  | inlined event choice e _ free =>
    have hc : r.code = [] := h.idle free
    refine Balanced.execute D ⟨?_, by simp, ?_⟩ (by simp) choice .foreign e
    · simp [h.depth, hc, Frame.owns]
    · simp [hc]
  | attached => exact ⟨h.depth, h.owner, h.last⟩
  | began =>
    refine ⟨?_, by simp, ?_⟩
    · rw [List.countP_cons_of_pos rfl, h.depth]
    · intro i
      cases hc : r.code with
      | nil => simp
      | cons frame code =>
        rw [List.getLast?_cons_cons, ← hc]
        exact h.last i
  | dispatched choice t e code sources hc =>
    have popped : Balanced { r with context := { r.context with sources := sources } } :=
      ⟨h.depth, h.owner, h.last⟩
    exact popped.execute D (by simp [hc]) choice t e
  | ran choice i rest hc =>
    have hrest : rest ≠ [] := by
      rintro rfl
      exact h.last i (by simp [hc])
    refine ⟨?_, h.owner, fun j => ?_⟩
    · show r.context.depth = (_ ++ rest).countP Frame.owns
      rw [countP_stmts, h.depth, hc]
      exact List.countP_cons_of_neg (by simp [Frame.owns])
    · show (_ ++ rest).getLast? ≠ _
      rw [getLast_stmts hrest]
      have hl := h.last j
      rw [hc] at hl
      obtain ⟨frame, rest', rfl⟩ := List.exists_cons_of_ne_nil hrest
      rwa [List.getLast?_cons_cons] at hl
  | released _ frame rest owns hc =>
    have depth : r.context.depth = rest.countP Frame.owns + 1 := by
      rw [h.depth, hc, List.countP_cons_of_pos owns]
    refine ⟨?_, ?_, fun j => ?_⟩
    · show r.context.depth - 1 = rest.countP Frame.owns
      omega
    · show (if r.context.depth ≤ 1 then none else r.context.owner) = none ↔ r.context.depth - 1 = 0
      split
      next => exact iff_of_true rfl (by omega)
      next =>
        rw [h.owner]
        omega
    · cases rest with
      | nil => simp
      | cons frame' rest =>
        have hl := h.last j
        rw [hc, List.getLast?_cons_cons] at hl
        exact hl
  | applied => exact ⟨h.depth, h.owner, h.last⟩

/-- Callbacks that yield an event find the context owned by the thread that iterates it. -/
def OwnedByMain (r : DispatchRun σ ι α) : DispatchLabel ε ω χ → Prop
  | .callback event _ => (D.callback event r.state).isSome = true → r.context.owner = some .main
  | _ => True

instance (r : DispatchRun σ ι α) : DecidablePred (D.OwnedByMain r)
  | .callback event _ => inferInstanceAs (Decidable ((D.callback event r.state).isSome = true →
      r.context.owner = some .main))
  | .beginIteration | .dispatch _ | .run _ | .endIteration | .application _ => .isTrue trivial

/-- Everything that has run for an event, or is about to, runs on the thread that iterates
the context. -/
structure OnMain (r : DispatchRun σ ι α) : Prop where
  executed : ∀ x ∈ r.executed, x.1 = ContextThread.main
  running : ∀ i rest, r.code = .stmt i :: rest → r.context.owner = some .main

structure OnMainInv (r : DispatchRun σ ι α) : Prop where
  balanced : Balanced r
  owner : r.context.owner ≠ some .foreign
  executed : ∀ x ∈ r.executed, x.1 = ContextThread.main

theorem eq_main {t : ContextThread} {owner : Option ContextThread} (ho : owner = some t)
    (hf : owner ≠ some .foreign) : t = .main := by
  cases t with
  | main => rfl
  | foreign => exact absurd ho hf

theorem OnMainInv.effect {r t : DispatchRun σ ι α} {label : DispatchLabel ε ω χ}
    (h : OnMainInv r) (effect : D.Effect r label t) (owned : D.OwnedByMain r label) :
    OnMainInv t := by
  have balanced : Balanced t := h.balanced.effect D effect
  cases effect with
  | filtered => exact h
  | inlined event choice e hc free =>
    have owner := owned (by simp [hc])
    rw [free] at owner
    cases owner
  | attached => exact ⟨balanced, h.owner, h.executed⟩
  | began =>
    refine ⟨balanced, ?_, h.executed⟩
    cases ho : r.context.owner with
    | none => simp
    | some t => simp [eq_main ho h.owner]
  | dispatched choice thread e code sources hc ho =>
    refine ⟨balanced, h.owner, fun x hx => ?_⟩
    rcases List.mem_append.mp hx with hx | hx
    · exact h.executed x hx
    · rw [List.mem_singleton.mp hx]
      exact eq_main ho h.owner
  | ran => exact ⟨balanced, h.owner, h.executed⟩
  | released =>
    refine ⟨balanced, ?_, h.executed⟩
    show (if r.context.depth ≤ 1 then none else r.context.owner) ≠ _
    split
    next => simp
    next => exact h.owner
  | applied => exact ⟨balanced, h.owner, h.executed⟩

theorem OnMainInv.onMain {r : DispatchRun σ ι α} (h : OnMainInv r) : OnMain r := by
  refine ⟨h.executed, fun i rest hc => ?_⟩
  cases ho : r.context.owner with
  | none =>
    rw [h.balanced.idle ho] at hc
    cases hc
  | some t => rw [eq_main ho h.owner]

theorem reach_onMain {s : σ} {r : DispatchRun σ ι α}
    (h : Reach D.step D.OwnedByMain { state := s } r) : OnMain r := by
  have inv : OnMainInv r := h.invariant (I := OnMainInv)
    ⟨⟨rfl, by simp, by simp⟩, by simp, by simp⟩
    fun _ _ _ inv owned hs => inv.effect D (D.step_effect hs) owned
  exact inv.onMain

end Dispatcher

end PipewireGobject
