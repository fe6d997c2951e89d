import PipewireGobject.Reentrant

namespace PipewireGobject

universe u

/-- An object with a reference count, whose functions form a component. Each of its sources in
the main context holds a reference. The last reference runs `disposal`; then `clear` drops what
the object refers to, and handlers may run again. What is called after that does nothing, unless
it `survives`. -/
structure RefCountedObject (σ ι ω χ ε : Type u) where
  component : Component σ ι ω χ ε
  sources : σ → Nat
  dispatches : ω → Bool
  survives : ω → Bool
  disposal : List ι
  clear : σ → σ
  cleared : List ι
  exec_sources : ∀ choice i s, sources (component.exec choice i s).1 = sources s
  call_sources : ∀ operation s r, component.call operation s = some r →
    sources s = sources r.1 + if dispatches operation then 1 else 0
  environment_sources : ∀ event s t, component.environment event s = some t →
    sources s ≤ sources t
  clear_sources : ∀ s, sources (clear s) = sources s
  dispatches_survive : ∀ operation, dispatches operation = true → survives operation = true

/-- `owned` are the references of the application. -/
structure RefCounted (σ : Type u) where
  object : σ
  refCount : Nat := 1
  owned : Nat := 1
  disposed : Bool := false
  finalized : Bool := false

/-- What is left to run: statements of the object, the end of a dispatch, which gives the
reference of the source back, and the end of a disposal. -/
inductive RefStmt (ι : Type u)
  | run (i : ι)
  | unref
  | clear
  | decrement

inductive RefCall (ω : Type u)
  | call (operation : ω)
  | ref
  | unref

variable {σ ι ω χ ε : Type u}

namespace RefCountedObject

variable (O : RefCountedObject σ ι ω χ ε)

/-- The end of a disposal, once the object is cleared. -/
def finish : List (RefStmt ι) := O.cleared.map .run ++ [.decrement]

def dispose : List (RefStmt ι) := O.disposal.map .run ++ .clear :: O.finish

def unref (s : RefCounted σ) : RefCounted σ × List (RefStmt ι) :=
  if s.refCount = 1 then (s, O.dispose) else ({ s with refCount := s.refCount - 1 }, [])

def exec (choice : χ) : RefStmt ι → RefCounted σ → RefCounted σ × List (RefStmt ι)
  | .run i, s =>
    let r := O.component.exec choice i s.object
    ({ s with object := r.1 }, r.2.map .run)
  | .unref, s => O.unref s
  | .clear, s => ({ s with object := O.clear s.object, disposed := true }, [])
  -- who has taken a reference in the meantime keeps the object
  | .decrement, s =>
    ({ s with refCount := s.refCount - 1, finalized := decide (s.refCount = 1) }, [])

def call : RefCall ω → RefCounted σ → Option (RefCounted σ × List (RefStmt ι))
  | .call operation, s =>
    if s.disposed = true ∧ O.survives operation = false then some (s, [])
    else
      (O.component.call operation s.object).map fun r =>
        ({ s with object := r.1 },
          r.2.map .run ++ if O.dispatches operation then [.unref] else [])
  | .ref, s => some ({ s with refCount := s.refCount + 1, owned := s.owned + 1 }, [])
  | .unref, s => some (O.unref { s with owned := s.owned - 1 })

def environment (event : ε) (s : RefCounted σ) : Option (RefCounted σ) :=
  (O.component.environment event s.object).map fun t =>
    { s with object := t, refCount := s.refCount + (O.sources t - O.sources s.object) }

def refComponent : Component (RefCounted σ) (RefStmt ι) (RefCall ω) χ ε where
  exec := O.exec
  emission
    | .run i => O.component.emission i
    | _ => false
  call := O.call
  environment := O.environment

end RefCountedObject

/-- The statement gives back a reference. -/
def RefStmt.holds : RefStmt ι → Bool
  | .unref | .decrement => true
  | _ => false

def held (code : List (RefStmt ι)) : Nat := code.countP RefStmt.holds

/-- The outermost activation holds a reference to its end. -/
def heldBelow (code : List (RefStmt ι)) : Bool := code.getLast?.any RefStmt.holds

/-- What the application answers for: outside of handlers it calls the object with a reference of
its own, and it keeps one until such a call returns. -/
def KeepsReference (O : RefCountedObject σ ι ω χ ε) (c : Config (RefCounted σ) (RefStmt ι)) :
    Label (RefCall ω) χ ε → Prop
  | .call (.call operation) => O.dispatches operation = true ∨ c.code ≠ [] ∨ 0 < c.state.owned
  | .call .ref => c.code ≠ [] ∨ 0 < c.state.owned
  | .call .unref =>
    0 < c.state.owned ∧ (c.code = [] ∨ heldBelow c.code = true ∨ 1 < c.state.owned)
  | .run _ | .environment _ => True

instance (O : RefCountedObject σ ι ω χ ε) (c : Config (RefCounted σ) (RefStmt ι)) :
    DecidablePred (KeepsReference O c)
  | .call (.call operation) =>
    inferInstanceAs (Decidable (O.dispatches operation = true ∨ c.code ≠ [] ∨ 0 < c.state.owned))
  | .call .ref => inferInstanceAs (Decidable (c.code ≠ [] ∨ 0 < c.state.owned))
  | .call .unref => inferInstanceAs (Decidable (_ ∧ (c.code = [] ∨ _ ∨ _)))
  | .run _ | .environment _ => .isTrue trivial

/-- A disposal has begun and the object is not cleared yet. -/
def disposing (code : List (RefStmt ι)) : Bool :=
  code.any fun
    | .clear => true
    | _ => false

/-- Code in which no disposal has got to its end. -/
def RefStmt.plain : RefStmt ι → Bool
  | .run _ | .unref => true
  | _ => false

/-- How far the disposal has got that is the outermost activation, if there is one. -/
inductive DisposalStage (O : RefCountedObject σ ι ω χ ε) (disposed : Bool) :
    List (RefStmt ι) → Prop
  | none : DisposalStage O disposed []
  | disposing : DisposalStage O disposed (.clear :: O.finish)
  | finishing : disposed = true → DisposalStage O disposed [.decrement]

/-- What the count counts, and where the code comes from. -/
structure Referenced (O : RefCountedObject σ ι ω χ ε) (s : RefCounted σ)
    (code : List (RefStmt ι)) : Prop where
  live : s.finalized = false →
    s.refCount = s.owned + O.sources s.object + held code ∧ 0 < s.refCount
  gone : s.finalized = true →
    s.refCount = 0 ∧ s.owned = 0 ∧ O.sources s.object = 0 ∧ code = [] ∧ s.disposed = true
  outer : code ≠ [] → heldBelow code = true ∨ 0 < s.owned
  stage : ∃ before tail, code = before ++ tail ∧ (∀ i ∈ before, i.plain = true) ∧
    DisposalStage O s.disposed tail

variable {O : RefCountedObject σ ι ω χ ε} {s t : RefCounted σ} {code rest new : List (RefStmt ι)}
  {i : RefStmt ι}

@[simp] theorem held_append (xs ys : List (RefStmt ι)) : held (xs ++ ys) = held xs + held ys :=
  List.countP_append

@[simp] theorem held_cons (i : RefStmt ι) (xs : List (RefStmt ι)) :
    held (i :: xs) = held xs + if i.holds = true then 1 else 0 := List.countP_cons

@[simp] theorem held_nil : held ([] : List (RefStmt ι)) = 0 := rfl

@[simp] theorem held_run (xs : List ι) : held (xs.map RefStmt.run) = 0 := by
  simp [held, List.countP_eq_zero, RefStmt.holds]

theorem heldBelow_concat (xs : List (RefStmt ι)) (i : RefStmt ι) :
    heldBelow (xs ++ [i]) = i.holds := by simp [heldBelow]

theorem held_pos (h : heldBelow code = true) : 0 < held code := by
  rcases List.eq_nil_or_concat code with rfl | ⟨xs, i, rfl⟩
  · cases h
  · rw [List.concat_eq_append, heldBelow_concat] at h
    rw [List.concat_eq_append, held_append, held_cons, if_pos h]
    omega

theorem heldBelow_append (h : rest ≠ []) : heldBelow (new ++ rest) = heldBelow rest := by
  rcases List.eq_nil_or_concat rest with rfl | ⟨xs, i, rfl⟩
  · exact absurd rfl h
  · rw [List.concat_eq_append, ← List.append_assoc, heldBelow_concat, heldBelow_concat]

theorem heldBelow_cons (h : rest ≠ []) : heldBelow (i :: rest) = heldBelow rest :=
  @heldBelow_append _ rest [i] h

/-- Whatever runs on top does not change what is outermost. -/
theorem Referenced.outer_cons (h : Referenced O s (i :: rest)) (none_left : rest ≠ []) :
    heldBelow rest = true ∨ 0 < s.owned := by
  rw [← heldBelow_cons (i := i) none_left]
  exact h.outer (List.cons_ne_nil _ _)

/-- The last reference is in the code that gives it back. -/
theorem Referenced.last (h : Referenced O s (i :: rest)) (alive : s.finalized = false)
    (holds : i.holds = true) (last : s.refCount = 1) :
    s.owned = 0 ∧ O.sources s.object = 0 ∧ rest = [] := by
  have count := (h.live alive).1
  rw [held_cons, if_pos holds] at count
  refine ⟨by omega, by omega, ?_⟩
  by_contra more
  rcases h.outer_cons more with below | owned
  · have := held_pos below
    omega
  · omega

theorem Referenced.alive (h : Referenced O s (i :: rest)) : s.finalized = false := by
  by_contra hf
  obtain ⟨-, -, -, empty, -⟩ := h.gone (by simpa using hf)
  cases empty

/-- The statement that is next belongs to what runs above the disposal. -/
theorem Referenced.stage_tail (h : Referenced O s (i :: rest)) (plain : i.plain = true) :
    ∃ before tail, rest = before ++ tail ∧ (∀ j ∈ before, j.plain = true) ∧
      DisposalStage O s.disposed tail := by
  obtain ⟨before, tail, layout, quiet, stage⟩ := h.stage
  cases before with
  | nil =>
    rw [List.nil_append] at layout
    subst layout
    cases stage <;> cases plain
  | cons j before =>
    injection layout with hj hrest
    exact ⟨before, tail, hrest, fun k hk => quiet k (List.mem_cons_of_mem _ hk), stage⟩

theorem disposing_append (xs ys : List (RefStmt ι)) :
    disposing (xs ++ ys) = (disposing xs || disposing ys) := List.any_append

theorem disposing_plain (plain : ∀ j ∈ new, j.plain = true) : disposing new = false := by
  rw [disposing, List.any_eq_false]
  intro j hj
  have := plain j hj
  cases j <;> simp_all [RefStmt.plain]

theorem stage_push (plain : ∀ j ∈ new, j.plain = true)
    (h : ∃ before tail, rest = before ++ tail ∧ (∀ j ∈ before, j.plain = true) ∧
      DisposalStage O s.disposed tail) :
    ∃ before tail, new ++ rest = before ++ tail ∧ (∀ j ∈ before, j.plain = true) ∧
      DisposalStage O s.disposed tail := by
  obtain ⟨before, tail, rfl, quiet, stage⟩ := h
  refine ⟨new ++ before, tail, (List.append_assoc _ _ _).symm, fun j hj => ?_, stage⟩
  exact (List.mem_append.mp hj).elim (plain j) (quiet j)

theorem run_plain (xs : List ι) : ∀ j ∈ xs.map RefStmt.run, j.plain = true := by
  intro j hj
  obtain ⟨x, -, rfl⟩ := List.mem_map.mp hj
  rfl

/-- A disposal begins where nothing else runs. -/
theorem stage_dispose (O : RefCountedObject σ ι ω χ ε) (disposed : Bool) :
    ∃ before tail, O.dispose = before ++ tail ∧ (∀ j ∈ before, j.plain = true) ∧
      DisposalStage O disposed tail :=
  ⟨O.disposal.map .run, .clear :: O.finish, rfl, run_plain _, .disposing⟩

theorem held_dispose : held O.dispose = 1 := by
  simp [RefCountedObject.dispose, RefCountedObject.finish, RefStmt.holds]

theorem heldBelow_dispose : heldBelow O.dispose = true := by
  have layout : O.dispose =
      O.disposal.map .run ++ .clear :: O.cleared.map .run ++ [.decrement] := by
    simp [RefCountedObject.dispose, RefCountedObject.finish]
  rw [layout, heldBelow_concat]
  rfl

/-- The last reference begins the disposal. -/
theorem Referenced.beginDisposal (alive : s.finalized = false) (count : s.refCount = 1)
    (owned : s.owned = 0) (sources : O.sources s.object = 0) : Referenced O s O.dispose where
  live _ := by
    rw [held_dispose]
    omega
  gone hf := by rw [alive] at hf; cases hf
  outer _ := .inl heldBelow_dispose
  stage := stage_dispose O s.disposed

theorem Referenced.unref (h : Referenced O s (.unref :: rest)) :
    Referenced O (O.unref s).1 ((O.unref s).2 ++ rest) := by
  have alive := h.alive
  obtain ⟨count, positive⟩ := h.live alive
  rw [held_cons, if_pos (by rfl)] at count
  unfold RefCountedObject.unref
  split
  next one =>
    obtain ⟨owned, sources, rfl⟩ := h.last alive rfl one
    rw [List.append_nil]
    exact .beginDisposal alive one owned sources
  next more => exact {
    live := fun _ => by
      rw [List.nil_append]
      dsimp only
      omega
    gone := fun hf => by rw [alive] at hf; cases hf
    outer := fun left => h.outer_cons left
    stage := h.stage_tail rfl }

/-- An object is cleared when nothing is left of its disposal but the end. -/
theorem Referenced.clear_rest (h : Referenced O s (.clear :: rest)) : rest = O.finish := by
  obtain ⟨before, tail, layout, quiet, stage⟩ := h.stage
  cases before with
  | nil =>
    rw [List.nil_append] at layout
    subst layout
    cases stage
    rfl
  | cons j before =>
    injection layout with hj
    have plain := quiet j List.mem_cons_self
    rw [← hj] at plain
    cases plain

theorem Referenced.clear (h : Referenced O s (.clear :: rest)) :
    Referenced O { s with object := O.clear s.object, disposed := true } rest where
  live alive := by
    have count := h.live alive
    rw [held_cons, if_neg (by simp [RefStmt.holds])] at count
    rw [O.clear_sources]
    exact count
  gone hf := by
    rw [show s.finalized = false from h.alive] at hf
    cases hf
  outer left := h.outer_cons left
  stage := ⟨O.cleared.map .run, [.decrement], h.clear_rest, run_plain _, .finishing rfl⟩

/-- A disposal that is over has left nothing on the stack. -/
theorem Referenced.finished (h : Referenced O s (.decrement :: rest)) :
    rest = [] ∧ s.disposed = true := by
  obtain ⟨before, tail, layout, quiet, stage⟩ := h.stage
  cases before with
  | nil =>
    rw [List.nil_append] at layout
    subst layout
    cases stage with
    | finishing disposed => exact ⟨rfl, disposed⟩
  | cons j before =>
    injection layout with hj
    have plain := quiet j List.mem_cons_self
    rw [← hj] at plain
    cases plain

theorem Referenced.decrement (h : Referenced O s (.decrement :: rest)) :
    Referenced O { s with
      refCount := s.refCount - 1, finalized := decide (s.refCount = 1) } rest := by
  have alive := h.alive
  obtain ⟨rfl, disposed⟩ := h.finished
  obtain ⟨count, positive⟩ := h.live alive
  have one : held [(RefStmt.decrement : RefStmt ι)] = 1 := rfl
  exact {
    live := fun more => by
      have two : s.refCount ≠ 1 := of_decide_eq_false more
      dsimp only
      rw [held_nil]
      omega
    gone := fun last => by
      have last : s.refCount = 1 := of_decide_eq_true last
      dsimp only
      exact ⟨by omega, by omega, by omega, rfl, disposed⟩
    outer := fun left => absurd rfl left
    stage := ⟨[], [], rfl, by simp, .none⟩ }

theorem Referenced.run {choice : χ} {i : ι} (h : Referenced O s (.run i :: rest)) :
    Referenced O { s with object := (O.component.exec choice i s.object).1 }
      ((O.component.exec choice i s.object).2.map .run ++ rest) where
  live alive := by
    have count := h.live alive
    rw [held_cons, if_neg (by simp [RefStmt.holds])] at count
    rw [O.exec_sources, held_append, held_run, Nat.zero_add]
    exact count
  gone hf := by
    rw [show s.finalized = false from h.alive] at hf
    cases hf
  outer left := by
    by_cases empty : rest = []
    · subst empty
      exact (h.outer (List.cons_ne_nil _ _)).imp
        (fun below => by cases below) fun owned => owned
    · rw [heldBelow_append empty]
      exact h.outer_cons empty
  stage := stage_push (run_plain _) (h.stage_tail rfl)

/-- What a call adds: nothing if the object is disposed, or the code of the operation, with the
reference of a source at its end. -/
theorem RefCountedObject.call_cases {operation : ω} {r : RefCounted σ × List (RefStmt ι)}
    (hr : O.call (.call operation) s = some r) :
    r = (s, []) ∨ ∃ u tail, O.component.call operation s.object = some u ∧
      (∀ j ∈ tail, j = .unref) ∧ (s.disposed = true → O.survives operation = true) ∧
      r = ({ s with object := u.1 }, u.2.map .run ++ tail) := by
  simp only [RefCountedObject.call] at hr
  split at hr
  next =>
    cases hr
    exact .inl rfl
  next survives =>
    obtain ⟨u, hu, rfl⟩ := Option.map_eq_some_iff.mp hr
    refine .inr ⟨u, _, hu, fun j hj => ?_, fun hd => ?_, rfl⟩
    · split at hj
      · exact List.mem_singleton.mp hj
      · cases hj
    · by_contra hs
      exact survives ⟨hd, by simpa using hs⟩

/-- A call, or the dispatch of a source, which hands its reference on. -/
theorem Referenced.call {operation : ω} {r : σ × List ι} (h : Referenced O s code)
    (alive : s.finalized = false)
    (keeps : O.dispatches operation = true ∨ code ≠ [] ∨ 0 < s.owned)
    (hr : O.component.call operation s.object = some r) :
    Referenced O { s with object := r.1 }
      (r.2.map .run ++ (if O.dispatches operation then [.unref] else []) ++ code) where
  live _ := by
    obtain ⟨count, positive⟩ := h.live alive
    have sources := O.call_sources operation s.object r hr
    cases dispatches : O.dispatches operation <;> rw [dispatches] at sources
    · simp only [Bool.false_eq_true, if_false, Nat.add_zero] at sources ⊢
      rw [held_append, held_append, held_run, held_nil, ← sources]
      exact ⟨by omega, positive⟩
    · simp only [if_true] at sources ⊢
      rw [held_append, held_append, held_run, held_cons, held_nil, if_pos (by rfl)]
      omega
  gone hf := by
    rw [show s.finalized = false from alive] at hf
    cases hf
  outer left := by
    by_cases empty : code = []
    · subst empty
      rw [List.append_nil]
      cases dispatches : O.dispatches operation with
      | true =>
        simp only [if_true]
        rw [heldBelow_concat]
        exact .inl rfl
      | false =>
        simp only [dispatches, Bool.false_eq_true, ne_eq, not_true_eq_false, false_or] at keeps
        exact .inr keeps
    · rw [heldBelow_append empty]
      exact h.outer empty
  stage := by
    refine stage_push (fun j hj => ?_) h.stage
    rcases List.mem_append.mp hj with hj | hj
    · exact run_plain _ j hj
    · split at hj
      · rw [List.mem_singleton.mp hj]
        rfl
      · cases hj

theorem Referenced.ref (h : Referenced O s code) (alive : s.finalized = false) :
    Referenced O { s with refCount := s.refCount + 1, owned := s.owned + 1 } code where
  live _ := by
    obtain ⟨count, -⟩ := h.live alive
    dsimp only
    omega
  gone hf := by
    rw [show s.finalized = false from alive] at hf
    cases hf
  outer _ := .inr (Nat.succ_pos _)
  stage := h.stage

/-- The application drops a reference that no call of its own needs. -/
theorem Referenced.drop (h : Referenced O s code) (alive : s.finalized = false)
    (owns : 0 < s.owned) (keeps : code = [] ∨ heldBelow code = true ∨ 1 < s.owned) :
    Referenced O (O.unref { s with owned := s.owned - 1 }).1
      ((O.unref { s with owned := s.owned - 1 }).2 ++ code) := by
  obtain ⟨count, positive⟩ := h.live alive
  unfold RefCountedObject.unref
  split
  next one =>
    have one : s.refCount = 1 := one
    have empty : code = [] := by
      rcases keeps with empty | below | more
      · exact empty
      · have := held_pos below
        omega
      · omega
    subst empty
    rw [List.append_nil]
    exact .beginDisposal alive one (by show s.owned - 1 = 0; omega)
      (by show O.sources s.object = 0; omega)
  next more => exact {
    live := fun _ => by
      have more : s.refCount ≠ 1 := more
      rw [List.nil_append]
      dsimp only
      omega
    gone := fun hf => by
      rw [show s.finalized = false from alive] at hf
      cases hf
    outer := fun left => by
      rcases keeps with empty | below | more
      · exact absurd empty left
      · exact .inl below
      · exact .inr (by show 0 < s.owned - 1; omega)
    stage := h.stage }

theorem Referenced.environment {event : ε} {u : σ} (h : Referenced O s code)
    (alive : s.finalized = false) (hu : O.component.environment event s.object = some u) :
    Referenced O { s with
      object := u, refCount := s.refCount + (O.sources u - O.sources s.object) } code where
  live _ := by
    obtain ⟨count, positive⟩ := h.live alive
    have more := O.environment_sources event s.object u hu
    dsimp only
    omega
  gone hf := by
    rw [show s.finalized = false from alive] at hf
    cases hf
  outer := h.outer
  stage := h.stage

/-- Nothing outside calls the object. -/
def Unheard (O : RefCountedObject σ ι ω χ ε) (s : RefCounted σ) : Prop :=
  ∀ event, O.component.environment event s.object = none

/-- What a property needs to hold in every run, and for nothing to call the object at the end of
its disposal. -/
structure Shuts (O : RefCountedObject σ ι ω χ ε)
    (allowed : Config (RefCounted σ) (RefStmt ι) → Label (RefCall ω) χ ε → Prop)
    (J : RefCounted σ → List (RefStmt ι) → Prop) : Prop where
  call : ∀ operation s code r, s.finalized = false → J s code →
    O.refComponent.applicationRuns code = true → allowed ⟨s, code⟩ (.call operation) →
    O.call operation s = some r → J r.1 (r.2 ++ code)
  run : ∀ choice i s rest, Referenced O s (i :: rest) → J s (i :: rest) →
    allowed ⟨s, i :: rest⟩ (.run choice) → J (O.exec choice i s).1 ((O.exec choice i s).2 ++ rest)
  environment : ∀ event s code t, J s code → O.environment event s = some t → J t code
  unheard : ∀ s, s.disposed = true → J s [.decrement] → Unheard O s

variable {allowed : Config (RefCounted σ) (RefStmt ι) → Label (RefCall ω) χ ε → Prop}
  {J : RefCounted σ → List (RefStmt ι) → Prop}

theorem Referenced.exec {choice : χ} (h : Referenced O s (i :: rest)) :
    Referenced O (O.exec choice i s).1 ((O.exec choice i s).2 ++ rest) := by
  cases i with
  | run i => exact h.run
  | unref => exact h.unref
  | clear => exact h.clear
  | decrement => exact h.decrement

/-- After the end, the application has nothing that it could call the object with. -/
theorem Referenced.call_alive {operation : RefCall ω} {r : RefCounted σ × List (RefStmt ι)}
    (h : Referenced O s code) (keeps : KeepsReference O ⟨s, code⟩ (.call operation : Label _ χ ε))
    (hr : O.call operation s = some r) : s.finalized = false := by
  by_contra hf
  obtain ⟨-, owned, sources, empty, -⟩ := h.gone (by simpa using hf)
  cases operation with
  | call operation =>
    rcases keeps with dispatches | running | owns
    · have survives := O.dispatches_survive operation dispatches
      simp only [RefCountedObject.call, survives, Bool.true_eq_false, and_false, if_false,
        Option.map_eq_some_iff] at hr
      obtain ⟨u, hu, -⟩ := hr
      have taken := O.call_sources operation s.object u hu
      rw [dispatches, if_pos rfl] at taken
      omega
    · exact running empty
    · exact absurd owns (by simp [owned])
  | ref =>
    rcases keeps with running | owns
    · exact running empty
    · exact absurd owns (by simp [owned])
  | unref => exact absurd keeps.1 (by simp [owned])

theorem Referenced.called {operation : RefCall ω} {r : RefCounted σ × List (RefStmt ι)}
    (h : Referenced O s code) (keeps : KeepsReference O ⟨s, code⟩ (.call operation : Label _ χ ε))
    (hr : O.call operation s = some r) : Referenced O r.1 (r.2 ++ code) := by
  have alive := h.call_alive keeps hr
  cases operation with
  | call operation =>
    simp only [RefCountedObject.call] at hr
    split at hr
    next =>
      cases hr
      exact h
    next =>
      obtain ⟨u, hu, rfl⟩ := Option.map_eq_some_iff.mp hr
      exact h.call alive keeps hu
  | ref =>
    cases hr
    exact h.ref alive
  | unref =>
    cases hr
    exact h.drop alive keeps.1 keeps.2

theorem RefCountedObject.unref_finalized (s : RefCounted σ) :
    (O.unref s).1.finalized = s.finalized := by
  unfold RefCountedObject.unref
  split <;> rfl

theorem RefCountedObject.call_finalized {operation : RefCall ω}
    {r : RefCounted σ × List (RefStmt ι)} (hr : O.call operation s = some r) :
    r.1.finalized = s.finalized := by
  cases operation with
  | call operation =>
    simp only [RefCountedObject.call] at hr
    split at hr
    next =>
      cases hr
      rfl
    next =>
      obtain ⟨u, -, rfl⟩ := Option.map_eq_some_iff.mp hr
      rfl
  | ref =>
    cases hr
    rfl
  | unref =>
    cases hr
    exact RefCountedObject.unref_finalized _

/-- In every run the count is what it is to be, and when the object is finalized nothing is left
that could reach it. -/
theorem Shuts.preserves (h : Shuts O allowed J) :
    Component.Preserves O.refComponent (fun c label => KeepsReference O c label ∧ allowed c label)
      fun s code => Referenced O s code ∧ (s.finalized = true → Unheard O s) ∧ J s code where
  call operation s code r hi runs ha hr := by
    have alive := hi.1.call_alive ha.1 hr
    have counted := hi.1.called ha.1 hr
    refine ⟨counted, fun hf => ?_, h.call operation s code r alive hi.2.2 runs ha.2 hr⟩
    rw [RefCountedObject.call_finalized hr, alive] at hf
    cases hf
  run choice i s rest hi ha := by
    have counted : Referenced O (O.exec choice i s).1 ((O.exec choice i s).2 ++ rest) :=
      hi.1.exec
    have kept := h.run choice i s rest hi.1 hi.2.2 ha.2
    refine ⟨counted, fun hf => ?_, kept⟩
    have alive := hi.1.alive
    cases i with
    | decrement =>
      obtain ⟨rfl, disposed⟩ := hi.1.finished
      exact h.unheard s disposed hi.2.2
    | unref =>
      have finalized : (O.unref s).1.finalized = true := hf
      rw [RefCountedObject.unref_finalized, alive] at finalized
      cases finalized
    | _ =>
      rw [show s.finalized = true from hf] at alive
      cases alive
  environment event s code t hi ha ht := by
    obtain ⟨u, hu, rfl⟩ := Option.map_eq_some_iff.mp ht
    have alive : s.finalized = false := by
      by_contra hf
      have none := hi.2.1 (by simpa using hf) event
      rw [hu] at none
      cases none
    refine ⟨hi.1.environment alive hu, fun hf => ?_, h.environment event s code _ hi.2.2 ht⟩
    rw [show s.finalized = false from alive] at hf
    cases hf

theorem referenced_start (s : σ) (none : O.sources s = 0) :
    Referenced O ⟨s, 1, 1, false, false⟩ [] where
  live _ := ⟨by simp [none], Nat.one_pos⟩
  gone hf := by cases hf
  outer left := absurd rfl left
  stage := ⟨[], [], rfl, by simp, .none⟩

/-- The object is finalized exactly when nothing refers to it, and then nothing outside calls it.
Until then the count is that of its references. -/
structure Managed (O : RefCountedObject σ ι ω χ ε) (c : Config (RefCounted σ) (RefStmt ι)) :
    Prop where
  live : c.state.finalized = false →
    c.state.refCount = c.state.owned + O.sources c.state.object + held c.code
  finalized : c.state.finalized = true ↔
    c.state.owned = 0 ∧ O.sources c.state.object = 0 ∧ c.code = []
  unheard : c.state.finalized = true → c.state.disposed = true ∧ Unheard O c.state

theorem Shuts.managed {init : σ} {c : Config (RefCounted σ) (RefStmt ι)} (h : Shuts O allowed J)
    (none : O.sources init = 0) (start : J ⟨init, 1, 1, false, false⟩ [])
    (hc : Reach O.refComponent.step (fun c label => KeepsReference O c label ∧ allowed c label)
      ⟨⟨init, 1, 1, false, false⟩, []⟩ c) : Managed O c ∧ J c.state c.code := by
  obtain ⟨counted, unheard, kept⟩ := h.preserves.reach hc
    ⟨referenced_start init none, fun hf => absurd hf (by simp), start⟩
  refine ⟨⟨fun alive => (counted.live alive).1, ⟨fun hf => ?_, ?_⟩, fun hf => ?_⟩, kept⟩
  · obtain ⟨-, owned, sources, empty, -⟩ := counted.gone hf
    exact ⟨owned, sources, empty⟩
  · rintro ⟨owned, sources, empty⟩
    by_contra alive
    have count := counted.live (by simpa using alive)
    rw [empty, held_nil] at count
    omega
  · obtain ⟨-, -, -, -, disposed⟩ := counted.gone hf
    exact ⟨disposed, unheard hf⟩

end PipewireGobject
