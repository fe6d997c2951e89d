import PipewireGobject.Reach

namespace PipewireGobject

universe u

/-- A component whose operations run statement by statement and hand control
to application code in between. `exec` runs one statement and returns the
statements to run before the rest of the activation; while an `emission`
statement is next, handlers of the application run and may call operations. -/
structure Component (σ ι ω χ ε : Type u) where
  exec : χ → ι → σ → σ × List ι
  emission : ι → Bool
  call : ω → σ → Option (σ × List ι)
  environment : ε → σ → Option σ

/-- `code` is what is left to run of all activations, innermost first. -/
structure Config (σ ι : Type u) where
  state : σ
  code : List ι

inductive Label (ω χ ε : Type u)
  | call (operation : ω)
  | run (choice : χ)
  | environment (event : ε)
  deriving DecidableEq

def Label.isRun {ω χ ε : Type u} : Label ω χ ε → Bool
  | .run _ => true
  | _ => false

variable {σ ι ω χ ε : Type u}

namespace Component

variable (C : Component σ ι ω χ ε)

/-- The application has control: nothing runs, or an emission is in progress. -/
def applicationRuns (code : List ι) : Bool := code.head?.all C.emission

def step (c : Config σ ι) : Label ω χ ε → Option (Config σ ι)
  | .call operation =>
    if C.applicationRuns c.code then
      (C.call operation c.state).map fun r => ⟨r.1, r.2 ++ c.code⟩
    else none
  | .run choice =>
    match c.code with
    | [] => none
    | i :: rest => some ⟨(C.exec choice i c.state).1, (C.exec choice i c.state).2 ++ rest⟩
  | .environment event => (C.environment event c.state).map fun s => ⟨s, c.code⟩

variable {C}

theorem step_call {c d : Config σ ι} {operation : ω} (h : C.step c (.call operation) = some d) :
    C.applicationRuns c.code = true ∧
      ∃ r, C.call operation c.state = some r ∧ d = ⟨r.1, r.2 ++ c.code⟩ := by
  simp only [step] at h
  split at h
  next hc =>
    obtain ⟨r, hr, he⟩ := Option.map_eq_some_iff.mp h
    exact ⟨hc, r, hr, he.symm⟩
  next => simp at h

theorem step_run {c d : Config σ ι} {choice : χ} (h : C.step c (.run choice) = some d) :
    ∃ i rest, c.code = i :: rest ∧
      d = ⟨(C.exec choice i c.state).1, (C.exec choice i c.state).2 ++ rest⟩ := by
  simp only [step] at h
  split at h
  next => simp at h
  next i rest hc => exact ⟨i, rest, hc, (Option.some.inj h).symm⟩

theorem step_environment {c d : Config σ ι} {event : ε}
    (h : C.step c (.environment event) = some d) :
    ∃ s, C.environment event c.state = some s ∧ d = ⟨s, c.code⟩ := by
  obtain ⟨s, hs, he⟩ := Option.map_eq_some_iff.mp h
  exact ⟨s, hs, he.symm⟩

/-- The code runs to its end, from `s` to `t`, and the application calls nothing. -/
def Completes (C : Component σ ι ω χ ε) (s : σ) (code : List ι) (t : σ) : Prop :=
  ∀ rest, Reach C.step anyStep ⟨s, code ++ rest⟩ ⟨t, rest⟩

theorem Completes.nil (s : σ) : C.Completes s [] s := fun _ => .start

theorem Completes.exec {s t : σ} {i : ι} {code : List ι} (choice : χ)
    (h : C.Completes (C.exec choice i s).1 ((C.exec choice i s).2 ++ code) t) :
    C.Completes s (i :: code) t := by
  intro rest
  have later := h rest
  rw [List.append_assoc] at later
  have first : C.step ⟨s, i :: (code ++ rest)⟩ (.run choice) =
      some ⟨(C.exec choice i s).1, (C.exec choice i s).2 ++ (code ++ rest)⟩ := rfl
  exact (Reach.next .start trivial first).trans later

theorem Completes.append {s t u : σ} {code later : List ι} (h : C.Completes s code t)
    (h' : C.Completes t later u) : C.Completes s (code ++ later) u := by
  intro rest
  rw [List.append_assoc]
  exact (h (later ++ rest)).trans (h' rest)

/-- What a property of the state and the code left to run needs to hold in
every run: operations, statements and the environment each preserve it. -/
structure Preserves (C : Component σ ι ω χ ε)
    (allowed : Config σ ι → Label ω χ ε → Prop) (I : σ → List ι → Prop) : Prop where
  call : ∀ operation s code r, I s code → C.applicationRuns code = true →
    allowed ⟨s, code⟩ (.call operation) → C.call operation s = some r → I r.1 (r.2 ++ code)
  run : ∀ choice i s rest, I s (i :: rest) → allowed ⟨s, i :: rest⟩ (.run choice) →
    I (C.exec choice i s).1 ((C.exec choice i s).2 ++ rest)
  environment : ∀ event s code t, I s code → allowed ⟨s, code⟩ (.environment event) →
    C.environment event s = some t → I t code

theorem Preserves.reach {allowed : Config σ ι → Label ω χ ε → Prop} {I : σ → List ι → Prop}
    (p : Preserves C allowed I) {init c : Config σ ι}
    (h : Reach C.step allowed init c) (start : I init.state init.code) : I c.state c.code := by
  refine h.invariant (I := fun c => I c.state c.code) start ?_
  rintro ⟨s, code⟩ label d hi ha hs
  cases label with
  | call operation =>
    obtain ⟨hc, r, hr, rfl⟩ := step_call hs
    exact p.call operation s code r hi hc ha hr
  | run choice =>
    obtain ⟨i, rest, hcode, rfl⟩ := step_run hs
    cases hcode
    exact p.run choice i s rest hi ha
  | environment event =>
    obtain ⟨t, ht, rfl⟩ := step_environment hs
    exact p.environment event s code t hi ha ht

/-- A second invariant whose steps are only looked at where the first holds. -/
theorem Preserves.under {allowed : Config σ ι → Label ω χ ε → Prop} {I J : σ → List ι → Prop}
    (p : Preserves C allowed I)
    (q : Preserves C (fun c label => allowed c label ∧ I c.state c.code) J) :
    Preserves C allowed fun s code => I s code ∧ J s code where
  call operation s code r h hc ha hr :=
    ⟨p.call operation s code r h.1 hc ha hr, q.call operation s code r h.2 hc ⟨ha, h.1⟩ hr⟩
  run choice i s rest h ha := ⟨p.run choice i s rest h.1 ha, q.run choice i s rest h.2 ⟨ha, h.1⟩⟩
  environment event s code t h ha ht :=
    ⟨p.environment event s code t h.1 ha ht, q.environment event s code t h.2 ⟨ha, h.1⟩ ht⟩

end Component

end PipewireGobject
