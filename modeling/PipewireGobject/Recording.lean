import PipewireGobject.Reentrant

namespace PipewireGobject

universe u v w
variable {σ : Type u} {κ : Type v} {ε : Type w}

/-- A system whose states carry what has been observed on the way to them. -/
def recording (step : σ → κ → Option σ) (observe : κ → List ε) (s : σ × List ε) (label : κ) :
    Option (σ × List ε) :=
  (step s.1 label).map fun t => (t, s.2 ++ observe label)

variable {step : σ → κ → Option σ} {observe : κ → List ε} {s t : σ × List ε} {label : κ}

theorem recording_eq (h : recording step observe s label = some t) :
    step s.1 label = some t.1 ∧ t.2 = s.2 ++ observe label := by
  obtain ⟨u, hu, rfl⟩ := Option.map_eq_some_iff.mp h
  exact ⟨hu, rfl⟩

theorem recording_some {u : σ} (h : step s.1 label = some u) :
    recording step observe s label = some (u, s.2 ++ observe label) := by
  rw [recording, h]
  rfl

section Observer

variable {σ ι ω χ ε α : Type u}

/-- Who knows of each operation that is called, sees each statement with the state before it and
after it, and hears each event. -/
structure Observer (σ ι ω ε α : Type u) where
  asked : ω → α → α := fun _ known => known
  sees : ι → σ → σ → α → α
  hears : ε → α → α

/-- A component beside an observer. -/
def Component.observed (C : Component σ ι ω χ ε) (O : Observer σ ι ω ε α) :
    Component (σ × α) ι ω χ ε where
  exec choice i s :=
    (((C.exec choice i s.1).1, O.sees i s.1 (C.exec choice i s.1).1 s.2), (C.exec choice i s.1).2)
  emission := C.emission
  call operation s := (C.call operation s.1).map fun r => ((r.1, O.asked operation s.2), r.2)
  environment event s := (C.environment event s.1).map fun t => (t, O.hears event s.2)

variable {C : Component σ ι ω χ ε} {O : Observer σ ι ω ε α}
variable {allowed : Config σ ι → Label ω χ ε → Prop} {I : σ → List ι → Prop}
variable {allowed' : Config (σ × α) ι → Label ω χ ε → Prop}

/-- The observer changes nothing. -/
theorem Component.Preserves.observed (p : C.Preserves allowed I)
    (same : ∀ c label, allowed' c label → allowed ⟨c.state.1, c.code⟩ label) :
    (C.observed O).Preserves allowed' (fun s code => I s.1 code) where
  call operation s code r h hc ha hr := by
    obtain ⟨t, ht, rfl⟩ := Option.map_eq_some_iff.mp hr
    exact p.call operation s.1 code t h hc (same _ _ ha) ht
  run choice i s rest h ha := p.run choice i s.1 rest h (same _ _ ha)
  environment event s code t h ha ht := by
    obtain ⟨u, hu, rfl⟩ := Option.map_eq_some_iff.mp ht
    exact p.environment event s.1 code u h (same _ _ ha) hu

end Observer

end PipewireGobject
