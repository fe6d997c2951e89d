import Mathlib.Data.List.Basic
import Mathlib.Data.Option.Basic

namespace PipewireGobject

universe u v
variable {σ : Type u} {κ : Type v}

/-- The states that runs from `init` reach, when every step they take is
`allowed` in the state before it. -/
inductive Reach (step : σ → κ → Option σ) (allowed : σ → κ → Prop) (init : σ) : σ → Prop
  | start : Reach step allowed init init
  | next {s t : σ} {label : κ} : Reach step allowed init s → allowed s label →
      step s label = some t → Reach step allowed init t

/-- Every step is allowed. -/
def anyStep : σ → κ → Prop := fun _ _ => True

variable {step : σ → κ → Option σ} {allowed : σ → κ → Prop} {init s t : σ}

theorem Reach.invariant {I : σ → Prop} (h : Reach step allowed init s) (start : I init)
    (preserved : ∀ s label t, I s → allowed s label → step s label = some t → I t) : I s := by
  induction h with
  | start => exact start
  | next _ ha hs ih => exact preserved _ _ _ ih ha hs

theorem Reach.trans (h : Reach step allowed init s) (h' : Reach step allowed s t) :
    Reach step allowed init t := by
  induction h' with
  | start => exact h
  | next _ ha hs ih => exact .next ih ha hs

/-- Every step is a step of the abstract system, or is not seen there. -/
theorem Reach.simulate {σ' : Type*} {κ' : Type*} {step' : σ' → κ' → Option σ'}
    {allowed' : σ' → κ' → Prop} (abstraction : σ → σ') (h : Reach step allowed init s)
    (simulated : ∀ s label t, Reach step allowed init s → allowed s label →
      step s label = some t → abstraction t = abstraction s ∨
        ∃ label', allowed' (abstraction s) label' ∧
          step' (abstraction s) label' = some (abstraction t)) :
    Reach step' allowed' (abstraction init) (abstraction s) := by
  induction h with
  | start => exact .start
  | next hs ha ht ih =>
    rcases simulated _ _ _ hs ha ht with he | ⟨label', ha', ht'⟩
    · rw [he]
      exact ih
    · exact .next ih ha' ht'

/-- A run from `init` has come to `s` through a step that has `begun` a session: since then `P` has
held and `f` has been what it is in `s`. -/
def SinceBegun {γ : Type*} (step : σ → κ → Option σ) (allowed : σ → κ → Prop) (init : σ)
    (P : σ → Prop) (f : σ → γ) (begun : σ → κ → σ → Prop) (s : σ) : Prop :=
  ∃ t label u, Reach step allowed init t ∧ step t label = some u ∧ ¬P t ∧ begun t label u ∧
    f u = f s ∧ Reach step (fun v _ => P v ∧ f v = f s) u s

theorem SinceBegun.mono {γ : Type*} {P : σ → Prop} {f : σ → γ} {begun begun' : σ → κ → σ → Prop}
    (h : SinceBegun step allowed init P f begun s)
    (weaker : ∀ t label u, f u = f s → begun t label u → begun' t label u) :
    SinceBegun step allowed init P f begun' s := by
  obtain ⟨t, label, u, before, ht, first, begins, same, since⟩ := h
  exact ⟨t, label, u, before, ht, first, weaker t label u same begins, same, since⟩

/-- Where `P` holds, some step has made it true, and what no step changes while `P` holds has not
changed since. -/
theorem Reach.sinceBegun {γ : Type*} {P : σ → Prop} {f : σ → γ} {begun : σ → κ → σ → Prop}
    (h : Reach step allowed init s) (first : ¬P init) (now : P s)
    (begins : ∀ s label t, Reach step allowed init s → step s label = some t → ¬P s → P t →
      begun s label t)
    (kept : ∀ s label t, Reach step allowed init s → step s label = some t → P s → f t = f s) :
    SinceBegun step allowed init P f begun s := by
  induction h with
  | start => exact absurd now first
  | @next s t label hs ha ht ih =>
    by_cases before : P s
    · obtain ⟨v, label', u, hv, hu, notYet, begins, same, since⟩ := ih before
      have kept := kept s label t hs ht before
      rw [← kept] at same since
      exact ⟨v, label', u, hv, hu, notYet, begins, same, .next since ⟨before, kept.symm⟩ ht⟩
    · exact ⟨s, label, t, hs, ht, before, begins s label t hs ht before now, rfl, .start⟩

/-- Take the steps of a schedule one after the other. -/
def run (step : σ → κ → Option σ) (s : σ) : List κ → Option σ
  | [] => some s
  | label :: rest => (step s label).bind fun t => run step t rest

/-- Each step of a schedule is allowed in the state it starts from. -/
def AllAllowed (step : σ → κ → Option σ) (allowed : σ → κ → Prop) (s : σ) : List κ → Prop
  | [] => True
  | label :: rest => allowed s label ∧ ∀ t ∈ step s label, AllAllowed step allowed t rest

instance AllAllowed.decidable [∀ s label, Decidable (allowed s label)] :
    ∀ (labels : List κ) (s : σ), Decidable (AllAllowed step allowed s labels)
  | [], _ => .isTrue trivial
  | label :: rest, s =>
    have : DecidablePred fun t => AllAllowed step allowed t rest :=
      fun t => AllAllowed.decidable rest t
    inferInstanceAs (Decidable (allowed s label ∧ ∀ t ∈ step s label, _))

theorem reach_of_run {labels : List κ} (h : run step s labels = some t)
    (ha : AllAllowed step allowed s labels) : Reach step allowed s t := by
  induction labels generalizing s with
  | nil =>
    cases Option.some.inj h
    exact .start
  | cons label rest ih =>
    obtain ⟨next, hs, hr⟩ := Option.bind_eq_some_iff.mp h
    exact (Reach.next .start ha.1 hs).trans (ih hr (ha.2 next hs))

theorem allAllowed_anyStep (labels : List κ) (s : σ) : AllAllowed step anyStep s labels := by
  induction labels generalizing s with
  | nil => trivial
  | cons label rest ih => exact ⟨trivial, fun t _ => ih t⟩

/-- The state a schedule ends in, or `s` where one of its steps cannot be taken. -/
def final (step : σ → κ → Option σ) (s : σ) (labels : List κ) : σ := (run step s labels).getD s

theorem reach_final {labels : List κ} (ha : AllAllowed step allowed s labels) :
    Reach step allowed s (final step s labels) := by
  unfold final
  cases hr : run step s labels with
  | none => exact .start
  | some t => exact reach_of_run hr ha

end PipewireGobject
