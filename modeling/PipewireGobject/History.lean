import Mathlib.Data.List.Induction

namespace PipewireGobject

universe u
variable {ε : Type u}

/-- Every event of a history, oldest first, is in relation `Q` with the events before it. -/
def Justified (Q : List ε → ε → Prop) (history : List ε) : Prop :=
  ∀ before event after, history = before ++ event :: after → Q before event

variable {Q : List ε → ε → Prop} {history events : List ε} {event : ε}

theorem justified_nil : Justified Q [] := by
  intro before event after h
  simp at h

theorem justified_concat :
    Justified Q (history ++ [event]) ↔ Justified Q history ∧ Q history event := by
  constructor
  · intro h
    refine ⟨?_, h history event [] rfl⟩
    intro before e after he
    exact h before e (after ++ [event]) (by simp [he])
  · rintro ⟨h, hq⟩ before e after he
    rcases List.eq_nil_or_concat after with rfl | ⟨older, last, rfl⟩
    · obtain ⟨rfl, hl⟩ := List.append_inj' he rfl
      cases hl
      exact hq
    · have heq : history ++ [event] = (before ++ e :: older) ++ [last] := by rw [he]; simp
      obtain ⟨hh, -⟩ := List.append_inj' heq rfl
      exact h before e older hh

theorem Justified.earlier (h : Justified Q (history ++ events)) : Justified Q history :=
  fun before event after he => h before event (after ++ events) (by simp [he])

/-- Events about which `Q` says nothing may be appended. -/
theorem Justified.append (h : Justified Q history) (free : ∀ e ∈ events, ∀ before, Q before e) :
    Justified Q (history ++ events) := by
  induction events generalizing history with
  | nil => simpa using h
  | cons e es ih =>
    rw [List.append_cons]
    exact ih (justified_concat.mpr ⟨h, free e (by simp) history⟩)
      (fun e' he' => free e' (by simp [he']))

/-- An event that does not follow itself happens once at most. -/
theorem Justified.once [DecidableEq ε] (h : Justified Q history)
    (fresh : ∀ before, Q before event → event ∉ before) : history.count event ≤ 1 := by
  induction history using List.reverseRecOn with
  | nil => simp
  | append_singleton history last ih =>
    obtain ⟨earlier, hq⟩ := justified_concat.mp h
    rw [List.count_append]
    by_cases he : last = event
    · subst he
      rw [List.count_eq_zero_of_not_mem (fresh history hq)]
      simp
    · rw [List.count_singleton, if_neg (by simpa using he)]
      exact ih earlier

end PipewireGobject
