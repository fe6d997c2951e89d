import Mathlib.Data.List.Basic

namespace PipewireGobject

/-- What is on its way from a source to a copy of it: a change, or a mark. -/
inductive Passage (δ μ : Type)
  | change (change : δ)
  | mark (mark : μ)
  deriving DecidableEq

variable {σ δ μ : Type}

def Passage.carries : Passage δ μ → Option δ
  | .change d => some d
  | .mark _ => none

/-- The changes on a line. -/
def carried (line : List (Passage δ μ)) : List δ := line.filterMap Passage.carries

/-- The changes on the line make of the copy what the source is. Those before a mark make of it
what the source was when it sent the mark. -/
inductive Mirrors (apply : σ → δ → σ) (snapshot : μ → σ) : σ → List (Passage δ μ) → σ → Prop
  | agree (copy : σ) : Mirrors apply snapshot copy [] copy
  | change {copy source : σ} {line : List (Passage δ μ)} {d : δ} :
      Mirrors apply snapshot (apply copy d) line source →
      Mirrors apply snapshot copy (.change d :: line) source
  | mark {copy source : σ} {line : List (Passage δ μ)} {m : μ} : copy = snapshot m →
      Mirrors apply snapshot copy line source →
      Mirrors apply snapshot copy (.mark m :: line) source

variable {apply : σ → δ → σ} {snapshot snapshot' : μ → σ} {copy middle source : σ}
variable {line later new : List (Passage δ μ)} {d : δ} {m : μ}

namespace Mirrors

theorem take (h : Mirrors apply snapshot copy (.change d :: line) source) :
    Mirrors apply snapshot (apply copy d) line source := by
  cases h with
  | change h => exact h

theorem pass (h : Mirrors apply snapshot copy (.mark m :: line) source) :
    copy = snapshot m ∧ Mirrors apply snapshot copy line source := by
  cases h with
  | mark same h => exact ⟨same, h⟩

theorem append (h : Mirrors apply snapshot copy line middle)
    (h' : Mirrors apply snapshot middle later source) :
    Mirrors apply snapshot copy (line ++ later) source := by
  induction h with
  | agree copy => exact h'
  | change _ ih => exact .change (ih h')
  | mark same _ ih => exact .mark same (ih h')

theorem split (h : Mirrors apply snapshot copy (line ++ later) source) :
    ∃ middle, Mirrors apply snapshot copy line middle ∧
      Mirrors apply snapshot middle later source := by
  induction line generalizing copy with
  | nil => exact ⟨copy, .agree copy, h⟩
  | cons p line ih =>
    cases p with
    | change d =>
      obtain ⟨middle, first, rest⟩ := ih h.take
      exact ⟨middle, .change first, rest⟩
    | mark m =>
      obtain ⟨same, h⟩ := h.pass
      obtain ⟨middle, first, rest⟩ := ih h
      exact ⟨middle, .mark same first, rest⟩

/-- The source changes, and sends the changes. -/
theorem send (h : Mirrors apply snapshot copy line source) (changes : List δ) :
    Mirrors apply snapshot copy (line ++ changes.map .change) (changes.foldl apply source) := by
  refine h.append ?_
  clear h
  induction changes generalizing source with
  | nil => exact .agree source
  | cons d changes ih => exact .change ih

/-- What has been sent says what the source is. -/
theorem whole (h : Mirrors apply snapshot copy line source) :
    (carried line).foldl apply copy = source := by
  induction h with
  | agree copy => rfl
  | change _ ih => exact ih
  | mark _ _ ih => exact ih

/-- A mark is lost on the way, or is passed on more than once. -/
theorem remark (h : Mirrors apply snapshot copy (line ++ .mark m :: later) source)
    (marks : ∀ p ∈ new, p = .mark m) :
    Mirrors apply snapshot copy (line ++ new ++ later) source := by
  obtain ⟨middle, first, rest⟩ := h.split
  obtain ⟨same, rest⟩ := rest.pass
  refine (first.append ?_).append rest
  clear first rest
  induction new with
  | nil => exact .agree middle
  | cons p new ih =>
    rw [marks p List.mem_cons_self]
    exact .mark same (ih fun q hq => marks q (List.mem_cons_of_mem p hq))

theorem congr (h : Mirrors apply snapshot copy line source)
    (same : ∀ m, .mark m ∈ line → snapshot' m = snapshot m) :
    Mirrors apply snapshot' copy line source := by
  induction h with
  | agree copy => exact .agree copy
  | change _ ih => exact .change (ih fun m hm => same m (List.mem_cons_of_mem _ hm))
  | mark at_mark _ ih =>
    refine .mark (at_mark.trans (same _ List.mem_cons_self).symm) ?_
    exact ih fun m hm => same m (List.mem_cons_of_mem _ hm)

/-- The source sends a mark that is not on the line yet. -/
theorem sendMark [DecidableEq μ] (h : Mirrors apply snapshot copy line source)
    (fresh : .mark m ∉ line) :
    Mirrors apply (fun k => if k = m then source else snapshot k) copy (line ++ [.mark m])
      source := by
  have kept : Mirrors apply (fun k => if k = m then source else snapshot k) copy line source := by
    refine h.congr fun k hk => if_neg ?_
    rintro rfl
    exact fresh hk
  exact kept.append (.mark (if_pos rfl).symm (.agree source))

end Mirrors

end PipewireGobject
