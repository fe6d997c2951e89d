import Mathlib.Data.List.Induction
import Mathlib.Data.List.Nodup
import PipewireGobject.History

namespace PipewireGobject

universe u

/-- Things come and go. -/
inductive Presence (α : Type u)
  | appears (a : α)
  | disappears (a : α)
  deriving DecidableEq

namespace Presence

variable {α : Type u} [DecidableEq α]

def arrive (there : List α) : Presence α → List α
  | .appears a => if a ∈ there then there else there ++ [a]
  | .disappears a => there.filter (· ≠ a)

/-- What has appeared and not disappeared since, the oldest first. -/
def present (events : List (Presence α)) : List α := events.foldl arrive []

def hold (held : Option α) : Presence α → Option α
  | .appears a => held.or (some a)
  | .disappears a => if held = some a then none else held

/-- What is held by one that takes the first thing that appears while its hands are empty, and
holds it until that disappears. -/
def held (events : List (Presence α)) : Option α := events.foldl hold none

/-- Something is held where something is there, and it is there. -/
def HoldsPresent (events : List (Presence α)) : Prop :=
  (held events ≠ none ↔ present events ≠ []) ∧ ∀ a, held events = some a → a ∈ present events

/-- An event does not take the oldest thing that is there from among others. -/
def LeavesLast (before : List (Presence α)) (event : Presence α) : Prop :=
  ∀ a rest, event = .disappears a → present before = a :: rest → rest = []

variable {events earlier : List (Presence α)} {event : Presence α} {a : α}

theorem present_concat : present (events ++ [event]) = arrive (present events) event :=
  List.foldl_append

theorem held_concat : held (events ++ [event]) = hold (held events) event :=
  List.foldl_append

theorem present_nodup : (present events).Nodup := by
  induction events using List.reverseRecOn with
  | nil => exact List.nodup_nil
  | append_singleton events event ih =>
    rw [present_concat]
    cases event with
    | appears a =>
      simp only [arrive]
      split
      next => exact ih
      next new =>
        refine List.nodup_append.mpr ⟨ih, List.nodup_singleton a, ?_⟩
        intro b hb c hc he
        rw [he, List.mem_singleton.mp hc] at hb
        exact new hb
    | disappears a => exact ih.filter _

theorem mem_arrive {there : List α} :
    a ∈ arrive there event ↔ event = .appears a ∨ a ∈ there ∧ event ≠ .disappears a := by
  cases event with
  | appears b =>
    simp only [arrive]
    split
    next known =>
      constructor
      · exact fun ha => .inr ⟨ha, by simp⟩
      · rintro (he | ⟨ha, -⟩)
        · cases he
          exact known
        · exact ha
    next =>
      simp only [List.mem_append, List.mem_singleton, Presence.appears.injEq]
      constructor
      · rintro (ha | rfl)
        · exact .inr ⟨ha, by simp⟩
        · exact .inl rfl
      · rintro (rfl | ⟨ha, -⟩)
        · exact .inr rfl
        · exact .inl ha
  | disappears b =>
    simp only [arrive, List.mem_filter, decide_eq_true_eq]
    constructor
    · rintro ⟨ha, other⟩
      exact .inr ⟨ha, fun he => other (Presence.disappears.inj he).symm⟩
    · rintro (he | ⟨ha, other⟩)
      · cases he
      · exact ⟨ha, fun he => other (by rw [he])⟩

theorem mem_present : a ∈ present events ↔
    ∃ before after, events = before ++ .appears a :: after ∧ .disappears a ∉ after := by
  induction events using List.reverseRecOn with
  | nil => simp [present]
  | append_singleton events event ih =>
    rw [present_concat, mem_arrive, ih]
    constructor
    · rintro (rfl | ⟨⟨before, after, rfl, later⟩, stays⟩)
      · exact ⟨events, [], rfl, by simp⟩
      · exact ⟨before, after ++ [event], by simp, by simp [later, stays.symm]⟩
    · rintro ⟨before, after, he, later⟩
      rcases List.eq_nil_or_concat after with rfl | ⟨after, last, rfl⟩
      · obtain ⟨-, he⟩ := List.append_inj' he rfl
        exact .inl (List.singleton_inj.mp he)
      · have split : events ++ [event] = (before ++ .appears a :: after) ++ [last] := by
          rw [he]
          simp
        obtain ⟨he, hl⟩ := List.append_inj' split rfl
        rw [List.singleton_inj.mp hl]
        simp only [List.concat_eq_append, List.mem_append, List.mem_singleton, not_or] at later
        exact .inr ⟨⟨before, after, he, later.1⟩, fun hd => later.2 hd.symm⟩

theorem held_present (h : held events = some a) : a ∈ present events := by
  induction events using List.reverseRecOn generalizing a with
  | nil => cases h
  | append_singleton events event ih =>
    rw [held_concat] at h
    rw [present_concat, mem_arrive]
    cases event with
    | appears b =>
      cases hh : held events with
      | none =>
        rw [hh] at h
        exact .inl (congrArg _ (Option.some.inj h))
      | some c =>
        rw [hh] at h
        exact .inr ⟨ih (hh.trans h), by simp⟩
    | disappears b =>
      simp only [hold] at h
      split at h
      next => cases h
      next other =>
        refine .inr ⟨ih h, fun hd => other ?_⟩
        rw [h, Presence.disappears.inj hd]

/-- Where the oldest thing is held, the next event keeps it so unless it takes that thing from
among others. -/
theorem hold_oldest (h : held events = (present events).head?) (last : LeavesLast events event) :
    held (events ++ [event]) = (present (events ++ [event])).head? := by
  rw [held_concat, present_concat, h]
  cases hp : present events with
  | nil => cases event <;> simp [hold, arrive]
  | cons a rest =>
    cases event with
    | appears b =>
      simp only [hold, arrive, List.head?_cons, Option.some_or]
      split <;> rfl
    | disappears b =>
      by_cases hb : b = a
      · rw [hb] at last ⊢
        rw [last a rest rfl hp]
        simp [hold, arrive]
      · have ha : a ≠ b := fun he => hb he.symm
        simp [hold, arrive, ha]

theorem held_oldest (h : Justified LeavesLast events) : held events = (present events).head? := by
  induction events using List.reverseRecOn with
  | nil => rfl
  | append_singleton events event ih =>
    obtain ⟨before, last⟩ := justified_concat.mp h
    exact hold_oldest (ih before) last

/-- An event that takes the oldest thing from among others leaves the hands empty. -/
theorem HoldsPresent.leavesLast (h : HoldsPresent (events ++ [event]))
    (oldest : held events = (present events).head?) : LeavesLast events event := by
  rintro a rest rfl hp
  rw [HoldsPresent, held_concat, present_concat, oldest, hp] at h
  have empty : (a :: rest).filter (· ≠ a) = [] := by simpa [hold, arrive] using h.1
  have others : a ∉ rest := by
    have distinct := @present_nodup _ _ events
    rw [hp] at distinct
    exact (List.nodup_cons.mp distinct).1
  cases rest with
  | nil => rfl
  | cons b rest =>
    have hb : b = a := by simpa using List.filter_eq_nil_iff.mp empty b (by simp)
    exact absurd (by simp [hb]) others

/-- What is there is held all along exactly where the oldest thing always leaves last. -/
theorem holdsPresent_iff :
    (∀ earlier, earlier <+: events → HoldsPresent earlier) ↔ Justified LeavesLast events := by
  constructor
  · intro h
    induction events using List.reverseRecOn with
    | nil => exact justified_nil
    | append_singleton events event ih =>
      have before := ih fun earlier he => h earlier (he.trans (List.prefix_append ..))
      refine justified_concat.mpr ⟨before, ?_⟩
      exact (h _ (List.prefix_refl _)).leavesLast (held_oldest before)
  · rintro h earlier ⟨after, rfl⟩
    have oldest : held earlier = (present earlier).head? := held_oldest h.earlier
    constructor
    · rw [oldest]
      simp
    · exact fun a ha => held_present ha

end Presence

end PipewireGobject
