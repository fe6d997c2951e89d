import PipewireGobject.History

namespace PipewireGobject

universe u v
variable {H : Type u} {L : Type v}

/-- What happens to handles, and to the loops that they live on. -/
inductive CustodyEvent (H : Type u) (L : Type v)
  | created (handle : H) (parent : Option H)
  | destroyed (handle : H)
  | started (loop : L)
  | stopped (loop : L)
  | locked (loop : L)
  | unlocked (loop : L)
  deriving DecidableEq

/-- Created and not destroyed. -/
def Lives (history : List (CustodyEvent H L)) (handle : H) : Prop :=
  (∃ parent, .created handle parent ∈ history) ∧ .destroyed handle ∉ history

/-- Something lives on the loop. -/
def Used (loop : H → L) (history : List (CustodyEvent H L)) (l : L) : Prop :=
  ∃ handle, Lives history handle ∧ loop handle = l

variable {history before after : List (CustodyEvent H L)} {event : CustodyEvent H L} {x y : H}
  {p q : Option H} {l : L}

theorem lives_created (unborn : .destroyed x ∉ history) :
    Lives (history ++ [.created x p]) y ↔ Lives history y ∨ y = x := by
  unfold Lives
  by_cases hy : y = x
  · subst hy
    simp [unborn]
  · simp [hy]

theorem lives_destroyed :
    Lives (history ++ [.destroyed x]) y ↔ Lives history y ∧ y ≠ x := by
  unfold Lives
  simp [and_assoc]

/-- Events that neither create nor destroy. -/
theorem lives_quiet (created : ∀ x p, event ≠ .created x p)
    (destroyed : ∀ x, event ≠ .destroyed x) :
    Lives (history ++ [event]) y ↔ Lives history y := by
  unfold Lives
  simp only [List.mem_append, List.mem_singleton, (created y _).symm, (destroyed y).symm, or_false]

theorem lives_destroyAll {xs : List H} :
    Lives (history ++ xs.map .destroyed) y ↔ Lives history y ∧ y ∉ xs := by
  unfold Lives
  simp [and_assoc]

variable [DecidableEq H] [DecidableEq L]

def Locked (history : List (CustodyEvent H L)) (l : L) : Prop :=
  history.count (.locked l) = history.count (.unlocked l) + 1

def Unlocked (history : List (CustodyEvent H L)) (l : L) : Prop :=
  history.count (.locked l) = history.count (.unlocked l)

/-- A handle is made from a handle that is there, and goes after what was made from it. A
`shared` one comes and goes under the lock of its loop; else the loop is stopped first. -/
def Custody (loop : H → L) (shared : H → Prop) (before : List (CustodyEvent H L)) :
    CustodyEvent H L → Prop
  | .created handle parent =>
    (∀ p, .created handle p ∉ before) ∧ (∀ p ∈ parent, Lives before p) ∧
      (shared handle → Locked before (loop handle))
  | .destroyed handle =>
    Lives before handle ∧
      (∀ child, .created child (some handle) ∈ before → .destroyed child ∈ before) ∧
      (.stopped (loop handle) ∈ before ∨ shared handle ∧ Locked before (loop handle))
  | .started l => Used loop before l ∧ .stopped l ∉ before
  | .stopped l => Used loop before l
  | .locked l => Used loop before l ∧ Unlocked before l
  | .unlocked l => Locked before l

variable {loop : H → L} {shared : H → Prop}

namespace Justified

variable (h : Justified (Custody loop shared) history)
include h

theorem at_event (he : history = before ++ event :: after) : Custody loop shared before event :=
  h before event after he

theorem destroyed_known (hd : .destroyed x ∈ history) : ∃ parent, .created x parent ∈ history := by
  obtain ⟨before, after, he⟩ := List.append_of_mem hd
  obtain ⟨parent, hc⟩ := (h.at_event he).1.1
  exact ⟨parent, by rw [he]; exact List.mem_append_left _ hc⟩

/-- What has not been created has not been destroyed. -/
theorem unborn (fresh : ∀ p, .created x p ∉ history) : .destroyed x ∉ history := fun hd => by
  obtain ⟨parent, hc⟩ := h.destroyed_known hd
  exact fresh parent hc

theorem parent_unique (hp : .created x p ∈ history) (hq : .created x q ∈ history) : p = q := by
  obtain ⟨before, after, he⟩ := List.append_of_mem hp
  rw [he] at hq
  rcases List.mem_append.mp hq with hq | hq
  · exact absurd hq ((h.at_event he).1 q)
  · rcases List.mem_cons.mp hq with hq | hq
    · cases hq
      rfl
    · obtain ⟨between, later, hl⟩ := List.append_of_mem hq
      have split : history = (before ++ .created x p :: between) ++ .created x q :: later := by
        rw [he, hl]
        simp
      exact absurd (by simp) ((h.at_event split).1 p)

theorem created_once (hc : .created x p ∈ history) : history.count (.created x p) = 1 := by
  have most := h.once fun before (hq : Custody loop shared before (.created x p)) => hq.1 p
  have least := List.count_pos_iff.mpr hc
  omega

theorem destroyed_once : history.count (.destroyed x) ≤ 1 :=
  h.once fun before (hq : Custody loop shared before (.destroyed x)) => hq.1.2

/-- What was made from a handle goes before it. -/
theorem child_first (he : history = before ++ .destroyed x :: after)
    (hc : .created y (some x) ∈ history) : .destroyed y ∈ before := by
  rw [he] at hc
  rcases List.mem_append.mp hc with hc | hc
  · exact (h.at_event he).2.1 y hc
  · rcases List.mem_cons.mp hc with hc | hc
    · cases hc
    · obtain ⟨between, later, hl⟩ := List.append_of_mem hc
      have split : history =
          (before ++ .destroyed x :: between) ++ .created y (some x) :: later := by
        rw [he, hl]
        simp
      exact absurd (by simp) ((h.at_event split).2.1 x rfl).2

theorem stopped_first (he : history = before ++ .destroyed x :: after) (hs : ¬shared x) :
    .stopped (loop x) ∈ before :=
  (h.at_event he).2.2.resolve_right fun hl => hs hl.1

/-- A loop that has been stopped is not started again. -/
theorem not_restarted (he : history = before ++ .stopped l :: after) : .started l ∉ after := by
  intro hs
  obtain ⟨between, later, hl⟩ := List.append_of_mem hs
  have split : history = (before ++ .stopped l :: between) ++ .started l :: later := by
    rw [he, hl]
    simp
  exact absurd (by simp) (h.at_event split).2

/-- What is picked from the creations is picked once. -/
theorem nodup_created {f : CustodyEvent H L → Option H}
    (hf : ∀ e x, f e = some x → ∃ p, e = .created x p) : (history.filterMap f).Nodup := by
  induction history using List.reverseRecOn with
  | nil => simp
  | append_singleton history last ih =>
    obtain ⟨earlier, hq⟩ := justified_concat.mp h
    rw [List.filterMap_append]
    refine List.nodup_append.mpr ⟨ih earlier, ?_, ?_⟩
    · cases hl : f last <;> simp [hl]
    · intro x hx y hy he
      obtain ⟨e, hm, hx⟩ := List.mem_filterMap.mp hx
      obtain ⟨p, rfl⟩ := hf e x hx
      obtain ⟨last', hm', hy⟩ := List.mem_filterMap.mp hy
      obtain ⟨q, rfl⟩ := hf last' y hy
      cases List.mem_singleton.mp hm'
      exact hq.1 p (he ▸ hm)

/-- Handles that nothing was made from go together once their loop is stopped. -/
theorem destroyAll {xs : List H} (nodup : xs.Nodup) (lives : ∀ x ∈ xs, Lives history x)
    (childless : ∀ x ∈ xs, ∀ c, .created c (some x) ∉ history)
    (stopped : ∀ x ∈ xs, .stopped (loop x) ∈ history) :
    Justified (Custody loop shared) (history ++ xs.map .destroyed) := by
  induction xs generalizing history with
  | nil => simpa using h
  | cons x xs ih =>
    obtain ⟨fresh, nodup⟩ := List.nodup_cons.mp nodup
    rw [List.map_cons, List.append_cons]
    refine ih (justified_concat.mpr ⟨h, lives x (by simp), fun c hc => ?_, .inl ?_⟩) nodup ?_ ?_ ?_
    · exact absurd hc (childless x (by simp) c)
    · exact stopped x (by simp)
    · intro y hy
      exact lives_destroyed.mpr ⟨lives y (by simp [hy]), fun he => fresh (he ▸ hy)⟩
    · intro y hy c hc
      rcases List.mem_append.mp hc with hc | hc
      · exact childless y (by simp [hy]) c hc
      · cases List.mem_singleton.mp hc
    · intro y hy
      exact List.mem_append_left _ (stopped y (by simp [hy]))

end Justified

theorem count_locked_concat : (history ++ [event]).count (.locked l) =
    history.count (.locked l) + if event = .locked l then 1 else 0 := by
  rw [List.count_append, List.count_singleton]
  simp

theorem count_unlocked_concat : (history ++ [event]).count (.unlocked l) =
    history.count (.unlocked l) + if event = .unlocked l then 1 else 0 := by
  rw [List.count_append, List.count_singleton]
  simp

/-- Events that neither lock nor unlock. -/
theorem locks_append {events : List (CustodyEvent H L)}
    (free : ∀ e ∈ events, e ≠ .locked l ∧ e ≠ .unlocked l) :
    (Unlocked (history ++ events) l ↔ Unlocked history l) ∧
      (Locked (history ++ events) l ↔ Locked history l) := by
  have locks : events.count (.locked l) = 0 :=
    List.count_eq_zero_of_not_mem fun hm => (free _ hm).1 rfl
  have unlocks : events.count (.unlocked l) = 0 :=
    List.count_eq_zero_of_not_mem fun hm => (free _ hm).2 rfl
  unfold Unlocked Locked
  rw [List.count_append, List.count_append, locks, unlocks]
  exact ⟨Iff.rfl, Iff.rfl⟩

theorem locked_lock (h : Unlocked history l) : Locked (history ++ [.locked l]) l := by
  unfold Locked
  rw [count_locked_concat, count_unlocked_concat, if_pos rfl, if_neg (by simp)]
  exact congrArg (· + 1) h

theorem unlocked_unlock (h : Locked history l) : Unlocked (history ++ [.unlocked l]) l := by
  unfold Unlocked
  rw [count_locked_concat, count_unlocked_concat, if_pos rfl, if_neg (by simp)]
  exact h

/-- Locking and unlocking take turns. -/
theorem locks_alternate (h : Justified (Custody loop shared) history) (l : L) :
    Unlocked history l ∨ Locked history l := by
  induction history using List.reverseRecOn with
  | nil => exact .inl rfl
  | append_singleton history last ih =>
    obtain ⟨earlier, hq⟩ := justified_concat.mp h
    by_cases hl : last = .locked l
    · subst hl
      exact .inr (locked_lock hq.2)
    · by_cases hu : last = .unlocked l
      · subst hu
        exact .inl (unlocked_unlock hq)
      · have free : ∀ e ∈ [last], e ≠ .locked l ∧ e ≠ .unlocked l := by simp [hl, hu]
        rw [(locks_append free).1, (locks_append free).2]
        exact ih earlier

end PipewireGobject
