import Mathlib.Data.List.Basic
import Mathlib.Data.Option.Basic

namespace PipewireGobject

variable {α β κ : Type} [DecidableEq κ]

/-- The last of the events that concern a key. -/
def lastOf (key : α → κ) (k : κ) (events : List α) : Option α :=
  (events.filter fun e => key e = k).getLast?

variable {key : α → κ} {k : κ} {e : α} {events queue : List α}

theorem lastOf_append (events later : List α) :
    lastOf key k (events ++ later) = (lastOf key k later).or (lastOf key k events) := by
  simp [lastOf]

theorem lastOf_concat (events : List α) (e : α) :
    lastOf key k (events ++ [e]) = if key e = k then some e else lastOf key k events := by
  rw [lastOf_append]
  by_cases hk : key e = k <;> simp [lastOf, hk]

theorem lastOf_cons (e : α) (events : List α) :
    lastOf key k (e :: events) = (lastOf key k events).or (if key e = k then some e else none) := by
  unfold lastOf
  split
  next hk =>
    rw [List.filter_cons_of_pos (by simpa using hk), List.getLast?_cons]
    cases (events.filter fun e => key e = k).getLast? <;> rfl
  next hk => rw [List.filter_cons_of_neg (by simpa using hk), Option.or_none]

/-- A collection of entries, at most one for a key, that follows `events`: those still in
the `queue` have not been applied to `held`. What an event leaves of its key is an entry or
nothing. -/
structure Follows (key : α → κ) (leaves : α → Option β) (keyOf : β → κ)
    (events queue : List α) (held : List β) : Prop where
  nodup : (held.map keyOf).Nodup
  queued : ∀ k e, lastOf key k queue = some e → (lastOf key k events).bind leaves = leaves e
  settled : ∀ k, lastOf key k queue = none → ∀ b, b ∈ held ∧ keyOf b = k ↔
    (lastOf key k events).bind leaves = some b

variable {leaves : α → Option β} {keyOf : β → κ} {held held' : List β}

/-- Applying an event replaces what is held for its key. -/
structure Applied (key : α → κ) (leaves : α → Option β) (keyOf : β → κ) (e : α)
    (held held' : List β) : Prop where
  nodup : (held'.map keyOf).Nodup
  other : ∀ b, keyOf b ≠ key e → (b ∈ held' ↔ b ∈ held)
  own : ∀ b, b ∈ held' ∧ keyOf b = key e ↔ leaves e = some b

theorem Follows.start : Follows key leaves keyOf [] [] [] where
  nodup := .nil
  queued := by simp [lastOf]
  settled := by simp [lastOf]

theorem Follows.enqueue (h : Follows key leaves keyOf events queue held) (e : α) :
    Follows key leaves keyOf (events ++ [e]) (queue ++ [e]) held where
  nodup := h.nodup
  queued k e' he := by
    rw [lastOf_concat] at he ⊢
    by_cases hk : key e = k
    · rw [if_pos hk] at he ⊢
      rw [Option.some.inj he]
      rfl
    · rw [if_neg hk] at he ⊢
      exact h.queued k e' he
  settled k hn b := by
    rw [lastOf_concat] at hn ⊢
    by_cases hk : key e = k
    · simp [hk] at hn
    · rw [if_neg hk] at hn ⊢
      exact h.settled k hn b

omit [DecidableEq κ] in
theorem Applied.elsewhere (applied : Applied key leaves keyOf e held held') {k : κ}
    (hk : key e ≠ k) (b : β) : b ∈ held' ∧ keyOf b = k ↔ b ∈ held ∧ keyOf b = k := by
  constructor
  · rintro ⟨hb, rfl⟩
    exact ⟨(applied.other b (Ne.symm hk)).mp hb, rfl⟩
  · rintro ⟨hb, rfl⟩
    exact ⟨(applied.other b (Ne.symm hk)).mpr hb, rfl⟩

/-- The next event of the queue is applied. -/
theorem Follows.dequeue (h : Follows key leaves keyOf events (e :: queue) held)
    (applied : Applied key leaves keyOf e held held') :
    Follows key leaves keyOf events queue held' where
  nodup := applied.nodup
  queued k e' he := h.queued k e' (by rw [lastOf_cons, he]; rfl)
  settled k hn b := by
    by_cases hk : key e = k
    · subst hk
      rw [h.queued (key e) e (by rw [lastOf_cons, hn]; simp)]
      exact applied.own b
    · rw [← h.settled k (by rw [lastOf_cons, hn]; simp [hk]) b]
      exact applied.elsewhere hk b

/-- An event is applied at once although others are queued; of its own key only such as
leave the same behind in the end. -/
theorem Follows.overtake (h : Follows key leaves keyOf events queue held)
    (same : ∀ e' ∈ lastOf key (key e) queue, leaves e' = leaves e)
    (applied : Applied key leaves keyOf e held held') :
    Follows key leaves keyOf (events ++ [e]) queue held' where
  nodup := applied.nodup
  queued k e' he := by
    rw [lastOf_concat]
    by_cases hk : key e = k
    · subst hk
      rw [if_pos rfl, same e' he]
      rfl
    · rw [if_neg hk]
      exact h.queued k e' he
  settled k hn b := by
    rw [lastOf_concat]
    by_cases hk : key e = k
    · subst hk
      rw [if_pos rfl]
      exact applied.own b
    · rw [if_neg hk, ← h.settled k hn b]
      exact applied.elsewhere hk b

/-- Once the queue is empty, what is held is what the last event of each key has left. -/
theorem Follows.drained (h : Follows key leaves keyOf events [] held) (b : β) :
    b ∈ held ↔ (lastOf key (keyOf b) events).bind leaves = some b := by
  rw [← h.settled (keyOf b) rfl b]
  simp

end PipewireGobject
