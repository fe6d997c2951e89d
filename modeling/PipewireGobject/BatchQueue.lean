import Mathlib.Data.List.Range
import Mathlib.Data.List.Perm.Basic
import Mathlib.Data.List.Perm.Lattice
import PipewireGobject.Reach
import PipewireGobject.History

namespace PipewireGobject

inductive QueueEvent
  | queued (entry : Nat)
  | dropped (entry : Nat)
  | taken (batch : List Nat)
  | cleared
  | delivered (entry : Nat)
  | discarded (entry : Nat)
  deriving DecidableEq

/-- A queue of numbered entries. A consumer takes all of them as one batch and
hands them out later, batches taken later before those taken earlier. -/
structure BatchQueue where
  pending : List Nat := []
  inFlight : List Nat := []
  next : Nat := 0
  log : List QueueEvent := []

inductive BatchLabel
  | push
  | take
  | deliver
  | discard
  | clear

variable {capacity : Nat} {q r : BatchQueue} {label : BatchLabel} {log : List QueueEvent}

/-- What a queue that drops its oldest entries has room for. -/
def newest (capacity : Nat) {α : Type} (entries : List α) : List α :=
  entries.drop (entries.length - capacity)

def overflow (capacity : Nat) {α : Type} (entries : List α) : List α :=
  entries.take (entries.length - capacity)

def BatchQueue.step (capacity : Nat) (q : BatchQueue) : BatchLabel → Option BatchQueue
  | .push => some { q with
      pending := newest capacity (q.pending ++ [q.next])
      next := q.next + 1
      log := q.log ++ .queued q.next ::
        (overflow capacity (q.pending ++ [q.next])).map .dropped }
  | .take => some { q with
      pending := []
      inFlight := q.pending ++ q.inFlight
      log := q.log ++ [.taken q.pending] }
  | .deliver =>
    match q.inFlight with
    | [] => none
    | n :: rest => some { q with inFlight := rest, log := q.log ++ [.delivered n] }
  | .discard =>
    match q.inFlight with
    | [] => none
    | n :: rest => some { q with inFlight := rest, log := q.log ++ [.discarded n] }
  | .clear => some { q with
      pending := []
      log := q.log ++ (q.pending.map .discarded ++ [.cleared]) }

theorem BatchQueue.step_deliver (h : q.step capacity .deliver = some r) :
    ∃ n, q.inFlight = n :: r.inFlight ∧ r = { q with
      inFlight := r.inFlight, log := q.log ++ [.delivered n] } := by
  simp only [step] at h
  split at h
  next => simp at h
  next n rest hq =>
    cases Option.some.inj h
    exact ⟨n, hq, rfl⟩

theorem BatchQueue.step_discard (h : q.step capacity .discard = some r) :
    ∃ n, q.inFlight = n :: r.inFlight ∧ r = { q with
      inFlight := r.inFlight, log := q.log ++ [.discarded n] } := by
  simp only [step] at h
  split at h
  next => simp at h
  next n rest hq =>
    cases Option.some.inj h
    exact ⟨n, hq, rfl⟩

@[simp] def QueueEvent.entryQueued : QueueEvent → Option Nat
  | .queued n => some n
  | _ => none

@[simp] def QueueEvent.entryDelivered : QueueEvent → Option Nat
  | .delivered n => some n
  | _ => none

@[simp] def QueueEvent.entryLost : QueueEvent → Option Nat
  | .dropped n | .discarded n => some n
  | _ => none

/-- The entries that `entry` finds in the events of a log. -/
def logEntries (entry : QueueEvent → Option Nat) (log : List QueueEvent) : List Nat :=
  log.filterMap entry

abbrev queuedEntries : List QueueEvent → List Nat := logEntries QueueEvent.entryQueued

abbrev deliveredEntries : List QueueEvent → List Nat := logEntries QueueEvent.entryDelivered

abbrev lostEntries : List QueueEvent → List Nat := logEntries QueueEvent.entryLost

section LogEntries

variable (entry : QueueEvent → Option Nat) (entries : List Nat)

@[simp] theorem logEntries_nil : logEntries entry [] = [] := rfl

@[simp] theorem logEntries_append (xs ys : List QueueEvent) :
    logEntries entry (xs ++ ys) = logEntries entry xs ++ logEntries entry ys :=
  List.filterMap_append

@[simp] theorem logEntries_cons (event : QueueEvent) :
    logEntries entry (event :: log) = (entry event).toList ++ logEntries entry log := by
  cases h : entry event <;> simp [logEntries, h]

@[simp] theorem queuedEntries_dropped : queuedEntries (entries.map .dropped) = [] := by
  induction entries <;> simp_all

@[simp] theorem queuedEntries_discarded : queuedEntries (entries.map .discarded) = [] := by
  induction entries <;> simp_all

@[simp] theorem deliveredEntries_dropped : deliveredEntries (entries.map .dropped) = [] := by
  induction entries <;> simp_all

@[simp] theorem deliveredEntries_discarded : deliveredEntries (entries.map .discarded) = [] := by
  induction entries <;> simp_all

@[simp] theorem lostEntries_dropped : lostEntries (entries.map .dropped) = entries := by
  induction entries <;> simp_all

@[simp] theorem lostEntries_discarded : lostEntries (entries.map .discarded) = entries := by
  induction entries <;> simp_all

end LogEntries

/-- The entries queued since the queue was last taken or cleared. -/
def recentEntries (log : List QueueEvent) : List Nat :=
  log.foldl (fun recent event =>
    match event with
    | .queued n => recent ++ [n]
    | .taken _ | .cleared => []
    | _ => recent) []

theorem recentEntries_dropped (entries : List Nat) :
    recentEntries (log ++ entries.map .dropped) = recentEntries log := by
  induction entries generalizing log with
  | nil => simp
  | cons n rest ih =>
    rw [List.map_cons, List.append_cons, ih]
    simp [recentEntries]

theorem overflow_append_newest {α : Type} (capacity : Nat) (entries : List α) :
    overflow capacity entries ++ newest capacity entries = entries := List.take_append_drop _ _

theorem newest_length {α : Type} (entries : List α) :
    (newest capacity entries).length ≤ capacity := by
  simp only [newest, List.length_drop]
  omega

theorem newest_newest {α : Type} (entries : List α) (last : α) :
    newest capacity (newest capacity entries ++ [last]) = newest capacity (entries ++ [last]) := by
  have shorter : entries.length - capacity ≤ entries.length := Nat.sub_le _ _
  have hn : newest capacity entries ++ [last] =
      (entries ++ [last]).drop (entries.length - capacity) := by
    rw [List.drop_append_of_le_length shorter, newest]
  simp only [newest] at hn ⊢
  rw [hn, List.drop_drop]
  congr 1
  simp only [List.length_drop, List.length_append, List.length_singleton]
  omega

/-- Every entry ever queued has been delivered or lost, or still waits. -/
structure BatchQueue.Accounted (q : BatchQueue) : Prop where
  numbered : queuedEntries q.log = List.range q.next
  settled : (List.range q.next).Perm
    (deliveredEntries q.log ++ lostEntries q.log ++ (q.inFlight ++ q.pending))

theorem BatchQueue.Accounted.step (h : q.Accounted) (hs : q.step capacity label = some r) :
    r.Accounted := by
  have settled := List.perm_iff_count.mp h.settled
  cases label with
  | push =>
    cases Option.some.inj hs
    refine ⟨by simp [h.numbered, List.range_succ], List.perm_iff_count.mpr fun a => ?_⟩
    have split := congrArg (List.count a)
      (overflow_append_newest capacity (q.pending ++ [q.next]))
    have ha := settled a
    simp [List.range_succ, deliveredEntries, lostEntries] at ha split ⊢
    omega
  | take =>
    cases Option.some.inj hs
    refine ⟨by simp [h.numbered], List.perm_iff_count.mpr fun a => ?_⟩
    have ha := settled a
    simp [deliveredEntries, lostEntries] at ha ⊢
    omega
  | deliver =>
    obtain ⟨n, hq, hr⟩ := BatchQueue.step_deliver hs
    rw [hr]
    refine ⟨by simp [h.numbered], List.perm_iff_count.mpr fun a => ?_⟩
    have ha := settled a
    simp [hq, deliveredEntries, lostEntries, List.count_cons] at ha ⊢
    omega
  | discard =>
    obtain ⟨n, hq, hr⟩ := BatchQueue.step_discard hs
    rw [hr]
    refine ⟨by simp [h.numbered], List.perm_iff_count.mpr fun a => ?_⟩
    have ha := settled a
    simp [hq, deliveredEntries, lostEntries, List.count_cons] at ha ⊢
    omega
  | clear =>
    cases Option.some.inj hs
    refine ⟨by simp [h.numbered], List.perm_iff_count.mpr fun a => ?_⟩
    have ha := settled a
    simp [deliveredEntries, lostEntries] at ha ⊢
    omega

/-- A batch is what the queue had room for of the entries queued since the last one. -/
def TakesNewest (capacity : Nat) (before : List QueueEvent) (event : QueueEvent) : Prop :=
  ∀ batch, event = .taken batch → batch = newest capacity (recentEntries before)

structure BatchQueue.Batched (capacity : Nat) (q : BatchQueue) : Prop where
  pending : q.pending = newest capacity (recentEntries q.log)
  batches : Justified (TakesNewest capacity) q.log

theorem BatchQueue.Batched.step (h : q.Batched capacity) (hs : q.step capacity label = some r) :
    r.Batched capacity := by
  have lost : ∀ entries : List Nat, ∀ e ∈ entries.map QueueEvent.discarded, ∀ before,
      TakesNewest capacity before e := by
    intro entries e he before batch hb
    obtain ⟨n, -, rfl⟩ := List.mem_map.mp he
    cases hb
  cases label with
  | push =>
    cases Option.some.inj hs
    refine ⟨?_, h.batches.append ?_⟩
    · show newest capacity (q.pending ++ [q.next]) = newest capacity (recentEntries (q.log ++ _))
      rw [List.append_cons q.log, recentEntries_dropped, h.pending, newest_newest]
      simp [recentEntries]
    · intro e he before batch hb
      rcases List.mem_cons.mp he with rfl | he
      · cases hb
      · obtain ⟨n, -, rfl⟩ := List.mem_map.mp he
        cases hb
  | take =>
    cases Option.some.inj hs
    refine ⟨by simp [recentEntries, newest], justified_concat.mpr ⟨h.batches, ?_⟩⟩
    intro batch hb
    cases hb
    exact h.pending
  | deliver =>
    obtain ⟨n, -, hr⟩ := BatchQueue.step_deliver hs
    rw [hr]
    refine ⟨by simpa [recentEntries] using h.pending, justified_concat.mpr ⟨h.batches, ?_⟩⟩
    intro batch hb
    cases hb
  | discard =>
    obtain ⟨n, -, hr⟩ := BatchQueue.step_discard hs
    rw [hr]
    refine ⟨by simpa [recentEntries] using h.pending, justified_concat.mpr ⟨h.batches, ?_⟩⟩
    intro batch hb
    cases hb
  | clear =>
    cases Option.some.inj hs
    refine ⟨by simp [recentEntries, newest], ?_⟩
    rw [← List.append_assoc, justified_concat]
    refine ⟨h.batches.append (lost q.pending), fun batch hb => ?_⟩
    cases hb

/-- A batch is taken only where the one before has been handed out. -/
def BatchQueue.InOrder (q : BatchQueue) (label : BatchLabel) : Prop :=
  label = .take → q.inFlight = [] ∨ q.pending = []

/-- Delivered, then in flight, then pending, then still to come. -/
def BatchQueue.Ordered (q : BatchQueue) : Prop :=
  (deliveredEntries q.log ++ (q.inFlight ++ q.pending) ++ [q.next]).Pairwise (· < ·)

theorem pairwise_lt_succ {entries : List Nat} {n : Nat} (h : (entries ++ [n]).Pairwise (· < ·)) :
    (entries ++ [n] ++ [n + 1]).Pairwise (· < ·) := by
  refine List.pairwise_append.mpr ⟨h, List.pairwise_singleton _ _, ?_⟩
  intro m hm k hk
  cases List.mem_singleton.mp hk
  rcases List.mem_append.mp hm with hm | hm
  · exact Nat.lt_succ_of_lt ((List.pairwise_append.mp h).2.2 m hm n (by simp))
  · cases List.mem_singleton.mp hm
    exact Nat.lt_succ_self _

theorem BatchQueue.Ordered.step (h : q.Ordered) (inOrder : q.InOrder label)
    (hs : q.step capacity label = some r) : r.Ordered := by
  unfold BatchQueue.Ordered at h ⊢
  cases label with
  | push =>
    cases Option.some.inj hs
    have kept : (newest capacity (q.pending ++ [q.next])).Sublist (q.pending ++ [q.next]) :=
      List.drop_sublist _ _
    refine (pairwise_lt_succ h).sublist ?_
    simp only [logEntries_append, logEntries_cons, QueueEvent.entryDelivered, Option.toList_none,
      deliveredEntries_dropped, List.append_nil, List.append_assoc]
    refine (List.Sublist.refl _).append ((List.Sublist.refl _).append ?_)
    simpa using kept.append (List.Sublist.refl [q.next + 1])
  | take =>
    cases Option.some.inj hs
    rcases inOrder rfl with he | he <;> simpa [he] using h
  | deliver =>
    obtain ⟨n, hq, hr⟩ := BatchQueue.step_deliver hs
    rw [hr]
    simpa [hq] using h
  | discard =>
    obtain ⟨n, hq, hr⟩ := BatchQueue.step_discard hs
    rw [hr]
    refine h.sublist ?_
    simp [hq]
  | clear =>
    cases Option.some.inj hs
    refine h.sublist ?_
    simp

/-- Between the entry delivered last and this one, every number belongs to a lost entry. -/
def GapsLost (before : List QueueEvent) (event : QueueEvent) : Prop :=
  ∀ a b, event = .delivered b → (deliveredEntries before).getLast? = some a →
    a < b ∧ b - a - 1 = (lostEntries before).countP fun n => a < n ∧ n < b

theorem countP_range_between (a b n : Nat) :
    (List.range n).countP (fun m => a < m ∧ m < b) = min n b - (a + 1) := by
  induction n with
  | zero => simp
  | succ n ih =>
    rw [List.range_succ, List.countP_append, ih, List.countP_singleton]
    by_cases hn : a < n ∧ n < b
    · simp only [hn, and_self, decide_true, if_true]
      omega
    · simp only [hn, decide_false, Bool.false_eq_true, if_false]
      omega

theorem BatchQueue.gap_lost {a b : Nat} {rest : List Nat} (accounted : q.Accounted)
    (ordered : q.Ordered) (hq : q.inFlight = b :: rest)
    (last : (deliveredEntries q.log).getLast? = some a) :
    a < b ∧ b - a - 1 = (lostEntries q.log).countP fun n => a < n ∧ n < b := by
  obtain ⟨older, hd⟩ := List.getLast?_eq_some_iff.mp last
  have sorted := ordered
  unfold BatchQueue.Ordered at sorted
  rw [hd, hq] at sorted
  simp only [List.append_assoc, List.cons_append, List.nil_append, List.pairwise_append,
    List.pairwise_cons, List.mem_append, List.mem_cons] at sorted
  obtain ⟨-, ⟨hab, hlater, -⟩, holder⟩ := sorted
  have hb : a < b := hab b (.inl rfl)
  have hnext : b < q.next := hlater q.next (by simp)
  refine ⟨hb, ?_⟩
  have count := accounted.settled.countP_eq fun n => decide (a < n ∧ n < b)
  rw [countP_range_between, List.countP_append, List.countP_append] at count
  have none_delivered : (deliveredEntries q.log).countP (fun n => a < n ∧ n < b) = 0 := by
    rw [List.countP_eq_zero, hd]
    intro n hn
    rcases List.mem_append.mp hn with hn | hn
    · have := holder n hn a (.inl rfl)
      simp only [decide_eq_true_eq]
      omega
    · cases List.mem_singleton.mp hn
      simp
  have none_waiting : (q.inFlight ++ q.pending).countP (fun n => a < n ∧ n < b) = 0 := by
    rw [List.countP_eq_zero, hq]
    intro n hn
    rcases List.mem_cons.mp hn with rfl | hn
    · simp
    · have := hlater n (by rcases List.mem_append.mp hn with hn | hn <;> simp [hn])
      simp only [decide_eq_true_eq]
      omega
  rw [none_delivered, none_waiting] at count
  omega

theorem BatchQueue.gapsLost_step (h : Justified GapsLost q.log) (accounted : q.Accounted)
    (ordered : q.Ordered) (hs : q.step capacity label = some r) : Justified GapsLost r.log := by
  have silent : ∀ events : List QueueEvent, deliveredEntries events = [] →
      Justified GapsLost (q.log ++ events) := by
    intro events hd
    refine h.append ?_
    rintro e he before a b rfl -
    have : b ∈ deliveredEntries events := List.mem_filterMap.mpr ⟨_, he, rfl⟩
    simp [hd] at this
  cases label with
  | push =>
    cases Option.some.inj hs
    exact silent _ (by simp)
  | take =>
    cases Option.some.inj hs
    exact silent _ rfl
  | deliver =>
    obtain ⟨n, hq, hr⟩ := BatchQueue.step_deliver hs
    rw [hr]
    refine justified_concat.mpr ⟨h, ?_⟩
    intro a b hb last
    cases hb
    exact gap_lost accounted ordered hq last
  | discard =>
    obtain ⟨n, -, hr⟩ := BatchQueue.step_discard hs
    rw [hr]
    exact silent _ rfl
  | clear =>
    cases Option.some.inj hs
    exact silent _ (by simp)

section Runs

variable {allowed : BatchQueue → BatchLabel → Prop}

theorem BatchQueue.reach_accounted (h : Reach (BatchQueue.step capacity) allowed {} q) :
    q.Accounted :=
  h.invariant ⟨rfl, .refl _⟩ fun _ _ _ hq _ hs => hq.step hs

theorem BatchQueue.reach_bounded (h : Reach (BatchQueue.step capacity) allowed {} q) :
    q.pending.length ≤ capacity := by
  refine h.invariant (I := fun q => q.pending.length ≤ capacity) (Nat.zero_le _) ?_
  intro s label t hq _ hs
  cases label with
  | push =>
    cases Option.some.inj hs
    exact newest_length _
  | deliver =>
    obtain ⟨n, -, ht⟩ := BatchQueue.step_deliver hs
    rw [ht]
    exact hq
  | discard =>
    obtain ⟨n, -, ht⟩ := BatchQueue.step_discard hs
    rw [ht]
    exact hq
  | _ =>
    cases Option.some.inj hs
    exact Nat.zero_le _

theorem BatchQueue.reach_batched (h : Reach (BatchQueue.step capacity) allowed {} q) :
    q.Batched capacity :=
  h.invariant ⟨by simp [recentEntries, newest], justified_nil⟩ fun _ _ _ hq _ hs => hq.step hs

theorem BatchQueue.reach_ordered (h : Reach (BatchQueue.step capacity) BatchQueue.InOrder {} q) :
    q.Ordered :=
  h.invariant (by simp [BatchQueue.Ordered])
    fun _ _ _ hq inOrder hs => hq.step inOrder hs

theorem BatchQueue.reach_gapsLost (h : Reach (BatchQueue.step capacity) BatchQueue.InOrder {} q) :
    Justified GapsLost q.log := by
  refine (h.invariant (I := fun q => q.Accounted ∧ q.Ordered ∧ Justified GapsLost q.log)
    ⟨⟨rfl, .refl _⟩, by simp [BatchQueue.Ordered], justified_nil⟩ ?_).2.2
  rintro s label t ⟨accounted, ordered, gaps⟩ inOrder hs
  exact ⟨accounted.step hs, ordered.step inOrder hs,
    gapsLost_step gaps accounted ordered hs⟩

end Runs

end PipewireGobject
