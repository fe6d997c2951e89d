import PipewireGobject.StreamBlocks

namespace PipewireGobject

variable {s t : StreamRun} {code rest : List StreamStmt} {i : StreamStmt}
  {outcome : StartOutcome} {c : Config StreamRun StreamStmt}

@[simp] def StreamEvent.peakShown : StreamEvent → Option Nat
  | .peakStored peak | .level peak => some peak.snapshot
  | _ => none

/-- Which snapshots the peaks came from that were stored or emitted, in that order. -/
def shownPeaks (history : List StreamEvent) : List Nat := history.filterMap StreamEvent.peakShown

@[simp] def StreamStmt.heldPeak : StreamStmt → List Nat
  | .dispatchPeak (some peak) => [peak.snapshot]
  | .emitLevel peak => [peak.snapshot]
  | _ => []

/-- The snapshots whose peaks are still to be stored or emitted. -/
def heldPeaks (code : List StreamStmt) : List Nat := code.flatMap StreamStmt.heldPeak

@[simp] theorem heldPeaks_nil : heldPeaks [] = [] := rfl

@[simp] theorem heldPeaks_cons : heldPeaks (i :: rest) = i.heldPeak ++ heldPeaks rest := rfl

@[simp] theorem shownPeaks_nil : shownPeaks [] = [] := rfl

@[simp] theorem shownPeaks_append (xs ys : List StreamEvent) :
    shownPeaks (xs ++ ys) = shownPeaks xs ++ shownPeaks ys := List.filterMap_append

@[simp] theorem shownPeaks_cons (event : StreamEvent) (history : List StreamEvent) :
    shownPeaks (event :: history) = event.peakShown.toList ++ shownPeaks history := by
  cases event <;> rfl

@[simp] theorem shownPeaks_discarded (entries : List Nat) :
    shownPeaks (entries.map .blockDiscarded) = [] := by
  induction entries <;> simp_all

@[simp] theorem shownPeaks_dropped (entries : List Nat) :
    shownPeaks (entries.map .blockDropped) = [] := by
  induction entries <;> simp_all

theorem shownPeaks_ofEmission {events : List StreamEvent}
    (silent : ∀ e ∈ events, e.ofEmission = true) : shownPeaks events = [] := by
  refine List.filterMap_eq_nil_iff.mpr fun e he => ?_
  cases e with
  | notified | emitted => rfl
  | _ => cases silent _ he

/-- The blocks in the order of their numbers, and no peak after one of a later snapshot. -/
structure DeliveredInOrder (history : List StreamEvent) : Prop where
  blocks : (deliveredEntries (blockLog history)).Pairwise (· < ·)
  peaks : (shownPeaks history).Pairwise (· ≤ ·)

/-- A dispatch takes blocks, or a peak, only where no outer dispatch still holds some. -/
def DispatchesInOrder : StreamRule := fun c label =>
  label.isRun = true → c.code.head? = some .dispatchTake →
    (c.state.stream.pendingBlocks = [] ∨ inFlight c.code = []) ∧
      (c.state.stream.hasPendingPeak = false ∨ heldPeaks c.code = [])

instance (c : Config StreamRun StreamStmt)
    (label : Label StreamCall StartOutcome StreamCallback) :
    Decidable (DispatchesInOrder c label) :=
  inferInstanceAs (Decidable (_ → _ → _ ∧ _))

/-- Shown, then held by a dispatch, then still to be taken. -/
def PeakOrder (s : StreamRun) (code : List StreamStmt) : Prop :=
  (shownPeaks s.history ++ heldPeaks code ++ [s.snapshots]).Pairwise (· ≤ ·)

theorem PeakOrder.of_sublist {code' : List StreamStmt} (h : PeakOrder s code)
    (fewer : (shownPeaks t.history ++ heldPeaks code').Sublist
      (shownPeaks s.history ++ heldPeaks code))
    (snapshots : t.snapshots = s.snapshots) : PeakOrder t code' := by
  unfold PeakOrder at h ⊢
  rw [snapshots]
  exact h.sublist (fewer.append (List.Sublist.refl _))

/-- The next snapshot, with or without a peak. -/
theorem PeakOrder.take (h : PeakOrder s (.dispatchTake :: rest))
    (inOrder : s.stream.hasPendingPeak = false ∨ heldPeaks rest = []) :
    PeakOrder (streamExec outcome .dispatchTake s).1
      ((streamExec outcome .dispatchTake s).2 ++ rest) := by
  unfold PeakOrder at h ⊢
  have later : ∀ entries : List Nat, (entries ++ [s.snapshots]).Pairwise (· ≤ ·) →
      (entries ++ [s.snapshots + 1]).Pairwise (· ≤ ·) := by
    intro entries he
    refine List.pairwise_append.mpr ⟨(List.pairwise_append.mp he).1, by simp, ?_⟩
    intro m hm k hk
    cases List.mem_singleton.mp hk
    exact Nat.le_succ_of_le ((List.pairwise_append.mp he).2.2 m hm _ (by simp))
  cases hp : s.stream.hasPendingPeak with
  | false => simpa [streamExec, StreamRun.takenPeak, hp] using later _ h
  | true =>
    have hh : heldPeaks rest = [] := inOrder.resolve_left (by simp [hp])
    simp only [heldPeaks_cons, StreamStmt.heldPeak, hh, List.append_nil] at h
    have twice : (shownPeaks s.history ++ [s.snapshots] ++ [s.snapshots]).Pairwise (· ≤ ·) := by
      refine List.pairwise_append.mpr ⟨h, by simp, ?_⟩
      intro m hm k hk
      cases List.mem_singleton.mp hk
      rcases List.mem_append.mp hm with hm | hm
      · exact (List.pairwise_append.mp h).2.2 m hm _ (by simp)
      · cases List.mem_singleton.mp hm
        exact Nat.le_refl _
    simpa [streamExec, StreamRun.takenPeak, hp, hh] using later _ twice

/-- A peak that is stored is held on until its level signal. -/
theorem PeakOrder.store {peak : TakenPeak} (h : PeakOrder s (.dispatchPeak (some peak) :: rest)) :
    PeakOrder (streamExec outcome (.dispatchPeak (some peak)) s).1
      ((streamExec outcome (.dispatchPeak (some peak)) s).2 ++ rest) := by
  simp only [streamExec]
  split
  next =>
    unfold PeakOrder at h ⊢
    simp only [heldPeaks_cons, StreamStmt.heldPeak, StreamRun.record_history,
      StreamRun.record_snapshots, shownPeaks_append, shownPeaks_cons, StreamEvent.peakShown,
      Option.toList_some, shownPeaks_nil, List.append_assoc,
      List.cons_append, List.nil_append, List.append_nil, List.pairwise_append,
      List.pairwise_cons] at h ⊢
    obtain ⟨older, ⟨first, later⟩, across⟩ := h
    refine ⟨older, ⟨?_, first, later⟩, ?_⟩
    · intro m hm
      rcases List.mem_cons.mp hm with rfl | hm
      · exact Nat.le_refl _
      · exact first m hm
    · intro m hm k hk
      rcases List.mem_cons.mp hk with rfl | hk
      · exact across m hm _ List.mem_cons_self
      · exact across m hm k hk
  next => exact h.of_sublist (by simp) rfl

theorem PeakOrder.run (h : PeakOrder s (i :: rest))
    (inOrder : DispatchesInOrder ⟨s, i :: rest⟩ (.run outcome)) :
    PeakOrder (streamExec outcome i s).1 ((streamExec outcome i s).2 ++ rest) := by
  by_cases he : i.ofEmission = true
  · obtain ⟨emissions, events, code, heq, silent, hcode⟩ := streamExec_ofEmission outcome s he
    rw [heq]
    refine h.of_sublist ?_ rfl
    have held : heldPeaks (code ++ rest) = heldPeaks rest := by
      rcases hcode with rfl | ⟨property, rfl⟩ <;> simp
    rw [StreamRun.record_history, shownPeaks_append, shownPeaks_ofEmission silent, held]
    simp
  cases i with
  | handlers | notify => exact absurd rfl he
  | dispatchTake => exact h.take (inOrder rfl rfl).2
  | dispatchPeak peak =>
    cases peak with
    | none => exact h.of_sublist (by simp [streamExec]) rfl
    | some peak => exact h.store
  | dispatchFormat format => cases format <;> exact h.of_sublist (by simp [streamExec]) rfl
  | dispatchBlocks blocks =>
    cases blocks with
    | nil => exact h.of_sublist (by simp [streamExec]) rfl
    | cons block blocks =>
      simp only [streamExec]
      split <;> exact h.of_sublist (by simp) rfl
  | start =>
    simp only [streamExec]
    split
    · exact h.of_sublist (by simp) rfl
    · cases outcome <;> exact h.of_sublist (by simp) rfl
  | dispatchGraphRate hasGraphRate graphRate revision =>
    simp only [streamExec]
    split <;> exact h.of_sublist (by simp) rfl
  | stopLoop wasRunning mark =>
    simp only [streamExec, clearEvents]
    split <;> split <;> exact h.of_sublist (by simp) rfl
  | setDeliverAudioBlocks deliver =>
    simp only [streamExec]
    split <;> exact h.of_sublist (by simp) rfl
  | _ => exact h.of_sublist (by simp [streamExec]) rfl

theorem peakOrder_preserves : streamComponent.Preserves DispatchesInOrder PeakOrder where
  call operation s code r h _ _ hr := by
    obtain ⟨sources, rfl⟩ := streamCall_eq hr
    cases operation <;> exact h.of_sublist (by simp [StreamCall.stmt]) rfl
  run _ _ _ _ h inOrder := h.run inOrder
  environment event s code t h _ ht := by
    obtain ⟨-, rfl⟩ := streamEnvironment_eq ht
    cases event with
    | queueAudioBlock block =>
      simp only [streamCallback]
      split <;> exact h.of_sublist (by simp) rfl
    | _ => exact h.of_sublist (by simp [streamCallback]) rfl

theorem streamOrder_holds (h : Reach streamComponent.step DispatchesInOrder streamInit c) :
    DeliveredInOrder c.state.history where
  blocks := by
    have inOrder : Reach (BatchQueue.step maxPendingBlocks) BatchQueue.InOrder {}
        (streamBatchQueue c) := by
      rw [← streamBatchQueue_init]
      refine h.simulate streamBatchQueue fun s label t _ ha hs => ?_
      rcases streamComponent_batchQueue hs with same | ⟨l, take, ht⟩
      · exact .inl same
      refine .inr ⟨l, fun hl => ?_, ht⟩
      obtain ⟨⟨choice, rfl⟩, hc⟩ := take hl
      refine (ha rfl hc).1.symm.imp (fun he => he) fun he => ?_
      simp [streamBatchQueue, he]
    have ordered := BatchQueue.reach_ordered inOrder
    unfold BatchQueue.Ordered at ordered
    rw [List.append_assoc] at ordered
    exact (List.pairwise_append.mp ordered).1
  peaks := by
    have order : PeakOrder c.state c.code := peakOrder_preserves.reach h (by
      simp [PeakOrder, streamInit])
    unfold PeakOrder at order
    rw [List.append_assoc] at order
    exact (List.pairwise_append.mp order).1

/-- Two blocks, a peak and a format are taken; while handlers of the format run, one more
block and one more peak arrive. -/
def halfPublished : List (Label StreamCall StartOutcome StreamCallback) :=
  .call .start :: List.replicate 4 (.run .started) ++
    [.environment (.queueFormat ⟨"F32", 48000, 2, 4⟩), .environment (.queuePeak (.number 7)),
      .environment (.queueAudioBlock (audioBlockOf [0])),
      .environment (.queueAudioBlock (audioBlockOf [1])),
      .call .iterate, .run .started, .run .started, .run .started,
      .environment (.queuePeak (.number 3)),
      .environment (.queueAudioBlock (audioBlockOf [2]))]

/-- The handlers return and what arrived waits for the next iteration. -/
def dispatchedLater : Config StreamRun StreamStmt :=
  final streamComponent.step streamInit
    (halfPublished ++ List.replicate 16 (.run .started) ++
      .call .iterate :: List.replicate 11 (.run .started))

/-- A handler iterates the main context. -/
def dispatchedNested : Config StreamRun StreamStmt :=
  final streamComponent.step streamInit
    (halfPublished ++ .call .iterate :: List.replicate 27 (.run .started))

theorem streamOrder_holds_dispatchedLater :
    deliveredEntries (blockLog dispatchedLater.state.history) = [0, 1, 2] ∧
      DeliveredInOrder dispatchedLater.state.history :=
  ⟨by decide +kernel, streamOrder_holds (c := dispatchedLater) (reach_final (by decide +kernel))⟩

theorem streamOrder_fails_nested :
    Reach streamComponent.step anyStep streamInit dispatchedNested ∧
      deliveredEntries (blockLog dispatchedNested.state.history) = [2, 0, 1] ∧
      shownPeaks dispatchedNested.state.history = [1, 1, 0, 0] ∧
      ¬ DeliveredInOrder dispatchedNested.state.history := by
  have blocks : deliveredEntries (blockLog dispatchedNested.state.history) = [2, 0, 1] := by
    decide +kernel
  refine ⟨reach_final (allAllowed_anyStep _ _), blocks, by decide +kernel, fun inOrder => ?_⟩
  have sorted := inOrder.blocks
  rw [blocks] at sorted
  simp at sorted

end PipewireGobject
