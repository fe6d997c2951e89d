import PipewireGobject.StreamBuffers

namespace PipewireGobject

/-- The largest number among the samples, 0 if there is none. -/
def largest : List Magnitude → Nat
  | [] => 0
  | .nan :: xs => largest xs
  | .number n :: xs => Nat.max n (largest xs)

/-- The number stands in the list with no NaN after it. -/
def Kept (xs : List Magnitude) (m : Nat) : Prop :=
  ∃ ys zs, xs = ys ++ .number m :: zs ∧ .nan ∉ zs

def foldPeak (xs : List Magnitude) : Magnitude := xs.foldl Magnitude.max (.number 0)

variable {xs : List Magnitude} {x : Magnitude} {k m : Nat}

theorem le_largest (h : .number k ∈ xs) : k ≤ largest xs := by
  induction xs with
  | nil => simp at h
  | cons x xs ih =>
    cases x with
    | nan => exact ih (by simpa using h)
    | number n =>
      simp only [List.mem_cons, Magnitude.number.injEq] at h
      rcases h with rfl | h
      · exact Nat.le_max_left _ _
      · exact Nat.le_trans (ih h) (Nat.le_max_right _ _)

theorem largest_le (h : ∀ k, .number k ∈ xs → k ≤ m) : largest xs ≤ m := by
  induction xs with
  | nil => exact Nat.zero_le m
  | cons x xs ih =>
    have later : largest xs ≤ m := ih fun k hk => h k (List.mem_cons_of_mem _ hk)
    cases x with
    | nan => exact later
    | number n => exact Nat.max_le.mpr ⟨h n List.mem_cons_self, later⟩

theorem Kept.mem (h : Kept xs m) : .number m ∈ xs := by
  obtain ⟨ys, zs, rfl, -⟩ := h
  simp

theorem kept_concat : Kept (xs ++ [x]) m ↔ x = .number m ∨ x ≠ .nan ∧ Kept xs m := by
  constructor
  · rintro ⟨ys, zs, he, hz⟩
    rcases List.eq_nil_or_concat zs with rfl | ⟨ws, w, rfl⟩
    · obtain ⟨-, hx⟩ := List.append_inj' he rfl
      exact .inl (List.cons.inj hx).1
    · have hsplit : xs ++ [x] = (ys ++ .number m :: ws) ++ [w] := by simpa using he
      obtain ⟨hxs, hx⟩ := List.append_inj' hsplit rfl
      have hw : x = w := (List.cons.inj hx).1
      refine .inr ⟨?_, ys, ws, hxs, ?_⟩
      · rintro rfl
        exact hz (by simp [← hw])
      · exact fun hm => hz (by simp [hm])
  · rintro (rfl | ⟨hx, ys, zs, rfl, hz⟩)
    · exact ⟨xs, [], rfl, by simp⟩
    · exact ⟨ys, zs ++ [x], by simp, by simpa [hz] using hx.symm⟩

theorem Kept.ends (h : Kept xs m) : xs.getLast? ≠ some .nan := by
  rcases List.eq_nil_or_concat xs with rfl | ⟨ys, y, rfl⟩
  · exact absurd h.mem List.not_mem_nil
  · rw [List.concat_eq_append] at h ⊢
    rw [List.getLast?_concat]
    rcases kept_concat.mp h with rfl | ⟨hy, -⟩
    · simp
    · simpa using hy

/-- A NaN wins over what came before it and loses to what comes after it. -/
theorem foldPeak_spec (xs : List Magnitude) :
    (foldPeak xs = .nan ↔ xs.getLast? = some .nan) ∧
      ∀ m, foldPeak xs = .number m →
        (∀ k, Kept xs k → k ≤ m) ∧ (xs = [] ∧ m = 0 ∨ Kept xs m) := by
  induction xs using List.reverseRecOn with
  | nil =>
    refine ⟨by simp [foldPeak], fun m hm => ⟨fun k hk => ?_, .inl ⟨rfl, ?_⟩⟩⟩
    · exact absurd hk.mem List.not_mem_nil
    · exact (Magnitude.number.inj hm).symm
  | append_singleton xs x ih =>
    obtain ⟨ends, keeps⟩ := ih
    have step : foldPeak (xs ++ [x]) = (foldPeak xs).max x := by simp [foldPeak]
    rw [step, List.getLast?_concat]
    cases x with
    | nan => cases foldPeak xs <;> simp [Magnitude.max]
    | number n =>
      have last : Kept (xs ++ [.number n]) n := kept_concat.mpr (.inl rfl)
      have kept : ∀ k, Kept (xs ++ [.number n]) k ↔ k = n ∨ Kept xs k := by
        intro k
        simp [kept_concat, eq_comm]
      cases hp : foldPeak xs with
      | nan =>
        refine ⟨by simp [Magnitude.max], fun m hm => ?_⟩
        obtain rfl : n = m := Magnitude.number.inj hm
        refine ⟨fun k hk => ?_, .inr last⟩
        rcases (kept k).mp hk with rfl | hk
        · exact Nat.le_refl k
        · exact absurd (ends.mp hp) hk.ends
      | number j =>
        obtain ⟨bound, attained⟩ := keeps j hp
        by_cases hlt : n < j
        · simp only [Magnitude.max, if_pos hlt]
          refine ⟨by simp, fun m hm => ?_⟩
          obtain rfl : j = m := Magnitude.number.inj hm
          refine ⟨fun k hk => ?_, .inr ((kept j).mpr (.inr ?_))⟩
          · rcases (kept k).mp hk with rfl | hk
            · omega
            · exact bound k hk
          · rcases attained with ⟨-, rfl⟩ | hk
            · omega
            · exact hk
        · simp only [Magnitude.max, if_neg hlt]
          refine ⟨by simp, fun m hm => ?_⟩
          obtain rfl : n = m := Magnitude.number.inj hm
          refine ⟨fun k hk => ?_, .inr last⟩
          rcases (kept k).mp hk with rfl | hk
          · exact Nat.le_refl k
          · have := bound k hk
            omega

theorem foldPeak_kept (h : foldPeak xs = .number m) (hne : xs ≠ []) : Kept xs m :=
  (((foldPeak_spec xs).2 m h).2).resolve_left fun he => hne he.1

/-- A largest number of all the lists stands in its list with no NaN after it, and no
later list ends in a NaN. -/
def LargestKept (batch : List (List Magnitude)) : Prop :=
  ∃ earlier samples later m, batch = earlier ++ samples :: later ∧ Kept samples m ∧
    (∀ xs ∈ later, xs.getLast? ≠ some .nan) ∧ ∀ k, .number k ∈ batch.flatten → k ≤ m

/-- Folding the peaks of the lists finds the largest number of all of them exactly when no
NaN comes in between. -/
theorem foldPeak_batch {batch : List (List Magnitude)} (hne : batch ≠ [])
    (samples : ∀ xs ∈ batch, xs ≠ []) :
    foldPeak (batch.map foldPeak) = .number (largest batch.flatten) ↔ LargestKept batch := by
  have inside : ∀ xs ∈ batch, ∀ k, Kept xs k → .number k ∈ batch.flatten :=
    fun xs hx k hk => List.mem_flatten.mpr ⟨xs, hx, hk.mem⟩
  constructor
  · intro h
    obtain ⟨ys, zs, he, hz⟩ := foldPeak_kept h (by simpa using hne)
    obtain ⟨earlier, tail, hb, hearlier, htail⟩ := List.map_eq_append_iff.mp he
    obtain ⟨peak, later, rfl, hpeak, hlater⟩ := List.map_eq_cons_iff.mp htail
    refine ⟨earlier, peak, later, largest batch.flatten, hb, ?_, ?_, fun k => le_largest⟩
    · exact foldPeak_kept hpeak (samples peak (by simp [hb]))
    · intro xs hx hn
      refine hz ?_
      rw [← hlater]
      exact List.mem_map.mpr ⟨xs, hx, (foldPeak_spec xs).1.mpr hn⟩
  · rintro ⟨earlier, xs, later, m, hb, hk, hlater, bound⟩
    have hxs : xs ∈ batch := by simp [hb]
    have greatest : largest batch.flatten = m :=
      Nat.le_antisymm (largest_le bound) (le_largest (inside xs hxs m hk))
    have own : foldPeak xs = .number m := by
      cases hp : foldPeak xs with
      | nan => exact absurd ((foldPeak_spec xs).1.mp hp) hk.ends
      | number p =>
        have above : m ≤ p := ((foldPeak_spec xs).2 p hp).1 m hk
        have below : p ≤ m := bound p (inside xs hxs p (foldPeak_kept hp (samples xs hxs)))
        rw [Nat.le_antisymm below above]
    have kept : Kept (batch.map foldPeak) m := by
      refine ⟨earlier.map foldPeak, later.map foldPeak, by simp [hb, own], fun hm => ?_⟩
      obtain ⟨ys, hy, hn⟩ := List.mem_map.mp hm
      exact hlater ys hy ((foldPeak_spec ys).1.mp hn)
    rw [greatest]
    cases hp : foldPeak (batch.map foldPeak) with
    | nan => exact absurd ((foldPeak_spec _).1.mp hp) kept.ends
    | number q =>
      have above : m ≤ q := ((foldPeak_spec _).2 q hp).1 m kept
      have attained : Kept (batch.map foldPeak) q := foldPeak_kept hp (by simpa using hne)
      obtain ⟨ys, hy, hq⟩ := List.mem_map.mp attained.mem
      have below : q ≤ m := bound q (inside ys hy q (foldPeak_kept hq (samples ys hy)))
      rw [Nat.le_antisymm below above]

theorem samples_nonempty {buffer : AudioBuffer} (h : buffer.accepted = true) :
    buffer.samples ≠ [] := by
  have pos := AudioBuffer.channels_pos h
  have room := (AudioBuffer.accepted_iff.mp h).2
  simp only [AudioBuffer.samples, ne_eq, List.map_eq_nil_iff, List.range_eq_nil]
  omega

/-- The samples of the buffers, each buffer on its own. -/
def samplesOf (buffers : List AudioBuffer) : List (List Magnitude) :=
  buffers.map AudioBuffer.samples

theorem levelOf_eq (buffers : List AudioBuffer) :
    levelOf buffers = foldPeak ((samplesOf buffers).map foldPeak) := by
  rw [samplesOf, List.map_map]
  rfl

variable {c : Config CaptureRun StreamStmt}

theorem streamLevel_largest (h : Reach captureComponent.step anyStep captureInit c)
    {peak : TakenPeak} (hl : .level peak ∈ c.state.run.history) :
    ∃ batch, c.state.batches[peak.snapshot]? = some batch ∧ batch ≠ [] ∧
      (peak.value = .number (largest (samplesOf batch).flatten) ↔
        LargestKept (samplesOf batch)) := by
  obtain ⟨batch, numbered, hne, accepted, value⟩ := (captureInv_reach h).emitted _ hl
  refine ⟨batch, numbered, hne, ?_⟩
  rw [value, levelOf_eq]
  refine foldPeak_batch (by simpa [samplesOf] using hne) ?_
  intro xs hx
  obtain ⟨buffer, hb, rfl⟩ := List.mem_map.mp hx
  exact samples_nonempty (accepted buffer hb)

/-- One channel of samples, given by the bits of the floats. -/
def monoBuffer (words : List UInt32) : AudioBuffer where
  memory i := (words.getD (i / 4) 0 >>> (8 * (i % 4)).toUInt32).toUInt8
  data := 0
  size := 4 * words.length.toUInt32
  rate := 48000
  channels := 1

/-- A stream handles the buffers and dispatches. -/
def levelSession (buffers : List AudioBuffer) :
    List (Label StreamCall StartOutcome CaptureEvent) :=
  .call .start :: List.replicate 4 (.run .started) ++
    buffers.map (fun buffer => .environment (.queuePeak buffer)) ++
    .call .iterate :: List.replicate 9 (.run .started)

/-- 0.5, NaN and 0.75, then 0.25. -/
def recoveredBuffers : List AudioBuffer :=
  [monoBuffer [0x3f000000, 0x7fc00000, 0x3f400000], monoBuffer [0x3e800000]]

theorem streamLevel_largest_recovered :
    ∃ batch, (final captureComponent.step captureInit
        (levelSession recoveredBuffers)).state.batches[0]? = some batch ∧ batch ≠ [] ∧
      (Magnitude.number 0x3f400000 = .number (largest (samplesOf batch).flatten) ↔
        LargestKept (samplesOf batch)) := by
  have emitted : .level ⟨.number 0x3f400000, 0, 0⟩ ∈ (final captureComponent.step captureInit
      (levelSession recoveredBuffers)).state.run.history := by decide +kernel
  exact streamLevel_largest (reach_final (allAllowed_anyStep _ _)) emitted

/-- 0.75, NaN and 0.1: the dispatch emits 0.1. -/
theorem streamLevel_forgets :
    ∃ c, Reach captureComponent.step anyStep captureInit c ∧
      ∃ peak, .level peak ∈ c.state.run.history ∧ c.state.batches.length = 1 ∧
        peak.value ≠
          .number (largest (samplesOf (c.state.batches.getD peak.snapshot [])).flatten) :=
  ⟨final captureComponent.step captureInit
      (levelSession [monoBuffer [0x3f400000, 0x7fc00000, 0x3dcccccd]]),
    reach_final (allAllowed_anyStep _ _), ⟨.number 0x3dcccccd, 0, 0⟩, by decide +kernel,
    by decide +kernel, by decide +kernel⟩

end PipewireGobject
