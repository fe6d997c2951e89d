import PipewireGobject.Traced
import PipewireGobject.Stream

namespace PipewireGobject

/-- `fabs` of the float that is stored in the bytes, lowest byte first. -/
def magnitudeF32 (bytes : List UInt8) : Magnitude :=
  let bits := littleEndian bytes % 0x80000000
  if 0x7f800000 < bits then .nan else .number bits

/-- The loop of `pwg_stream_handle_f32_audio` from sample `n` on; `left` samples remain. -/
def streamPeakLoop (memory : Nat → UInt8) (samples : Nat) :
    Nat → UInt32 → Magnitude → Traced Magnitude
  | 0, _, peak => pure peak
  | left + 1, n, peak => do
    let sample ← Traced.load memory (samples + 4 * n.toNat) 4
    let next ← Traced.succ n
    streamPeakLoop memory samples left next (peak.max (magnitudeF32 sample))

/-- `data` points into the mapped area `memory`; `deliver` is what the atomic read of
`deliver_audio_blocks` returns. The result lists the queue functions called. -/
def streamHandleF32Audio (deliver : Bool) (memory : Option (Nat → UInt8)) (data : Nat)
    (size : UInt64) (rate channels : UInt32) : Traced (List StreamCallback) :=
  match memory with
  | none => pure []
  | some memory =>
    if size < 4 ∨ channels = 0 then pure []
    else do
      let nSamples ← Traced.divNarrow size 4
      let nFrames ← Traced.div nSamples channels
      if nFrames = 0 then pure []
      else do
        let peak ← streamPeakLoop memory data nSamples.toNat 0 (.number 0)
        if deliver then do
          let bytes ← Traced.mul nSamples 4
          -- g_bytes_new copies the samples
          let copy ← Traced.load memory data bytes.toNat
          pure [.queuePeak peak, .queueAudioBlock {
            data := copy, sampleFormat := "F32", rate, channels, bytesPerSample := 4,
            nFrames, sequence := 0, peak }]
        else pure [.queuePeak peak]

inductive SpaAudioFormat
  | f32
  | other (format : UInt32)
  deriving DecidableEq

structure SpaAudioInfoRaw where
  format : SpaAudioFormat
  rate : UInt32
  channels : UInt32

structure SpaFraction where
  num : UInt32
  denom : UInt32

structure SpaChunk where
  offset : UInt32
  size : UInt32

/-- `data` is what the mapped area holds, from its first byte on. -/
structure SpaData where
  data : Option (Nat → UInt8)
  maxsize : UInt32
  chunk : Option SpaChunk

/-- `time` is the rate that `pw_stream_get_time_n` reports when it succeeds. -/
def streamProcessTime : Option SpaFraction → Traced (List StreamCallback)
  | none => pure []
  | some rate =>
    if rate.num = 0 then pure [.queueGraphRate 0]
    else do
      let remainder ← Traced.mod rate.denom rate.num
      if remainder = 0 then do
        let graphRate ← Traced.div rate.denom rate.num
        pure [.queueGraphRate graphRate]
      else pure [.queueGraphRate 0]

/-- The dequeued buffer, with the `spa_buffer` it points to. -/
def streamProcessBuffer (info : SpaAudioInfoRaw) (deliver : Bool) :
    Option (Option (List SpaData)) → Traced (List StreamCallback)
  | some (some (⟨some memory, maxsize, some chunk⟩ :: _)) =>
    if info.format ≠ .f32 then pure []
    else if info.channels = 0 then pure []
    else if maxsize < chunk.offset then pure []
    else do
      let room ← Traced.sub maxsize chunk.offset
      if room < chunk.size then pure []
      else
        streamHandleF32Audio deliver (some memory) chunk.offset.toNat chunk.size.toUInt64
          info.rate info.channels
  | _ => pure []

def streamOnProcess (info : SpaAudioInfoRaw) (deliver : Bool) (time : Option SpaFraction)
    (buffer : Option (Option (List SpaData))) : Traced (List StreamCallback) := do
  let rates ← streamProcessTime time
  let audio ← streamProcessBuffer info deliver buffer
  pure (rates ++ audio)

/-- The size of the mapped area that the callback reads, if there is one. -/
def mappedSize : Option (Option (List SpaData)) → Nat
  | some (some (d :: _)) => d.maxsize.toNat
  | _ => 0

variable {size : Nat} {memory : Nat → UInt8} {samples : Nat}

theorem toNat_succ {n : UInt32} (h : n.toNat + 1 < 4294967296) : (n + 1).toNat = n.toNat + 1 := by
  rw [UInt32.toNat_add]
  exact Nat.mod_eq_of_lt h

theorem streamPeakLoop_sound {left : Nat} {n : UInt32} {peak : Magnitude}
    (bound : n.toNat + left < 4294967296) (room : samples + 4 * (n.toNat + left) ≤ size) :
    (streamPeakLoop memory samples left n peak).Sound size := by
  induction left generalizing n peak with
  | zero => simp [streamPeakLoop]
  | succ left ih =>
    have next : (n + 1).toNat = n.toNat + 1 := toNat_succ (by omega)
    simp only [streamPeakLoop, Traced.sound_bind, Traced.sound_load, Traced.sound_succ]
    refine ⟨by omega, by omega, ih ?_ ?_⟩
    · rw [Traced.succ_value, next]
      omega
    · rw [Traced.succ_value, next]
      omega

/-- The number of whole samples in a chunk fits, and so does their size in bytes. -/
theorem nSamples_toNat {chunk : UInt64} (h : chunk.toNat < 4294967296) :
    (chunk / 4).toNat = chunk.toNat / 4 ∧
      (chunk / 4).toUInt32.toNat = chunk.toNat / 4 := by
  have quotient : (chunk / 4).toNat = chunk.toNat / 4 := UInt64.toNat_div chunk 4
  refine ⟨quotient, ?_⟩
  rw [UInt64.toNat_toUInt32, quotient]
  exact Nat.mod_eq_of_lt (by omega)

theorem streamHandleF32Audio_sound {deliver : Bool} {block : Option (Nat → UInt8)} {data : Nat}
    {chunk : UInt64} {rate channels : UInt32} (small : chunk.toNat < 4294967296)
    (room : data + chunk.toNat ≤ size) :
    (streamHandleF32Audio deliver block data chunk rate channels).Sound size := by
  obtain ⟨exact, narrow⟩ := nSamples_toNat small
  have product : (chunk / 4).toUInt32.toNat * (4 : UInt32).toNat < 4294967296 := by
    rw [narrow]
    show chunk.toNat / 4 * 4 < 4294967296
    omega
  have bytes : ((chunk / 4).toUInt32 * 4).toNat = chunk.toNat / 4 * 4 := by
    rw [UInt32.toNat_mul, Nat.mod_eq_of_lt product, narrow]
    rfl
  cases block with
  | none => exact Traced.sound_pure _
  | some memory =>
    have loop : (streamPeakLoop memory data (chunk / 4).toUInt32.toNat 0 (.number 0)).Sound
        size := by
      have start : (0 : UInt32).toNat = 0 := rfl
      refine streamPeakLoop_sound ?_ ?_
      · omega
      · omega
    simp only [streamHandleF32Audio, Traced.sound_ite, Traced.sound_bind, Traced.sound_pure,
      Traced.sound_divNarrow, Traced.sound_div, Traced.divNarrow_value, Traced.sound_mul,
      Traced.sound_load, Traced.mul_value, bytes]
    refine ⟨fun _ => trivial, fun hc => ?_⟩
    have channels_pos : channels ≠ 0 := fun h => hc (.inr h)
    refine ⟨⟨by decide, by omega⟩, channels_pos, fun _ => trivial, fun _ => ⟨loop, ?_⟩⟩
    exact ⟨fun _ => ⟨product, .inr (by omega), trivial⟩, fun _ => trivial⟩

theorem streamProcessTime_sound (time : Option SpaFraction) :
    (streamProcessTime time).Sound size := by
  cases time with
  | none => exact Traced.sound_pure _
  | some rate =>
    simp only [streamProcessTime, Traced.sound_ite, Traced.sound_bind, Traced.sound_pure,
      Traced.sound_mod, Traced.sound_div]
    exact ⟨fun _ => trivial, fun hn => ⟨hn, fun _ => ⟨hn, trivial⟩, fun _ => trivial⟩⟩

theorem streamProcessBuffer_sound (info : SpaAudioInfoRaw) (deliver : Bool)
    (buffer : Option (Option (List SpaData))) :
    (streamProcessBuffer info deliver buffer).Sound (mappedSize buffer) := by
  unfold streamProcessBuffer
  split
  next memory maxsize chunk rest =>
    simp only [Traced.sound_ite, Traced.sound_bind, Traced.sound_pure, Traced.sound_sub,
      Traced.sub_value]
    refine ⟨fun _ => trivial, fun _ => ⟨fun _ => trivial, fun _ => ⟨fun _ => trivial, ?_⟩⟩⟩
    intro ho
    have inside : chunk.offset ≤ maxsize := UInt32.not_lt.mp ho
    refine ⟨inside, (Traced.sound_ite _ _).mpr ⟨fun _ => Traced.sound_pure _, fun hs => ?_⟩⟩
    have fits : chunk.size ≤ maxsize - chunk.offset := UInt32.not_lt.mp hs
    rw [UInt32.le_iff_toNat_le, UInt32.toNat_sub_of_le _ _ inside] at fits
    rw [UInt32.le_iff_toNat_le] at inside
    have bound := chunk.size.toNat_lt
    refine streamHandleF32Audio_sound ?_ ?_
    · rw [UInt32.toNat_toUInt64]
      omega
    · rw [UInt32.toNat_toUInt64]
      show _ ≤ maxsize.toNat
      omega
  next => exact Traced.sound_pure _

theorem streamOnProcess_sound (info : SpaAudioInfoRaw) (deliver : Bool)
    (time : Option SpaFraction) (buffer : Option (Option (List SpaData))) :
    (streamOnProcess info deliver time buffer).Sound (mappedSize buffer) := by
  simp only [streamOnProcess, Traced.sound_bind]
  exact ⟨streamProcessTime_sound time, streamProcessBuffer_sound info deliver buffer,
    Traced.sound_pure _⟩

end PipewireGobject
