import PipewireGobject.SpaPod

namespace PipewireGobject

/-- A pod under construction, with the size counted so far. -/
structure PodFrame where
  offset : Nat
  size : Nat
  type : SpaType
  first : Bool
  deriving DecidableEq

/-- The builder writes into `data`, which has room for `size` bytes; `frames` lists the
open pods, innermost first. `first` asks for an element, as in an empty array. -/
structure PodBuilder where
  data : List UInt8
  size : Nat
  offset : Nat
  frames : List PodFrame
  first : Bool
  deriving DecidableEq

/-- Put bytes in the place of others. -/
def overwrite (data : List UInt8) (offset : Nat) (bytes : List UInt8) : List UInt8 :=
  data.take offset ++ bytes ++ data.drop (offset + bytes.length)

def growFrames (n : Nat) (frames : List PodFrame) : List PodFrame :=
  frames.map fun frame => { frame with size := frame.size + n }

namespace PodBuilder

def init (size : Nat) : PodBuilder := ⟨List.replicate size 0, size, 0, [], false⟩

/-- Write the bytes as they are; `none` stands for a negative result. -/
def raw (bytes : List UInt8) (b : PodBuilder) : Option PodBuilder :=
  if b.size < b.offset + bytes.length then none
  else some { b with
    data := overwrite b.data b.offset bytes
    offset := b.offset + bytes.length
    frames := growFrames bytes.length b.frames }

/-- Zero bytes up to a multiple of 8, counted from `n`. -/
def pad (n : Nat) (b : PodBuilder) : Option PodBuilder :=
  if padding n = 0 then some b else b.raw (List.replicate (padding n) 0)

def pushObject (type id : Nat) (b : PodBuilder) : Option PodBuilder := do
  let c ← b.raw (wordBytes 8 ++ wordBytes SpaType.object.code ++ wordBytes type ++ wordBytes id)
  pure { c with frames := ⟨b.offset, 8, .object, b.first⟩ :: c.frames }

def pushStruct (b : PodBuilder) : Option PodBuilder := do
  let c ← b.raw (wordBytes 0 ++ wordBytes SpaType.struct.code)
  pure { c with frames := ⟨b.offset, 0, .struct, b.first⟩ :: c.frames }

def prop (key flags : Nat) (b : PodBuilder) : Option PodBuilder :=
  b.raw (wordBytes key ++ wordBytes flags)

/-- The text is followed by a zero byte, which its size counts. -/
def string (text : List UInt8) (b : PodBuilder) : Option PodBuilder := do
  let b ← b.raw (wordBytes (text.length + 1) ++ wordBytes SpaType.string.code)
  let b ← b.raw text
  let b ← b.raw [0]
  b.pad b.offset

def float (bits : Nat) (b : PodBuilder) : Option PodBuilder := do
  let b ← b.raw (wordBytes 4 ++ wordBytes SpaType.float.code ++ wordBytes bits)
  b.pad 12

/-- A builder that has written `w`, and nothing behind it. -/
def wrote (size : Nat) (w : List UInt8) (frames : List PodFrame) : PodBuilder :=
  ⟨w ++ List.replicate (size - w.length) 0, size, w.length, frames, false⟩

/-- Writing more: all of it, or an error. -/
def appended (size : Nat) (w : List UInt8) (frames : List PodFrame) (bytes : List UInt8) :
    Option PodBuilder :=
  if size < w.length + bytes.length then none
  else some (wrote size (w ++ bytes) (growFrames bytes.length frames))

variable {size : Nat} {w bytes more : List UInt8} {frames : List PodFrame}

theorem init_eq (size : Nat) : init size = wrote size [] [] := rfl

@[simp] theorem growFrames_cons (n : Nat) (frame : PodFrame) (frames : List PodFrame) :
    growFrames n (frame :: frames) = { frame with size := frame.size + n } ::
      growFrames n frames := rfl

@[simp] theorem growFrames_nil (n : Nat) : growFrames n [] = [] := rfl

theorem growFrames_zero (frames : List PodFrame) : growFrames 0 frames = frames := by
  simp [growFrames]

theorem growFrames_add (m n : Nat) (frames : List PodFrame) :
    growFrames n (growFrames m frames) = growFrames (m + n) frames := by
  simp [growFrames, Nat.add_assoc]

theorem overwrite_middle {a b c d : List UInt8} (h : b.length = c.length) :
    overwrite (a ++ (b ++ d)) a.length c = a ++ (c ++ d) := by
  rw [overwrite, List.take_left, List.append_assoc, ← h, ← List.drop_drop, List.drop_left,
    List.drop_left]

theorem raw_wrote (h : w.length ≤ size) :
    (wrote size w frames).raw bytes = appended size w frames bytes := by
  by_cases hs : size < w.length + bytes.length
  · rw [raw, appended, if_pos hs]
    exact if_pos hs
  · have room : List.replicate (size - w.length) (0 : UInt8) =
        List.replicate bytes.length 0 ++
          List.replicate (size - (w ++ bytes).length) 0 := by
      rw [List.replicate_append_replicate]
      congr 1
      simp only [List.length_append]
      omega
    have data : overwrite (w ++ List.replicate (size - w.length) 0) w.length bytes =
        w ++ bytes ++ List.replicate (size - (w ++ bytes).length) 0 := by
      rw [room, overwrite_middle (by simp), List.append_assoc]
    rw [raw, appended, if_neg hs]
    refine (if_neg hs).trans ?_
    simp only [wrote, data, List.length_append]

theorem appended_nil (h : w.length ≤ size) :
    appended size w frames [] = some (wrote size w frames) := by
  rw [appended, if_neg (by simpa using h), List.append_nil]
  simp [growFrames_zero]

/-- Two writes in a row are one. -/
theorem appended_bind {f : PodBuilder → Option PodBuilder}
    (next : (w ++ bytes).length ≤ size →
      f (wrote size (w ++ bytes) (growFrames bytes.length frames)) =
        appended size (w ++ bytes) (growFrames bytes.length frames) more) :
    (appended size w frames bytes).bind f = appended size w frames (bytes ++ more) := by
  rw [List.length_append] at next
  by_cases hs : size < w.length + bytes.length
  · have hm : size < w.length + (bytes ++ more).length := by
      simp only [List.length_append]
      omega
    rw [appended, if_pos hs, appended, if_pos hm]
    rfl
  · rw [appended, if_neg hs, Option.bind_some, next (by omega)]
    simp only [appended, growFrames_add, List.length_append, List.append_assoc, Nat.add_assoc]

theorem pad_wrote {n : Nat} (h : w.length ≤ size) :
    (wrote size w frames).pad n =
      appended size w frames (List.replicate (padding n) 0) := by
  rw [pad]
  split
  next hp => rw [hp, List.replicate_zero, appended_nil h]
  next => exact raw_wrote h

theorem appended_fits (h : w.length + bytes.length ≤ size) :
    appended size w frames bytes =
      some (wrote size (w ++ bytes) (growFrames bytes.length frames)) := by
  rw [appended, if_neg (by omega)]

theorem pushObject_wrote {type id : Nat} (h : w.length + 16 ≤ size) :
    (wrote size w frames).pushObject type id = some (wrote size
      (w ++ (wordBytes 8 ++ wordBytes SpaType.object.code ++ wordBytes type ++ wordBytes id))
      (⟨w.length, 8, .object, false⟩ :: growFrames 16 frames)) := by
  rw [pushObject, raw_wrote (by omega), appended_fits (by simpa using h)]
  rfl

theorem pushStruct_wrote (h : w.length + 8 ≤ size) :
    (wrote size w frames).pushStruct = some (wrote size
      (w ++ (wordBytes 0 ++ wordBytes SpaType.struct.code))
      (⟨w.length, 0, .struct, false⟩ :: growFrames 8 frames)) := by
  rw [pushStruct, raw_wrote (by omega), appended_fits (by simpa using h)]
  rfl

theorem prop_wrote {key flags : Nat} (h : w.length ≤ size) :
    (wrote size w frames).prop key flags =
      appended size w frames (wordBytes key ++ wordBytes flags) := raw_wrote h

/-- At a multiple of 8 a string is written as the pod that holds it. -/
theorem string_wrote {text : List UInt8} (h : w.length ≤ size) (aligned : w.length % 8 = 0) :
    (wrote size w frames).string text =
      appended size w frames (Pod.encode ⟨SpaType.string.code, text ++ [0]⟩) := by
  have layout : Pod.encode ⟨SpaType.string.code, text ++ [0]⟩ =
      wordBytes (text.length + 1) ++ wordBytes SpaType.string.code ++
        (text ++ ([0] ++ List.replicate (padding (text ++ [0]).length) 0)) := by
    simp [Pod.encode]
  rw [layout]
  simp only [string, Option.bind_eq_bind, raw_wrote h]
  refine appended_bind fun header => ?_
  rw [raw_wrote header]
  refine appended_bind fun body => ?_
  rw [raw_wrote body]
  refine appended_bind fun last => ?_
  rw [pad_wrote last]
  congr 2
  simp only [padding, wrote, List.length_append, wordBytes_length]
  omega

theorem float_wrote {bits : Nat} (h : w.length ≤ size) :
    (wrote size w frames).float bits =
      appended size w frames (Pod.encode ⟨SpaType.float.code, wordBytes bits⟩) := by
  have layout : Pod.encode ⟨SpaType.float.code, wordBytes bits⟩ =
      wordBytes 4 ++ wordBytes SpaType.float.code ++ wordBytes bits ++
        List.replicate (padding 12) 0 := rfl
  rw [layout]
  simp only [float, Option.bind_eq_bind, raw_wrote h]
  exact appended_bind fun body => pad_wrote body

end PodBuilder

end PipewireGobject
