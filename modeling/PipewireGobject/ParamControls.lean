import PipewireGobject.PodBuilder

namespace PipewireGobject

/-- `PWG_PARAM_CONTROL_PROPS_BUFFER_SIZE` -/
def controlPropsBufferSize : Nat := 65536

/-- `SPA_TYPE_OBJECT_Props` -/
def typeObjectProps : Nat := 0x40002

/-- `SPA_PARAM_Props` -/
def paramProps : Nat := 2

/-- `SPA_PROP_params` -/
def propParams : Nat := 0x80001

/-- The sign of a double and the bits that give its magnitude. -/
def doubleSign (value : UInt64) : Nat := value.toNat / 0x8000000000000000

def doubleMagnitude (value : UInt64) : Nat := value.toNat % 0x8000000000000000

def isFinite (value : UInt64) : Bool := doubleMagnitude value / 0x10000000000000 ≠ 2047

/-- `G_MAXFLOAT` as a double -/
def maxFloat : Nat := 0x47efffffe0000000

/-- `value < -G_MAXFLOAT` -/
def belowFloat (value : UInt64) : Bool :=
  doubleSign value = 1 ∧ maxFloat < doubleMagnitude value

/-- `value > G_MAXFLOAT` -/
def aboveFloat (value : UInt64) : Bool :=
  doubleSign value = 0 ∧ maxFloat < doubleMagnitude value

/-- Drop the lowest bits; the nearest result, the even one of two. -/
def roundHalfEven (n bits : Nat) : Nat :=
  let unit := 1 <<< bits
  let quotient := n / unit
  let remainder := n % unit
  if unit < 2 * remainder ∨ 2 * remainder = unit ∧ quotient % 2 = 1 then quotient + 1
  else quotient

/-- The bits of `(float) value`, for a value in the range of floats. -/
def doubleToFloat (value : UInt64) : Nat :=
  let magnitude := doubleMagnitude value
  let exponent := magnitude / 0x10000000000000
  let fraction := magnitude % 0x10000000000000
  0x80000000 * doubleSign value +
    -- 897 is the exponent field of the smallest normal float
    if 897 ≤ exponent then roundHalfEven (magnitude - 896 * 0x10000000000000) 29
    else if exponent = 0 then 0
    else roundHalfEven (fraction + 0x10000000000000) (29 + (897 - exponent))

/-- An entry of a `GVariant` of type `a{sd}`; its strings end at the first zero byte. -/
structure Control where
  name : List UInt8
  value : UInt64
  terminated : 0 ∉ name

def paramBuilderPadOffset (b : PodBuilder) : Option PodBuilder :=
  let remainder := b.offset % 8
  let pad := if remainder = 0 then 0 else 8 - remainder
  if pad = 0 then some b else b.raw (List.replicate pad 0)

/-- Where the header of the innermost pod is, and the builder without its frame. -/
def paramBuilderPopFrame (b : PodBuilder) : Option (Nat × PodBuilder) := do
  let b ← if b.first then b.raw (wordBytes 0 ++ wordBytes SpaType.none.code) else some b
  match b.frames with
  | [] => none
  | frame :: parents =>
    let fits := frame.offset + (8 + frame.size) ≤ b.size
    let header := wordBytes frame.size ++ wordBytes frame.type.code
    let c ← paramBuilderPadOffset { b with
      data := if fits then overwrite b.data frame.offset header else b.data
      frames := parents
      first := frame.first }
    if fits then some (frame.offset, c) else none

def paramAddControl (control : Control) (b : PodBuilder) : Option PodBuilder :=
  if control.name = [] then none
  else if ¬isFinite control.value ∨ belowFloat control.value ∨ aboveFloat control.value then none
  else do
    let b ← b.string control.name
    b.float (doubleToFloat control.value)

def paramAddControls : List Control → PodBuilder → Option PodBuilder
  | [], b => some b
  | control :: controls, b => do
    let b ← paramAddControl control b
    paramAddControls controls b

/-- The bytes of the parameter, if it can be built. -/
def paramNewPropsControls (controls : List Control) : Option (List UInt8) := do
  let b ← (PodBuilder.init controlPropsBufferSize).pushObject typeObjectProps paramProps
  let b ← b.prop propParams 0
  let b ← b.pushStruct
  let b ← paramAddControls controls b
  let params ← paramBuilderPopFrame b
  let object ← paramBuilderPopFrame params.2
  let pod := object.2.data.drop object.1
  pure (pod.take (8 + littleEndian (pod.take 4)))

/-- The name is empty, or the value is not finite or outside the range of floats. -/
def Control.invalid (c : Control) : Prop :=
  c.name = [] ∨ ¬isFinite c.value ∨ belowFloat c.value ∨ aboveFloat c.value

/-- The two values that stand for a control. -/
def Control.pods (c : Control) : List Pod :=
  [⟨SpaType.string.code, c.name ++ [0]⟩, ⟨SpaType.float.code, wordBytes (doubleToFloat c.value)⟩]

def controlsChildren (controls : List Control) : List UInt8 :=
  (controls.flatMap Control.pods).flatMap Pod.encode

def controlsObject (controls : List Control) : PodObject where
  type := typeObjectProps
  id := paramProps
  props := [⟨propParams, 0, ⟨SpaType.struct.code, controlsChildren controls⟩⟩]

def controlsPod (controls : List Control) : Pod :=
  ⟨SpaType.object.code, (controlsObject controls).body⟩

section Building

variable {size : Nat} {w : List UInt8} {frames : List PodFrame} {controls : List Control}
  {c : Control}

theorem paramAddControl_invalid {b : PodBuilder} (h : c.invalid) :
    paramAddControl c b = none := by
  rw [paramAddControl]
  split
  next => rfl
  next hn => exact if_pos (h.resolve_left hn)

theorem paramAddControl_valid (h : ¬c.invalid) (room : w.length ≤ size)
    (aligned : w.length % 8 = 0) :
    paramAddControl c (.wrote size w frames) =
      PodBuilder.appended size w frames (c.pods.flatMap Pod.encode) := by
  have layout : c.pods.flatMap Pod.encode = Pod.encode ⟨SpaType.string.code, c.name ++ [0]⟩ ++
      Pod.encode ⟨SpaType.float.code, wordBytes (doubleToFloat c.value)⟩ := by
    simp [Control.pods]
  rw [layout, paramAddControl, if_neg fun hn => h (.inl hn), if_neg fun hv => h (.inr hv),
    Option.bind_eq_bind, PodBuilder.string_wrote room aligned]
  exact PodBuilder.appended_bind fun name => PodBuilder.float_wrote name

/-- The loop writes all the controls, or fails on an invalid one or for want of room. -/
theorem paramAddControls_wrote (room : w.length ≤ size) (aligned : w.length % 8 = 0) :
    ((∃ c ∈ controls, c.invalid) → paramAddControls controls (.wrote size w frames) = none) ∧
      ((∀ c ∈ controls, ¬c.invalid) → paramAddControls controls (.wrote size w frames) =
        PodBuilder.appended size w frames (controlsChildren controls)) := by
  induction controls generalizing w frames with
  | nil =>
    refine ⟨by simp, fun _ => ?_⟩
    exact (PodBuilder.appended_nil room).symm
  | cons c controls ih =>
    have layout : controlsChildren (c :: controls) =
        c.pods.flatMap Pod.encode ++ controlsChildren controls := by
      simp [controlsChildren]
    rw [layout, paramAddControls]
    by_cases hc : c.invalid
    · rw [paramAddControl_invalid hc]
      exact ⟨fun _ => rfl, fun h => absurd hc (h c List.mem_cons_self)⟩
    · rw [paramAddControl_valid hc room aligned, Option.bind_eq_bind]
      have aligned_next : (w ++ c.pods.flatMap Pod.encode).length % 8 = 0 := by
        have := flatMap_encode_aligned c.pods
        simp only [List.length_append]
        omega
      constructor
      · rintro ⟨d, hd, invalid⟩
        rcases List.mem_cons.mp hd with rfl | hd
        · exact absurd invalid hc
        · by_cases hs : size < w.length + (c.pods.flatMap Pod.encode).length
          · rw [PodBuilder.appended, if_pos hs]
            rfl
          · rw [PodBuilder.appended, if_neg hs, Option.bind_some]
            have fits : (w ++ c.pods.flatMap Pod.encode).length ≤ size := by
              rw [List.length_append]
              omega
            exact (ih fits aligned_next).1 ⟨d, hd, invalid⟩
      · intro valid
        refine PodBuilder.appended_bind fun fits => ?_
        exact (ih fits aligned_next).2 fun d hd => valid d (List.mem_cons_of_mem _ hd)

/-- The header of the innermost pod is patched with the size of what follows it. -/
theorem paramBuilderPopFrame_wrote {before header body : List UInt8} {type : SpaType}
    (length : header.length = 8) (room : (before ++ (header ++ body)).length ≤ size)
    (aligned : (before ++ (header ++ body)).length % 8 = 0) :
    paramBuilderPopFrame (.wrote size (before ++ (header ++ body))
        (⟨before.length, body.length, type, false⟩ :: frames)) =
      some (before.length, .wrote size
        (before ++ (wordBytes body.length ++ wordBytes type.code ++ body)) frames) := by
  have fits : before.length + (8 + body.length) ≤ size := by
    simp only [List.length_append] at room
    omega
  have data : overwrite (before ++ (header ++ body) ++
        List.replicate (size - (before ++ (header ++ body)).length) 0) before.length
        (wordBytes body.length ++ wordBytes type.code) =
      before ++ (wordBytes body.length ++ wordBytes type.code ++ body) ++
        List.replicate (size - (before ++ (header ++ body)).length) 0 := by
    rw [List.append_assoc, List.append_assoc, PodBuilder.overwrite_middle (by simp [length])]
    simp
  have same : (before ++ (wordBytes body.length ++ wordBytes type.code ++ body)).length =
      (before ++ (header ++ body)).length := by
    simp only [List.length_append, wordBytes_length, length]
  simp only [paramBuilderPopFrame, PodBuilder.wrote, Bool.false_eq_true, if_false, fits, if_true,
    Option.bind_eq_bind, Option.bind_some, paramBuilderPadOffset, aligned, data, same]

/-- What is written before the controls: the object, its property and the struct, with the
sizes known so far. -/
def propsHeader : List UInt8 :=
  wordBytes 8 ++ wordBytes SpaType.object.code ++
    (wordBytes typeObjectProps ++ wordBytes paramProps ++
      (wordBytes propParams ++ wordBytes 0 ++ (wordBytes 0 ++ wordBytes SpaType.struct.code)))

theorem paramNewPropsControls_opens (room : 32 ≤ size) :
    ((PodBuilder.init size).pushObject typeObjectProps paramProps).bind (fun b =>
        (b.prop propParams 0).bind PodBuilder.pushStruct) =
      some (.wrote size propsHeader
        [⟨24, 0, .struct, false⟩, ⟨0, 24, .object, false⟩]) := by
  rw [PodBuilder.init_eq, PodBuilder.pushObject_wrote (by simp; omega), Option.bind_some,
    PodBuilder.prop_wrote (by simp; omega), PodBuilder.appended_fits (by simp; omega),
    Option.bind_some, PodBuilder.pushStruct_wrote (by simp; omega)]
  rfl

theorem controlsPod_encode (controls : List Control) :
    (controlsPod controls).encode =
      wordBytes (24 + (controlsChildren controls).length) ++ wordBytes SpaType.object.code ++
        (wordBytes typeObjectProps ++ wordBytes paramProps ++
          (wordBytes propParams ++ wordBytes 0 ++
            (wordBytes (controlsChildren controls).length ++ wordBytes SpaType.struct.code ++
              controlsChildren controls))) := by
  have aligned : padding (controlsChildren controls).length = 0 := by
    have := flatMap_encode_aligned (controls.flatMap Control.pods)
    simp only [padding, controlsChildren]
    omega
  have body : (controlsPod controls).body =
      wordBytes typeObjectProps ++ wordBytes paramProps ++
        (wordBytes propParams ++ wordBytes 0 ++
          (wordBytes (controlsChildren controls).length ++ wordBytes SpaType.struct.code ++
            controlsChildren controls)) := by
    simp [controlsPod, controlsObject, PodObject.body, PodProp.encode, Pod.encode, aligned]
  have length : (controlsPod controls).body.length =
      24 + (controlsChildren controls).length := by
    simp only [body, List.length_append, wordBytes_length]
    omega
  have padded : padding (24 + (controlsChildren controls).length) = 0 := by
    simp only [padding] at aligned ⊢
    omega
  rw [Pod.encode, length, padded, List.replicate_zero, List.append_nil, body]
  rfl

theorem controlsPod_length (controls : List Control) :
    (controlsPod controls).encode.length = 32 + (controlsChildren controls).length := by
  simp only [controlsPod_encode, List.length_append, wordBytes_length]
  omega

/-- The two frames are closed and the finished pod is copied. -/
def paramCloseProps (b : PodBuilder) : Option (List UInt8) := do
  let params ← paramBuilderPopFrame b
  let object ← paramBuilderPopFrame params.2
  let pod := object.2.data.drop object.1
  pure (pod.take (8 + littleEndian (pod.take 4)))

/-- The sizes of the struct and of the object around it are patched in. -/
theorem paramCloseProps_wrote {header middle start children : List UInt8}
    (lengths : header.length = 8 ∧ middle.length = 16 ∧ start.length = 8)
    (aligned : children.length % 8 = 0) (room : 32 + children.length ≤ size)
    (small : size < 4294967296) :
    paramCloseProps (.wrote size (header ++ (middle ++ (start ++ children)))
        [⟨24, children.length, .struct, false⟩, ⟨0, 24 + children.length, .object, false⟩]) =
      some (wordBytes (24 + children.length) ++ wordBytes SpaType.object.code ++
        (middle ++ (wordBytes children.length ++ wordBytes SpaType.struct.code ++ children))) := by
  obtain ⟨hheader, hmiddle, hstart⟩ := lengths
  have params : paramBuilderPopFrame (.wrote size ((header ++ middle) ++ (start ++ children))
        [⟨(header ++ middle).length, children.length, .struct, false⟩,
          ⟨0, 24 + children.length, .object, false⟩]) =
      some ((header ++ middle).length, .wrote size ((header ++ middle) ++
        (wordBytes children.length ++ wordBytes SpaType.struct.code ++ children))
        [⟨0, 24 + children.length, .object, false⟩]) := by
    refine paramBuilderPopFrame_wrote hstart ?_ ?_
    · simp only [List.length_append]
      omega
    · simp only [List.length_append]
      omega
  generalize hbody : middle ++
    (wordBytes children.length ++ wordBytes SpaType.struct.code ++ children) = body
  have total : body.length = 24 + children.length := by
    rw [← hbody]
    simp only [List.length_append, wordBytes_length]
    omega
  have object : paramBuilderPopFrame (.wrote size ([] ++ (header ++ body))
        [⟨([] : List UInt8).length, body.length, .object, false⟩]) =
      some (([] : List UInt8).length, .wrote size ([] ++
        (wordBytes body.length ++ wordBytes SpaType.object.code ++ body)) []) := by
    refine paramBuilderPopFrame_wrote hheader ?_ ?_
    · simp only [List.nil_append, List.length_append]
      omega
    · simp only [List.nil_append, List.length_append]
      omega
  have start_of : (header ++ middle).length = 24 := by
    rw [List.length_append]
    omega
  rw [start_of, List.append_assoc, List.append_assoc, hbody] at params
  rw [total, List.nil_append, List.nil_append, List.length_nil] at object
  simp only [paramCloseProps, params, Option.bind_eq_bind, Option.bind_some, object,
    List.drop_zero]
  generalize hzeros : List.replicate (size - (wordBytes (24 + children.length) ++
    wordBytes SpaType.object.code ++ body).length) (0 : UInt8) = zeros
  have word : littleEndian ((wordBytes (24 + children.length) ++ wordBytes SpaType.object.code ++
      body ++ zeros).take 4) = 24 + children.length := by
    rw [List.append_assoc]
    exact (words_take (by omega) (by decide) _).1
  have length : (wordBytes (24 + children.length) ++ wordBytes SpaType.object.code ++
      body).length = 8 + (24 + children.length) := by
    simp only [List.length_append, wordBytes_length, total]
  show some (List.take _ (PodBuilder.data _)) = _
  simp only [PodBuilder.wrote, hzeros, word]
  rw [List.take_left' length]

theorem paramCloseProps_controls (small : size < 4294967296)
    (room : (controlsPod controls).encode.length ≤ size) :
    paramCloseProps (.wrote size (propsHeader ++ controlsChildren controls)
        [⟨24, (controlsChildren controls).length, .struct, false⟩,
          ⟨0, 24 + (controlsChildren controls).length, .object, false⟩]) =
      some (controlsPod controls).encode := by
  rw [controlsPod_length] at room
  have layout : propsHeader ++ controlsChildren controls =
      wordBytes 8 ++ wordBytes SpaType.object.code ++
        (wordBytes typeObjectProps ++ wordBytes paramProps ++
            (wordBytes propParams ++ wordBytes 0) ++
          (wordBytes 0 ++ wordBytes SpaType.struct.code ++ controlsChildren controls)) := by
    simp [propsHeader]
  have aligned : (controlsChildren controls).length % 8 = 0 := flatMap_encode_aligned _
  rw [layout, paramCloseProps_wrote ⟨rfl, rfl, rfl⟩ aligned room small, controlsPod_encode]
  simp

theorem paramNewPropsControls_valid (h : ∀ c ∈ controls, ¬c.invalid) (room : 32 ≤ size) :
    (paramAddControls controls (.wrote size propsHeader
        [⟨24, 0, .struct, false⟩, ⟨0, 24, .object, false⟩])) =
      if size < (controlsPod controls).encode.length then none
      else some (.wrote size (propsHeader ++ controlsChildren controls)
        [⟨24, (controlsChildren controls).length, .struct, false⟩,
          ⟨0, 24 + (controlsChildren controls).length, .object, false⟩]) := by
  have header : propsHeader.length = 32 := rfl
  rw [(paramAddControls_wrote (by omega) (by omega)).2 h, PodBuilder.appended,
    controlsPod_length, header]
  simp [PodBuilder.growFrames_cons]

end Building

/-- All the controls are written, or nothing is returned. -/
theorem paramNewPropsControls_eq (controls : List Control) :
    ((∃ c ∈ controls, c.invalid) ∨
        controlPropsBufferSize < (controlsPod controls).encode.length →
      paramNewPropsControls controls = none) ∧
    ((∀ c ∈ controls, ¬c.invalid) →
        (controlsPod controls).encode.length ≤ controlPropsBufferSize →
      paramNewPropsControls controls = some (controlsPod controls).encode) := by
  have room : 32 ≤ controlPropsBufferSize := by decide
  have small : controlPropsBufferSize < 4294967296 := by decide
  have header : propsHeader.length = 32 := rfl
  have shape : paramNewPropsControls controls =
      (((PodBuilder.init controlPropsBufferSize).pushObject typeObjectProps paramProps).bind
        fun b => (b.prop propParams 0).bind PodBuilder.pushStruct).bind
          fun b => (paramAddControls controls b).bind paramCloseProps := by
    simp only [paramNewPropsControls, Option.bind_assoc]
    rfl
  rw [shape, paramNewPropsControls_opens room, Option.bind_some]
  by_cases h : ∃ c ∈ controls, c.invalid
  · rw [(paramAddControls_wrote (by omega) (by omega)).1 h]
    obtain ⟨c, hc, invalid⟩ := h
    exact ⟨fun _ => rfl, fun valid => absurd invalid (valid c hc)⟩
  · have valid : ∀ c ∈ controls, ¬c.invalid := fun c hc invalid => h ⟨c, hc, invalid⟩
    rw [paramNewPropsControls_valid valid room]
    by_cases hs : controlPropsBufferSize < (controlsPod controls).encode.length
    · rw [if_pos hs]
      exact ⟨fun _ => rfl, fun _ fits => absurd hs (by omega)⟩
    · rw [if_neg hs, Option.bind_some]
      refine ⟨fun hn => absurd hn (by simp [h, hs]), fun _ fits => ?_⟩
      exact paramCloseProps_controls small fits

/-- One object of type and id Props with the property params, a struct of the names and the
values. Each size covers its pod, and each pod starts at a multiple of 8. -/
def DecodesTo (bytes : List UInt8) (controls : List Control) : Prop :=
  ∃ object children, decodePod 0 bytes = some (⟨SpaType.object.code, object⟩, []) ∧
    decodeObject 8 object =
      some ⟨typeObjectProps, paramProps, [⟨propParams, 0, ⟨SpaType.struct.code, children⟩⟩]⟩ ∧
    decodeStruct 32 children = some (controls.flatMap Control.pods)

theorem pods_type {p : Pod} {controls : List Control} (h : p ∈ controls.flatMap Control.pods) :
    p.type < 4294967296 := by
  obtain ⟨c, -, hp⟩ := List.mem_flatMap.mp h
  rcases List.mem_cons.mp hp with rfl | hp
  · show SpaType.string.code < 4294967296
    decide
  · rw [List.mem_singleton.mp hp]
    show SpaType.float.code < 4294967296
    decide

theorem controlsPod_decodes {controls : List Control}
    (h : (controlsPod controls).encode.length ≤ controlPropsBufferSize) :
    DecodesTo (controlsPod controls).encode controls := by
  have limit : controlPropsBufferSize < 4294967296 := by decide
  have object : (controlsPod controls).body.length < 4294967296 := by
    have := (controlsPod controls).encode_length
    omega
  have struct : (controlsChildren controls).length < 4294967296 := by
    have := controlsPod_length controls
    omega
  have objectCode : SpaType.object.code < 4294967296 := by decide
  have structCode : SpaType.struct.code < 4294967296 := by decide
  have words : typeObjectProps < 4294967296 ∧ paramProps < 4294967296 := by decide
  have key : propParams < 4294967296 := by decide
  refine ⟨(controlsObject controls).body, controlsChildren controls, ?_, ?_, ?_⟩
  · have decoded := @decodePod_encode 0 (controlsPod controls) ⟨object, objectCode⟩ rfl []
    rwa [List.append_nil] at decoded
  · refine decodeObject_body words ?_ rfl
    intro p hp
    rw [List.mem_singleton.mp hp]
    exact ⟨key, Nat.zero_lt_succ _, struct, structCode⟩
  · refine decodeStruct_encode ?_ rfl
    intro p hp
    have body := body_le_flatMap hp
    have type := pods_type hp
    rw [← controlsChildren] at body
    exact ⟨by omega, type⟩

theorem paramNewPropsControls_complete (controls : List Control) :
    match paramNewPropsControls controls with
    | none => (∃ c ∈ controls, c.invalid) ∨
        controlPropsBufferSize < (controlsPod controls).encode.length
    | some bytes => ¬((∃ c ∈ controls, c.invalid) ∨
        controlPropsBufferSize < (controlsPod controls).encode.length) ∧
        DecodesTo bytes controls := by
  obtain ⟨refused, built⟩ := paramNewPropsControls_eq controls
  by_cases h : (∃ c ∈ controls, c.invalid) ∨
      controlPropsBufferSize < (controlsPod controls).encode.length
  · rw [refused h]
    exact h
  · have fits : (controlsPod controls).encode.length ≤ controlPropsBufferSize := by omega
    rw [built (fun c hc invalid => h (.inl ⟨c, hc, invalid⟩)) fits]
    exact ⟨h, controlsPod_decodes fits⟩

end PipewireGobject
