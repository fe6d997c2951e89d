import PipewireGobject.ObjectWrapper
import PipewireGobject.ParamControls
import PipewireGobject.ParamReading

namespace PipewireGobject

/-- `PWG_PARAM_SIMPLE_PROPS_BUFFER_SIZE` -/
def simplePropsBufferSize : Nat := 256

/-- `SPA_PROP_volume` -/
def propVolume : Nat := 0x10003

/-- `SPA_PROP_mute` -/
def propMute : Nat := 0x10004

def isNaN (value : UInt64) : Bool := 0x7ff0000000000000 < doubleMagnitude value

/-- `value >= 0.0`: both zeros pass, and no NaN. -/
def nonNegative (value : UInt64) : Bool :=
  ¬isNaN value ∧ (doubleSign value = 0 ∨ doubleMagnitude value = 0)

/-- `value <= G_MAXFLOAT` -/
def atMostFloat (value : UInt64) : Bool := ¬isNaN value ∧ ¬aboveFloat value

def PodBuilder.bool (value : Bool) (b : PodBuilder) : Option PodBuilder := do
  let b ← b.raw (wordBytes 4 ++ wordBytes SpaType.bool.code ++
    wordBytes (if value then 1 else 0))
  b.pad 12

/-- The part of `pwg_param_new_props` under `has_volume`, and that under `has_mute`. -/
def paramAddVolume (hasVolume : Bool) (volume : UInt64) (b : PodBuilder) : Option PodBuilder :=
  if hasVolume then do
    let b ← b.prop propVolume 0
    b.float (doubleToFloat volume)
  else some b

def paramAddMute (hasMute mute : Bool) (b : PodBuilder) : Option PodBuilder :=
  if hasMute then do
    let b ← b.prop propMute 0
    b.bool mute
  else some b

/-- The bytes of the parameter, if it can be built. -/
def paramNewProps (hasVolume : Bool) (volume : UInt64) (hasMute mute : Bool) :
    Option (List UInt8) := do
  let b ← (PodBuilder.init simplePropsBufferSize).pushObject typeObjectProps paramProps
  let b ← paramAddVolume hasVolume volume b
  let b ← paramAddMute hasMute mute b
  let object ← paramBuilderPopFrame b
  let pod := object.2.data.drop object.1
  pure (pod.take (8 + littleEndian (pod.take 4)))

/-- `_pwg_param_new` as the constructors call it. -/
def paramNew (bytes : List UInt8) : Param := ⟨0, paramProps.toUInt32, 0, 0, bytes⟩

def paramNewPropsVolume (volume : UInt64) : Option Param :=
  if nonNegative volume = false then none
  else if atMostFloat volume = false then none
  else (paramNewProps true volume false false).map paramNew

/-- The `gboolean` is true if it is not zero. -/
def paramNewPropsMute (mute : Int) : Option Param :=
  (paramNewProps false 0 true (mute ≠ 0)).map paramNew

/-- `pwg_param_new_props_controls` -/
def paramNewControls (controls : List Control) : Option Param :=
  (paramNewPropsControls controls).map paramNew

def volumeProp (volume : UInt64) : PodProp :=
  ⟨propVolume, 0, (BasicValue.float (doubleToFloat volume)).pod⟩

def muteProp (mute : Bool) : PodProp := ⟨propMute, 0, (BasicValue.bool mute).pod⟩

/-- The properties that `pwg_param_new_props` is asked for. -/
def simpleProps (hasVolume : Bool) (volume : UInt64) (hasMute mute : Bool) : List PodProp :=
  (if hasVolume then [volumeProp volume] else []) ++ if hasMute then [muteProp mute] else []

def propsObject (props : List PodProp) : PodObject := ⟨typeObjectProps, paramProps, props⟩

section Building

variable {size : Nat} {w bytes : List UInt8} {frames : List PodFrame} {props : List PodProp}

/-- A step of the builder that writes these bytes, or fails for want of room. -/
def Writes (f : PodBuilder → Option PodBuilder) (bytes : List UInt8) : Prop :=
  ∀ size w frames, w.length ≤ size →
    f (.wrote size w frames) = PodBuilder.appended size w frames bytes

theorem writes_volume (hasVolume : Bool) (volume : UInt64) :
    Writes (paramAddVolume hasVolume volume)
      ((if hasVolume then [volumeProp volume] else []).flatMap PodProp.encode) := by
  intro size w frames room
  cases hasVolume with
  | true =>
    show ((PodBuilder.wrote size w frames).prop propVolume 0).bind _ = _
    rw [PodBuilder.prop_wrote room]
    refine (PodBuilder.appended_bind PodBuilder.float_wrote).trans ?_
    simp [volumeProp, PodProp.encode, BasicValue.pod, SpaType.code]
  | false => exact (PodBuilder.appended_nil room).symm

theorem PodBuilder.bool_wrote {value : Bool} (h : w.length ≤ size) :
    (wrote size w frames).bool value =
      appended size w frames (BasicValue.bool value).pod.encode := by
  have layout : (BasicValue.bool value).pod.encode =
      wordBytes 4 ++ wordBytes SpaType.bool.code ++ wordBytes (if value then 1 else 0) ++
        List.replicate (padding 12) 0 := rfl
  rw [layout]
  simp only [PodBuilder.bool, Option.bind_eq_bind, raw_wrote h]
  exact appended_bind fun body => pad_wrote body

theorem writes_mute (hasMute mute : Bool) :
    Writes (paramAddMute hasMute mute)
      ((if hasMute then [muteProp mute] else []).flatMap PodProp.encode) := by
  intro size w frames room
  cases hasMute with
  | true =>
    show ((PodBuilder.wrote size w frames).prop propMute 0).bind _ = _
    rw [PodBuilder.prop_wrote room]
    refine (PodBuilder.appended_bind PodBuilder.bool_wrote).trans ?_
    simp [muteProp, PodProp.encode]
  | false => exact (PodBuilder.appended_nil room).symm

theorem writes_props (hasVolume hasMute mute : Bool) (volume : UInt64) (room : w.length ≤ size) :
    (paramAddVolume hasVolume volume (.wrote size w frames)).bind (paramAddMute hasMute mute) =
      PodBuilder.appended size w frames
        ((simpleProps hasVolume volume hasMute mute).flatMap PodProp.encode) := by
  rw [writes_volume hasVolume volume size w frames room, simpleProps, List.flatMap_append]
  exact PodBuilder.appended_bind (writes_mute hasMute mute size _ _)

/-- The finished object is copied from where its header is. -/
def paramCopyObject (b : PodBuilder) : Option (List UInt8) := do
  let object ← paramBuilderPopFrame b
  let pod := object.2.data.drop object.1
  pure (pod.take (8 + littleEndian (pod.take 4)))

theorem paramCopyObject_wrote {header : List UInt8} {o : PodObject}
    (length : header.length = 8) (aligned : o.body.length % 8 = 0)
    (room : 8 + o.body.length ≤ size) (small : size < 4294967296) :
    paramCopyObject (.wrote size (header ++ o.body) [⟨0, o.body.length, .object, false⟩]) =
      some (objectPod o).bytes := by
  have popped : paramBuilderPopFrame (.wrote size ([] ++ (header ++ o.body))
        [⟨([] : List UInt8).length, o.body.length, .object, false⟩]) =
      some (([] : List UInt8).length, .wrote size ([] ++
        (wordBytes o.body.length ++ wordBytes SpaType.object.code ++ o.body)) []) := by
    refine paramBuilderPopFrame_wrote length ?_ ?_
    · simp only [List.nil_append, List.length_append]
      omega
    · simp only [List.nil_append, List.length_append]
      omega
  rw [List.nil_append, List.nil_append, List.length_nil] at popped
  simp only [paramCopyObject, popped, Option.bind_eq_bind, Option.bind_some, List.drop_zero]
  have pod : (objectPod o).bytes.length = 8 + o.body.length := by
    simp only [objectPod, Pod.bytes, List.length_append, wordBytes_length]
  generalize hzeros : List.replicate (size - (objectPod o).bytes.length) (0 : UInt8) = zeros
  have word : littleEndian (((objectPod o).bytes ++ zeros).take 4) = o.body.length := by
    rw [Pod.bytes, List.append_assoc]
    exact (words_take (by show o.body.length < 4294967296; omega)
      (by show SpaType.object.code < 4294967296; decide) _).1
  have data : (PodBuilder.wrote size (wordBytes o.body.length ++ wordBytes SpaType.object.code ++
      o.body) []).data = (objectPod o).bytes ++ zeros := by
    rw [← hzeros]
    rfl
  rw [data, word, List.take_left' pod]
  rfl

theorem simpleProps_length (hasVolume hasMute mute : Bool) (volume : UInt64) :
    ((simpleProps hasVolume volume hasMute mute).flatMap PodProp.encode).length ≤ 48 := by
  cases hasVolume <;> cases hasMute <;> simp [simpleProps, volumeProp, muteProp, BasicValue.pod,
    PodProp.encode, Pod.encode, padding]

theorem flatMap_props_aligned (props : List PodProp) :
    (props.flatMap PodProp.encode).length % 8 = 0 := by
  induction props with
  | nil => rfl
  | cons q props ih =>
    have value := q.value.encode_aligned
    simp only [List.flatMap_cons, List.length_append, PodProp.encode_length]
    omega

/-- Every combination of the properties fits into the buffer. -/
theorem paramNewProps_eq (hasVolume hasMute mute : Bool) (volume : UInt64) :
    paramNewProps hasVolume volume hasMute mute =
      some (objectPod (propsObject (simpleProps hasVolume volume hasMute mute))).bytes := by
  generalize hprops : simpleProps hasVolume volume hasMute mute = props
  have length : (props.flatMap PodProp.encode).length ≤ 48 := by
    rw [← hprops]
    exact simpleProps_length hasVolume hasMute mute volume
  have shape : paramNewProps hasVolume volume hasMute mute =
      ((PodBuilder.init simplePropsBufferSize).pushObject typeObjectProps paramProps).bind
        fun b => ((paramAddVolume hasVolume volume b).bind (paramAddMute hasMute mute)).bind
          paramCopyObject := by
    simp only [paramNewProps, Option.bind_assoc]
    rfl
  generalize hheader : wordBytes 8 ++ wordBytes SpaType.object.code = header
  have body : (propsObject props).body =
      wordBytes typeObjectProps ++ wordBytes paramProps ++ props.flatMap PodProp.encode := rfl
  have opened : (PodBuilder.init simplePropsBufferSize).pushObject typeObjectProps paramProps =
      some (.wrote simplePropsBufferSize
        (header ++ (wordBytes typeObjectProps ++ wordBytes paramProps))
        [⟨0, 8, .object, false⟩]) := by
    rw [PodBuilder.init_eq, PodBuilder.pushObject_wrote (by decide), ← hheader]
    simp [growFrames]
  have eight : header.length = 8 := by rw [← hheader]; rfl
  have sixteen : (header ++ (wordBytes typeObjectProps ++ wordBytes paramProps)).length = 16 := by
    rw [← hheader]
    rfl
  have buffer : simplePropsBufferSize = 256 := rfl
  have aligned := flatMap_props_aligned props
  rw [shape, opened, Option.bind_some, writes_props _ _ _ _ (by omega), hprops,
    PodBuilder.appended_fits (by omega), Option.bind_some, List.append_assoc, ← body]
  have total : (propsObject props).body.length = 8 + (props.flatMap PodProp.encode).length := by
    simp only [body, List.length_append, wordBytes_length]
  simp only [PodBuilder.growFrames_cons, PodBuilder.growFrames_nil, ← total]
  exact paramCopyObject_wrote eight (by omega) (by omega) (by omega)

end Building

/-- The parameter is one of the application's own: a Props object with these properties and
nothing else, and it is inspected as such. -/
structure HoldsProps (param : Param) (props : List PodProp) : Prop where
  made : param = paramNew param.pod
  decoded : ∃ body, decodePod 0 param.pod = some (⟨SpaType.object.code, body⟩, []) ∧
    decodeObject 8 body = some (propsObject props)
  inspected : InspectedAs (paramBytes param.pod) SpaType.object.code typeObjectProps paramProps
    (.object typeObjectProps paramProps props.length)

theorem holdsProps {props : List PodProp} (fits : ∀ q ∈ props, q.Fits)
    (room : (props.flatMap PodProp.encode).length < 4294967280) :
    HoldsProps (paramNew (objectPod (propsObject props)).bytes) props := by
  have words : typeObjectProps < 4294967296 ∧ paramProps < 4294967296 := by decide
  have length : (propsObject props).body.length = 8 + (props.flatMap PodProp.encode).length := by
    simp only [PodObject.body, propsObject, List.length_append, wordBytes_length]
  have object : (propsObject props).Fits := ⟨words.1, words.2, by omega⟩
  have unpadded : padding (objectPod (propsObject props)).body.length = 0 := by
    have aligned := flatMap_props_aligned props
    show padding (propsObject props).body.length = 0
    rw [padding]
    omega
  have whole : (objectPod (propsObject props)).bytes = (objectPod (propsObject props)).encode := by
    rw [Pod.encode, unpadded, List.replicate_zero, List.append_nil]
    rfl
  refine ⟨rfl, ⟨(propsObject props).body, ?_, decodeObject_body words fits rfl⟩, ?_⟩
  · have decoded := @decodePod_encode 0 _ (PodObject.fits_pod object) rfl []
    rw [List.append_nil, ← whole] at decoded
    exact decoded
  · exact inspected_object (paramBytes_startsWith _) object

/-- Rounding does not leave a bound that needs no rounding itself. -/
theorem roundHalfEven_le {n bits bound : Nat} (h : n ≤ bound <<< bits) :
    roundHalfEven n bits ≤ bound := by
  rw [Nat.shiftLeft_eq] at h
  have unit : 0 < 2 ^ bits := Nat.two_pow_pos bits
  simp only [roundHalfEven, Nat.one_shiftLeft]
  have parts := Nat.div_add_mod n (2 ^ bits)
  have below : n / 2 ^ bits ≤ bound := Nat.div_le_of_le_mul (by rwa [Nat.mul_comm])
  split
  next up =>
    have remains : 0 < n % 2 ^ bits := by
      rcases up with big | ⟨half, -⟩ <;> omega
    rcases Nat.lt_or_eq_of_le below with lt | eq
    · exact lt
    · rw [eq, Nat.mul_comm] at parts
      omega
  next => exact below

/-- A value in the range of floats becomes a finite float. -/
theorem doubleToFloat_finite {value : UInt64} (range : doubleMagnitude value ≤ maxFloat) :
    doubleToFloat value % 0x80000000 ≤ 0x7f7fffff ∧ doubleToFloat value < 4294967296 := by
  have sign : doubleSign value < 2 := by
    have := value.toNat_lt
    simp only [doubleSign]
    omega
  have largest : maxFloat = 0x47efffffe0000000 := rfl
  simp only [doubleToFloat]
  split
  next normal =>
    have rounded := @roundHalfEven_le
      (doubleMagnitude value - 896 * 0x10000000000000) 29 0x7f7fffff (by omega)
    omega
  next =>
    split
    next => omega
    next small =>
      have rounded := @roundHalfEven_le
        (doubleMagnitude value % 0x10000000000000 + 0x10000000000000)
        (29 + (897 - doubleMagnitude value / 0x10000000000000)) 0x1000000 ?_
      · omega
      · have lower : 2 ^ 29 ≤ 2 ^ (29 + (897 - doubleMagnitude value / 0x10000000000000)) :=
          Nat.pow_le_pow_right (by decide) (by omega)
        omega

/-- From 0 to the largest float. -/
def VolumeInRange (volume : UInt64) : Prop :=
  (doubleSign volume = 0 ∨ doubleMagnitude volume = 0) ∧ doubleMagnitude volume ≤ maxFloat

theorem volumeInRange_iff (volume : UInt64) :
    VolumeInRange volume ↔ nonNegative volume = true ∧ atMostFloat volume = true := by
  have largest : maxFloat = 0x47efffffe0000000 := rfl
  simp only [VolumeInRange, nonNegative, atMostFloat, isNaN, aboveFloat, decide_eq_true_eq,
    Bool.decide_and, Bool.and_eq_true, decide_not, Bool.not_eq_true', decide_eq_false_iff_not,
    Bool.and_eq_false_iff]
  omega

theorem propFits_value {key : Nat} {v : BasicValue} (small : key < 4294967296) (fits : v.Fits) :
    PodProp.Fits ⟨key, 0, v.pod⟩ := ⟨small, Nat.zero_lt_succ _, BasicValue.pod_fits fits⟩

theorem paramNewPropsVolume_holds (volume : UInt64) :
    match paramNewPropsVolume volume with
    | none => ¬VolumeInRange volume
    | some param => VolumeInRange volume ∧ HoldsProps param [volumeProp volume] ∧
        doubleToFloat volume % 0x80000000 ≤ 0x7f7fffff := by
  rw [volumeInRange_iff, paramNewPropsVolume]
  by_cases low : nonNegative volume = false
  · simp [low]
  by_cases high : atMostFloat volume = false
  · simp [low, high]
  rw [if_neg low, if_neg high, paramNewProps_eq]
  have inRange : nonNegative volume = true ∧ atMostFloat volume = true := by simp_all
  have range := (volumeInRange_iff volume).mpr inRange
  obtain ⟨finite, small⟩ := doubleToFloat_finite range.2
  refine ⟨inRange, holdsProps ?_ ?_, finite⟩
  · intro q hq
    cases List.mem_singleton.mp hq
    exact propFits_value (by decide) small
  · have := simpleProps_length true false false volume
    show (((simpleProps true volume false false).flatMap PodProp.encode)).length < _
    omega

theorem paramNewPropsMute_holds (mute : Int) :
    ∃ param, paramNewPropsMute mute = some param ∧
      HoldsProps param [muteProp (decide (mute ≠ 0))] := by
  rw [paramNewPropsMute, paramNewProps_eq]
  refine ⟨_, rfl, holdsProps ?_ ?_⟩
  · intro q hq
    cases List.mem_singleton.mp hq
    exact propFits_value (by decide) trivial
  · have := simpleProps_length false true (decide (mute ≠ 0)) 0
    show ((simpleProps false 0 true (decide (mute ≠ 0))).flatMap PodProp.encode).length < _
    omega

/-- The property that holds the controls. -/
def controlsProp (controls : List Control) : PodProp :=
  ⟨propParams, 0, ⟨SpaType.struct.code, controlsChildren controls⟩⟩

theorem paramNewControls_holds (controls : List Control) :
    match paramNewControls controls with
    | none => (∃ c ∈ controls, c.invalid) ∨
        controlPropsBufferSize < (controlsPod controls).encode.length
    | some param => HoldsProps param [controlsProp controls] := by
  obtain ⟨refused, built⟩ := paramNewPropsControls_eq controls
  rw [paramNewControls]
  by_cases h : (∃ c ∈ controls, c.invalid) ∨
      controlPropsBufferSize < (controlsPod controls).encode.length
  · rw [refused h]
    exact h
  · have fits : (controlsPod controls).encode.length ≤ controlPropsBufferSize := by omega
    have limit : controlPropsBufferSize = 65536 := rfl
    have children := controlsPod_length controls
    have whole : (controlsPod controls).encode =
        (objectPod (propsObject [controlsProp controls])).bytes := by
      have aligned : padding (controlsPod controls).body.length = 0 := by
        have body : (controlsPod controls).body.length =
            8 + ([controlsProp controls].flatMap PodProp.encode).length := by
          simp [controlsPod, controlsObject, PodObject.body, controlsProp]
          omega
        have := flatMap_props_aligned [controlsProp controls]
        simp only [padding]
        omega
      rw [Pod.encode, aligned, List.replicate_zero, List.append_nil]
      rfl
    rw [built (fun c hc invalid => h (.inl ⟨c, hc, invalid⟩)) fits, Option.map_some, whole]
    refine holdsProps ?_ ?_
    · intro q hq
      cases List.mem_singleton.mp hq
      refine ⟨by show propParams < _; decide, Nat.zero_lt_succ _, ?_, ?_⟩
      · show (controlsChildren controls).length < _
        omega
      · show SpaType.struct.code < _
        decide
    · have value := (controlsProp controls).value.encode_length
      have size : (controlsProp controls).value.body.length =
        (controlsChildren controls).length := rfl
      have property := (controlsProp controls).encode_length
      simp only [List.flatMap_cons, List.flatMap_nil, List.append_nil]
      simp only [padding] at value
      omega

/-- Each constructor of a parameter gives the object it is documented to give, or `NULL` for
an argument that it cannot hold. -/
theorem paramConstructors_hold :
    (∀ volume, match paramNewPropsVolume volume with
      | none => ¬VolumeInRange volume
      | some param => VolumeInRange volume ∧ HoldsProps param [volumeProp volume] ∧
          doubleToFloat volume % 0x80000000 ≤ 0x7f7fffff) ∧
    (∀ mute, ∃ param, paramNewPropsMute mute = some param ∧
      HoldsProps param [muteProp (decide (mute ≠ 0))]) ∧
    ∀ controls, match paramNewControls controls with
      | none => (∃ c ∈ controls, c.invalid) ∨
          controlPropsBufferSize < (controlsPod controls).encode.length
      | some param => HoldsProps param [controlsProp controls] :=
  ⟨paramNewPropsVolume_holds, paramNewPropsMute_holds, paramNewControls_holds⟩

end PipewireGobject
