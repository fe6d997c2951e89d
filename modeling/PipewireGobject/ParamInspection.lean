import PipewireGobject.SpaPod

namespace PipewireGobject

/-- The bytes of a `PwgParam`: the first `size` bytes of `memory`. -/
structure ParamBytes where
  memory : Nat → UInt8
  size : Nat

/-- `pwg_param_get_pod`: whether there is a pod at the start of the bytes. -/
def paramGetPod (b : ParamBytes) : Traced Bool :=
  if b.size < 8 then pure false
  else do
    let body ← Traced.word b.memory 0
    pure (decide (8 + body ≤ b.size))

def paramPodType (b : ParamBytes) : Traced SpaType := do
  let code ← Traced.word b.memory 4
  pure (.ofCode code)

def paramGetPodType (b : ParamBytes) : Traced Nat := do
  let pod ← paramGetPod b
  if pod then Traced.word b.memory 4 else pure 0

/-- A word of the body of an object, 0 if there is no object. -/
def paramObjectWord (offset : Nat) (b : ParamBytes) : Traced Nat := do
  let pod ← paramGetPod b
  if pod then do
    let type ← paramPodType b
    if type = .object then Traced.word b.memory offset else pure 0
  else pure 0

def paramGetObjectType (b : ParamBytes) : Traced Nat := paramObjectWord 8 b

def paramGetObjectId (b : ParamBytes) : Traced Nat := paramObjectWord 12 b

/-- The tests that the bytes hold an object of this type. -/
def paramTestObject (objectType : Nat) (b : ParamBytes) : Traced Bool := do
  let pod ← paramGetPod b
  if pod then do
    let type ← paramPodType b
    if type = .object then do
      let word ← Traced.word b.memory 8
      pure (word = objectType)
    else pure false
  else pure false

/-- `SPA_TYPE_OBJECT_Format` -/
def typeObjectFormat : Nat := 0x40003

/-- `SPA_TYPE_OBJECT_ParamRoute` -/
def typeObjectParamRoute : Nat := 0x40009

/-- `SPA_PARAM_EnumRoute` and `SPA_PARAM_Route` -/
def routeParams : List Nat := [12, 13]

/-- `parse` is `spa_format_parse`, which gives the media type and subtype. -/
def paramParseFormat (parse : ParamBytes → Option (Nat × Nat)) (b : ParamBytes) :
    Traced (Option (Nat × Nat)) := do
  let format ← paramTestObject typeObjectFormat b
  pure (if format then parse b else none)

/-- `parse` is `spa_pod_parse_object`, with the route made of what it finds. -/
def routeInfoNewFromParam {ρ : Type} (parse : ParamBytes → Option ρ) (id : Nat)
    (b : ParamBytes) : Traced (Option ρ) :=
  if id ∉ routeParams then pure none
  else do
    let route ← paramTestObject typeObjectParamRoute b
    pure (if route then parse b else none)

/-- The bytes from `offset` on that are printed: up to a zero byte, `limit` at most. -/
def printedString (memory : Nat → UInt8) : Nat → Nat → Traced (List UInt8)
  | _, 0 => pure []
  | offset, limit + 1 => do
    let byte ← Traced.load memory offset 1
    if byte = [0] then pure []
    else do
      let rest ← printedString memory (offset + 1) limit
      pure (byte ++ rest)

inductive BasicValue
  | bool (value : Bool)
  | id (value : Nat)
  | int (value : Nat)
  | long (value : Nat)
  | float (bits : Nat)
  | double (bits : Nat)
  | string (text : List UInt8)
  | rectangle (width height : Nat)
  | fraction (num denom : Nat)
  deriving DecidableEq

/-- A size from 2^31 on is a negative precision: the string is printed up to its zero
byte. What lies one byte past the end is the last that is looked at here. -/
def stringLimit (b : ParamBytes) (size : Nat) : Nat :=
  if size < 0x80000000 then size else b.size - 8 + 1

def paramDupBasicValueSummary (b : ParamBytes) : Traced (Option BasicValue) := do
  let type ← paramPodType b
  match type with
  | .bool => do
    let value ← Traced.word b.memory 8
    pure (some (.bool (value ≠ 0)))
  | .id => do
    let value ← Traced.word b.memory 8
    pure (some (.id value))
  | .int => do
    let value ← Traced.word b.memory 8
    pure (some (.int value))
  | .long => do
    let bytes ← Traced.load b.memory 8 8
    pure (some (.long (littleEndian bytes)))
  | .float => do
    let bits ← Traced.word b.memory 8
    pure (some (.float bits))
  | .double => do
    let bytes ← Traced.load b.memory 8 8
    pure (some (.double (littleEndian bytes)))
  | .string => do
    let size ← Traced.word b.memory 0
    let text ← printedString b.memory 8 (stringLimit b size)
    pure (some (.string text))
  | .rectangle => do
    let width ← Traced.word b.memory 8
    let height ← Traced.word b.memory 12
    pure (some (.rectangle width height))
  | .fraction => do
    let num ← Traced.word b.memory 8
    let denom ← Traced.word b.memory 12
    pure (some (.fraction num denom))
  | _ => pure none

inductive ParamSummary
  | invalid
  | object (objectType objectId properties : Nat)
  | value (podType : Nat) (value : BasicValue)
  | other (podType size : Nat)
  deriving DecidableEq

def paramObjectSummary (properties : Nat) (b : ParamBytes) : Traced ParamSummary := do
  let objectType ← paramGetObjectType b
  let objectId ← paramGetObjectId b
  pure (.object objectType objectId properties)

def paramValueSummary (podType : Nat) (b : ParamBytes) : Traced ParamSummary := do
  let value ← paramDupBasicValueSummary b
  match value with
  | some value => pure (.value podType value)
  | none => do
    let size ← Traced.word b.memory 0
    pure (.other podType size)

/-- `count` is the number of properties that SPA's iterator finds. The names in the text
are looked up from the same words, read again. -/
def paramDupSummary (count : ParamBytes → Nat) (b : ParamBytes) : Traced ParamSummary := do
  let pod ← paramGetPod b
  if pod then do
    let podType ← Traced.word b.memory 4
    if SpaType.ofCode podType = .object then paramObjectSummary (count b) b
    else paramValueSummary podType b
  else pure .invalid

namespace ParamBytes

/-- The body size that the header declares. -/
def declared (b : ParamBytes) : Nat :=
  littleEndian ((List.range 4).map fun i => b.memory (0 + i))

def podType (b : ParamBytes) : SpaType :=
  .ofCode (littleEndian ((List.range 4).map fun i => b.memory (4 + i)))

def hasPod (b : ParamBytes) : Prop := 8 ≤ b.size ∧ 8 + b.declared ≤ b.size

instance (b : ParamBytes) : Decidable b.hasPod := inferInstanceAs (Decidable (_ ∧ _))

end ParamBytes

variable {b : ParamBytes} {size : Nat}

theorem paramGetPod_value (b : ParamBytes) : (paramGetPod b).value = decide b.hasPod := by
  unfold paramGetPod
  split
  next h =>
    have none_left : ¬b.hasPod := fun hp => by
      have := hp.1
      omega
    simp [none_left]
  next h =>
    have header : 8 ≤ b.size := by omega
    rw [Traced.bind_value, Traced.word_value, Traced.pure_value]
    exact decide_eq_decide.mpr ⟨fun body => ⟨header, body⟩, fun hp => hp.2⟩

theorem paramGetPod_sound (b : ParamBytes) : (paramGetPod b).Sound b.size := by
  simp only [paramGetPod, Traced.sound_ite, Traced.sound_bind, Traced.sound_word,
    Traced.sound_pure, and_true]
  exact ⟨fun _ => trivial, fun h => by omega⟩

theorem paramPodType_sound (b : ParamBytes) : (paramPodType b).Sound size ↔ 8 ≤ size := by
  simp [paramPodType]

/-- What follows the check for a pod is only reached when there is one. -/
theorem sound_after_pod {α : Type} {m n : Traced α} :
    (paramGetPod b >>= fun pod => if pod then m else n).Sound b.size ↔
      (b.hasPod → m.Sound b.size) ∧ (¬b.hasPod → n.Sound b.size) := by
  rw [Traced.sound_bind, paramGetPod_value, Traced.sound_ite, decide_eq_true_eq]
  simp only [paramGetPod_sound, true_and]

theorem paramGetPodType_sound (b : ParamBytes) : (paramGetPodType b).Sound b.size := by
  rw [paramGetPodType, sound_after_pod, Traced.sound_word]
  exact ⟨fun h => h.1, fun _ => Traced.sound_pure _⟩

theorem paramObjectWord_sound (offset : Nat) (b : ParamBytes) :
    (paramObjectWord offset b).Sound b.size ↔
      (b.hasPod → b.podType = .object → offset + 4 ≤ b.size) := by
  rw [paramObjectWord, sound_after_pod]
  simp only [Traced.sound_pure, implies_true, and_true, Traced.sound_bind, paramPodType_sound,
    Traced.sound_ite, Traced.sound_word]
  exact ⟨fun h hp => (h hp).2, fun h hp => ⟨hp.1, h hp⟩⟩

theorem paramTestObject_sound (objectType : Nat) (b : ParamBytes) :
    (paramTestObject objectType b).Sound b.size ↔
      (b.hasPod → b.podType = .object → 12 ≤ b.size) := by
  rw [paramTestObject, sound_after_pod]
  simp only [Traced.sound_pure, implies_true, and_true, Traced.sound_bind, paramPodType_sound,
    Traced.sound_ite, Traced.sound_word]
  exact ⟨fun h hp => (h hp).2, fun h hp => ⟨hp.1, h hp⟩⟩

/-- A string is printed from within the bytes if the limit ends there or a zero byte does. -/
theorem printedString_sound {memory : Nat → UInt8} {offset limit : Nat} (h : offset ≤ size) :
    (printedString memory offset limit).Sound size ↔
      offset + limit ≤ size ∨
        ∃ i, offset ≤ i ∧ i < offset + limit ∧ i < size ∧ memory i = 0 := by
  induction limit generalizing offset with
  | zero => simp [printedString, h]
  | succ limit ih =>
    have byte : (Traced.load memory offset 1).value = [memory offset] := rfl
    simp only [printedString, Traced.sound_bind, Traced.sound_load, Traced.sound_ite, byte,
      Traced.sound_pure, and_true, List.cons.injEq]
    constructor
    · rintro ⟨room, rest⟩
      by_cases hz : memory offset = 0
      · exact .inr ⟨offset, by omega, by omega, by omega, hz⟩
      · rcases (ih (by omega)).mp (rest.2 hz) with fits | ⟨i, first, last, inside, zero⟩
        · exact .inl (by omega)
        · exact .inr ⟨i, by omega, by omega, inside, zero⟩
    · intro hs
      have room : offset + 1 ≤ size := by
        rcases hs with fits | ⟨i, first, last, inside, zero⟩ <;> omega
      refine ⟨.inr room, fun _ => trivial, fun hz => (ih room).mpr ?_⟩
      rcases hs with fits | ⟨i, first, last, inside, zero⟩
      · exact .inl (by omega)
      · have later : offset ≠ i := fun he => hz (by rw [he]; exact zero)
        exact .inr ⟨i, by omega, by omega, inside, zero⟩

/-- How many bytes a pod of this type takes as far as its fields are read. -/
def SpaType.minimumSize : SpaType → Nat
  | .object | .long | .double | .rectangle | .fraction => 16
  | .bool | .id | .int | .float => 12
  | _ => 8

/-- A string is short enough for its size to bound the printing, or ends by itself. -/
def ParamBytes.stringEnds (b : ParamBytes) : Prop :=
  b.declared < 0x80000000 ∨ ∃ i, 8 ≤ i ∧ i < b.size ∧ b.memory i = 0

/-- The fields of the pod lie within the bytes. -/
def ParamBytes.complete (b : ParamBytes) : Prop :=
  b.podType.minimumSize ≤ b.size ∧ (b.podType = .string → b.stringEnds)

theorem summaryString_sound (h : b.hasPod) :
    (printedString b.memory 8 (stringLimit b b.declared)).Sound b.size ↔ b.stringEnds := by
  obtain ⟨header, body⟩ := h
  rw [printedString_sound header, stringLimit, ParamBytes.stringEnds]
  split
  next hs => exact ⟨fun _ => .inl hs, fun _ => .inl body⟩
  next hs =>
    constructor
    · rintro (fits | ⟨i, first, -, inside, zero⟩)
      · omega
      · exact .inr ⟨i, first, inside, zero⟩
    · rintro (short | ⟨i, first, inside, zero⟩)
      · omega
      · exact .inr ⟨i, first, by omega, inside, zero⟩

theorem paramDupBasicValueSummary_sound (h : b.hasPod) (hn : b.podType ≠ .object) :
    (paramDupBasicValueSummary b).Sound b.size ↔ b.complete := by
  have type : (paramPodType b).value = b.podType := rfl
  have declared : (Traced.word b.memory 0).value = b.declared := rfl
  have header : 8 ≤ b.size := h.1
  rw [paramDupBasicValueSummary, Traced.sound_bind, paramPodType_sound, type,
    ParamBytes.complete]
  cases ht : b.podType with
  | object => exact absurd ht hn
  | string =>
    simp only [Traced.sound_bind, Traced.sound_word, declared, summaryString_sound h,
      Traced.sound_pure, and_true, SpaType.minimumSize, true_implies]
    exact ⟨fun hs => ⟨header, hs.2.2⟩, fun hs => ⟨header, by omega, hs.2⟩⟩
  | none | struct | other code => simp [SpaType.minimumSize, header]
  | _ =>
    simp [SpaType.minimumSize]
    omega

theorem paramObjectSummary_sound {properties : Nat} (h : b.hasPod) (ht : b.podType = .object) :
    (paramObjectSummary properties b).Sound b.size ↔ b.complete := by
  rw [paramObjectSummary, Traced.sound_bind, Traced.sound_bind, paramGetObjectType,
    paramGetObjectId, paramObjectWord_sound, paramObjectWord_sound]
  simp only [ParamBytes.complete, ht, SpaType.minimumSize, Traced.sound_pure, and_true]
  constructor
  · intro hs
    exact ⟨by simpa using hs.2 h, fun hn => by cases hn⟩
  · intro hc
    have room : 16 ≤ b.size := hc.1
    exact ⟨fun _ _ => by omega, fun _ _ => room⟩

theorem paramValueSummary_sound {podType : Nat} (h : b.hasPod) (ht : b.podType ≠ .object) :
    (paramValueSummary podType b).Sound b.size ↔ b.complete := by
  have header : 8 ≤ b.size := h.1
  rw [paramValueSummary, Traced.sound_bind, paramDupBasicValueSummary_sound h ht]
  refine and_iff_left ?_
  split
  · exact Traced.sound_pure _
  · rw [Traced.sound_bind, Traced.sound_word]
    exact ⟨by omega, Traced.sound_pure _⟩

theorem paramDupSummary_sound (count : ParamBytes → Nat) (b : ParamBytes) :
    (paramDupSummary count b).Sound b.size ↔ (b.hasPod → b.complete) := by
  have type : SpaType.ofCode (Traced.word b.memory 4).value = b.podType := rfl
  rw [paramDupSummary, sound_after_pod, Traced.sound_bind, Traced.sound_word, Traced.sound_ite,
    type]
  constructor
  · intro hs hp
    obtain ⟨-, object, value⟩ := hs.1 hp
    by_cases ht : b.podType = .object
    · exact (paramObjectSummary_sound hp ht).mp (object ht)
    · exact (paramValueSummary_sound hp ht).mp (value ht)
  · intro hc
    refine ⟨fun hp => ⟨hp.1, fun ht => ?_, fun ht => ?_⟩, fun _ => Traced.sound_pure _⟩
    · exact (paramObjectSummary_sound hp ht).mpr (hc hp)
    · exact (paramValueSummary_sound hp ht).mpr (hc hp)

theorem ParamBytes.complete.object (h : b.complete) (ht : b.podType = .object) :
    16 ≤ b.size := by
  simpa [complete, ht, SpaType.minimumSize] using h.1

/-- All the functions that look into the bytes stay within them. -/
structure InspectionSound (b : ParamBytes) : Prop where
  podType : (paramGetPodType b).Sound b.size
  objectType : (paramGetObjectType b).Sound b.size
  objectId : (paramGetObjectId b).Sound b.size
  summary : ∀ count, (paramDupSummary count b).Sound b.size
  format : ∀ parse, (paramParseFormat parse b).Sound b.size
  route : ∀ (ρ : Type) (parse : ParamBytes → Option ρ) id,
    (routeInfoNewFromParam parse id b).Sound b.size

theorem paramInspection_sound (b : ParamBytes) :
    InspectionSound b ↔ (b.hasPod → b.complete) := by
  constructor
  · intro h
    exact (paramDupSummary_sound (fun _ => 0) b).mp (h.summary _)
  · intro hc
    have object : b.hasPod → b.podType = .object → 16 ≤ b.size := fun hp => (hc hp).object
    have tested : ∀ objectType, (paramTestObject objectType b).Sound b.size := by
      intro objectType
      rw [paramTestObject_sound]
      intro hp ht
      have := object hp ht
      omega
    exact {
      podType := paramGetPodType_sound b
      objectType := by
        rw [paramGetObjectType, paramObjectWord_sound]
        intro hp ht
        have := object hp ht
        omega
      objectId := by
        rw [paramGetObjectId, paramObjectWord_sound]
        exact object
      summary := fun count => (paramDupSummary_sound count b).mpr hc
      format := fun parse => by
        rw [paramParseFormat, Traced.sound_bind]
        exact ⟨tested _, Traced.sound_pure _⟩
      route := fun ρ parse id => by
        rw [routeInfoNewFromParam, Traced.sound_ite, Traced.sound_bind]
        exact ⟨fun _ => Traced.sound_pure _, fun _ => ⟨tested _, Traced.sound_pure _⟩⟩ }

/-- A Bool without a body: the header alone. -/
def emptyBool : ParamBytes := ⟨fun i => [0, 0, 0, 0, 2, 0, 0, 0].getD i 0, 8⟩

theorem paramInspection_overruns : ¬InspectionSound emptyBool := by
  intro h
  have summary := h.summary fun _ => 0
  revert summary
  decide

end PipewireGobject
