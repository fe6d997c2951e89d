import PipewireGobject.ParamInspection

namespace PipewireGobject

/-- The bytes of a pod: its header and its body, without padding. -/
def Pod.bytes (p : Pod) : List UInt8 :=
  wordBytes p.body.length ++ wordBytes p.type ++ p.body

def longBytes (n : Nat) : List UInt8 := wordBytes (n % 4294967296) ++ wordBytes (n / 4294967296)

/-- The pod that holds a value. -/
def BasicValue.pod : BasicValue → Pod
  | .bool value => ⟨2, wordBytes (if value then 1 else 0)⟩
  | .id value => ⟨3, wordBytes value⟩
  | .int value => ⟨4, wordBytes value⟩
  | .long value => ⟨5, longBytes value⟩
  | .float bits => ⟨6, wordBytes bits⟩
  | .double bits => ⟨7, longBytes bits⟩
  | .string text => ⟨8, text ++ [0]⟩
  | .rectangle width height => ⟨10, wordBytes width ++ wordBytes height⟩
  | .fraction num denom => ⟨11, wordBytes num ++ wordBytes denom⟩

/-- A value that its pod has room for. -/
def BasicValue.Fits : BasicValue → Prop
  | .bool _ => True
  | .id n | .int n | .float n => n < 4294967296
  | .long n | .double n => n < 18446744073709551616
  | .string text => text.length + 1 < 4294967296 ∧ 0 ∉ text
  | .rectangle m n | .fraction m n => m < 4294967296 ∧ n < 4294967296

def objectPod (o : PodObject) : Pod := ⟨SpaType.object.code, o.body⟩

def PodObject.Fits (o : PodObject) : Prop :=
  o.type < 4294967296 ∧ o.id < 4294967296 ∧ o.body.length < 4294967296

/-- How often `SPA_POD_OBJECT_FOREACH` finds a property in what is left of a body: its header
and its value have to be inside. -/
def objectForeach : Nat → List UInt8 → Nat
  | 0, _ => 0
  | fuel + 1, bytes =>
    let size := littleEndian ((bytes.drop 8).take 4)
    if bytes.length < 16 ∨ bytes.length - 16 < size then 0
    else objectForeach fuel (bytes.drop (16 + size + padding size)) + 1

def paramCountObjectProperties (b : ParamBytes) : Nat :=
  let body := (List.range b.declared).map fun i => b.memory (8 + i)
  if b.podType = .object then objectForeach body.length (body.drop 8) else 0

/-- The parameter starts with these bytes. -/
def ParamBytes.StartsWith (b : ParamBytes) (bytes : List UInt8) : Prop :=
  bytes.length ≤ b.size ∧ ∀ i byte, bytes[i]? = some byte → b.memory i = byte

/-- A parameter with these bytes, and zeros behind them. -/
def paramBytes (bytes : List UInt8) : ParamBytes := ⟨fun i => bytes.getD i 0, bytes.length⟩

variable {b : ParamBytes} {bytes before after : List UInt8} {offset n : Nat} {p : Pod}

theorem paramBytes_append (bytes after : List UInt8) :
    (paramBytes (bytes ++ after)).StartsWith bytes := by
  refine ⟨by simp [paramBytes], fun i byte h => ?_⟩
  have inside : i < bytes.length := (List.getElem?_eq_some_iff.mp h).1
  simp [paramBytes, List.getD, List.getElem?_append_left inside, h]

theorem paramBytes_startsWith (bytes : List UInt8) : (paramBytes bytes).StartsWith bytes := by
  simpa using paramBytes_append bytes []

theorem ParamBytes.StartsWith.middle (h : b.StartsWith (before ++ (bytes ++ after))) :
    (List.range bytes.length).map (fun i => b.memory (before.length + i)) = bytes := by
  apply List.ext_getElem?
  intro i
  rw [List.getElem?_map]
  by_cases inside : i < bytes.length
  · have read : (before ++ (bytes ++ after))[before.length + i]? = some bytes[i] := by
      rw [List.getElem?_append_right (by omega), Nat.add_sub_cancel_left,
        List.getElem?_append_left inside, List.getElem?_eq_getElem inside]
    rw [List.getElem?_range inside, Option.map_some, h.2 _ _ read,
      List.getElem?_eq_getElem inside]
  · rw [List.getElem?_eq_none (by simp; omega), List.getElem?_eq_none (by omega)]
    rfl

theorem ParamBytes.StartsWith.word (h : b.StartsWith (before ++ (wordBytes n ++ after)))
    (place : before.length = offset) (small : n < 4294967296) :
    littleEndian ((List.range 4).map fun i => b.memory (offset + i)) = n := by
  subst place
  exact (congrArg littleEndian h.middle).trans (littleEndian_wordBytes small)

theorem littleEndian_words (a b : Nat) : littleEndian (wordBytes a ++ wordBytes b) =
    littleEndian (wordBytes a) + 4294967296 * littleEndian (wordBytes b) := by
  simp only [wordBytes, littleEndian, List.cons_append, List.nil_append, List.foldr_cons,
    List.foldr_nil]
  omega

theorem littleEndian_longBytes (h : n < 18446744073709551616) :
    littleEndian (longBytes n) = n := by
  rw [longBytes, littleEndian_words, littleEndian_wordBytes (Nat.mod_lt _ (by decide)),
    littleEndian_wordBytes (by omega)]
  exact Nat.mod_add_div n 4294967296

theorem ParamBytes.StartsWith.long (h : b.StartsWith (before ++ (longBytes n ++ after)))
    (place : before.length = offset) (small : n < 18446744073709551616) :
    littleEndian ((List.range 8).map fun i => b.memory (offset + i)) = n := by
  subst place
  exact (congrArg littleEndian h.middle).trans (littleEndian_longBytes small)

/-- What is printed of a text that ends at its NUL. -/
theorem printedString_text {memory : Nat → UInt8} {text : List UInt8} {limit : Nat}
    (reads : ∀ i byte, (text ++ [0])[i]? = some byte → memory (offset + i) = byte)
    (nonzero : 0 ∉ text) (room : text.length < limit) :
    (printedString memory offset limit).value = text := by
  induction text generalizing offset limit with
  | nil =>
    obtain ⟨limit, rfl⟩ := Nat.exists_eq_add_one_of_ne_zero (Nat.ne_of_gt room)
    have zero : memory offset = 0 := reads 0 0 rfl
    simp [printedString, zero]
  | cons c text ih =>
    obtain ⟨limit, rfl⟩ := Nat.exists_eq_add_one_of_ne_zero (Nat.ne_zero_of_lt room)
    have first : memory offset = c := reads 0 c rfl
    have other : c ≠ 0 := fun hc => nonzero (by simp [hc])
    have later : (printedString memory (offset + 1) limit).value = text := by
      refine ih (fun i byte hb => ?_) (fun hz => nonzero (by simp [hz])) (by simpa using room)
      rw [Nat.add_right_comm]
      exact reads (i + 1) byte hb
    simp [printedString, first, other, later]

theorem ParamBytes.StartsWith.declared (h : b.StartsWith p.bytes) (fits : p.Fits) :
    b.declared = p.body.length := by
  have layout : p.bytes = [] ++ (wordBytes p.body.length ++ (wordBytes p.type ++ p.body)) := by
    simp [Pod.bytes]
  rw [layout] at h
  exact h.word rfl fits.1

theorem ParamBytes.StartsWith.typeWord (h : b.StartsWith p.bytes) (fits : p.Fits) :
    (Traced.word b.memory 4).value = p.type := by
  have layout : p.bytes = wordBytes p.body.length ++ (wordBytes p.type ++ p.body) := by
    simp [Pod.bytes]
  rw [layout] at h
  exact h.word rfl fits.2

theorem ParamBytes.StartsWith.podType (h : b.StartsWith p.bytes) (fits : p.Fits) :
    b.podType = .ofCode p.type := congrArg SpaType.ofCode (h.typeWord fits)

theorem ParamBytes.StartsWith.hasPod (h : b.StartsWith p.bytes) (fits : p.Fits) : b.hasPod := by
  have length : p.bytes.length = 8 + p.body.length := by
    simp only [Pod.bytes, List.length_append, wordBytes_length]
  have room := h.1
  have declared := h.declared fits
  exact ⟨by omega, by omega⟩

theorem wordBytes_littleEndian {a b c d : UInt8} :
    wordBytes (littleEndian [a, b, c, d]) = [a, b, c, d] := by
  have ha := a.toNat_lt
  have hb := b.toNat_lt
  have hc := c.toNat_lt
  have hd := d.toNat_lt
  simp only [wordBytes, littleEndian, List.foldr_cons, List.foldr_nil, List.cons.injEq, and_true]
  refine ⟨?_, ?_, ?_, ?_⟩ <;> apply UInt8.toNat_inj.mp <;>
    simp only [Nat.toUInt8, UInt8.toNat_ofNat'] <;> omega

theorem littleEndian_lt (a b c d : UInt8) : littleEndian [a, b, c, d] < 4294967296 := by
  have ha := a.toNat_lt
  have hb := b.toNat_lt
  have hc := c.toNat_lt
  have hd := d.toNat_lt
  simp only [littleEndian, List.foldr_cons, List.foldr_nil]
  omega

/-- Every word that is read is the word of its four bytes. -/
theorem wordBytes_read (memory : Nat → UInt8) (offset : Nat) :
    wordBytes (littleEndian ((List.range 4).map fun i => memory (offset + i))) =
      (List.range 4).map fun i => memory (offset + i) := wordBytes_littleEndian

/-- There is a pod exactly if the bytes start with one that fits. -/
theorem hasPod_iff : b.hasPod ↔ ∃ p : Pod, p.Fits ∧ b.StartsWith p.bytes := by
  constructor
  · intro h
    let body := (List.range b.declared).map fun i => b.memory (8 + i)
    let code := littleEndian ((List.range 4).map fun i => b.memory (4 + i))
    have length : body.length = b.declared := by simp [body]
    refine ⟨⟨code, body⟩, ⟨?_, littleEndian_lt _ _ _ _⟩, ?_, fun i byte hb => ?_⟩
    · show body.length < 4294967296
      rw [length]
      exact littleEndian_lt _ _ _ _
    · have room := h.2
      simp only [Pod.bytes, List.length_append, wordBytes_length, length]
      omega
    · have read : (Pod.mk code body).bytes =
          (List.range (8 + b.declared)).map b.memory := by
        simp only [Pod.bytes, length]
        rw [ParamBytes.declared, wordBytes_read, wordBytes_read]
        simp [List.range_add, body, ParamBytes.declared, List.range_succ]
      rw [read, List.getElem?_map, Option.map_eq_some_iff] at hb
      obtain ⟨j, hj, rfl⟩ := hb
      obtain ⟨inside, rfl⟩ := List.getElem?_eq_some_iff.mp hj
      rw [List.getElem_range]
  · rintro ⟨p, fits, h⟩
    exact h.hasPod fits

theorem ParamBytes.StartsWith.getPod (h : b.StartsWith p.bytes) (fits : p.Fits) :
    (paramGetPod b).value = true := by
  rw [paramGetPod_value, decide_eq_true_iff]
  exact h.hasPod fits

/-- A word of the body, behind `before`. -/
theorem ParamBytes.StartsWith.bodyWord (before after : List UInt8) (h : b.StartsWith p.bytes)
    (body : p.body = before ++ (wordBytes n ++ after)) (place : 8 + before.length = offset)
    (small : n < 4294967296) :
    littleEndian ((List.range 4).map fun i => b.memory (offset + i)) = n := by
  have layout : p.bytes = (wordBytes p.body.length ++ wordBytes p.type ++ before) ++
      (wordBytes n ++ after) := by
    rw [Pod.bytes, body]
    simp
  rw [layout] at h
  refine h.word ?_ small
  simp only [List.length_append, wordBytes_length]
  omega

theorem ParamBytes.StartsWith.bodyLong (h : b.StartsWith p.bytes)
    (body : p.body = longBytes n) (small : n < 18446744073709551616) :
    littleEndian ((List.range 8).map fun i => b.memory (8 + i)) = n := by
  have layout : p.bytes = (wordBytes p.body.length ++ wordBytes p.type) ++
      (longBytes n ++ []) := by
    rw [Pod.bytes, body]
    simp
  rw [layout] at h
  exact h.long rfl small

theorem ParamBytes.StartsWith.firstWord (h : b.StartsWith p.bytes) (body : p.body = wordBytes n)
    (small : n < 4294967296) :
    littleEndian ((List.range 4).map fun i => b.memory (8 + i)) = n :=
  h.bodyWord [] [] (by rw [body]; simp) rfl small

theorem ParamBytes.StartsWith.twoWords {m : Nat} (h : b.StartsWith p.bytes)
    (body : p.body = wordBytes m ++ (wordBytes n ++ after))
    (first : m < 4294967296) (second : n < 4294967296) :
    littleEndian ((List.range 4).map fun i => b.memory (8 + i)) = m ∧
      littleEndian ((List.range 4).map fun i => b.memory (12 + i)) = n :=
  ⟨h.bodyWord [] _ body rfl first, h.bodyWord _ _ body rfl second⟩

theorem BasicValue.pod_fits {v : BasicValue} (h : v.Fits) : v.pod.Fits := by
  cases v with
  | string text =>
    have room : text.length + 1 < 4294967296 := h.1
    exact ⟨by simpa [BasicValue.pod] using room, by simp [BasicValue.pod]⟩
  | _ => exact ⟨by simp [BasicValue.pod, longBytes], by simp [BasicValue.pod]⟩

theorem ParamBytes.StartsWith.text {text : List UInt8}
    (h : b.StartsWith (BasicValue.string text).pod.bytes) (fits : (BasicValue.string text).Fits) :
    (printedString b.memory 8 (stringLimit b (text.length + 1))).value = text := by
  have length : (BasicValue.string text).pod.bytes.length = 8 + (text.length + 1) := by
    simp [Pod.bytes, BasicValue.pod]
    omega
  have room := h.1
  refine printedString_text (fun i byte hb => ?_) fits.2 ?_
  · apply h.2
    have header : (wordBytes (text ++ [(0 : UInt8)]).length ++ wordBytes 8).length = 8 := rfl
    show (wordBytes (text ++ [0]).length ++ wordBytes 8 ++ (text ++ [0]))[8 + i]? = some byte
    rw [List.getElem?_append_right (by omega), header, Nat.add_sub_cancel_left, hb]
  · unfold stringLimit
    split <;> omega

/-- The value is read from the pod that holds it. -/
theorem paramDupBasicValueSummary_reads {v : BasicValue} (fits : v.Fits)
    (h : b.StartsWith v.pod.bytes) : (paramDupBasicValueSummary b).value = some v := by
  have type : (paramPodType b).value = .ofCode v.pod.type := h.podType (BasicValue.pod_fits fits)
  rw [paramDupBasicValueSummary, Traced.bind_value, type]
  cases v with
  | bool value =>
    have word := h.firstWord rfl (by split <;> decide)
    cases value <;> simp [BasicValue.pod, SpaType.ofCode, word]
  | id value =>
    have word := h.firstWord rfl fits
    simp [BasicValue.pod, SpaType.ofCode, word]
  | int value =>
    have word := h.firstWord rfl fits
    simp [BasicValue.pod, SpaType.ofCode, word]
  | long value =>
    have long := h.bodyLong rfl fits
    simp [BasicValue.pod, SpaType.ofCode, long]
  | float bits =>
    have word := h.firstWord rfl fits
    simp [BasicValue.pod, SpaType.ofCode, word]
  | double bits =>
    have long := h.bodyLong rfl fits
    simp [BasicValue.pod, SpaType.ofCode, long]
  | string text =>
    have size : (Traced.word b.memory 0).value = text.length + 1 :=
      (h.declared (BasicValue.pod_fits fits)).trans (by simp [BasicValue.pod])
    have printed := h.text fits
    simp only [BasicValue.pod, SpaType.ofCode, Traced.bind_value, size, printed,
      Traced.pure_value]
  | rectangle width height =>
    obtain ⟨first, second⟩ := h.twoWords (by simp [BasicValue.pod]; rfl) fits.1 fits.2
    simp [BasicValue.pod, SpaType.ofCode, first, second]
  | fraction num denom =>
    obtain ⟨first, second⟩ := h.twoWords rfl fits.1 fits.2
    simp [BasicValue.pod, SpaType.ofCode, first, second]

theorem PodObject.fits_pod {o : PodObject} (h : o.Fits) : (objectPod o).Fits :=
  ⟨h.2.2, by show SpaType.object.code < 4294967296; decide⟩

theorem objectPod_body (o : PodObject) : (objectPod o).body =
    wordBytes o.type ++ (wordBytes o.id ++ o.props.flatMap PodProp.encode) := by
  simp [objectPod, PodObject.body]

theorem paramObjectWord_value (h : b.StartsWith p.bytes) (fits : p.Fits) :
    (paramObjectWord offset b).value =
      if SpaType.ofCode p.type = .object then (Traced.word b.memory offset).value else 0 := by
  have type : (paramPodType b).value = .ofCode p.type := h.podType fits
  rw [paramObjectWord, Traced.bind_value, h.getPod fits, if_pos rfl, Traced.bind_value, type]
  split <;> rfl

theorem paramGetPodType_value (h : b.StartsWith p.bytes) (fits : p.Fits) :
    (paramGetPodType b).value = p.type := by
  rw [paramGetPodType, Traced.bind_value, h.getPod fits, if_pos rfl]
  exact h.typeWord fits

theorem paramGetObjectType_value {o : PodObject} (h : b.StartsWith (objectPod o).bytes)
    (fits : o.Fits) : (paramGetObjectType b).value = o.type := by
  rw [paramGetObjectType, paramObjectWord_value h (PodObject.fits_pod fits)]
  exact (if_pos rfl).trans (h.twoWords (objectPod_body o) fits.1 fits.2.1).1

theorem paramGetObjectId_value {o : PodObject} (h : b.StartsWith (objectPod o).bytes)
    (fits : o.Fits) : (paramGetObjectId b).value = o.id := by
  rw [paramGetObjectId, paramObjectWord_value h (PodObject.fits_pod fits)]
  exact (if_pos rfl).trans (h.twoWords (objectPod_body o) fits.1 fits.2.1).2

/-- The iteration finds every property of an object. -/
theorem objectForeach_encode {props : List PodProp} {fuel : Nat} (enough : props.length ≤ fuel)
    (fits : ∀ q ∈ props, q.value.body.length < 4294967296) :
    objectForeach fuel (props.flatMap PodProp.encode) = props.length := by
  induction props generalizing fuel with
  | nil => cases fuel <;> simp [objectForeach]
  | cons q props ih =>
    obtain ⟨fuel, rfl⟩ := Nat.exists_eq_add_one_of_ne_zero (Nat.ne_zero_of_lt enough)
    obtain ⟨first, later⟩ := List.forall_mem_cons.mp fits
    generalize rest : props.flatMap PodProp.encode = bytes at ih
    have length : q.encode.length = 16 + q.value.body.length + padding q.value.body.length := by
      rw [PodProp.encode_length, Pod.encode_length]
      omega
    have layout : q.encode ++ bytes = (wordBytes q.key ++ wordBytes q.flags) ++
        (wordBytes q.value.body.length ++ (wordBytes q.value.type ++ (q.value.body ++
          (List.replicate (padding q.value.body.length) 0 ++ bytes)))) := by
      simp [PodProp.encode, Pod.encode]
    have size : littleEndian (((q.encode ++ bytes).drop 8).take 4) = q.value.body.length := by
      rw [layout, List.drop_left' (by simp), List.take_left' (by simp)]
      exact littleEndian_wordBytes first
    have inside : ¬((q.encode ++ bytes).length < 16 ∨
        (q.encode ++ bytes).length - 16 < q.value.body.length) := by
      rw [List.length_append]
      omega
    have next : (q.encode ++ bytes).drop
        (16 + q.value.body.length + padding q.value.body.length) = bytes :=
      List.drop_left' length
    rw [List.flatMap_cons, rest, objectForeach]
    simp only [size, inside, if_false, next, List.length_cons]
    rw [ih (by simpa using enough) later]

theorem paramCountObjectProperties_value {o : PodObject}
    (h : b.StartsWith (objectPod o).bytes) (fits : o.Fits) :
    paramCountObjectProperties b = o.props.length := by
  have type : b.podType = .object := h.podType (PodObject.fits_pod fits)
  have declared : b.declared = o.body.length := h.declared (PodObject.fits_pod fits)
  have read : (List.range o.body.length).map (fun i => b.memory (8 + i)) = o.body := by
    have body : b.StartsWith ((wordBytes o.body.length ++ wordBytes SpaType.object.code) ++
        (o.body ++ [])) := by
      rw [List.append_nil]
      exact h
    exact body.middle
  have props : o.body.drop 8 = o.props.flatMap PodProp.encode := List.drop_left' rfl
  have value : ∀ q ∈ o.props, q.value.body.length < 4294967296 := by
    intro q hq
    have part : q.encode.length ≤ (o.props.flatMap PodProp.encode).length := by
      obtain ⟨before, after, layout⟩ := List.append_of_mem hq
      rw [layout]
      simp
      omega
    have := fits.2.2
    have := PodProp.encode_length q
    have := q.value.encode_length
    rw [← props, List.length_drop] at part
    omega
  have enough : o.props.length ≤ o.body.length := by
    have some_bytes : ∀ q ∈ o.props, 0 < q.encode.length := by
      intro q _
      rw [PodProp.encode_length]
      omega
    have := length_le_flatMap some_bytes
    rw [← props, List.length_drop] at this
    omega
  simp only [paramCountObjectProperties, type, if_true, declared, read, props]
  exact objectForeach_encode enough value

/-- What the functions that inspect a parameter give. -/
structure InspectedAs (b : ParamBytes) (podType objectType objectId : Nat)
    (summary : ParamSummary) : Prop where
  podType : (paramGetPodType b).value = podType
  objectType : (paramGetObjectType b).value = objectType
  objectId : (paramGetObjectId b).value = objectId
  summary : (paramDupSummary paramCountObjectProperties b).value = summary

/-- A pod that is no object. -/
theorem inspected_noObject {summary : ParamSummary} (h : b.StartsWith p.bytes) (fits : p.Fits)
    (other : SpaType.ofCode p.type ≠ .object)
    (value : (paramValueSummary p.type b).value = summary) :
    InspectedAs b p.type 0 0 summary where
  podType := paramGetPodType_value h fits
  objectType := by rw [paramGetObjectType, paramObjectWord_value h fits, if_neg other]
  objectId := by rw [paramGetObjectId, paramObjectWord_value h fits, if_neg other]
  summary := by
    rw [paramDupSummary, Traced.bind_value, h.getPod fits, if_pos rfl, Traced.bind_value,
      h.typeWord fits, if_neg other, value]

theorem inspected_object {o : PodObject} (h : b.StartsWith (objectPod o).bytes)
    (fits : o.Fits) :
    InspectedAs b SpaType.object.code o.type o.id (.object o.type o.id o.props.length) where
  podType := paramGetPodType_value h (PodObject.fits_pod fits)
  objectType := paramGetObjectType_value h fits
  objectId := paramGetObjectId_value h fits
  summary := by
    have pod := PodObject.fits_pod fits
    have object : SpaType.ofCode (objectPod o).type = .object := rfl
    rw [paramDupSummary, Traced.bind_value, h.getPod pod, if_pos rfl, Traced.bind_value,
      h.typeWord pod, if_pos object, paramObjectSummary, Traced.bind_value, Traced.bind_value,
      paramGetObjectType_value h fits, paramGetObjectId_value h fits,
      paramCountObjectProperties_value h fits]
    rfl

theorem inspected_value {v : BasicValue} (fits : v.Fits) (h : b.StartsWith v.pod.bytes) :
    InspectedAs b v.pod.type 0 0 (.value v.pod.type v) := by
  refine inspected_noObject h (BasicValue.pod_fits fits) ?_ ?_
  · cases v <;> simp [BasicValue.pod, SpaType.ofCode]
  · rw [paramValueSummary, Traced.bind_value, paramDupBasicValueSummary_reads fits h]
    rfl

/-- The types that have no summary of their own. -/
def SpaType.Unsummarized : SpaType → Prop
  | .none | .struct | .other _ => True
  | _ => False

theorem inspected_other (h : b.StartsWith p.bytes) (fits : p.Fits)
    (other : (SpaType.ofCode p.type).Unsummarized) :
    InspectedAs b p.type 0 0 (.other p.type p.body.length) := by
  have type : (paramPodType b).value = .ofCode p.type := h.podType fits
  have size : (Traced.word b.memory 0).value = p.body.length := h.declared fits
  refine inspected_noObject h fits (fun object => by simp [object, SpaType.Unsummarized] at other)
    ?_
  rw [paramValueSummary, Traced.bind_value, paramDupBasicValueSummary, Traced.bind_value, type]
  cases code : SpaType.ofCode p.type <;> rw [code] at other <;>
    simp only [SpaType.Unsummarized] at other <;>
    simp only [Traced.pure_value, Traced.bind_value, size]

theorem inspected_invalid (h : ¬b.hasPod) : InspectedAs b 0 0 0 .invalid := by
  have missing : (paramGetPod b).value = false := by
    rw [paramGetPod_value, decide_eq_false_iff_not]
    exact h
  constructor
  · rw [paramGetPodType, Traced.bind_value, missing]
    rfl
  · rw [paramGetObjectType, paramObjectWord, Traced.bind_value, missing]
    rfl
  · rw [paramGetObjectId, paramObjectWord, Traced.bind_value, missing]
    rfl
  · rw [paramDupSummary, Traced.bind_value, missing]
    rfl

/-- What a pod can hold, as far as it is inspected. -/
inductive PodContents
  | object (o : PodObject)
  | value (v : BasicValue)
  | other (p : Pod)

namespace PodContents

def pod : PodContents → Pod
  | .object o => objectPod o
  | .value v => v.pod
  | .other p => p

def Fits : PodContents → Prop
  | .object o => o.Fits
  | .value v => v.Fits
  | .other p => p.Fits ∧ (SpaType.ofCode p.type).Unsummarized

def objectType : PodContents → Nat
  | .object o => o.type
  | _ => 0

def objectId : PodContents → Nat
  | .object o => o.id
  | _ => 0

def summary : PodContents → ParamSummary
  | .object o => .object o.type o.id o.props.length
  | .value v => .value v.pod.type v
  | .other p => .other p.type p.body.length

end PodContents

end PipewireGobject
