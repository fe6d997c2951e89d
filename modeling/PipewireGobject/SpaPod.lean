import PipewireGobject.Traced

namespace PipewireGobject

/-- The types of values that the format defines, as far as they are told apart here. -/
inductive SpaType
  | none
  | bool
  | id
  | int
  | long
  | float
  | double
  | string
  | rectangle
  | fraction
  | struct
  | object
  | other (code : Nat)
  deriving DecidableEq

def SpaType.ofCode : Nat → SpaType
  | 1 => .none
  | 2 => .bool
  | 3 => .id
  | 4 => .int
  | 5 => .long
  | 6 => .float
  | 7 => .double
  | 8 => .string
  | 10 => .rectangle
  | 11 => .fraction
  | 14 => .struct
  | 15 => .object
  | code => .other code

def SpaType.code : SpaType → Nat
  | .none => 1
  | .bool => 2
  | .id => 3
  | .int => 4
  | .long => 5
  | .float => 6
  | .double => 7
  | .string => 8
  | .rectangle => 10
  | .fraction => 11
  | .struct => 14
  | .object => 15
  | .other code => code

/-- A value in the SPA format: a header with the size and the type, then the body. -/
structure Pod where
  type : Nat
  body : List UInt8
  deriving DecidableEq

structure PodProp where
  key : Nat
  flags : Nat
  value : Pod
  deriving DecidableEq

structure PodObject where
  type : Nat
  id : Nat
  props : List PodProp
  deriving DecidableEq

def wordBytes (n : Nat) : List UInt8 :=
  [n.toUInt8, (n / 256).toUInt8, (n / 65536).toUInt8, (n / 16777216).toUInt8]

/-- The zero bytes that bring `n` bytes to a multiple of 8. -/
def padding (n : Nat) : Nat := (8 - n % 8) % 8

def Pod.encode (p : Pod) : List UInt8 :=
  wordBytes p.body.length ++ wordBytes p.type ++ p.body ++
    List.replicate (padding p.body.length) 0

def PodProp.encode (p : PodProp) : List UInt8 :=
  wordBytes p.key ++ wordBytes p.flags ++ p.value.encode

def PodObject.body (o : PodObject) : List UInt8 :=
  wordBytes o.type ++ wordBytes o.id ++ o.props.flatMap PodProp.encode

/-- The pod that the bytes start with, and the bytes after it. It has to start at a
multiple of 8 and to fit, with its padding. -/
def decodePod (offset : Nat) (bytes : List UInt8) : Option (Pod × List UInt8) :=
  let size := littleEndian (bytes.take 4)
  if offset % 8 ≠ 0 ∨ bytes.length < 8 + size + padding size then none
  else some (⟨littleEndian ((bytes.drop 4).take 4), (bytes.drop 8).take size⟩,
    bytes.drop (8 + size + padding size))

def decodeProp (offset : Nat) (bytes : List UInt8) : Option (PodProp × List UInt8) :=
  (decodePod (offset + 8) (bytes.drop 8)).map fun r =>
    (⟨littleEndian (bytes.take 4), littleEndian ((bytes.drop 4).take 4), r.1⟩, r.2)

/-- Decode one entry after the other until no byte is left. -/
def decodeAll {α : Type} (decode : Nat → List UInt8 → Option (α × List UInt8)) :
    Nat → Nat → List UInt8 → Option (List α)
  | _, _, [] => some []
  | 0, _, _ :: _ => none
  | fuel + 1, offset, byte :: bytes => do
    let (entry, rest) ← decode offset (byte :: bytes)
    let entries ← decodeAll decode fuel (offset + ((byte :: bytes).length - rest.length)) rest
    pure (entry :: entries)

/-- The children of a struct whose body starts at `offset`. -/
def decodeStruct (offset : Nat) (body : List UInt8) : Option (List Pod) :=
  decodeAll decodePod body.length offset body

def decodeObject (offset : Nat) (body : List UInt8) : Option PodObject :=
  if body.length < 8 then none
  else (decodeAll decodeProp body.length (offset + 8) (body.drop 8)).map fun props =>
    ⟨littleEndian (body.take 4), littleEndian ((body.drop 4).take 4), props⟩

section RoundTrip

variable {n : Nat} {offset : Nat} {rest : List UInt8}

theorem littleEndian_wordBytes (h : n < 4294967296) : littleEndian (wordBytes n) = n := by
  simp only [littleEndian, wordBytes, List.foldr_cons, List.foldr_nil, Nat.toUInt8,
    UInt8.toNat_ofNat']
  omega

@[simp] theorem wordBytes_length (n : Nat) : (wordBytes n).length = 4 := rfl

theorem padding_aligned (n : Nat) : (n + padding n) % 8 = 0 := by
  simp only [padding]
  omega

theorem Pod.encode_length (p : Pod) :
    p.encode.length = 8 + p.body.length + padding p.body.length := by
  simp only [encode, List.length_append, wordBytes_length, List.length_replicate]

theorem Pod.encode_aligned (p : Pod) : p.encode.length % 8 = 0 := by
  have := padding_aligned p.body.length
  rw [encode_length]
  omega

theorem flatMap_encode_aligned (pods : List Pod) : (pods.flatMap Pod.encode).length % 8 = 0 := by
  induction pods with
  | nil => rfl
  | cons p pods ih =>
    have := p.encode_aligned
    simp only [List.flatMap_cons, List.length_append]
    omega

theorem body_le_flatMap {p : Pod} {pods : List Pod} (h : p ∈ pods) :
    p.body.length ≤ (pods.flatMap Pod.encode).length := by
  induction pods with
  | nil => simp at h
  | cons q pods ih =>
    have first := q.encode_length
    simp only [List.flatMap_cons, List.length_append]
    rcases List.mem_cons.mp h with rfl | h
    · omega
    · have := ih h
      omega

/-- A pod whose size and type fit into its header. -/
def Pod.Fits (p : Pod) : Prop := p.body.length < 4294967296 ∧ p.type < 4294967296

/-- Two words in front of the other bytes are read back. -/
theorem words_take {a b : Nat} (ha : a < 4294967296) (hb : b < 4294967296)
    (rest : List UInt8) :
    littleEndian ((wordBytes a ++ wordBytes b ++ rest).take 4) = a ∧
      littleEndian (((wordBytes a ++ wordBytes b ++ rest).drop 4).take 4) = b ∧
      (wordBytes a ++ wordBytes b ++ rest).drop 8 = rest := by
  refine ⟨?_, ?_, ?_⟩
  · rw [List.append_assoc, List.take_left' (wordBytes_length a), littleEndian_wordBytes ha]
  · rw [List.append_assoc, List.drop_left' (wordBytes_length a),
      List.take_left' (wordBytes_length b), littleEndian_wordBytes hb]
  · exact List.drop_left' (by simp)

theorem decodePod_encode {p : Pod} (h : p.Fits) (aligned : offset % 8 = 0)
    (rest : List UInt8) : decodePod offset (p.encode ++ rest) = some (p, rest) := by
  have layout : p.encode ++ rest = wordBytes p.body.length ++ wordBytes p.type ++
      (p.body ++ (List.replicate (padding p.body.length) 0 ++ rest)) := by
    simp [Pod.encode]
  obtain ⟨size, type, body⟩ := words_take h.1 h.2
    (p.body ++ (List.replicate (padding p.body.length) 0 ++ rest))
  rw [← layout] at size type body
  have length := p.encode_length
  simp only [decodePod, size, type]
  rw [if_neg (by simp only [List.length_append]; omega), body, List.take_left,
    List.drop_left' length]

/-- A property whose words and value fit. -/
def PodProp.Fits (p : PodProp) : Prop :=
  p.key < 4294967296 ∧ p.flags < 4294967296 ∧ p.value.Fits

theorem PodProp.encode_length (p : PodProp) : p.encode.length = 8 + p.value.encode.length := by
  simp only [encode, List.length_append, wordBytes_length]

theorem decodeProp_encode {p : PodProp} (h : p.Fits) (aligned : offset % 8 = 0)
    (rest : List UInt8) : decodeProp offset (p.encode ++ rest) = some (p, rest) := by
  have layout : p.encode ++ rest = wordBytes p.key ++ wordBytes p.flags ++
      (p.value.encode ++ rest) := by
    simp [PodProp.encode]
  obtain ⟨key, flags, value⟩ := words_take h.1 h.2.1 (p.value.encode ++ rest)
  rw [← layout] at key flags value
  rw [decodeProp, value, decodePod_encode h.2.2 (by omega), key, flags]
  rfl

/-- Entries that are encoded one after the other, each a positive multiple of 8 bytes long,
are all read back. -/
theorem decodeAll_encode {α : Type} {decode : Nat → List UInt8 → Option (α × List UInt8)}
    {encode : α → List UInt8} {entries : List α} {fuel : Nat}
    (aligned : offset % 8 = 0) (enough : entries.length ≤ fuel)
    (lengths : ∀ e ∈ entries, 0 < (encode e).length ∧ (encode e).length % 8 = 0)
    (roundTrip : ∀ e ∈ entries, ∀ offset rest, offset % 8 = 0 →
      decode offset (encode e ++ rest) = some (e, rest)) :
    decodeAll decode fuel offset (entries.flatMap encode) = some entries := by
  induction entries generalizing fuel offset with
  | nil => cases fuel <;> rfl
  | cons e entries ih =>
    cases fuel with
    | zero => simp at enough
    | succ fuel =>
      obtain ⟨first, later⟩ := List.forall_mem_cons.mp lengths
      obtain ⟨byte, bytes, layout⟩ : ∃ byte bytes,
          encode e ++ entries.flatMap encode = byte :: bytes :=
        List.exists_cons_of_ne_nil fun he => by
          have none_left := congrArg List.length he
          simp only [List.length_append, List.length_nil] at none_left
          omega
      have used : (byte :: bytes).length - (entries.flatMap encode).length =
          (encode e).length := by
        rw [← layout, List.length_append]
        omega
      have head : decode offset (byte :: bytes) = some (e, entries.flatMap encode) := by
        rw [← layout]
        exact roundTrip e List.mem_cons_self offset _ aligned
      have tail : decodeAll decode fuel (offset + (encode e).length)
          (entries.flatMap encode) = some entries :=
        ih (by omega) (by simpa using enough) later
          fun x hx => roundTrip x (List.mem_cons_of_mem _ hx)
      rw [List.flatMap_cons, layout, decodeAll, head]
      simp only [Option.bind_eq_bind, Option.bind_some, used, tail]
      rfl

/-- There are no more entries than bytes. -/
theorem length_le_flatMap {α : Type} {encode : α → List UInt8} {entries : List α}
    (lengths : ∀ e ∈ entries, 0 < (encode e).length) :
    entries.length ≤ (entries.flatMap encode).length := by
  induction entries with
  | nil => exact Nat.le_refl 0
  | cons e entries ih =>
    obtain ⟨first, later⟩ := List.forall_mem_cons.mp lengths
    have := ih later
    simp only [List.flatMap_cons, List.length_append, List.length_cons]
    omega

theorem decodeStruct_encode {pods : List Pod} (h : ∀ p ∈ pods, p.Fits)
    (aligned : offset % 8 = 0) :
    decodeStruct offset (pods.flatMap Pod.encode) = some pods := by
  have lengths : ∀ p ∈ pods, 0 < p.encode.length ∧ p.encode.length % 8 = 0 := by
    intro p _
    have := p.encode_length
    exact ⟨by omega, p.encode_aligned⟩
  exact decodeAll_encode aligned (length_le_flatMap fun p hp => (lengths p hp).1) lengths
    fun p hp offset rest ha => decodePod_encode (h p hp) ha rest

theorem decodeObject_body {o : PodObject} (words : o.type < 4294967296 ∧ o.id < 4294967296)
    (h : ∀ p ∈ o.props, p.Fits) (aligned : offset % 8 = 0) :
    decodeObject offset o.body = some o := by
  have lengths : ∀ p ∈ o.props, 0 < p.encode.length ∧ p.encode.length % 8 = 0 := by
    intro p _
    have := p.encode_length
    have := p.value.encode_aligned
    exact ⟨by omega, by omega⟩
  obtain ⟨type, id, props⟩ := words_take words.1 words.2 (o.props.flatMap PodProp.encode)
  have room : 8 + o.props.length ≤ o.body.length := by
    have := length_le_flatMap fun p hp => (lengths p hp).1
    simp only [PodObject.body, List.length_append, wordBytes_length]
    omega
  rw [decodeObject, if_neg (by omega)]
  simp only [PodObject.body] at room ⊢
  rw [type, id, props, decodeAll_encode (by omega) (by omega) lengths
    fun p hp offset rest ha => decodeProp_encode (h p hp) ha rest]
  rfl

end RoundTrip

end PipewireGobject
