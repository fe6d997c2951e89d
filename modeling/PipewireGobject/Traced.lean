import Mathlib.Logic.Basic

namespace PipewireGobject

/-- A machine operation that can go wrong: a load, an unsigned operation given with
the result that no bound would cut off, or a division. -/
inductive MachineStep
  | load (offset bytes : Nat)
  | unsigned (exact : Int) (result : Nat)
  | division (divisor : Nat)
  deriving DecidableEq

/-- A load stays in an area of `size` bytes, a result is exact, a divisor is not zero. -/
def MachineStep.Sound (size : Nat) : MachineStep → Prop
  | .load offset bytes => bytes = 0 ∨ offset + bytes ≤ size
  | .unsigned exact result => exact = result
  | .division divisor => divisor ≠ 0

instance (size : Nat) : (i : MachineStep) → Decidable (i.Sound size)
  | .load _ _ => inferInstanceAs (Decidable (_ ∨ _))
  | .unsigned _ _ => inferInstanceAs (Decidable (_ = _))
  | .division _ => inferInstanceAs (Decidable (_ ≠ _))

/-- The bytes that a load covers are all in the area. -/
theorem MachineStep.sound_load {size offset bytes : Nat} :
    (MachineStep.load offset bytes).Sound size ↔
      ∀ address, offset ≤ address → address < offset + bytes → address < size := by
  constructor
  · intro h address ho hb
    simp only [MachineStep.Sound] at h
    omega
  · intro h
    by_cases hb : bytes = 0
    · exact .inl hb
    · have := h (offset + bytes - 1) (by omega) (by omega)
      exact .inr (by omega)

/-- The number stored in the bytes, lowest byte first. -/
def littleEndian (bytes : List UInt8) : Nat :=
  bytes.foldr (fun byte n => byte.toNat + 256 * n) 0

/-- A computation with the machine operations it performs, in order. -/
structure Traced (α : Type) where
  value : α
  steps : List MachineStep

namespace Traced

variable {α β : Type} {size : Nat}

instance : Monad Traced where
  pure a := ⟨a, []⟩
  bind m f := ⟨(f m.value).value, m.steps ++ (f m.value).steps⟩

@[simp] theorem pure_value (a : α) : (pure a : Traced α).value = a := rfl

@[simp] theorem bind_value (m : Traced α) (f : α → Traced β) :
    (m >>= f).value = (f m.value).value := rfl

/-- The bytes that `memory` holds from `offset` on. -/
def load (memory : Nat → UInt8) (offset bytes : Nat) : Traced (List UInt8) :=
  ⟨(List.range bytes).map fun i => memory (offset + i), [.load offset bytes]⟩

/-- The 32-bit word at `offset`. -/
def word (memory : Nat → UInt8) (offset : Nat) : Traced Nat := do
  let bytes ← load memory offset 4
  pure (littleEndian bytes)

def sub (a b : UInt32) : Traced UInt32 :=
  ⟨a - b, [.unsigned (a.toNat - b.toNat) (a - b).toNat]⟩

def mul (a b : UInt32) : Traced UInt32 :=
  ⟨a * b, [.unsigned (a.toNat * b.toNat) (a * b).toNat]⟩

def succ (a : UInt32) : Traced UInt32 :=
  ⟨a + 1, [.unsigned (a.toNat + 1) (a + 1).toNat]⟩

def div (a b : UInt32) : Traced UInt32 := ⟨a / b, [.division b.toNat]⟩

def mod (a b : UInt32) : Traced UInt32 := ⟨a % b, [.division b.toNat]⟩

/-- A 64-bit quotient stored in 32 bits. -/
def divNarrow (a b : UInt64) : Traced UInt32 :=
  ⟨(a / b).toUInt32, [.division b.toNat, .unsigned (a / b).toNat (a / b).toUInt32.toNat]⟩

@[simp] theorem load_value (memory : Nat → UInt8) (offset bytes : Nat) :
    (load memory offset bytes).value = (List.range bytes).map fun i => memory (offset + i) := rfl

@[simp] theorem word_value (memory : Nat → UInt8) (offset : Nat) :
    (word memory offset).value =
      littleEndian ((List.range 4).map fun i => memory (offset + i)) := rfl

@[simp] theorem sub_value (a b : UInt32) : (sub a b).value = a - b := rfl

@[simp] theorem mul_value (a b : UInt32) : (mul a b).value = a * b := rfl

@[simp] theorem succ_value (a : UInt32) : (succ a).value = a + 1 := rfl

@[simp] theorem div_value (a b : UInt32) : (div a b).value = a / b := rfl

@[simp] theorem mod_value (a b : UInt32) : (mod a b).value = a % b := rfl

@[simp] theorem divNarrow_value (a b : UInt64) :
    (divNarrow a b).value = (a / b).toUInt32 := rfl

/-- Every operation of the computation is sound in an area of `size` bytes. -/
def Sound (size : Nat) (m : Traced α) : Prop := ∀ i ∈ m.steps, i.Sound size

instance (m : Traced α) : Decidable (m.Sound size) :=
  inferInstanceAs (Decidable (∀ i ∈ m.steps, i.Sound size))

@[simp] theorem sound_pure (a : α) : (pure a : Traced α).Sound size :=
  fun _ h => absurd h List.not_mem_nil

@[simp] theorem sound_bind (m : Traced α) (f : α → Traced β) :
    (m >>= f).Sound size ↔ m.Sound size ∧ (f m.value).Sound size := by
  constructor
  · intro h
    exact ⟨fun i hi => h i (List.mem_append_left _ hi),
      fun i hi => h i (List.mem_append_right _ hi)⟩
  · intro h i hi
    exact (List.mem_append.mp hi).elim (h.1 i) (h.2 i)

@[simp] theorem sound_ite {c : Prop} [Decidable c] (m n : Traced α) :
    (if c then m else n).Sound size ↔ (c → m.Sound size) ∧ (¬c → n.Sound size) := by
  split
  next hc => exact ⟨fun h => ⟨fun _ => h, fun hn => absurd hc hn⟩, fun h => h.1 hc⟩
  next hc => exact ⟨fun h => ⟨fun hp => absurd hp hc, fun _ => h⟩, fun h => h.2 hc⟩

theorem sound_singleton {m : Traced α} {i : MachineStep} (h : m.steps = [i]) :
    m.Sound size ↔ i.Sound size := by
  simp [Sound, h]

theorem toNat_ne_zero (a : UInt32) : a.toNat ≠ 0 ↔ a ≠ 0 := by
  rw [Ne, Ne, ← UInt32.toNat_inj]
  rfl

@[simp] theorem sound_load (memory : Nat → UInt8) (offset bytes : Nat) :
    (load memory offset bytes).Sound size ↔ bytes = 0 ∨ offset + bytes ≤ size := by
  rw [sound_singleton rfl]
  rfl

@[simp] theorem sound_word (memory : Nat → UInt8) (offset : Nat) :
    (word memory offset).Sound size ↔ offset + 4 ≤ size := by
  rw [word, sound_bind, sound_load]
  simp

@[simp] theorem sound_sub (a b : UInt32) : (sub a b).Sound size ↔ b ≤ a := by
  rw [sound_singleton rfl, UInt32.le_iff_toNat_le]
  have ha := a.toNat_lt
  have hb := b.toNat_lt
  simp only [MachineStep.Sound, UInt32.toNat_sub]
  omega

/-- A result cut to 32 bits is exact when it needs no more. -/
theorem exact_narrow (n : Nat) : (n : Int) = (n % 4294967296 : Nat) ↔ n < 4294967296 := by
  omega

@[simp] theorem sound_mul (a b : UInt32) :
    (mul a b).Sound size ↔ a.toNat * b.toNat < 4294967296 := by
  rw [sound_singleton rfl, ← exact_narrow]
  simp only [MachineStep.Sound, UInt32.toNat_mul, Int.natCast_mul]

@[simp] theorem sound_succ (a : UInt32) : (succ a).Sound size ↔ a.toNat + 1 < 4294967296 := by
  rw [sound_singleton rfl, ← exact_narrow]
  rfl

@[simp] theorem sound_div (a b : UInt32) : (div a b).Sound size ↔ b ≠ 0 := by
  rw [sound_singleton rfl, ← toNat_ne_zero]
  rfl

@[simp] theorem sound_mod (a b : UInt32) : (mod a b).Sound size ↔ b ≠ 0 := by
  rw [sound_singleton rfl, ← toNat_ne_zero]
  rfl

@[simp] theorem sound_divNarrow (a b : UInt64) :
    (divNarrow a b).Sound size ↔ b ≠ 0 ∧ (a / b).toNat < 4294967296 := by
  rw [← exact_narrow, Ne, ← UInt64.toNat_inj]
  simp [divNarrow, Sound, MachineStep.Sound]

end Traced

end PipewireGobject
