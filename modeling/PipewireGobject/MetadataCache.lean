import Mathlib.Data.List.Induction
import PipewireGobject.FlatTable
import PipewireGobject.Registry

namespace PipewireGobject

structure MetadataEntry where
  subject : UInt32
  key : CString
  type : Option CString
  value : CString
  deriving DecidableEq

/-- What a property event reports. Without a value it clears its key, without a key its subject. -/
structure MetadataChange where
  subject : UInt32
  key : Option CString
  type : Option CString
  value : Option CString
  deriving DecidableEq

abbrev MetadataEntries := Table CString MetadataEntry

/-- `g_strdup_printf("%u:%s", subject, key)` -/
def metadataCacheKey (subject : UInt32) (key : CString) : CString :=
  (Nat.toDigits 10 subject.toNat).map Char.toUInt8 ++ ':'.toUInt8 :: key

def metadataLookupEntry (entries : MetadataEntries) (subject : UInt32) (key : CString) :
    Option MetadataEntry :=
  entries.lookup (metadataCacheKey subject key)

def metadataClearSubject (subject : UInt32) (entries : MetadataEntries) : MetadataEntries :=
  Table.keep (fun entry => entry.subject ≠ subject) entries

def metadataCacheChange (change : MetadataChange) (entries : MetadataEntries) :
    MetadataEntries :=
  match change.key with
  | none => metadataClearSubject change.subject entries
  | some key =>
    match change.value with
    | none => entries.erase (metadataCacheKey change.subject key)
    | some value =>
      entries.insert (metadataCacheKey change.subject key) ⟨change.subject, key, change.type, value⟩

def metadataDupValue (entries : MetadataEntries) (subject : UInt32) (key : CString) :
    Option CString :=
  (metadataLookupEntry entries subject key).map (·.value)

def metadataDupValueType (entries : MetadataEntries) (subject : UInt32) (key : CString) :
    Option CString :=
  (metadataLookupEntry entries subject key).bind (·.type)

/-- The cache that starts empty and applies the changes in turn. -/
def metadataCached (changes : List MetadataChange) : MetadataEntries :=
  changes.foldl (fun entries change => metadataCacheChange change entries) ∅

/-- The type and the value of each pair of a subject and a key. -/
abbrev MetadataMap := UInt32 × CString → Option (Option CString × CString)

/-- What a change means for the map that the cache stands for. -/
def MetadataMap.change (change : MetadataChange) (m : MetadataMap) : MetadataMap :=
  match change.key with
  | none => fun i => if i.1 = change.subject then none else m i
  | some key =>
    Function.update m (change.subject, key) (change.value.map fun value => (change.type, value))

def MetadataMap.changed (changes : List MetadataChange) : MetadataMap :=
  changes.foldl (fun m change => m.change change) fun _ => none

/-- The code of a decimal digit fits a byte. -/
theorem toUInt8_toNat {c : Char} (h : c.isDigit = true) :
    c.toUInt8.toNat = c.toNat ∧ 48 ≤ c.toNat ∧ c.toNat ≤ 57 := by
  have range : 48 ≤ c.toNat ∧ c.toNat ≤ 57 := by
    obtain ⟨low, high⟩ := (Bool.and_eq_true _ _).mp h
    exact ⟨UInt32.le_iff_toNat_le.mp (of_decide_eq_true low),
      UInt32.le_iff_toNat_le.mp (of_decide_eq_true high)⟩
  have fits : c.toUInt8.toNat = c.toNat % 256 := UInt32.toNat_toUInt8 c.val
  exact ⟨by omega, range⟩

theorem colon_notMem_digits (n : Nat) :
    ':'.toUInt8 ∉ (Nat.toDigits 10 n).map Char.toUInt8 := by
  intro hm
  obtain ⟨c, hc, he⟩ := List.mem_map.mp hm
  have digit := Nat.isDigit_of_mem_toDigits (by decide) (by decide) hc
  obtain ⟨same, -, small⟩ := toUInt8_toNat digit
  have colon : c.toUInt8.toNat = 58 := congrArg UInt8.toNat he
  omega

/-- The bytes of a number tell its digits. -/
theorem toDigits_bytes {m n : Nat}
    (h : (Nat.toDigits 10 m).map Char.toUInt8 = (Nat.toDigits 10 n).map Char.toUInt8) : m = n := by
  have read (k : Nat) : ((Nat.toDigits 10 k).map Char.toUInt8).map (fun b => Char.ofNat b.toNat) =
      Nat.toDigits 10 k := by
    rw [List.map_map]
    conv_rhs => rw [← List.map_id (Nat.toDigits 10 k)]
    refine List.map_congr_left fun c hc => ?_
    have digit := Nat.isDigit_of_mem_toDigits (by decide) (by decide) hc
    show Char.ofNat c.toUInt8.toNat = c
    rw [(toUInt8_toNat digit).1, Char.ofNat_toNat]
  have digits : Nat.toDigits 10 m = Nat.toDigits 10 n := by rw [← read m, h, read n]
  calc
    m = Nat.ofDigitChars 10 (Nat.toDigits 10 m) 0 := Nat.ofDigitChars_ten_toDigits.symm
    _ = Nat.ofDigitChars 10 (Nat.toDigits 10 n) 0 := by rw [digits]
    _ = n := Nat.ofDigitChars_ten_toDigits

/-- The first separator ends the first part, whatever the second contains. -/
theorem append_separator_inj {α : Type} {separator : α} {a b x y : List α} (ha : separator ∉ a)
    (hb : separator ∉ b) (h : a ++ separator :: x = b ++ separator :: y) : a = b ∧ x = y := by
  induction a generalizing b with
  | nil =>
    cases b with
    | nil => exact ⟨rfl, (List.cons.inj h).2⟩
    | cons c b =>
      obtain ⟨rfl, -⟩ := List.cons.inj h
      exact absurd List.mem_cons_self hb
  | cons d a ih =>
    cases b with
    | nil =>
      obtain ⟨rfl, -⟩ := List.cons.inj h
      exact absurd List.mem_cons_self ha
    | cons c b =>
      obtain ⟨rfl, rest⟩ := List.cons.inj h
      obtain ⟨rfl, hx⟩ := ih (fun hm => ha (List.mem_cons_of_mem _ hm))
        (fun hm => hb (List.mem_cons_of_mem _ hm)) rest
      exact ⟨rfl, hx⟩

def metadataIndexKey (i : UInt32 × CString) : CString := metadataCacheKey i.1 i.2

theorem metadataIndexKey_injective : Function.Injective metadataIndexKey := by
  rintro ⟨subject, key⟩ ⟨subject', key'⟩ h
  obtain ⟨digits, rfl⟩ := append_separator_inj
    (colon_notMem_digits subject.toNat) (colon_notMem_digits subject'.toNat) h
  have subjects : subject = subject' := UInt32.toNat_inj.mp (toDigits_bytes digits)
  rw [subjects]

def MetadataEntry.index (entry : MetadataEntry) : UInt32 × CString := (entry.subject, entry.key)

/-- Each entry of the cache is filed under its own subject and key. -/
abbrev MetadataFiled (entries : MetadataEntries) : Prop :=
  Filed metadataIndexKey MetadataEntry.index entries

/-- The map that a cache stands for. -/
def metadataView (entries : MetadataEntries) : MetadataMap := fun i =>
  (Table.find metadataIndexKey entries i).map fun entry => (entry.type, entry.value)

variable {entries : MetadataEntries}

theorem metadataView_erase (i : UInt32 × CString) :
    metadataView (entries.erase (metadataIndexKey i)) =
      Function.update (metadataView entries) i none := by
  funext j
  unfold metadataView
  rw [Table.find_erase metadataIndexKey_injective]
  by_cases hj : j = i
  · simp [hj]
  · simp [hj]

theorem metadataView_insert (i : UInt32 × CString) (entry : MetadataEntry) :
    metadataView (entries.insert (metadataIndexKey i) entry) =
      Function.update (metadataView entries) i (some (entry.type, entry.value)) := by
  funext j
  unfold metadataView
  rw [Table.find_insert metadataIndexKey_injective]
  by_cases hj : j = i
  · simp [hj]
  · simp [hj]

/-- The subjects that the entries carry are those that they are found under. -/
theorem metadataView_clearSubject (h : MetadataFiled entries) (subject : UInt32) :
    metadataView (metadataClearSubject subject entries) = fun i =>
      if i.1 = subject then none else metadataView entries i := by
  funext i
  have kept : Table.find metadataIndexKey (metadataClearSubject subject entries) i =
      if decide (i.1 ≠ subject) then Table.find metadataIndexKey entries i else none :=
    Table.find_keep metadataIndexKey_injective h (fun i => i.1 ≠ subject) i
  unfold metadataView
  rw [kept]
  by_cases hi : i.1 = subject
  · simp [hi]
  · simp [hi]

theorem MetadataFiled.change (h : MetadataFiled entries) (change : MetadataChange) :
    MetadataFiled (metadataCacheChange change entries) := by
  unfold metadataCacheChange
  split
  next => exact h.keep _
  next key hk =>
    split
    next => exact h.erase _
    next value hv => exact h.insert ⟨change.subject, key, change.type, value⟩

/-- One change of the cache is one change of the map. -/
theorem metadataView_change (h : MetadataFiled entries) (change : MetadataChange) :
    metadataView (metadataCacheChange change entries) = (metadataView entries).change change := by
  unfold metadataCacheChange MetadataMap.change
  cases change.key with
  | none => exact metadataView_clearSubject h change.subject
  | some key =>
    cases change.value with
    | none => exact metadataView_erase (change.subject, key)
    | some value =>
      exact metadataView_insert (change.subject, key) ⟨change.subject, key, change.type, value⟩

theorem metadataCached_refines (changes : List MetadataChange) :
    MetadataFiled (metadataCached changes) ∧
      metadataView (metadataCached changes) = MetadataMap.changed changes := by
  induction changes using List.reverseRec with
  | nil => exact ⟨filed_empty, rfl⟩
  | append_singleton changes change ih =>
    unfold metadataCached MetadataMap.changed at ih ⊢
    rw [List.foldl_concat, List.foldl_concat]
    exact ⟨ih.1.change change, by rw [metadataView_change ih.1, ih.2]⟩

/-- The cache answers as the map from pairs does. -/
theorem metadataCache_refines (changes : List MetadataChange) (subject : UInt32) (key : CString) :
    metadataDupValue (metadataCached changes) subject key =
        (MetadataMap.changed changes (subject, key)).map (·.2) ∧
      metadataDupValueType (metadataCached changes) subject key =
        (MetadataMap.changed changes (subject, key)).bind (·.1) ∧
      Function.Injective fun i : UInt32 × CString => metadataCacheKey i.1 i.2 := by
  have view := congrFun (metadataCached_refines changes).2 (subject, key)
  have answer : MetadataMap.changed changes (subject, key) =
    (metadataLookupEntry (metadataCached changes) subject key).map
      fun entry => (entry.type, entry.value) := view.symm
  unfold metadataDupValue metadataDupValueType
  rw [answer]
  refine ⟨?_, ?_, metadataIndexKey_injective⟩
  · cases metadataLookupEntry (metadataCached changes) subject key <;> rfl
  · cases metadataLookupEntry (metadataCached changes) subject key <;> rfl

/-- A key may look like the rest of another subject's. -/
example : metadataDupValue (metadataCached
    [⟨1, some [50, 58, 97], none, some [65]⟩, ⟨12, some [97], none, some [66]⟩,
      ⟨1, none, none, none⟩])
    12 [97] = some [66] := by decide

end PipewireGobject
