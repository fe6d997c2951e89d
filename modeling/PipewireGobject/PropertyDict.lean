import PipewireGobject.RegistrySession

namespace PipewireGobject

/-- `g_utf8_validate` -/
def utf8Validate (text : CString) : Bool := text.toByteArray.validateUTF8

/-- The bytes encode characters, one after the other. -/
def IsUtf8 (text : CString) : Prop :=
  ∃ chars : List Char, text = chars.flatMap String.utf8EncodeChar

theorem utf8Validate_iff (text : CString) : utf8Validate text = true ↔ IsUtf8 text := by
  rw [utf8Validate, ByteArray.validateUTF8_eq_true_iff]
  constructor
  · intro h
    obtain ⟨chars, encoded⟩ := h
    exact ⟨chars, by simpa [List.utf8Encode] using encoded⟩
  · intro h
    obtain ⟨chars, rfl⟩ := h
    exact ⟨chars, rfl⟩

/-- `g_variant_builder_add` for `{ss}`, which is only defined on UTF-8. -/
def variantBuilderAdd (builder : List (CString × CString)) (key value : CString) :
    Option (List (CString × CString)) :=
  if utf8Validate key ∧ utf8Validate value then some (builder ++ [(key, value)]) else none

/-- The loop of `pwg_global_variant_from_spa_dict`. -/
def globalAddItems (builder : List (CString × CString)) :
    SpaDict → Option (List (CString × CString))
  | [] => some builder
  | (some key, some value) :: items => do
    let builder ← variantBuilderAdd builder key value
    globalAddItems builder items
  | (none, _) :: items => globalAddItems builder items
  | (some _, none) :: items => globalAddItems builder items

/-- `pwg_global_variant_from_spa_dict` over the partial builder: `none` where the domain
of the builder is left. -/
def globalVariantFromSpaDictStrict : Option SpaDict → Option (List (CString × CString))
  | none => some []
  | some dict => globalAddItems [] dict

variable {items : SpaDict} {builder result : List (CString × CString)} {key value : CString}

theorem variantBuilderAdd_iff : variantBuilderAdd builder key value = some result ↔
    (IsUtf8 key ∧ IsUtf8 value) ∧ result = builder ++ [(key, value)] := by
  rw [← utf8Validate_iff, ← utf8Validate_iff, variantBuilderAdd]
  split
  next valid => simp [valid, eq_comm]
  next invalid => simp [invalid]

/-- The loop stays in the domain of the builder if and only if every item does that has a
key and a value, and then it adds what the total function gives. -/
theorem globalAddItems_iff : globalAddItems builder items = some result ↔
    (∀ key value, (some key, some value) ∈ items → IsUtf8 key ∧ IsUtf8 value) ∧
      result = builder ++ globalVariantFromSpaDict (some items) := by
  fun_induction globalAddItems builder items with
  | case1 builder => simp [globalVariantFromSpaDict, eq_comm]
  | case2 builder key value items ih =>
    have copied : globalVariantFromSpaDict (some ((some key, some value) :: items)) =
        (key, value) :: globalVariantFromSpaDict (some items) := rfl
    rw [Option.bind_eq_bind, Option.bind_eq_some_iff, copied]
    constructor
    · rintro ⟨added, first, rest⟩
      obtain ⟨valid, rfl⟩ := variantBuilderAdd_iff.mp first
      obtain ⟨later, rfl⟩ := (ih _).mp rest
      refine ⟨?_, by simp⟩
      intro other text h
      rcases List.mem_cons.mp h with same | h
      · cases same
        exact valid
      · exact later other text h
    · rintro ⟨valid, rfl⟩
      refine ⟨builder ++ [(key, value)], ?_, ?_⟩
      · exact variantBuilderAdd_iff.mpr ⟨valid key value (by simp), rfl⟩
      · exact (ih _).mpr ⟨fun other text h => valid other text (by simp [h]), by simp⟩
  | case3 builder value items ih =>
    rw [ih]
    simp [globalVariantFromSpaDict]
  | case4 builder key items ih =>
    rw [ih]
    simp [globalVariantFromSpaDict]

/-- Where the builder takes everything, the global has the properties that the total
function gives it. -/
theorem globalVariantFromSpaDictStrict_iff {dict : Option SpaDict}
    {properties : List (CString × CString)} :
    globalVariantFromSpaDictStrict dict = some properties ↔
      (∀ key value, (some key, some value) ∈ dict.getD [] → IsUtf8 key ∧ IsUtf8 value) ∧
        properties = globalVariantFromSpaDict dict := by
  have strict : globalVariantFromSpaDictStrict dict = globalAddItems [] (dict.getD []) := by
    cases dict with
    | none => rfl
    | some items => rfl
  rw [strict, globalAddItems_iff]
  exact Iff.rfl

/-- The first item with this key that has a value has this value. -/
def FirstValue (items : SpaDict) (key value : CString) : Prop :=
  ∃ before after, items = before ++ (some key, some value) :: after ∧
    ∀ other, (some key, some other) ∉ before

/-- What looking up the key in a copy of the items has to give. -/
def LooksUp (items : SpaDict) (key : CString) : Option CString → Prop
  | some value => FirstValue items key value
  | none => ∀ value, (some key, some value) ∉ items

theorem LooksUp.skip {item : Option CString × Option CString} {result : Option CString}
    (other : ∀ value, item ≠ (some key, some value)) (h : LooksUp items key result) :
    LooksUp (item :: items) key result := by
  cases result with
  | none =>
    intro value found
    rcases List.mem_cons.mp found with same | found
    · exact other value same.symm
    · exact h value found
  | some value =>
    obtain ⟨before, after, rfl, fresh⟩ := h
    refine ⟨item :: before, after, rfl, ?_⟩
    intro value found
    rcases List.mem_cons.mp found with same | found
    · exact other value same.symm
    · exact fresh value found

theorem globalDupProperty_looksUp (global : Global) (dict : Option SpaDict) (key : CString)
    (copied : global.properties = globalVariantFromSpaDict dict) :
    LooksUp (dict.getD []) key (globalDupProperty global key) := by
  rw [globalDupProperty, copied]
  generalize layout : dict.getD [] = items
  simp only [globalVariantFromSpaDict, layout]
  clear layout copied
  induction items with
  | nil => simp [LooksUp]
  | cons item items ih =>
    rcases item with ⟨_ | name, _ | text⟩
    · exact ih.skip (by simp)
    · exact ih.skip (by simp)
    · exact ih.skip (by simp)
    · by_cases same : name = key
      · subst same
        have first : LooksUp ((some name, some text) :: items) name (some text) :=
          ⟨[], items, rfl, by simp⟩
        simpa using first
      · have other : ∀ value, (some name, some text) ≠ (some key, some value) := by simp [same]
        simpa [same] using ih.skip other

end PipewireGobject
