import PipewireGobject.PropertyDict
import PipewireGobject.SpaPod

namespace PipewireGobject

/-- What `pwg_route_info_parse_info` uses of `spa_pod_parser`: `pushStruct` stands for
`spa_pod_parser_pod` and `spa_pod_parser_push_struct`, and `none` for a negative result. -/
structure SpaPodParser (π : Type) where
  pushStruct : Pod → Option π
  getInt : π → Option (Int × π)
  getString : π → Option (Option CString × π)

/-- The loop of `pwg_route_info_parse_info`, with `count` iterations to go. -/
def routeInfoAddItems {π : Type} (spa : SpaPodParser π) (builder : List (CString × CString)) :
    Nat → π → Option (List (CString × CString))
  | 0, _ => some builder
  | count + 1, parser =>
    match spa.getString parser with
    | none => some builder
    | some (key, parser) =>
      match spa.getString parser with
      | none => some builder
      | some (value, parser) =>
        match key, value with
        | some key, some value => do
          let builder ← variantBuilderAdd builder key value
          routeInfoAddItems spa builder count parser
        | _, _ => routeInfoAddItems spa builder count parser

def routeInfoParseInfo {π : Type} (spa : SpaPodParser π) :
    Option Pod → Option (List (CString × CString))
  | none => some []
  | some pod =>
    if SpaType.ofCode pod.type ≠ .struct then some []
    else
      match spa.pushStruct pod with
      | none => some []
      | some parser =>
        match spa.getInt parser with
        | none => some []
        | some (nItems, parser) =>
          if nItems < 0 then some [] else routeInfoAddItems spa [] nItems.toNat parser

section RouteItems

variable {π : Type} {spa : SpaPodParser π}

/-- These strings stand one after the other from the place of the parser on. -/
inductive StringsAt (spa : SpaPodParser π) : π → List (Option CString) → Prop
  | nil {parser : π} : StringsAt spa parser []
  | cons {parser next : π} {text : Option CString} {texts : List (Option CString)}
    (read : spa.getString parser = some (text, next)) (rest : StringsAt spa next texts) :
    StringsAt spa parser (text :: texts)

/-- Of the strings from the place of the parser on, these two come after `2 * i` others. -/
def ItemAt (spa : SpaPodParser π) (parser : π) (i : Nat) (key value : Option CString) : Prop :=
  ∃ texts, StringsAt spa parser (texts ++ [key, value]) ∧ texts.length = 2 * i

/-- Item `i` of a route info: the struct begins with a number above `i`, and these are the
strings of the item after it. -/
def RouteItem (spa : SpaPodParser π) (pod : Option Pod) (i : Nat)
    (key value : Option CString) : Prop :=
  ∃ struct parser nItems strings, pod = some struct ∧
    SpaType.ofCode struct.type = .struct ∧ spa.pushStruct struct = some parser ∧
    spa.getInt parser = some (nItems, strings) ∧ (i : Int) < nItems ∧
    ItemAt spa strings i key value

/-- The items that the loop of `pwg_route_info_parse_info` reads. -/
def routeInfoItems (spa : SpaPodParser π) : Nat → π → SpaDict
  | 0, _ => []
  | count + 1, parser =>
    match spa.getString parser with
    | none => []
    | some (key, parser) =>
      match spa.getString parser with
      | none => []
      | some (value, parser) => (key, value) :: routeInfoItems spa count parser

variable {parser next last : π} {text first second key value : Option CString}
  {texts : List (Option CString)} {i : Nat}

theorem StringsAt.cons_iff (read : spa.getString parser = some (text, next)) :
    StringsAt spa parser (key :: texts) ↔ key = text ∧ StringsAt spa next texts := by
  constructor
  · intro h
    cases h with
    | cons first rest =>
      rw [read] at first
      cases first
      exact ⟨rfl, rest⟩
  · rintro ⟨rfl, rest⟩
    exact .cons read rest

theorem StringsAt.none (unread : spa.getString parser = none) :
    ¬StringsAt spa parser (key :: texts) := by
  intro h
  cases h with
  | cons first rest => simp [unread] at first

/-- The strings in front of an item and those of the item are at least two. -/
theorem ItemAt.strings (h : ItemAt spa parser i key value) :
    ∃ a b texts, StringsAt spa parser (a :: b :: texts) := by
  obtain ⟨texts, h, even⟩ := h
  rcases texts with _ | ⟨a, _ | ⟨b, texts⟩⟩
  · exact ⟨key, value, [], h⟩
  · simp only [List.length_cons, List.length_nil] at even
    omega
  · exact ⟨a, b, texts ++ [key, value], h⟩

theorem itemAt_zero (read : spa.getString parser = some (first, next))
    (read' : spa.getString next = some (second, last)) :
    ItemAt spa parser 0 key value ↔ key = first ∧ value = second := by
  constructor
  · rintro ⟨texts, h, even⟩
    cases List.length_eq_zero_iff.mp even
    obtain ⟨same, rest⟩ := (StringsAt.cons_iff read).mp h
    obtain ⟨same', -⟩ := (StringsAt.cons_iff read').mp rest
    exact ⟨same, same'⟩
  · rintro ⟨rfl, rfl⟩
    exact ⟨[], .cons read (.cons read' .nil), rfl⟩

theorem itemAt_succ (read : spa.getString parser = some (first, next))
    (read' : spa.getString next = some (second, last)) :
    ItemAt spa parser (i + 1) key value ↔ ItemAt spa last i key value := by
  constructor
  · rintro ⟨texts, h, even⟩
    rcases texts with _ | ⟨a, _ | ⟨b, texts⟩⟩
    · simp at even
    · simp only [List.length_cons, List.length_nil] at even
      omega
    · have rest := ((StringsAt.cons_iff read).mp h).2
      refine ⟨texts, ((StringsAt.cons_iff read').mp rest).2, ?_⟩
      simp only [List.length_cons] at even
      omega
  · rintro ⟨texts, h, even⟩
    refine ⟨first :: second :: texts, .cons read (.cons read' h), ?_⟩
    simp only [List.length_cons]
    omega

/-- The route info is built from its items as the properties of a global are. -/
theorem routeInfoAddItems_eq (builder : List (CString × CString)) (count : Nat) (parser : π) :
    routeInfoAddItems spa builder count parser =
      globalAddItems builder (routeInfoItems spa count parser) := by
  induction count generalizing builder parser with
  | zero => rfl
  | succ count ih =>
    cases read : spa.getString parser with
    | none => simp [routeInfoAddItems, routeInfoItems, read, globalAddItems]
    | some first =>
      obtain ⟨key, next⟩ := first
      cases read' : spa.getString next with
      | none => simp [routeInfoAddItems, routeInfoItems, read, read', globalAddItems]
      | some second =>
        obtain ⟨value, last⟩ := second
        cases key <;> cases value <;>
          simp [routeInfoAddItems, routeInfoItems, read, read', globalAddItems, ih]

theorem routeInfoItems_at (count : Nat) (parser : π) (i : Nat) :
    (routeInfoItems spa count parser)[i]? = some (key, value) ↔
      i < count ∧ ItemAt spa parser i key value := by
  induction count generalizing parser i with
  | zero => simp [routeInfoItems]
  | succ count ih =>
    cases read : spa.getString parser with
    | none =>
      have no : ¬ItemAt spa parser i key value := by
        intro item
        obtain ⟨a, b, texts, h⟩ := item.strings
        exact StringsAt.none read h
      simp [routeInfoItems, read, no]
    | some r =>
      obtain ⟨first, next⟩ := r
      cases read' : spa.getString next with
      | none =>
        have no : ¬ItemAt spa parser i key value := by
          intro item
          obtain ⟨a, b, texts, h⟩ := item.strings
          exact StringsAt.none read' ((StringsAt.cons_iff read).mp h).2
        simp [routeInfoItems, read, read', no]
      | some r' =>
        obtain ⟨second, last⟩ := r'
        have items : routeInfoItems spa (count + 1) parser =
            (first, second) :: routeInfoItems spa count last := by
          simp [routeInfoItems, read, read']
        rw [items]
        cases i with
        | zero =>
          rw [itemAt_zero read read']
          simp [eq_comm]
        | succ i =>
          rw [itemAt_succ read read', List.getElem?_cons_succ, ih last i, Nat.add_lt_add_iff_right]

/-- The items of the struct, in order, are what the builder is given. -/
theorem routeInfoParseInfo_items (spa : SpaPodParser π) (pod : Option Pod) :
    ∃ items, routeInfoParseInfo spa pod = globalAddItems [] items ∧
      ∀ (i : Nat) (key value : Option CString),
        items[i]? = some (key, value) ↔ RouteItem spa pod i key value := by
  have empty : (∀ i key value, ¬RouteItem spa pod i key value) →
      ∀ (i : Nat) (key value : Option CString),
        ([] : SpaDict)[i]? = some (key, value) ↔ RouteItem spa pod i key value := by
    intro no i key value
    simp [no i key value]
  fun_cases routeInfoParseInfo spa pod with
  | case1 =>
    refine ⟨[], rfl, empty ?_⟩
    rintro i key value ⟨_, _, _, _, none_some, _⟩
    cases none_some
  | case2 pod other =>
    refine ⟨[], rfl, empty ?_⟩
    rintro i key value ⟨_, _, _, _, same, type, _⟩
    cases same
    exact other type
  | case3 pod type unread =>
    refine ⟨[], rfl, empty ?_⟩
    rintro i key value ⟨_, _, _, _, same, -, read, _⟩
    cases same
    simp [unread] at read
  | case4 pod type parser read unread =>
    refine ⟨[], rfl, empty ?_⟩
    rintro i key value ⟨_, _, _, _, same, -, read', count, _⟩
    cases same
    cases read.symm.trans read'
    simp [unread] at count
  | case5 pod type parser read nItems strings count negative =>
    refine ⟨[], rfl, empty ?_⟩
    rintro i key value ⟨_, _, _, _, same, -, read', count', bound, _⟩
    cases same
    cases read.symm.trans read'
    cases count.symm.trans count'
    omega
  | case6 pod type parser read nItems strings count negative =>
    refine ⟨routeInfoItems spa nItems.toNat strings, routeInfoAddItems_eq _ _ _, ?_⟩
    intro i key value
    rw [routeInfoItems_at]
    constructor
    · rintro ⟨bound, item⟩
      have struct : SpaType.ofCode pod.type = .struct := by simpa using type
      exact ⟨pod, parser, nItems, strings, rfl, struct, read, count, by omega, item⟩
    · rintro ⟨_, _, _, _, same, -, read', count', bound, item⟩
      cases same
      cases read.symm.trans read'
      cases count.symm.trans count'
      exact ⟨by omega, item⟩

end RouteItems

/-- What is left of the body of a struct, and the offset it stands at. -/
structure PodCursor where
  offset : Nat
  bytes : List UInt8

/-- The pod at the current place and the place after it. -/
def PodCursor.next (cursor : PodCursor) : Option (Pod × PodCursor) :=
  (decodePod cursor.offset cursor.bytes).map fun r =>
    (r.1, ⟨cursor.offset + (cursor.bytes.length - r.2.length), r.2⟩)

/-- The number that two's complement gives to a word. -/
def signedWord (word : Nat) : Int :=
  if word < 0x80000000 then word else (word : Int) - 0x100000000

/-- `spa_pod_get_int` -/
def podGetInt (pod : Pod) : Option Int :=
  if SpaType.ofCode pod.type = .int ∧ 4 ≤ pod.body.length then
    some (signedWord (littleEndian (pod.body.take 4)))
  else none

/-- `spa_pod_get_string` -/
def podGetString (pod : Pod) : Option CString :=
  if SpaType.ofCode pod.type = .string ∧ pod.body.getLast? = some 0 then
    some (pod.body.takeWhile (· ≠ 0))
  else none

/-- The parser of PODs in their format. The bytes it is given end with the body of the
struct, so a body that padding would follow does not fit. -/
def podParser : SpaPodParser PodCursor where
  pushStruct pod :=
    if SpaType.ofCode pod.type = .struct ∧ padding pod.body.length = 0 then some ⟨8, pod.body⟩
    else none
  getInt cursor := cursor.next.bind fun r => (podGetInt r.1).map fun value => (value, r.2)
  getString cursor :=
    cursor.next.bind fun r => (podGetString r.1).map fun value => (some value, r.2)

section RoundTrip

/-- A string that fits into a pod and ends at its NUL. -/
def IsText (text : CString) : Prop := text.length + 1 < 4294967296 ∧ 0 ∉ text

def stringPod (text : CString) : Pod := ⟨8, text ++ [0]⟩

def itemBytes (item : CString × CString) : List UInt8 :=
  (stringPod item.1).encode ++ (stringPod item.2).encode

/-- A route info with these items. -/
def routeInfoStruct (items : List (CString × CString)) : Pod :=
  ⟨14, Pod.encode ⟨4, wordBytes items.length⟩ ++ items.flatMap itemBytes⟩

theorem PodCursor.next_encode {p : Pod} {offset : Nat} (h : p.Fits) (aligned : offset % 8 = 0)
    (rest : List UInt8) : PodCursor.next ⟨offset, p.encode ++ rest⟩ =
      some (p, ⟨offset + p.encode.length, rest⟩) := by
  simp only [PodCursor.next, decodePod_encode h aligned, Option.map_some, List.length_append]
  congr 4
  omega

theorem podGetString_text {text : CString} (h : IsText text) :
    podGetString (stringPod text) = some text := by
  have whole : (text ++ [0]).takeWhile (· ≠ 0) = text := by
    have nonzero : ∀ byte ∈ text, decide (byte ≠ 0) = true := by
      intro byte hb
      rw [decide_eq_true_iff]
      rintro rfl
      exact h.2 hb
    rw [List.takeWhile_append_of_pos nonzero]
    simp
  have type : SpaType.ofCode (stringPod text).type = .string := rfl
  have ends : (stringPod text).body.getLast? = some 0 := by simp [stringPod]
  rw [podGetString, if_pos ⟨type, ends⟩]
  exact congrArg some whole

theorem podParser_text {text : CString} {offset : Nat} (h : IsText text)
    (aligned : offset % 8 = 0) (rest : List UInt8) :
    podParser.getString ⟨offset, (stringPod text).encode ++ rest⟩ =
      some (some text, ⟨offset + (stringPod text).encode.length, rest⟩) := by
  have fits : (stringPod text).Fits := ⟨by simpa [stringPod] using h.1, by simp [stringPod]⟩
  simp [podParser, PodCursor.next_encode fits aligned, podGetString_text h]

theorem routeInfoItems_encode {items : List (CString × CString)} {offset : Nat}
    (texts : ∀ item ∈ items, IsText item.1 ∧ IsText item.2) (aligned : offset % 8 = 0) :
    routeInfoItems podParser items.length ⟨offset, items.flatMap itemBytes⟩ =
      items.map fun item => (some item.1, some item.2) := by
  induction items generalizing offset with
  | nil => rfl
  | cons item items ih =>
    obtain ⟨key, value⟩ := texts item (by simp)
    have keyAligned := (stringPod item.1).encode_aligned
    have valueAligned := (stringPod item.2).encode_aligned
    simp only [List.length_cons, List.flatMap_cons, itemBytes, List.append_assoc, routeInfoItems,
      podParser_text key aligned, List.map_cons]
    rw [podParser_text value (by omega)]
    simp only [List.cons.injEq, true_and]
    exact ih (fun other h => texts other (by simp [h])) (by omega)

theorem podGetInt_word {n : Nat} (small : n < 2147483648) :
    podGetInt ⟨4, wordBytes n⟩ = some n := by
  have word : littleEndian ((wordBytes n).take 4) = n := littleEndian_wordBytes (by omega)
  have positive : signedWord n = n := if_pos (show n < 0x80000000 by omega)
  simp [podGetInt, SpaType.ofCode, word, positive]

theorem routeInfoStruct_aligned (items : List (CString × CString)) :
    (routeInfoStruct items).body.length % 8 = 0 := by
  have count := Pod.encode_aligned ⟨4, wordBytes items.length⟩
  have texts : (items.flatMap itemBytes).length % 8 = 0 := by
    clear count
    induction items with
    | nil => rfl
    | cons item items ih =>
      have key := (stringPod item.1).encode_aligned
      have value := (stringPod item.2).encode_aligned
      simp only [List.flatMap_cons, itemBytes, List.length_append] at ih ⊢
      omega
  simp only [routeInfoStruct, List.length_append]
  omega

/-- A struct that holds a dictionary of UTF-8 strings is read back. -/
theorem routeInfoParseInfo_struct {items : List (CString × CString)}
    (small : items.length < 2147483648)
    (texts : ∀ item ∈ items, IsText item.1 ∧ IsText item.2)
    (valid : ∀ item ∈ items, IsUtf8 item.1 ∧ IsUtf8 item.2) :
    routeInfoParseInfo podParser (routeInfoStruct items) = some items := by
  have countFits : Pod.Fits ⟨4, wordBytes items.length⟩ := by simp [Pod.Fits]
  have pushed : podParser.pushStruct (routeInfoStruct items) =
      some ⟨8, (routeInfoStruct items).body⟩ := by
    have aligned := routeInfoStruct_aligned items
    refine if_pos ⟨rfl, ?_⟩
    simp only [padding, aligned]
  have counted : podParser.getInt ⟨8, (routeInfoStruct items).body⟩ =
      some ((items.length : Int), ⟨24, items.flatMap itemBytes⟩) := by
    simp only [podParser, routeInfoStruct]
    rw [PodCursor.next_encode countFits rfl, Option.bind_some, podGetInt_word small,
      Pod.encode_length]
    rfl
  have copied : globalVariantFromSpaDict
      (some (items.map fun item => (some item.1, some item.2))) = items := by
    simp [globalVariantFromSpaDict, List.filterMap_map]
  have type : SpaType.ofCode (routeInfoStruct items).type = .struct := rfl
  have valid' : ∀ key value,
      (some key, some value) ∈ items.map (fun item => (some item.1, some item.2)) →
        IsUtf8 key ∧ IsUtf8 value := by
    intro key value h
    obtain ⟨item, hi, he⟩ := List.mem_map.mp h
    cases he
    exact valid item hi
  simp only [routeInfoParseInfo, type, pushed, counted, ne_eq, not_true_eq_false, if_false]
  rw [if_neg (by omega), Int.toNat_natCast, routeInfoAddItems_eq,
    routeInfoItems_encode texts rfl, globalAddItems_iff, copied, List.nil_append]
  exact ⟨valid', rfl⟩

end RoundTrip

/-- The dictionary is copied without leaving the domain of the builder, and every key is
found in the copy as it was in the dictionary. -/
def GlobalCopied (dict : Option SpaDict) : Prop :=
  ∃ properties, globalVariantFromSpaDictStrict dict = some properties ∧
    ∀ (id permissions : UInt32) (interfaceType : Option CString) (version : UInt32)
      (key : CString), LooksUp (dict.getD []) key
        (globalDupProperty ⟨id, permissions, interfaceType, version, properties⟩ key)

/-- The struct is copied without leaving the domain of the builder, and the copy has those
of its items in order that have a key and a value. -/
def RouteInfoCopied {π : Type} (spa : SpaPodParser π) (pod : Option Pod) : Prop :=
  ∃ info items, routeInfoParseInfo spa pod = some info ∧
    info = globalVariantFromSpaDict (some items) ∧
    ∀ (i : Nat) (key value : Option CString),
      items[i]? = some (key, value) ↔ RouteItem spa pod i key value

theorem propertyCopies_iff_utf8 {π : Type} (spa : SpaPodParser π) (dict : Option SpaDict)
    (pod : Option Pod) :
    (GlobalCopied dict ↔
      ∀ key value, (some key, some value) ∈ dict.getD [] → IsUtf8 key ∧ IsUtf8 value) ∧
    (RouteInfoCopied spa pod ↔
      ∀ i key value, RouteItem spa pod i (some key) (some value) →
        IsUtf8 key ∧ IsUtf8 value) := by
  constructor
  · constructor
    · rintro ⟨properties, copied, -⟩
      exact (globalVariantFromSpaDictStrict_iff.mp copied).1
    · intro valid
      refine ⟨globalVariantFromSpaDict dict, ?_, ?_⟩
      · exact globalVariantFromSpaDictStrict_iff.mpr ⟨valid, rfl⟩
      · intro id permissions interfaceType version key
        exact globalDupProperty_looksUp _ dict key rfl
  · obtain ⟨items, parsed, placed⟩ := routeInfoParseInfo_items spa pod
    simp only [RouteInfoCopied, parsed, globalAddItems_iff, List.nil_append]
    constructor
    · rintro ⟨_, _, ⟨valid, -⟩, -⟩ i key value item
      have place : items[i]? = some (some key, some value) := (placed i _ _).mpr item
      exact valid key value (List.mem_of_getElem? place)
    · intro valid
      refine ⟨_, items, ⟨?_, rfl⟩, rfl, placed⟩
      intro key value h
      obtain ⟨i, place⟩ := List.mem_iff_getElem?.mp h
      exact valid i key value ((placed i _ _).mp place)

/-- The one byte of an "é" in Latin-1, as a client may put it into a title. -/
def latinText : CString := [0xe9]

/-- A route info of one item with the key "k" and this value. -/
def latinRouteInfo : Pod :=
  ⟨14, Pod.encode ⟨4, wordBytes 1⟩ ++ Pod.encode ⟨8, [0x6b, 0]⟩ ++
    Pod.encode ⟨8, latinText ++ [0]⟩⟩

theorem latinText_not_copied :
    ¬GlobalCopied (some [(some [0x6b], some latinText)]) ∧
      ¬RouteInfoCopied podParser latinRouteInfo := by
  constructor
  · rintro ⟨properties, copied, -⟩
    have undefined :
        globalVariantFromSpaDictStrict (some [(some [0x6b], some latinText)]) = none := by decide
    simp [undefined] at copied
  · rintro ⟨info, items, parsed, -⟩
    have undefined : routeInfoParseInfo podParser latinRouteInfo = none := by decide
    simp [undefined] at parsed

end PipewireGobject
