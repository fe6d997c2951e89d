import PipewireGobject.MetadataExchange
import PipewireGobject.Program

namespace PipewireGobject

/-- What `pwg_metadata_dup_name_from_json` uses of `spa_json`: the tokens that `spa_json_next`
gives in the object that a text holds, up to their end or an error, and the string that a token
stands for. -/
structure SpaJson where
  object : CString → Option (List CString)
  parseString : CString → Option CString

def metadataValueTypeIsJson (type : Option CString) : Bool :=
  type = some (text "Spa:String:JSON") || type = some (text "Spa:JSON")

/-- `g_ascii_isspace` -/
def asciiIsSpace (c : UInt8) : Bool := c = 9 || c = 10 || c = 12 || c = 13 || c = 32

def metadataValueLooksLikeObject (value : CString) : Bool :=
  (value.dropWhile asciiIsSpace).head? = some 123

/-- The loop of `pwg_metadata_dup_name_from_json`. -/
def metadataNameOfTokens (json : SpaJson) : List CString → Option CString
  | [] => none
  -- whether it can be parsed or not, this key has no value
  | [_] => none
  | key :: value :: tokens =>
    match json.parseString key with
    | none => none
    | some key =>
      if key ≠ text "name" then metadataNameOfTokens json tokens
      else
        match json.parseString value with
        | none | some [] => none
        | some name => some name

def metadataDupNameFromJson (json : SpaJson) (value : CString) : Option CString :=
  (json.object value).bind (metadataNameOfTokens json)

def metadataEntryDupNodeName (json : SpaJson) (entry : Option MetadataEntry) : Option CString :=
  match entry with
  | none => none
  | some entry =>
    if entry.value = [] then none
    else if metadataValueTypeIsJson entry.type || metadataValueLooksLikeObject entry.value then
      metadataDupNameFromJson json entry.value
    else some entry.value

def metadataDupDefaultNodeName (json : SpaJson) (key : CString) (entries : MetadataEntries) :
    Option CString :=
  metadataEntryDupNodeName json (metadataLookupEntry entries 0 key)

def metadataDupDefaultAudioSinkName (json : SpaJson) : MetadataEntries → Option CString :=
  metadataDupDefaultNodeName json (text "default.audio.sink")

def metadataDupDefaultAudioSourceName (json : SpaJson) : MetadataEntries → Option CString :=
  metadataDupDefaultNodeName json (text "default.audio.source")

def metadataDupConfiguredAudioSinkName (json : SpaJson) : MetadataEntries → Option CString :=
  metadataDupDefaultNodeName json (text "default.configured.audio.sink")

def metadataDupConfiguredAudioSourceName (json : SpaJson) : MetadataEntries → Option CString :=
  metadataDupDefaultNodeName json (text "default.configured.audio.source")

variable {json : SpaJson} {tokens : List CString} {key value name : CString}

/-- This is the value of the first member with the key `name`, and the keys of the members before
it are strings. -/
inductive NameMember (json : SpaJson) : List CString → CString → Prop
  | here {key value : CString} {tokens : List CString}
    (named : json.parseString key = some (text "name")) :
    NameMember json (key :: value :: tokens) value
  | later {key other skipped value : CString} {tokens : List CString}
    (parsed : json.parseString key = some other) (unnamed : other ≠ text "name")
    (rest : NameMember json tokens value) : NameMember json (key :: skipped :: tokens) value

theorem NameMember.cons_iff {other skipped : CString} (parsed : json.parseString key = some other) :
    NameMember json (key :: skipped :: tokens) value ↔
      other = text "name" ∧ value = skipped ∨
        other ≠ text "name" ∧ NameMember json tokens value := by
  constructor
  · intro h
    cases h with
    | here named =>
      rw [parsed] at named
      exact .inl ⟨Option.some.inj named, rfl⟩
    | later parsed' unnamed rest =>
      rw [parsed] at parsed'
      cases parsed'
      exact .inr ⟨unnamed, rest⟩
  · rintro (⟨rfl, rfl⟩ | ⟨unnamed, rest⟩)
    · exact .here parsed
    · exact .later parsed unnamed rest

theorem metadataNameOfTokens_iff : metadataNameOfTokens json tokens = some name ↔
    ∃ value, NameMember json tokens value ∧ json.parseString value = some name ∧ name ≠ [] := by
  fun_induction metadataNameOfTokens json tokens with
  | case1 =>
    refine ⟨by simp, ?_⟩
    rintro ⟨value, ⟨⟩, -⟩
  | case2 =>
    refine ⟨by simp, ?_⟩
    rintro ⟨value, ⟨⟩, -⟩
  | case3 key skipped tokens unparsed =>
    refine ⟨by simp, ?_⟩
    rintro ⟨value, member, -⟩
    cases member with
    | here named => simp [unparsed] at named
    | later parsed => simp [unparsed] at parsed
  | case4 key skipped tokens other parsed unnamed ih =>
    rw [ih]
    simp only [NameMember.cons_iff parsed, unnamed, false_and, false_or, true_and, ne_eq,
      not_false_eq_true]
  | case5 key value tokens other parsed named unparsed =>
    rw [not_not.mp named] at parsed
    simp [NameMember.cons_iff parsed, unparsed]
  | case6 key value tokens other parsed named empty =>
    rw [not_not.mp named] at parsed
    simp [NameMember.cons_iff parsed, empty]
  | case7 key value tokens other parsed named found nonempty read =>
    rw [not_not.mp named] at parsed
    simp only [NameMember.cons_iff parsed, ne_eq, not_true_eq_false, false_and, or_false, true_and,
      exists_eq_left, read, Option.some.injEq]
    constructor
    · rintro rfl
      exact ⟨rfl, nonempty⟩
    · exact And.left

/-- The name of a node that a value of this type stands for: a JSON object names it in its member
`name`, and other text is the name itself. -/
def NamesNode (json : SpaJson) (type : Option CString) (value name : CString) : Prop :=
  value ≠ [] ∧ name ≠ [] ∧
    if metadataValueTypeIsJson type || metadataValueLooksLikeObject value then
      ∃ tokens member, json.object value = some tokens ∧ NameMember json tokens member ∧
        json.parseString member = some name
    else name = value

theorem metadataEntryDupNodeName_iff {entry : MetadataEntry} :
    metadataEntryDupNodeName json (some entry) = some name ↔
      NamesNode json entry.type entry.value name := by
  simp only [metadataEntryDupNodeName, NamesNode]
  by_cases empty : entry.value = []
  · simp [empty]
  rw [if_neg empty]
  split
  next =>
    simp only [metadataDupNameFromJson, Option.bind_eq_some_iff, metadataNameOfTokens_iff]
    constructor
    · rintro ⟨tokens, object, member, first, read, given⟩
      exact ⟨empty, given, tokens, member, object, first, read⟩
    · rintro ⟨-, given, tokens, member, object, first, read⟩
      exact ⟨tokens, object, member, first, read, given⟩
  next =>
    constructor
    · rintro ⟨⟩
      exact ⟨empty, empty, rfl⟩
    · rintro ⟨-, -, rfl⟩
      rfl

variable {s : MetadataExchange} {id generation : UInt32} {store : MetadataStore}

/-- What an exchange has settled on is what the server stores. -/
theorem ExchangeSettled.quiescent (h : ExchangeSettled s) (quiescent : s.Quiescent) :
    metadataView s.wrapper.entries = storeView s.store := by
  obtain ⟨requests, sent, queue⟩ := quiescent
  have settled := h.settled (by simp [requests])
  unfold MetadataExchange.expected MetadataExchange.pending at settled
  rw [sent, queue] at settled
  exact settled

/-- The tokens of an object without blanks, escapes and nested values. -/
def flatJson : SpaJson where
  object value :=
    match value with
    | 123 :: members => some ((members.takeWhile (· ≠ 125)).splitOnP fun c => c = 58 || c = 44)
    | _ => none
  parseString token :=
    match token with
    | 34 :: string => some (string.takeWhile (· ≠ 34))
    | bare => some bare

/-- The server has a default sink; the application configures another one, and the server changes
the default and clears the type that it had. -/
def defaultChanged : MetadataExchange :=
  final MetadataExchange.step (.init 7 1 (AList.singleton (0, text "default.audio.sink")
      (some (text "Spa:String:JSON"), text "\x7b\"name\":\"hdmi\"\x7d"))) [
    .receive, .dispatch,
    .set 0 (text "default.configured.audio.sink") (some (text "Spa:String:JSON"))
      (some (text "\x7b\"id\":4,\"name\":\"usb\"\x7d")) 0,
    .handle true [],
    .otherClient ⟨0, some (text "default.audio.sink"), none, some (text "usb")⟩,
    .receive, .receive, .dispatch, .dispatch]

end PipewireGobject
