import PipewireGobject.ProgramStreams

namespace PipewireGobject

/-- What a stream is asked for: the target that it was made for, its properties and the requested
format. -/
structure StreamSettings where
  targetObject : Option CString
  monitor : Bool
  pipewireProperties : Table CString CString
  requestedSampleFormat : CString
  requestedRate : UInt32
  requestedChannels : UInt32

def PwgStream.settings (self : PwgStream) : StreamSettings where
  targetObject := self.targetObject
  monitor := self.monitor
  pipewireProperties := self.pipewireProperties
  requestedSampleFormat := self.requestedSampleFormat
  requestedRate := self.requestedRate
  requestedChannels := self.requestedChannels

/-- The format that PipeWire is asked for is the requested one. -/
def StreamSettings.Valid (settings : StreamSettings) : Prop :=
  streamValidateRequestedFormat (some settings.requestedSampleFormat) settings.requestedRate
      settings.requestedChannels = .ok .f32 ∧
    settings.pipewireProperties.lookup [] = none

theorem streamValidate_ok {sampleFormat : Option CString} {rate channels : UInt32}
    {format : SpaAudioFormat}
    (h : streamValidateRequestedFormat sampleFormat rate channels = .ok format) :
    format = .f32 ∧ streamValidateRequestedFormat (some (streamSampleFormatName format)) rate
      channels = .ok .f32 := by
  have named : streamSampleFormatFromName (some (text "F32")) = .ok .f32 := by decide +kernel
  have known : ∀ {format}, streamSampleFormatFromName sampleFormat = .ok format →
      format = .f32 := by
    intro format hf
    unfold streamSampleFormatFromName at hf
    split at hf
    next => cases hf
    next => cases hf
    next =>
      split at hf
      next =>
        cases hf
        rfl
      next => cases hf
  unfold streamValidateRequestedFormat at h ⊢
  cases hf : streamSampleFormatFromName sampleFormat with
  | error error =>
    rw [hf] at h
    cases h
  | ok found =>
    rw [hf] at h
    cases known hf
    have checked : (if rate = 0 then
        Except.error ⟨.failed, text "Requested sample rate must be greater than zero"⟩
      else if channels ≠ 1 ∧ channels ≠ 2 then
        .error ⟨.failed,
          text "Unsupported requested channel count " ++ text (toString channels.toNat)⟩
      else .ok .f32 : Except PwgError SpaAudioFormat) = .ok format := h
    have same : format = .f32 := by
      split at checked
      next => cases checked
      next =>
        split at checked
        next => cases checked
        next =>
          cases checked
          rfl
    subst same
    refine ⟨rfl, ?_⟩
    show (streamSampleFormatFromName (some (text "F32")) >>= _) = _
    rw [named]
    exact checked

/-- A setter of properties refuses the empty key, and everything while the object is active. -/
theorem setPipewireProperty_ok {emptyKey refusal : String} {active : Bool}
    {key value : Option CString} {properties changed : Table CString CString}
    (h : setPipewireProperty emptyKey refusal active key value properties = .ok changed)
    (nonempty : properties.lookup [] = none) :
    active = false ∧ changed.lookup [] = none := by
  unfold setPipewireProperty at h
  split at h
  next => cases h
  next => cases h
  next key empty =>
    have other : ([] : CString) ≠ key := by
      rintro rfl
      exact empty rfl
    split at h
    next => cases h
    next stopped =>
      refine ⟨by simpa using stopped, ?_⟩
      split at h
      next =>
        cases h
        rw [AList.lookup_erase_ne other]
        exact nonempty
      next =>
        cases h
        rw [AList.lookup_insert_ne other]
        exact nonempty

theorem streamSetPipewireProperty_ok {key value : Option CString} {self changed : PwgStream}
    (h : streamSetPipewireProperty key value self = .ok changed) (valid : self.settings.Valid) :
    self.running = false ∧ changed.running = false ∧ changed.settings.Valid := by
  obtain ⟨properties, hp, rfl⟩ := except_map_ok h
  obtain ⟨stopped, nonempty⟩ := setPipewireProperty_ok hp valid.2
  exact ⟨stopped, stopped, valid.1, nonempty⟩

theorem streamSetRequestedFormat_ok {sampleFormat : Option CString} {rate channels : UInt32}
    {self changed : PwgStream}
    (h : streamSetRequestedFormat sampleFormat rate channels self = .ok changed)
    (valid : self.settings.Valid) :
    self.running = false ∧ changed.running = false ∧ changed.settings.Valid := by
  unfold streamSetRequestedFormat at h
  split at h
  next => cases h
  next running =>
    obtain ⟨format, hf, rfl⟩ := except_map_ok h
    have stopped : self.running = false := by simpa using running
    exact ⟨stopped, stopped, (streamValidate_ok hf).2, valid.2⟩

theorem coreSetPipewireProperty_ok {key value : Option CString} {self changed : PwgCore}
    (h : coreSetPipewireProperty key value self = .ok changed)
    (nonempty : self.pipewireProperties.lookup [] = none) :
    self.connected = false ∧ changed.connected = false ∧
      changed.pipewireProperties.lookup [] = none := by
  obtain ⟨properties, hp, rfl⟩ := except_map_ok h
  obtain ⟨apart, nonempty⟩ := setPipewireProperty_ok hp nonempty
  exact ⟨apart, apart, nonempty⟩

/-- Setting entries one after the other, except for those that are refused. -/
theorem lookup_setAll {κ β : Type} [DecidableEq κ] (refused : κ → β → Prop)
    [∀ k b, Decidable (refused k b)] {entries : List (Sigma fun _ : κ => β)}
    (distinct : entries.NodupKeys) (table : Table κ β) (k : κ) :
    (entries.foldl (fun table entry =>
        if refused entry.1 entry.2 then table else table.insert entry.1 entry.2) table).lookup k =
      (((entries.dlookup k).filter fun b => ¬refused k b).or (table.lookup k)) := by
  induction entries generalizing table with
  | nil => rfl
  | cons entry entries ih =>
    obtain ⟨k', b⟩ := entry
    obtain ⟨absent, distinct⟩ := List.nodupKeys_cons.mp distinct
    rw [List.foldl_cons, ih distinct]
    by_cases hk : k' = k
    · subst hk
      have unlisted : entries.dlookup k' = none := List.dlookup_eq_none.mpr absent
      rw [unlisted, List.dlookup_cons_eq]
      by_cases hr : refused k' b
      · simp [hr, Option.filter]
      · simp [hr, Option.filter, AList.lookup_insert]
    · rw [List.dlookup_cons_ne _ _ (Ne.symm hk)]
      by_cases hr : refused k' b
      · rw [if_pos hr]
      · rw [if_neg hr, AList.lookup_insert_ne (Ne.symm hk)]

theorem lookup_insert_if {κ β : Type} [DecidableEq κ] (table : Table κ β) (k key : κ) (b : β) :
    (table.insert k b).lookup key = if key = k then some b else table.lookup key := by
  by_cases hk : key = k
  · rw [if_pos hk, hk, AList.lookup_insert]
  · rw [if_neg hk, AList.lookup_insert_ne hk]

theorem lookup_set_if (results : PipewireResults) (table : Table CString CString)
    (k value key : CString) :
    (if results.propertiesSet k value < 0 then table else table.insert k value).lookup key =
      ((if key = k then some value else none).filter (0 ≤ results.propertiesSet key ·)).or
        (table.lookup key) := by
  by_cases hk : key = k
  · subst hk
    by_cases refused : results.propertiesSet key value < 0
    · simp [refused, Option.filter, Int.not_le.mpr refused]
    · simp [refused, Option.filter, Int.not_lt.mp refused]
  · rw [if_neg hk, Option.filter_none, Option.none_or]
    split
    next => rfl
    next => exact AList.lookup_insert_ne hk

theorem lookup_setTarget (results : PipewireResults) (table : Table CString CString)
    (target : Option CString) (key : CString) :
    (match target with
      | none | some [] => table
      | some target =>
        if results.propertiesSet (text "target.object") target < 0 then table
        else table.insert (text "target.object") target).lookup key =
      ((if key = text "target.object" then target.filter (· ≠ []) else none).filter
        (0 ≤ results.propertiesSet key ·)).or (table.lookup key) := by
  rcases target with _ | _ | ⟨c, cs⟩
  · simp
  · simp [Option.filter]
  · exact lookup_set_if results table _ _ key

theorem lookup_setSink (results : PipewireResults) (table : Table CString CString)
    (monitor : Bool) (key : CString) :
    (if monitor then
      if results.propertiesSet (text "stream.capture.sink") (text "true") < 0 then table
      else table.insert (text "stream.capture.sink") (text "true")
    else table).lookup key =
      ((if key = text "stream.capture.sink" then if monitor then some (text "true") else none
        else none).filter (0 ≤ results.propertiesSet key ·)).or (table.lookup key) := by
  cases monitor
  · simp
  · exact lookup_set_if results table _ _ key

/-- The properties that every stream begins with. -/
def defaultProperty (monitor : Bool) (key : CString) : Option CString :=
  if key = text "media.name" then
    some (text (if monitor then "Pwg monitor stream" else "Pwg audio stream"))
  else if key = text "media.role" then some (text (if monitor then "DSP" else "Music"))
  else if key = text "media.category" then some (text (if monitor then "Monitor" else "Capture"))
  else if key = text "media.type" then some (text "Audio")
  else none

theorem lookup_defaults (monitor : Bool) (key : CString) :
    ((((AList.singleton (text "media.type") (text "Audio")).insert (text "media.category")
        (text (if monitor then "Monitor" else "Capture"))).insert (text "media.role")
        (text (if monitor then "DSP" else "Music"))).insert (text "media.name")
        (text (if monitor then "Pwg monitor stream" else "Pwg audio stream")) :
      Table CString CString).lookup key = defaultProperty monitor key := by
  rw [← AList.insert_empty]
  simp only [lookup_insert_if, AList.lookup_empty, defaultProperty]

/-- What a stream asks for on its own account: its target, and for a monitor the capture of a
sink. -/
def ownProperty (stream : PwgStream) (key : CString) : Option CString :=
  if key = text "stream.capture.sink" then
    if stream.monitor then some (text "true") else none
  else if key = text "target.object" then stream.targetObject.filter (· ≠ [])
  else none

/-- What `pw_stream_new` is told of each key: what has been set by the application, or else what
the stream asks for, or else the default. Of the first two, what `pw_properties_set` refuses is
not told, and nobody hears of that. -/
def TellsProperties (results : PipewireResults) (stream : PwgStream)
    (properties : Table CString CString) : Prop :=
  ∀ key, properties.lookup key =
    ((stream.pipewireProperties.lookup key).filter (0 ≤ results.propertiesSet key ·)).or
      (((ownProperty stream key).filter (0 ≤ results.propertiesSet key ·)).or
        (defaultProperty stream.monitor key))

theorem streamProperties_tells (results : PipewireResults) (stream : PwgStream) :
    TellsProperties results stream (streamProperties results stream) := by
  intro key
  have taken : (fun value => decide ¬results.propertiesSet key value < 0) =
      fun value => decide (0 ≤ results.propertiesSet key value) := by
    simp only [Int.not_lt]
  refine (lookup_setAll (fun key value => results.propertiesSet key value < 0)
    stream.pipewireProperties.nodupKeys _ key).trans ?_
  rw [taken]
  refine congrArg (Option.or _) ?_
  refine (lookup_setSink results _ stream.monitor key).trans ?_
  refine (congrArg (Option.or _) ((lookup_setTarget results _ stream.targetObject key).trans
    (congrArg (Option.or _) (lookup_defaults stream.monitor key)))).trans ?_
  rw [← Option.or_assoc]
  refine congrArg (Option.or · _) ?_
  have apart : text "target.object" ≠ text "stream.capture.sink" := by decide +kernel
  unfold ownProperty
  by_cases hs : key = text "stream.capture.sink"
  · have other : key ≠ text "target.object" := fun he => apart (he.symm.trans hs)
    simp only [if_pos hs, if_neg other, Option.filter_none, Option.or_none]
  · simp only [if_neg hs, Option.filter_none, Option.none_or]

variable {s t : Program} {j k : Nat} {results : PipewireResults}

/-- What PipeWire has accepted where a stream has started. -/
structure StreamAccepted (results : PipewireResults) (stream : PwgStream) : Prop where
  made : ∃ properties, results.streamNew properties = true ∧
    TellsProperties results stream properties
  connected : 0 ≤ results.streamConnect .f32 stream.requestedRate stream.requestedChannels
    (streamChannelPositions stream.requestedChannels)
  started : 0 ≤ results.threadLoopStart

theorem StreamAccepted.same {stream other : PwgStream} (h : StreamAccepted results stream)
    (same : other.settings = stream.settings) : StreamAccepted results other := by
  injection same with target monitor properties sampleFormat rate channels
  obtain ⟨given, made, tells⟩ := h.made
  refine ⟨⟨given, made, fun key => ?_⟩, ?_, h.started⟩
  · rw [tells key, properties, ownProperty, ownProperty, monitor, target]
  · rw [rate, channels]
    exact h.connected

/-- How `pwg_stream_start` ends for a stream `j` that was stopped in `s`. -/
structure StartEnds (results : PipewireResults) (j : Nat) (s : Program)
    (r : Option PwgError × Program) : Prop where
  cores : r.2.cores = s.cores
  others : ∀ k, k ≠ j → r.2.streams k = s.streams k
  settings : (r.2.streams j).settings = (s.streams j).settings
  running : (r.2.streams j).running = true → r.1 = none ∧ StreamAccepted results (s.streams j)
  requested : ∀ error, r.1 = some error → error.code ≠ .failed

theorem streamStop_cores : (s.streamStop j).cores = s.cores := by
  have only : OnlyHandles (.stream j) (s.setStream j fun self => { self with running := false })
      ((((s.setStream j fun self => { self with running := false }).stopLoop (.stream j)).destroy
        (.stream j) .stream).closeConnection (.stream j)) :=
    (OnlyHandles.stopLoop.trans .destroy).trans .closeConnection
  exact only.cores

theorem OnlyHandles.startEnds (only : OnlyHandles (.stream j) s t) {error : PwgError}
    (code : error.code ≠ .failed) : StartEnds results j s (some error, t.streamStop j) where
  cores := streamStop_cores.trans only.cores
  others k hk := by
    rw [(streamStop_only only).streams, Function.update_of_ne hk]
  settings := by
    rw [(streamStop_only only).streams, Function.update_self]
    rfl
  running h := by
    rw [(streamStop_only only).streams, Function.update_self] at h
    cases h
  requested error' he := by
    cases he
    exact code

theorem OnlyHandles.startEnds_early (only : OnlyHandles (.stream j) s t)
    (stopped : (s.streams j).running = false) {error : PwgError} (code : error.code ≠ .failed) :
    StartEnds results j s (some error, t) where
  cores := only.cores
  others k _ := by rw [only.streams]
  settings := by rw [only.streams]
  running h := by
    rw [only.streams, stopped] at h
    cases h
  requested error' he := by
    cases he
    exact code

theorem streamConnect_ends (only : OnlyHandles (.stream j) s t) :
    StartEnds results j s (t.streamConnect results .f32 j) := by
  unfold Program.streamConnect
  simp only
  generalize hu : t.make (.stream j) .stream _ _ = u
  have only' : OnlyHandles (.stream j) s u := hu ▸ only.trans .make
  split
  next => exact only'.startEnds (by simp)
  next made =>
    split
    next => exact only'.startEnds (by simp)
    next connected =>
      split
      next => exact only'.startEnds (by simp)
      next started =>
        have running := only'.trans (.startLoop (o := .stream j))
        have accepted : StreamAccepted results (s.streams j) := by
          refine ⟨⟨_, ?_, streamProperties_tells results _⟩, ?_, by omega⟩
          · rw [← hu, handle_make, if_pos ⟨rfl, rfl⟩, only.streams] at made
            by_contra refused
            exact made (if_neg refused)
          · rw [only.streams] at connected
            omega
        refine ⟨running.cores, fun k hk => ?_, ?_, fun _ => ⟨rfl, accepted⟩, by simp⟩
        · show Function.update (u.startLoop (.stream j)).streams j _ k = _
          rw [Function.update_of_ne hk, running.streams]
        · show (Function.update (u.startLoop (.stream j)).streams j _ j).settings = _
          rw [Function.update_self, running.streams]
          rfl

/-- A stream that is started asks for what it has been asked for; its requested format is never
what the start fails for. -/
theorem streamStart_ends (stopped : (s.streams j).running = false)
    (valid : (s.streams j).settings.Valid) : StartEnds results j s (s.streamStart results j) := by
  have validated : streamValidateRequestedFormat (some (s.streams j).requestedSampleFormat)
    (s.streams j).requestedRate (s.streams j).requestedChannels = .ok .f32 := valid.1
  unfold Program.streamStart
  simp only [stopped, validated, Bool.false_eq_true, if_false]
  generalize ht₁ : s.make (.stream j) .threadLoop none results.threadLoopNew = t₁
  have only₁ : OnlyHandles (.stream j) s t₁ := ht₁ ▸ .make
  split
  next => exact only₁.startEnds_early stopped (by simp)
  next =>
    generalize ht₂ : t₁.make (.stream j) .context _ _ = t₂
    have only₂ : OnlyHandles (.stream j) s t₂ := ht₂ ▸ only₁.trans .make
    split
    next => exact only₂.startEnds (by simp)
    next =>
      generalize ht₃ : t₂.make (.stream j) .core _ _ = t₃
      have only₃ : OnlyHandles (.stream j) s t₃ := ht₃ ▸ only₂.trans .make
      split
      next => exact only₃.startEnds (by simp)
      next =>
        split
        next => exact only₃.startEnds (by simp)
        next => exact streamConnect_ends only₃

/-- The settings of a stream stay valid, they change only while it is stopped, and it comes to run
only where it has `begun`. -/
structure StreamKept (begun : Prop) (stream changed : PwgStream) : Prop where
  valid : changed.settings.Valid
  settings : stream.running = true ∨ changed.running = true → changed.settings = stream.settings
  begins : changed.running = true → stream.running = true ∨ begun

section

variable {begun : Prop} {stream changed : PwgStream}

theorem StreamKept.same (valid : stream.settings.Valid)
    (settings : changed.settings = stream.settings)
    (running : changed.running = true → stream.running = true) :
    StreamKept begun stream changed :=
  ⟨settings ▸ valid, fun _ => settings, fun h => .inl (running h)⟩

theorem StreamKept.setter
    (h : stream.running = false ∧ changed.running = false ∧ changed.settings.Valid) :
    StreamKept begun stream changed := by
  obtain ⟨before, after, valid⟩ := h
  refine ⟨valid, fun running => ?_, fun running => ?_⟩
  · rw [before, after] at running
    simp at running
  · rw [after] at running
    cases running

theorem StreamKept.update {streams : Nat → PwgStream} (valid : ∀ j, (streams j).settings.Valid)
    (kept : StreamKept (begun ∧ j = k) (streams k) changed) :
    StreamKept begun (streams j) (Function.update streams k changed j) := by
  by_cases hj : j = k
  · subst hj
    rw [Function.update_self]
    exact ⟨kept.valid, kept.settings, fun running => (kept.begins running).imp_right And.left⟩
  · rw [Function.update_of_ne hj]
    exact .same (valid j) rfl id

end

/-- A call that starts stream `j`. -/
structure StreamStarted (j : Nat) (entry : ProgramCall) (results : PipewireResults)
    (s : Program) : Prop where
  start : entry = .streamStart j
  succeeded : (s.call results entry).1 = none
  accepted : StreamAccepted results (s.streams j)

theorem call_streamKept (valid : ∀ j, (s.streams j).settings.Valid) (call : ProgramCall) (j : Nat) :
    StreamKept (StreamStarted j call results s) (s.streams j)
      ((s.call results call).2.streams j) := by
  have same : ∀ {t : Program}, t.streams = s.streams →
      StreamKept (StreamStarted j call results s) (s.streams j) (t.streams j) :=
    fun streams => .same (valid j) (by rw [streams]) (by rw [streams]; exact id)
  have kept : ∀ {t}, CoresKept (fun _ => True) s t →
      StreamKept (StreamStarted j call results s) (s.streams j) (t.streams j) :=
    fun kept => same kept.streams
  have refused : ∀ {change : Except PwgError PwgStream} {k : Nat},
      (∀ changed, change = .ok changed → (s.streams k).running = false ∧
        changed.running = false ∧ changed.settings.Valid) →
      StreamKept (StreamStarted j call results s) (s.streams j)
        ((s.setter change fun self => s.setStream k fun _ => self).2.streams j) := by
    intro change k sets
    cases change with
    | error error => exact same rfl
    | ok changed => exact .update valid (.setter (sets changed rfl))
  cases call with
  | streamStart k =>
    by_cases running : (s.streams k).running = true
    · exact same (by simp [Program.call, Program.streamStart, running])
    · have ends : StartEnds results k s (s.streamStart results k) :=
        streamStart_ends (by simpa using running) (valid k)
      by_cases hj : j = k
      · subst hj
        refine ⟨ends.settings ▸ valid j, fun _ => ends.settings, fun started => .inr ?_⟩
        obtain ⟨succeeded, accepted⟩ := ends.running started
        exact ⟨rfl, succeeded, accepted⟩
      · have other : (s.call results (.streamStart k)).2.streams j = s.streams j := ends.others j hj
        rw [other]
        exact .same (valid j) rfl id
  | streamStop k =>
    simp only [Program.call]
    rw [(streamStop_only (.refl (.stream k) s)).streams]
    exact .update valid (.same (valid k) rfl fun running => absurd running Bool.false_ne_true)
  | streamSetPipewireProperty k key value =>
    exact refused fun changed h => streamSetPipewireProperty_ok h (valid k)
  | streamSetRequestedFormat k sampleFormat rate channels =>
    exact refused fun changed h => streamSetRequestedFormat_ok h (valid k)
  | streamSetDeliverAudioBlocks k deliver =>
    simp only [Program.call]
    split
    next => exact same rfl
    next => exact .update valid (.same (valid k) rfl id)
  | streamQueue k callback =>
    simp only [Program.call]
    split
    next =>
      refine .update valid (.same (valid k) rfl fun running => ?_)
      rwa [(streamQueue_fields _ _).1] at running
    next => exact same rfl
  | streamDispatch k =>
    simp only [Program.call]
    split
    next => exact same rfl
    next =>
      refine .update valid (.same (valid k) rfl fun running => ?_)
      rwa [(streamDispatch_fields _).1] at running
  | coreConnect k => exact kept (coreConnect_coresKept fun _ => trivial)
  | coreDisconnect k => exact kept coreDisconnect_coresKept
  | coreSetPipewireProperty k key value =>
    refine same ?_
    simp only [Program.call, Program.setter]
    split <;> rfl
  | objectNew kind core global => exact kept objectNew_coresKept
  | objectStart i => exact kept (objectStart_coresKept fun _ _ _ => trivial)
  | objectStop i => exact kept objectStop_coresKept
  | objectDispatch i event => exact kept objectDispatch_coresKept
  | objectDispose i => exact kept objectDispose_coresKept

/-- The same for the properties of a core, which may be connected where it has been `opened`. -/
structure CoreKept (opened : Prop) (core changed : PwgCore) : Prop where
  nonempty : changed.pipewireProperties.lookup [] = none
  properties : core.connected = true ∨ changed.connected = true →
    changed.pipewireProperties = core.pipewireProperties
  opens : changed.connected = true → core.connected = true ∨ opened

/-- A call that connects core `k`. -/
structure CoreOpened (k : Nat) (entry : ProgramCall) (results : PipewireResults) (s : Program) :
    Prop where
  connect : entry = .coreConnect k ∨ ∃ i, entry = .objectStart i ∧ (s.objects i).core = some k
  accepted : CoreAccepted results (s.cores k)

theorem call_coreKept (valid : ∀ j, (s.streams j).settings.Valid)
    (nonempty : ∀ k, (s.cores k).pipewireProperties.lookup [] = none) (call : ProgramCall)
    (k : Nat) :
    CoreKept (CoreOpened k call results s) (s.cores k) ((s.call results call).2.cores k) := by
  have same : ∀ {t : Program}, t.cores = s.cores →
      CoreKept (CoreOpened k call results s) (s.cores k) (t.cores k) := fun cores => by
    rw [cores]
    exact ⟨nonempty k, fun _ => rfl, .inl⟩
  have kept : ∀ {t}, CoresKept (fun k => CoreOpened k call results s) s t →
      CoreKept (CoreOpened k call results s) (s.cores k) (t.cores k) := fun kept =>
    ⟨kept.properties k ▸ nonempty k, fun _ => kept.properties k, kept.connected k⟩
  cases call with
  | coreConnect k' => exact kept (coreConnect_coresKept fun accepted => ⟨.inl rfl, accepted⟩)
  | coreDisconnect k' => exact kept coreDisconnect_coresKept
  | coreSetPipewireProperty k' key value =>
    simp only [Program.call, Program.setter]
    split
    next => exact same rfl
    next changed hs =>
      obtain ⟨before, after, set⟩ := coreSetPipewireProperty_ok hs (nonempty k')
      show CoreKept _ _ ((s.setCore k' fun _ => changed).cores k)
      rw [setCore_cores]
      split
      next hk =>
        subst hk
        refine ⟨set, fun connected => ?_, fun connected => ?_⟩
        · rw [before, after] at connected
          simp at connected
        · rw [after] at connected
          cases connected
      next => exact ⟨nonempty k, fun _ => rfl, .inl⟩
  | streamStart j =>
    by_cases running : (s.streams j).running = true
    · exact same (by simp [Program.call, Program.streamStart, running])
    · have ends : StartEnds results j s (s.streamStart results j) :=
        streamStart_ends (by simpa using running) (valid j)
      exact same ends.cores
  | streamStop j => exact same streamStop_cores
  | streamSetPipewireProperty j key value | streamSetRequestedFormat j sampleFormat rate channels =>
    refine same ?_
    simp only [Program.call, Program.setter]
    split <;> rfl
  | streamSetDeliverAudioBlocks j deliver | streamQueue j callback | streamDispatch j =>
    refine same ?_
    simp only [Program.call]
    split <;> rfl
  | objectNew kind core global => exact kept objectNew_coresKept
  | objectStart i => exact kept (objectStart_coresKept fun k hk accepted =>
      ⟨.inr ⟨i, rfl, hk⟩, accepted⟩)
  | objectStop i => exact kept objectStop_coresKept
  | objectDispatch i event => exact kept objectDispatch_coresKept
  | objectDispose i => exact kept objectDispose_coresKept

/-- What the application may set is always usable. -/
structure SettingsValid (s : Program) : Prop where
  streams : ∀ j, (s.streams j).settings.Valid
  cores : ∀ k, (s.cores k).pipewireProperties.lookup [] = none

theorem SettingsValid.start (targets : Nat → Option CString × Bool) :
    SettingsValid (Program.start targets) := by
  refine ⟨fun j => ⟨?_, rfl⟩, fun k => rfl⟩
  show streamValidateRequestedFormat (some (text "F32")) 48000 2 = .ok .f32
  decide +kernel

/-- The calls that a stream is in a session of: one that has started it, and none since that has
stopped it or changed what it asks for. -/
def StreamSession (targets : Nat → Option CString × Bool) (j : Nat) (s : Program) : Prop :=
  SinceBegun Program.step anyStep (Program.start targets) (fun t => (t.streams j).running = true)
    (fun t => (t.streams j).settings)
    (fun t label _ => label.1 = .streamStart j ∧ (t.call label.2 label.1).1 = none ∧
      StreamAccepted label.2 (s.streams j)) s

/-- The same for a core and its properties. -/
def CoreSession (targets : Nat → Option CString × Bool) (k : Nat) (s : Program) : Prop :=
  SinceBegun Program.step anyStep (Program.start targets) (fun t => (t.cores k).connected = true)
    (fun t => (t.cores k).pipewireProperties)
    (fun t label _ => (label.1 = .coreConnect k ∨
      ∃ i, label.1 = .objectStart i ∧ (t.objects i).core = some k) ∧
        CoreAccepted label.2 (s.cores k)) s

theorem SettingsValid.reach {targets : Nat → Option CString × Bool}
    (h : Reach Program.step anyStep (Program.start targets) s) : SettingsValid s := by
  refine h.invariant (.start targets) fun s label t valid _ ht => ?_
  cases ht
  exact ⟨fun j => (call_streamKept valid.streams label.1 j).valid,
    fun k => (call_coreKept valid.streams valid.cores label.1 k).nonempty⟩

/-- What was set is valid, so that no start of a stream fails for what was requested. -/
theorem program_settings_valid {targets : Nat → Option CString × Bool}
    (h : Reach Program.step anyStep (Program.start targets) s) :
    SettingsValid s ∧ ∀ results j error t, s.streamStart results j = (some error, t) →
      error.code ≠ .failed := by
  have valid := SettingsValid.reach h
  refine ⟨valid, fun results j error t hs => ?_⟩
  by_cases running : (s.streams j).running = true
  · simp [Program.streamStart, running] at hs
  · have ends : StartEnds results j s (s.streamStart results j) :=
      streamStart_ends (by simpa using running) (valid.streams j)
    rw [hs] at ends
    exact ends.requested error rfl

/-- A format that is refused and one that is taken, and a start for which there is no context. -/
def requestedFormats : Program :=
  final Program.step (Program.start fun _ => (none, false)) [
    (.streamSetRequestedFormat 0 (some (text "S16")) 44100 1, {}),
    (.streamSetRequestedFormat 0 (some (text "F32")) 0 1, {}),
    (.streamSetRequestedFormat 0 (some (text "F32")) 44100 1, {}),
    (.streamSetRequestedFormat 0 (some (text "F32")) 96000 3, {}),
    (.streamSetPipewireProperty 0 (some []) (some (text "tap")), {})]

theorem program_settings_valid_requested :
    SettingsValid requestedFormats ∧ (requestedFormats.streams 0).requestedRate = 44100 ∧
      ∃ error t, requestedFormats.streamStart { contextNew := false } 0 = (some error, t) ∧
        error.code ≠ .failed := by
  have valid := program_settings_valid
    (reach_final (allAllowed_anyStep _ _) : Reach Program.step anyStep _ requestedFormats)
  have failed : (requestedFormats.streamStart { contextNew := false } 0).1 =
      some ⟨.pipewire, text "Could not create PipeWire context"⟩ := by decide +kernel
  have pair : requestedFormats.streamStart { contextNew := false } 0 =
      (some ⟨.pipewire, text "Could not create PipeWire context"⟩, _) := Prod.ext failed rfl
  exact ⟨valid.1, by decide +kernel, _, _, pair, valid.2 _ 0 _ _ pair⟩

/-- What runs has been started with what it is asked for now, and nothing of that has changed
since. -/
theorem program_runs_asAsked {targets : Nat → Option CString × Bool}
    (h : Reach Program.step anyStep (Program.start targets) s) :
    (∀ j, (s.streams j).running = true → StreamSession targets j s) ∧
      ∀ k, (s.cores k).connected = true → CoreSession targets k s := by
  refine ⟨fun j running => ?_, fun k connected => ?_⟩
  · have kept : ∀ s label t, Reach Program.step anyStep (Program.start targets) s →
        Program.step s label = some t →
        StreamKept (StreamStarted j label.1 label.2 s) (s.streams j) (t.streams j) := by
      intro s label t hs ht
      cases ht
      exact call_streamKept (SettingsValid.reach hs).streams label.1 j
    have session : SinceBegun Program.step anyStep (Program.start targets)
        (fun t => (t.streams j).running = true) (fun t => (t.streams j).settings)
        (fun t label u => StreamStarted j label.1 label.2 t ∧
          (u.streams j).settings = (t.streams j).settings) s :=
      h.sinceBegun Bool.false_ne_true running
        (fun s label t hs ht stopped running =>
          ⟨((kept s label t hs ht).begins running).resolve_left stopped,
            (kept s label t hs ht).settings (.inr running)⟩)
        (fun s label t hs ht running => (kept s label t hs ht).settings (.inl running))
    refine session.mono fun t label u same begun => ?_
    obtain ⟨started, unchanged⟩ := begun
    exact ⟨started.start, started.succeeded, started.accepted.same (same.symm.trans unchanged)⟩
  · have kept : ∀ s label t, Reach Program.step anyStep (Program.start targets) s →
        Program.step s label = some t →
        CoreKept (CoreOpened k label.1 label.2 s) (s.cores k) (t.cores k) := by
      intro s label t hs ht
      cases ht
      have valid := SettingsValid.reach hs
      exact call_coreKept valid.streams valid.cores label.1 k
    have session : SinceBegun Program.step anyStep (Program.start targets)
        (fun t => (t.cores k).connected = true) (fun t => (t.cores k).pipewireProperties)
        (fun t label u => CoreOpened k label.1 label.2 t ∧
          (u.cores k).pipewireProperties = (t.cores k).pipewireProperties) s :=
      h.sinceBegun Bool.false_ne_true connected
        (fun s label t hs ht apart connected =>
          ⟨((kept s label t hs ht).opens connected).resolve_left apart,
            (kept s label t hs ht).properties (.inr connected)⟩)
        (fun s label t hs ht connected => (kept s label t hs ht).properties (.inl connected))
    refine session.mono fun t label u same begun => ?_
    obtain ⟨opened, unchanged⟩ := begun
    exact ⟨opened.connect, opened.accepted.same (same.symm.trans unchanged)⟩

/-- A stream that cannot be made yet, is asked for another format and started, refuses a property
then, and gets one once it has been stopped; a node connects its core. -/
def askedSessions : Program :=
  final Program.step (Program.start fun _ => (some (text "42"), true)) [
    (.streamStart 0, { streamNew := fun _ => false }),
    (.streamSetRequestedFormat 0 (some (text "F32")) 44100 1, {}),
    (.streamSetPipewireProperty 0 (some (text "node.name")) (some (text "tap")), {}),
    (.streamStart 0, {}),
    (.streamSetPipewireProperty 0 (some (text "node.name")) none, {}),
    (.coreSetPipewireProperty 0 (some (text "remote.name")) (some (text "lab")), {}),
    (.objectNew .node (some 0) (some ⟨7, 0, some ObjectKind.node.interface, 3, []⟩), {}),
    (.objectStart 0, {})]

theorem program_runs_asAsked_sessions :
    StreamSession (fun _ => (some (text "42"), true)) 0 askedSessions ∧
      CoreSession (fun _ => (some (text "42"), true)) 0 askedSessions ∧
      (askedSessions.streams 0).requestedRate = 44100 ∧
      (askedSessions.streams 0).pipewireProperties.lookup (text "node.name") =
        some (text "tap") := by
  have sessions := program_runs_asAsked
    (reach_final (allAllowed_anyStep _ _) : Reach Program.step anyStep _ askedSessions)
  exact ⟨sessions.1 0 (by decide +kernel), sessions.2 0 (by decide +kernel), by decide +kernel,
    by decide +kernel⟩

end PipewireGobject
