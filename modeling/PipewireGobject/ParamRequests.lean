import PipewireGobject.ParamProps
import PipewireGobject.ProgramCalls

namespace PipewireGobject

/-- The bytes that `on_param` copies from where the parameter is: `SPA_POD_SIZE` of them. -/
def copyPod (memory : Nat → UInt8) : List UInt8 :=
  (List.range (8 + littleEndian ((List.range 4).map memory))).map memory

/-- `pwg_node_on_param` and `pwg_device_on_param`, up to the queueing. -/
def objectCopyParam (kind : ObjectKind) (seq : Int) (id index next : UInt32)
    (param : Option (Nat → UInt8)) : Option Param :=
  objectOnParam kind seq id index next (param.map copyPod)

/-- What a request looks at before it is made. -/
structure RequestTarget where
  hasObject : Bool
  bound : Bool
  hasThreadLoop : Bool

def RequestTarget.refusal (kind : ObjectKind) (target : RequestTarget) : Option PwgError :=
  if target.hasObject = false ∨ target.bound = false then
    some ⟨.failed, text (kind.title ++ " object is not bound")⟩
  else if target.hasThreadLoop = false then
    some ⟨.pipewire, text "PipeWire core is not connected"⟩
  else none

/-- What the PipeWire call returns, and the texts of `g_strerror`. -/
structure RequestResult where
  result : Int
  strerror : Int → CString

def RequestResult.error (doing : String) (r : RequestResult) : Option PwgError :=
  if r.result < 0 then some ⟨.pipewire, text doing ++ r.strerror (-r.result)⟩ else none

/-- What `pw_node_set_param` and `pw_device_set_param` are given. -/
structure SetParamRequest where
  id : UInt32
  flags : UInt32
  pod : List UInt8
  deriving DecidableEq

/-- `pwg_node_set_param` and `pwg_device_set_param`: what is sent, and the error. -/
def objectSetParam (kind : ObjectKind) (target : RequestTarget) (r : RequestResult)
    (param : Param) : Option SetParamRequest × Option PwgError :=
  match target.refusal kind with
  | some error => (none, some error)
  | none =>
    if (paramGetPod (paramBytes param.pod)).value = false then
      (none, some ⟨.failed, text "Parameter has no valid SPA POD"⟩)
    else
      (some ⟨param.id, 0, copyPod (paramBytes param.pod).memory⟩,
        r.error ("Could not set PipeWire " ++ kind.word ++ " param: "))

/-- The `GVariant` of `subscribe_params`: an array of words, or of another type. -/
inductive ParamIds
  | array (ids : List UInt32)
  | other

/-- What `pw_node_subscribe_params` and `pw_device_subscribe_params` are given. -/
structure SubscribeRequest where
  ids : List UInt32
  count : UInt32
  deriving DecidableEq

/-- `pwg_node_subscribe_params` and `pwg_device_subscribe_params` -/
def objectSubscribeParams (kind : ObjectKind) (target : RequestTarget) (r : RequestResult) :
    ParamIds → Option SubscribeRequest × Option PwgError
  | .other => (none, some ⟨.failed, text "Parameter ids must be a uint32 array variant"⟩)
  | .array ids =>
    match target.refusal kind with
    | some error => (none, some error)
    | none =>
      if 0xffffffff < ids.length then (none, some ⟨.failed, text "Too many parameter ids"⟩)
      else
        (some ⟨ids, ids.length.toUInt32⟩,
          r.error ("Could not subscribe to PipeWire " ++ kind.word ++ " params: "))

variable {kind : ObjectKind} {target : RequestTarget} {r : RequestResult} {p : Pod}
  {bytes : List UInt8} {memory : Nat → UInt8}

/-- The memory starts with these bytes. -/
def MemoryHolds (memory : Nat → UInt8) (bytes : List UInt8) : Prop :=
  ∀ i byte, bytes[i]? = some byte → memory i = byte

/-- What is copied is the pod, and nothing behind it. -/
theorem copyPod_bytes (fits : p.Fits) (h : MemoryHolds memory p.bytes) :
    copyPod memory = p.bytes := by
  have starts : ParamBytes.StartsWith ⟨memory, p.bytes.length⟩ p.bytes := ⟨Nat.le_refl _, h⟩
  have declared : littleEndian ((List.range 4).map memory) = p.body.length := by
    simpa [ParamBytes.declared] using starts.declared fits
  have length : p.bytes.length = 8 + p.body.length := by
    simp only [Pod.bytes, List.length_append, wordBytes_length]
  have whole : ParamBytes.StartsWith ⟨memory, p.bytes.length⟩ ([] ++ (p.bytes ++ [])) := by
    simpa using starts
  have read := whole.middle
  rw [copyPod, declared, ← length]
  simpa using read

theorem startsWith_iff :
    (paramBytes bytes).StartsWith p.bytes ↔ ∃ rest, bytes = p.bytes ++ rest := by
  constructor
  · rintro ⟨room, reads⟩
    refine ⟨bytes.drop p.bytes.length, ?_⟩
    have same : bytes.take p.bytes.length = p.bytes := by
      apply List.ext_getElem?
      intro i
      rw [List.getElem?_take]
      split
      next inside =>
        have known : p.bytes[i]? = some p.bytes[i] := List.getElem?_eq_getElem inside
        have read := reads i _ known
        have below : i < bytes.length := Nat.lt_of_lt_of_le inside room
        simp only [paramBytes, List.getD, List.getElem?_eq_getElem below,
          Option.getD_some] at read
        rw [known, List.getElem?_eq_getElem below, read]
      next outside => rw [List.getElem?_eq_none (by omega)]
    conv_lhs => rw [← List.take_append_drop p.bytes.length bytes, same]
  · rintro ⟨rest, rfl⟩
    exact paramBytes_append _ _

theorem paramBytes_noPod {q : Param} (h : (paramGetPod (paramBytes q.pod)).value = false) :
    ¬∃ (p : Pod) (rest : List UInt8), p.Fits ∧ q.pod = p.bytes ++ rest := by
  rintro ⟨p, rest, fits, pod⟩
  rw [(startsWith_iff.mpr ⟨rest, pod⟩).getPod fits] at h
  cases h

theorem paramBytes_pod {q : Param} (h : (paramGetPod (paramBytes q.pod)).value = true) :
    ∃ (p : Pod) (rest : List UInt8), p.Fits ∧ q.pod = p.bytes ++ rest ∧
      copyPod (paramBytes q.pod).memory = p.bytes := by
  rw [paramGetPod_value, decide_eq_true_iff, hasPod_iff] at h
  obtain ⟨p, fits, starts⟩ := h
  obtain ⟨rest, pod⟩ := startsWith_iff.mp starts
  exact ⟨p, rest, fits, pod, copyPod_bytes fits starts.2⟩

/-- A parameter is set exactly if the object can be asked and the bytes start with a pod, which is
all that is sent; otherwise there is an error. -/
theorem objectSetParam_sends {q : Param} :
    match objectSetParam kind target r q with
    | (none, error) => error.isSome ∧
        ¬(target.refusal kind = none ∧
          ∃ (p : Pod) (rest : List UInt8), p.Fits ∧ q.pod = p.bytes ++ rest)
    | (some request, error) => (error = none ↔ 0 ≤ r.result) ∧ target.refusal kind = none ∧
        ∃ (p : Pod) (rest : List UInt8), p.Fits ∧ q.pod = p.bytes ++ rest ∧
          request = ⟨q.id, 0, p.bytes⟩ := by
  rw [objectSetParam]
  cases refused : target.refusal kind with
  | some error => simp
  | none =>
    cases pod : (paramGetPod (paramBytes q.pod)).value with
    | false => simpa using paramBytes_noPod pod
    | true =>
      obtain ⟨p, rest, fits, start, copied⟩ := paramBytes_pod pod
      refine ⟨?_, rfl, p, rest, fits, start, by rw [copied]⟩
      rw [RequestResult.error]
      split <;> simp <;> omega

/-- The parameter that an object has sent is set as it was sent. -/
theorem objectCopyParam_set {seq : Int} {id index next : UInt32} {q : Param} (fits : p.Fits)
    (sent : MemoryHolds memory p.bytes)
    (copied : objectCopyParam kind seq id index next (some memory) = some q)
    (usable : target.refusal kind = none) :
    (objectSetParam kind target r q).1 = some ⟨id, 0, p.bytes⟩ := by
  rw [objectCopyParam, objectOnParam, Option.map_some, copyPod_bytes fits sent] at copied
  split at copied
  next => cases copied
  next =>
    cases copied
    have starts := paramBytes_startsWith p.bytes
    have same := copyPod_bytes fits starts.2
    simp [objectSetParam, usable, starts.getPod fits, same]

/-- The ids that are subscribed to are the given ones, with the right count. -/
theorem objectSubscribeParams_sends {ids : ParamIds} :
    match objectSubscribeParams kind target r ids with
    | (none, error) => error.isSome
    | (some request, error) => (error = none ↔ 0 ≤ r.result) ∧ target.refusal kind = none ∧
        ids = .array request.ids ∧ request.count.toNat = request.ids.length := by
  rw [objectSubscribeParams.eq_def]
  cases ids with
  | other => rfl
  | array ids =>
    cases refused : target.refusal kind with
    | some error => simp
    | none =>
      by_cases many : 0xffffffff < ids.length
      · simp [many]
      · simp only [many, if_false]
        refine ⟨?_, trivial, trivial, ?_⟩
        · rw [RequestResult.error]
          split <;> simp <;> omega
        · simp only [Nat.toUInt32, UInt32.toNat_ofNat']
          omega

/-- A parameter that an object has sent can be set on any object that can be asked, as it was
sent; what else is set are the pods that the bytes start with, and an error tells of the rest. -/
theorem objectRequests_send (kind : ObjectKind) (target : RequestTarget) (r : RequestResult) :
    (∀ (p : Pod) (memory : Nat → UInt8) (seq : Int) (id index next : UInt32) (q : Param),
      p.Fits → MemoryHolds memory p.bytes →
      objectCopyParam kind seq id index next (some memory) = some q →
      target.refusal kind = none →
        (objectSetParam kind target r q).1 = some ⟨id, 0, p.bytes⟩) ∧
    (∀ q : Param, match objectSetParam kind target r q with
      | (none, error) => error.isSome ∧
          ¬(target.refusal kind = none ∧
            ∃ (p : Pod) (rest : List UInt8), p.Fits ∧ q.pod = p.bytes ++ rest)
      | (some request, error) => (error = none ↔ 0 ≤ r.result) ∧ target.refusal kind = none ∧
          ∃ (p : Pod) (rest : List UInt8), p.Fits ∧ q.pod = p.bytes ++ rest ∧
            request = ⟨q.id, 0, p.bytes⟩) ∧
    ∀ ids : ParamIds, match objectSubscribeParams kind target r ids with
      | (none, error) => error.isSome
      | (some request, error) => (error = none ↔ 0 ≤ r.result) ∧ target.refusal kind = none ∧
          ids = .array request.ids ∧ request.count.toNat = request.ids.length :=
  ⟨fun _ _ _ _ _ _ _ fits sent copied usable => objectCopyParam_set fits sent copied usable,
    fun _ => objectSetParam_sends, fun _ => objectSubscribeParams_sends⟩

/-- A true Bool with other bytes behind it, where the param callback of a device finds it. -/
def receivedPod : Nat → UInt8 := (paramBytes ((BasicValue.bool true).pod.bytes ++ [7, 7])).memory

/-- What the device has sent is what a node is given, though PipeWire refuses it there. -/
theorem objectRequests_send_received :
    objectCopyParam .device 3 2 0 1 (some receivedPod) =
        some ⟨3, 2, 0, 1, (BasicValue.bool true).pod.bytes⟩ ∧
      (objectSetParam .node ⟨true, true, true⟩ ⟨-1, fun _ => text "refused"⟩
          ⟨3, 2, 0, 1, (BasicValue.bool true).pod.bytes⟩).1 =
        some ⟨2, 0, (BasicValue.bool true).pod.bytes⟩ := by
  have fits : (BasicValue.bool true).pod.Fits := BasicValue.pod_fits trivial
  have holds : MemoryHolds receivedPod (BasicValue.bool true).pod.bytes :=
    (paramBytes_append _ [7, 7]).2
  have copied : objectCopyParam .device 3 2 0 1 (some receivedPod) =
      some ⟨3, 2, 0, 1, (BasicValue.bool true).pod.bytes⟩ := by decide +kernel
  refine ⟨copied, ?_⟩
  exact (objectRequests_send .node ⟨true, true, true⟩ ⟨-1, fun _ => text "refused"⟩).1
    _ receivedPod 3 2 0 1 _ fits holds copied rfl

end PipewireGobject
