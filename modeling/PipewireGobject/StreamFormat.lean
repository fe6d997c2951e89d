import PipewireGobject.StreamPhase

namespace PipewireGobject

/-- A stream with the formats queued so far, oldest first, less those that a stop
discarded: a dispatch has `taken` them, or they are `waiting` for one. -/
structure FormatRun where
  run : StreamRun := {}
  taken : List AudioFormat := []
  waiting : List AudioFormat := []
  deriving DecidableEq

def FormatRun.undiscarded (s : FormatRun) : List AudioFormat := s.taken ++ s.waiting

/-- What a statement does to the formats that wait. -/
def FormatRun.settle (s : FormatRun) : StreamStmt → FormatRun
  | .dispatchTake => { s with taken := s.taken ++ s.waiting, waiting := [] }
  | .stopLoop _ _ => { s with waiting := [] }
  | _ => s

def StreamCallback.format : StreamCallback → List AudioFormat
  | .queueFormat format => [format]
  | _ => []

def formatComponent :
    Component FormatRun StreamStmt StreamCall StartOutcome StreamCallback where
  exec outcome i s :=
    ({ s.settle i with run := (streamExec outcome i s.run).1 }, (streamExec outcome i s.run).2)
  emission := streamComponent.emission
  call operation s :=
    (streamCall operation s.run).map fun r => ({ s with run := r.1 }, r.2)
  environment event s :=
    (streamEnvironment event s.run).map fun t =>
      { s with run := t, waiting := s.waiting ++ event.format }

def formatInit : Config FormatRun StreamStmt := ⟨{}, []⟩

/-- The three properties agree: no format, or all of this one. -/
def Stream.shows (s : Stream) : Option AudioFormat → Prop
  | none => s.audioFormat = none ∧ s.rate = 0 ∧ s.channels = 0
  | some format =>
    s.audioFormat = some format ∧ s.rate = format.rate ∧ s.channels = format.channels

instance (s : Stream) (format : Option AudioFormat) : Decidable (s.shows format) :=
  match format with
  | none => inferInstanceAs (Decidable (_ ∧ _))
  | some _ => inferInstanceAs (Decidable (_ ∧ _))

/-- What is published and what is pending of the format is the same in both states. -/
structure SameFormat (s t : Stream) : Prop where
  audioFormat : t.audioFormat = s.audioFormat
  rate : t.rate = s.rate
  channels : t.channels = s.channels
  pending : t.pendingFormat = s.pendingFormat

theorem SameFormat.refl (s : Stream) : SameFormat s s := ⟨rfl, rfl, rfl, rfl⟩

theorem SameFormat.shows {s t : Stream} {format : Option AudioFormat} (h : SameFormat s t)
    (hs : s.shows format) : t.shows format := by
  cases format <;> simpa only [Stream.shows, h.audioFormat, h.rate, h.channels] using hs

theorem streamTakePending_shows (s : Stream) (format : Option AudioFormat) :
    (streamTakePending s).shows format ↔ s.shows format := by
  cases format <;> rfl

/-- Stopping discards what is pending and leaves what is published. -/
theorem streamClearPending_shows (s : Stream) (format : Option AudioFormat) :
    Stream.shows { streamClearPending s with graphRate := 0 } format ↔ s.shows format := by
  cases format <;> rfl

/-- Statements that take, publish or discard a format. -/
def StreamStmt.ofFormat : StreamStmt → Bool
  | .dispatchTake | .dispatchFormat _ | .stopLoop _ _ => true
  | _ => false

variable {s t : FormatRun} {code rest : List StreamStmt} {i : StreamStmt}
  {outcome : StartOutcome}

theorem streamExec_sameFormat (outcome : StartOutcome) (s : StreamRun)
    (hi : i.ofFormat = false) :
    SameFormat s.stream (streamExec outcome i s).1.stream ∧
      ∀ format, .dispatchFormat format ∉ (streamExec outcome i s).2 := by
  have same : SameFormat s.stream s.stream := .refl _
  by_cases he : i.ofEmission = true
  · obtain ⟨emissions, events, code, heq, -, hcode⟩ := streamExec_ofEmission outcome s he
    rw [heq]
    refine ⟨same, ?_⟩
    rcases hcode with rfl | ⟨property, rfl⟩ <;> simp
  cases i with
  | handlers | notify => exact absurd rfl he
  | dispatchGraphRate hasGraphRate graphRate revision =>
    simp only [streamExec]
    split
    · exact ⟨{ SameFormat.refl s.stream with }, by simp⟩
    · exact ⟨same, by simp⟩
  | dispatchPeak peak =>
    cases peak with
    | none => exact ⟨same, by simp [streamExec]⟩
    | some peak =>
      simp only [streamExec]
      split
      · exact ⟨{ SameFormat.refl s.stream with }, by simp⟩
      · exact ⟨same, by simp⟩
  | emitLevel peak => exact ⟨same, by simp [streamExec]⟩
  | dispatchBlocks blocks =>
    cases blocks with
    | nil => exact ⟨same, by simp [streamExec]⟩
    | cons block blocks =>
      simp only [streamExec]
      split <;> exact ⟨same, by simp⟩
  | start =>
    simp only [streamExec]
    split
    · exact ⟨same, by simp⟩
    · cases outcome with
      | nothingCreated => exact ⟨same, by simp⟩
      | failed => exact ⟨same, by simp⟩
      | started => exact ⟨{ SameFormat.refl s.stream with }, by simp⟩
  | startRunning => exact ⟨{ SameFormat.refl s.stream with }, by simp [streamExec]⟩
  | stop => exact ⟨{ SameFormat.refl s.stream with }, by simp [streamExec]⟩
  | stopReturn mark => exact ⟨same, by simp [streamExec]⟩
  | setDeliverAudioBlocks deliver =>
    simp only [streamExec]
    split
    · exact ⟨same, by simp⟩
    · exact ⟨{ SameFormat.refl s.stream with }, by simp⟩
  | _ => simp [StreamStmt.ofFormat] at hi

theorem streamCallback_format (event : StreamCallback) (s : StreamRun) :
    (∀ shown, s.stream.shows shown → (streamCallback event s).stream.shows shown) ∧
      (streamCallback event s).stream.pendingFormat =
        event.format.getLast?.or s.stream.pendingFormat := by
  have same : event.format = [] → SameFormat s.stream (streamCallback event s).stream := by
    intro hf
    cases event with
    | queuePeak peak => constructor <;>
        simp [streamCallback, streamQueuePeak, streamQueueDispatchLocked_eq, Stream.pendingFormat]
    | queueGraphRate rate =>
      simp only [streamCallback, streamQueueGraphRate]
      split
      · exact .refl _
      · constructor <;> simp [streamQueueDispatchLocked_eq, Stream.pendingFormat]
    | queueFormat format => simp [StreamCallback.format] at hf
    | queueAudioBlock block =>
      simp only [streamCallback]
      split
      · exact .refl _
      · constructor <;>
          simp [streamQueueAudioBlock, streamQueueDispatchLocked_eq, Stream.pendingFormat, *]
  cases event with
  | queueFormat format =>
    refine ⟨fun shown hs => ?_, ?_⟩
    · cases shown <;>
        simpa [streamCallback, streamQueueFormat, streamQueueDispatchLocked_eq, Stream.shows]
          using hs
    · simp [streamCallback, streamQueueFormat, streamQueueDispatchLocked_eq, Stream.pendingFormat,
        StreamCallback.format]
  | _ =>
    exact ⟨fun shown => (same rfl).shows, by
      simpa [StreamCallback.format] using (same rfl).pending⟩

/-- A format taken by a dispatch is published before anything else runs. -/
structure FormatInv (s : FormatRun) (code : List StreamStmt) : Prop where
  pending : s.run.stream.pendingFormat = s.waiting.getLast?
  publish_next : ∀ format, .dispatchFormat format ∉ code.tail
  agree : ∃ shown, s.run.stream.shows shown
  latest : (∀ format, code.head? ≠ some (.dispatchFormat (some format))) →
    s.run.stream.shows s.taken.getLast?
  publishing : ∀ format, code.head? = some (.dispatchFormat (some format)) →
    s.taken.getLast? = some format

/-- A step that publishes nothing and after which nothing is about to be published. -/
theorem FormatInv.of_shows {code' : List StreamStmt}
    (pending : t.run.stream.pendingFormat = t.waiting.getLast?)
    (shows : t.run.stream.shows t.taken.getLast?)
    (none_left : ∀ format, .dispatchFormat format ∉ code') : FormatInv t code' where
  pending := pending
  publish_next _ hm := none_left _ (List.mem_of_mem_tail hm)
  agree := ⟨_, shows⟩
  latest _ := shows
  publishing _ hc := absurd (List.mem_of_mem_head? hc) (none_left _)

theorem FormatInv.shows (h : FormatInv s code)
    (none_left : ∀ format, .dispatchFormat format ∉ code) :
    s.run.stream.shows s.taken.getLast? :=
  h.latest fun _ hc => none_left _ (List.mem_of_mem_head? hc)

theorem FormatInv.head_shows (h : FormatInv s (i :: rest)) (hi : i.ofFormat = false) :
    s.run.stream.shows s.taken.getLast? := by
  refine h.shows ?_
  intro format hm
  rcases List.mem_cons.mp hm with rfl | hm
  · simp [StreamStmt.ofFormat] at hi
  · exact h.publish_next format hm

/-- A dispatch has taken everything; the format it took, if any, is published next. -/
theorem FormatInv.take (h : FormatInv s (.dispatchTake :: rest)) :
    FormatInv (formatComponent.exec outcome .dispatchTake s).1
      ((formatComponent.exec outcome .dispatchTake s).2 ++ rest) := by
  have shows : (streamTakePending s.run.stream).shows s.taken.getLast? :=
    (streamTakePending_shows _ _).mpr (h.latest (by simp))
  have last : (s.taken ++ s.waiting).getLast? =
      s.run.stream.pendingFormat.or s.taken.getLast? := by
    rw [List.getLast?_append, h.pending]
  exact {
    pending := by
      simp [formatComponent, FormatRun.settle, streamExec, streamTakePending,
        Stream.pendingFormat]
    publish_next := fun format => by
      have none_left := h.publish_next format
      simpa [formatComponent, streamExec] using none_left
    agree := ⟨_, shows⟩
    latest := fun hc => by
      have none_taken : s.run.stream.pendingFormat = none := by
        simpa [formatComponent, streamExec, Option.eq_none_iff_forall_ne_some] using hc
      show (streamTakePending s.run.stream).shows (s.taken ++ s.waiting).getLast?
      rw [last, none_taken]
      exact shows
    publishing := fun format hc => by
      have taken : s.run.stream.pendingFormat = some format := by
        simpa [formatComponent, streamExec] using hc
      show (s.taken ++ s.waiting).getLast? = some format
      rw [last, taken]
      rfl }

theorem FormatInv.publish {format : Option AudioFormat}
    (h : FormatInv s (.dispatchFormat format :: rest)) :
    FormatInv (formatComponent.exec outcome (.dispatchFormat format) s).1
      ((formatComponent.exec outcome (.dispatchFormat format) s).2 ++ rest) := by
  have none_left : ∀ format, .dispatchFormat format ∉ rest := h.publish_next
  cases format with
  | none => exact .of_shows h.pending (h.latest (by simp)) none_left
  | some format =>
    refine .of_shows h.pending ?_ ?_
    · show Stream.shows _ s.taken.getLast?
      rw [h.publishing format rfl]
      exact ⟨rfl, rfl, rfl⟩
    · simpa [formatComponent, streamExec] using none_left

theorem FormatInv.run (h : FormatInv s (i :: rest)) :
    FormatInv (formatComponent.exec outcome i s).1
      ((formatComponent.exec outcome i s).2 ++ rest) := by
  have none_left : ∀ format, .dispatchFormat format ∉ rest := h.publish_next
  by_cases hi : i.ofFormat = false
  · obtain ⟨same, hnew⟩ := streamExec_sameFormat outcome s.run hi
    have settled : s.settle i = s := by
      cases i <;> first | rfl | simp [StreamStmt.ofFormat] at hi
    have shows : (streamExec outcome i s.run).1.stream.shows s.taken.getLast? :=
      same.shows (h.head_shows hi)
    refine .of_shows ?_ ?_ ?_
    · simpa [formatComponent, settled, same.pending] using h.pending
    · simpa [formatComponent, settled] using shows
    · intro format hm
      exact (List.mem_append.mp hm).elim (hnew format) (none_left format)
  cases i with
  | dispatchTake => exact h.take
  | dispatchFormat format => exact h.publish
  | stopLoop wasRunning mark =>
    have shows : s.run.stream.shows s.taken.getLast? := h.latest (by simp)
    refine .of_shows ?_ ?_ ?_
    · simp [formatComponent, FormatRun.settle, streamExec, streamClearPending,
        Stream.pendingFormat]
    · exact (streamClearPending_shows _ _).mpr shows
    · simp only [formatComponent, streamExec]
      split <;> split <;> simpa using none_left
  | _ => simp [StreamStmt.ofFormat] at hi

theorem format_preserves {allowed : Config FormatRun StreamStmt →
    Label StreamCall StartOutcome StreamCallback → Prop} :
    formatComponent.Preserves allowed FormatInv where
  call operation s code r h ha _ hr := by
    have none_left : ∀ format, .dispatchFormat format ∉ code := by
      rcases applicationRuns_code ha with rfl | ⟨notified, rest, rfl⟩
      · simp
      · simpa using h.publish_next
    obtain ⟨u, hu, rfl⟩ := Option.map_eq_some_iff.mp hr
    obtain ⟨sources, rfl⟩ := streamCall_eq hu
    have shows : s.run.stream.shows s.taken.getLast? := h.shows none_left
    refine .of_shows h.pending ?_ ?_
    · cases hl : s.taken.getLast? <;> simpa [Stream.shows, hl] using shows
    · cases operation <;> simpa [StreamCall.stmt] using none_left
  run _ _ _ _ h _ := h.run
  environment event s code t h _ ht := by
    obtain ⟨u, hu, rfl⟩ := Option.map_eq_some_iff.mp ht
    obtain ⟨-, rfl⟩ := streamEnvironment_eq hu
    obtain ⟨shows, pending⟩ := streamCallback_format event s.run
    exact {
      pending := by rw [pending, h.pending, List.getLast?_append]
      publish_next := h.publish_next
      agree := h.agree.imp fun shown => shows shown
      latest := fun hc => shows _ (h.latest hc)
      publishing := h.publishing }

theorem format_init : FormatInv formatInit.state formatInit.code := by
  refine .of_shows rfl ?_ ?_
  · exact ⟨rfl, rfl, rfl⟩
  · simp [formatInit]

theorem pendingFormat_eq_none {s : Stream} :
    s.pendingFormat = none ↔ s.hasPendingFormat = false := by
  simp [Stream.pendingFormat]

theorem streamFormat_published {c : Config FormatRun StreamStmt}
    (h : Reach formatComponent.step anyStep formatInit c) :
    (∃ shown, c.state.run.stream.shows shown) ∧
    (formatComponent.applicationRuns c.code = true →
      c.state.run.stream.hasPendingFormat = false →
      c.state.run.stream.shows c.state.undiscarded.getLast?) := by
  have inv := format_preserves.reach h format_init
  refine ⟨inv.agree, ?_⟩
  intro ha hp
  have none_left : ∀ format, .dispatchFormat format ∉ c.code := by
    rcases applicationRuns_code ha with hc | ⟨notified, rest, hc⟩
    · simp [hc]
    · simpa [hc] using inv.publish_next
  have none_waiting : c.state.waiting = [] := by
    rw [← List.getLast?_eq_none_iff, ← inv.pending, pendingFormat_eq_none]
    exact hp
  rw [FormatRun.undiscarded, none_waiting, List.append_nil]
  exact inv.shows none_left

/-- A rate handler iterates the main context while a newer format is pending, and the
stop of that session discards a third format. -/
def formatSession : List (Label StreamCall StartOutcome StreamCallback) :=
  .call .start :: List.replicate 4 (.run .started) ++
    [.environment (.queueFormat ⟨"F32", 44100, 1, 4⟩), .call .iterate] ++
    List.replicate 3 (.run .started) ++
    [.environment (.queueFormat ⟨"F32", 48000, 2, 4⟩), .call .iterate] ++
    List.replicate 19 (.run .started) ++
    [.environment (.queueFormat ⟨"F32", 96000, 8, 4⟩), .call .stop] ++
    List.replicate 5 (.run .started)

theorem streamFormat_published_session :
    (final formatComponent.step formatInit formatSession).state.run.stream.shows
        (some ⟨"F32", 48000, 2, 4⟩) ∧
      (final formatComponent.step formatInit formatSession).state.run.stream.shows
        (final formatComponent.step formatInit formatSession).state.undiscarded.getLast? :=
  ⟨by decide +kernel, (streamFormat_published (reach_final (allAllowed_anyStep _ _))).2
    (by decide +kernel) (by decide +kernel)⟩

end PipewireGobject
