import PipewireGobject.ProgramRelease

namespace PipewireGobject

def Program.running (s : Program) : HandleOwner → Bool
  | .core k => (s.cores k).connected
  | .stream j => (s.streams j).running
  | .object i => (s.objects i).running

/-- An object that runs has all its handles, and else it has none. -/
def Program.Whole (s : Program) (o : HandleOwner) : Prop :=
  s.running o = true ∧ (∀ kind ∈ o.kinds, s.handle o kind ≠ none) ∨
    s.running o = false ∧ ∀ kind, s.handle o kind = none

/-- What holds between the calls. -/
structure Settled (s : Program) : Prop where
  inv : ProgramInv noneLost s
  whole : ∀ o, s.Whole o
  unlocked : ∀ l, Unlocked s.custody l
  graphRate : ∀ j, (s.streams j).running = false → (s.streams j).graphRate = 0

variable {s t u : Program} {o : HandleOwner} {kind : HandleKind} {results : PipewireResults}
  {k j i : Nat}

theorem Settled.empty (h : Settled s) (hr : s.running o = false) : s.handle o kind = none := by
  rcases h.whole o with ⟨hw, -⟩ | ⟨-, hw⟩
  · rw [hr] at hw
    cases hw
  · exact hw kind

/-- A wrapper holds proxies only while its core is connected. -/
theorem Settled.detached (h : Settled s) (hc : (s.cores k).connected = false)
    (ha : s.attachedTo (.core k) i) : s.handle (.object i) kind = none := by
  by_contra some'
  obtain ⟨x, hx⟩ := Option.ne_none_iff_exists'.mp some'
  obtain ⟨k', d, hk, hd, -⟩ := h.inv.proxied i kind x hx id
  rw [Program.attachedTo, hk] at ha
  cases ha
  rw [h.empty (o := .core k) hc] at hd
  cases hd

/-- A change of what no handle depends on. -/
theorem Settled.same (h : Settled s) (same : SameHandles s t)
    (running : ∀ o, t.running o = s.running o)
    (graphRate : ∀ j, (t.streams j).running = false → (t.streams j).graphRate = 0) :
    Settled t where
  inv := h.inv.same same
  whole o := by
    unfold Program.Whole
    rw [running, same.handle]
    exact h.whole o
  unlocked := by
    rw [same.custody]
    exact h.unlocked
  graphRate := graphRate

theorem OnlyHandles.running (h : OnlyHandles o s t) (o' : HandleOwner) :
    t.running o' = s.running o' := by
  cases o' <;> simp only [Program.running, h.cores, h.streams, h.objects]

/-- A start that has failed has destroyed what it has made. -/
structure Restored (o : HandleOwner) (s t : Program) : Prop where
  only : OnlyHandles o s t
  inv : ProgramInv noneLost t
  empty : ∀ kind, t.handle o kind = none

theorem Restored.settled (r : Restored o s t) (h : Settled s) (hr : s.running o = false) :
    Settled t where
  inv := r.inv
  whole o' := by
    unfold Program.Whole
    rw [r.only.running]
    by_cases ho : o' = o
    · subst ho
      exact .inr ⟨hr, r.empty⟩
    · rw [r.only.handle o' ho]
      exact h.whole o'
  unlocked l := (r.only.locks l).1.mpr (h.unlocked l)
  graphRate := by
    rw [r.only.streams]
    exact h.graphRate

theorem destroy_none (hn : s.handle o kind = none) : s.destroy o kind = s := by
  unfold Program.destroy
  rw [hn]

/-- Where no thread loop could be made, nothing was made. -/
theorem Building.restored (b : Building o s t) (unmade : t.handle o .threadLoop = none)
    (vacant : ∀ kind, kind ≠ .threadLoop → t.handle o kind = none) : Restored o s t := by
  refine ⟨b.only, b.inv, fun kind => ?_⟩
  by_cases hk : kind = .threadLoop
  · rw [hk, unmade]
  · exact vacant kind hk

theorem setCore_same {f : PwgCore → PwgCore} (hf : f (s.cores k) = s.cores k) :
    s.setCore k f = s := by
  unfold Program.setCore
  rw [hf, Function.update_eq_self]

/-- A core has no stream of its own. -/
theorem ProgramInv.core_streamless {lost : Nat → Prop} (inv : ProgramInv lost s) :
    s.handle (.core k) .stream = none := by
  by_contra some'
  obtain ⟨x, hx⟩ := Option.ne_none_iff_exists'.mp some'
  simpa [HandleOwner.kinds] using (inv.placed _ _ x hx).2.2

/-- What `pwg_core_disconnect` does with the handles. -/
theorem ProgramInv.closeCore (inv : ProgramInv noneLost s) :
    OnlyHandles (.core k) s ((s.stopLoop (.core k)).closeConnection (.core k)) ∧
      ProgramInv (s.attachedTo (.core k)) ((s.stopLoop (.core k)).closeConnection (.core k)) ∧
      ∀ kind, ((s.stopLoop (.core k)).closeConnection (.core k)).handle (.core k) kind = none := by
  have streamless : (s.stopLoop (.core k)).handle (.core k) .stream = none := inv.core_streamless
  rw [← destroy_none streamless]
  exact inv.release (by simp)

/-- `pwg_core_disconnect` where a connect has failed. -/
theorem Building.coreDisconnect (b : Building (.core k) s t) (h : Settled s)
    (hc : (s.cores k).connected = false) : Restored (.core k) s (t.coreDisconnect k) := by
  have connected : (t.cores k).connected = false := by rw [b.only.cores]; exact hc
  have unset : t.setCore k (fun self => { self with connected := false }) = t :=
    setCore_same (by rw [← connected])
  unfold Program.coreDisconnect
  simp only [unset, connected, Bool.false_eq_true, if_false]
  obtain ⟨only, closed, empty⟩ := b.inv.closeCore (k := k)
  refine ⟨b.only.trans only, closed.found fun i ha kind => ?_, empty⟩
  have attached : s.attachedTo (.core k) i := by
    rw [Program.attachedTo, ← b.only.objects]
    exact ha
  rw [only.handle _ (by simp), b.only.handle _ (by simp)]
  exact h.detached hc attached

theorem notifyConnected_connected (hc : (s.cores k).connected = true) :
    s.notifyConnected k = s.notify [.core k] := by
  unfold Program.notifyConnected
  generalize (s.cores k).handlers = handlers
  induction handlers with
  | nil => rfl
  | cons i handlers ih =>
    rw [List.foldl_cons]
    have unchanged : (s.notify [.core k]).objectOnCoreConnectedNotify k i = s.notify [.core k] :=
      if_pos hc
    rw [unchanged]
    exact ih

theorem coreConnect_cases (results : PipewireResults) (h : Settled s)
    (hc : (s.cores k).connected = false) :
    (∃ error t, s.coreConnect results k = (some error, t) ∧ Restored (.core k) s t) ∨
      ∃ u, s.coreConnect results k = (none, ((u.startLoop (.core k)).setCore k fun self =>
          { self with connected := true }).notify [.core k]) ∧
        Building (.core k) s u ∧ ∀ kind ∈ (HandleOwner.core k).kinds,
          u.handle (.core k) kind ≠ none := by
  have empty : ∀ kind, s.handle (.core k) kind = none := fun kind => h.empty hc
  have failed : ∀ {error : PwgError} {t}, Building (.core k) s t →
      ∃ error' t', (some error, t.coreDisconnect k) = (some error', t') ∧
        Restored (.core k) s t' := fun b => ⟨_, _, rfl, b.coreDisconnect h hc⟩
  unfold Program.coreConnect
  simp only [hc, Bool.false_eq_true, if_false]
  generalize ht₁ : s.make (.core k) .threadLoop none results.threadLoopNew = t₁
  have b₁ : Building (.core k) s t₁ := ht₁ ▸ Building.makeLoop h.inv empty (by simp)
    (by simp [HandleOwner.kinds]) _
  have only₁ : ∀ kind, kind ≠ .threadLoop → t₁.handle (.core k) kind = none := fun kind hk =>
    ht₁ ▸ (handle_make_other hk).trans (empty kind)
  split
  next hn => exact .inl ⟨_, t₁, rfl, b₁.restored hn only₁⟩
  next hn =>
    generalize ht₂ : t₁.make (.core k) .context (t₁.handle (.core k) .threadLoop)
      results.contextNew = t₂
    have b₂ : Building (.core k) s t₂ := ht₂ ▸ b₁.makeFrom hn (only₁ _ (by simp)) rfl (by simp)
      (by simp [HandleOwner.kinds]) _
    have only₂ : ∀ kind, kind ≠ .context → t₂.handle (.core k) kind = t₁.handle (.core k) kind :=
      fun kind hk => ht₂ ▸ handle_make_other hk
    split
    next => exact .inl (failed b₂)
    next hn₂ =>
      split
      next => exact .inl (failed b₂)
      next =>
        split
        next => exact .inl (failed b₂)
        next =>
          have noCore : t₂.handle (.core k) .core = none := by
            rw [only₂ _ (by simp)]
            exact only₁ _ (by simp)
          generalize ht₃ : t₂.make (.core k) .core (t₂.handle (.core k) .context)
            (results.contextConnect (connectProperties (t₂.cores k))) = t₃
          have b₃ : Building (.core k) s t₃ := ht₃ ▸ b₂.makeFrom hn₂ noCore rfl (by simp)
            (by simp [HandleOwner.kinds]) _
          have only₃ : ∀ kind, kind ≠ .core →
              t₃.handle (.core k) kind = t₂.handle (.core k) kind :=
            fun kind hk => ht₃ ▸ handle_make_other hk
          split
          next => exact .inl (failed b₃)
          next hn₃ =>
            split
            next => exact .inl (failed b₃)
            next =>
              refine .inr ⟨t₃, ?_, b₃, fun kind hk => ?_⟩
              · rw [notifyConnected_connected (by simp [Program.setCore])]
              · simp only [HandleOwner.kinds, List.mem_cons, List.not_mem_nil, or_false] at hk
                rcases hk with rfl | rfl | rfl
                · rw [only₃ _ (by simp), only₂ _ (by simp)]
                  exact hn
                · rw [only₃ _ (by simp)]
                  exact hn₂
                · exact hn₃

theorem setStream_same {f : PwgStream → PwgStream} (hf : f (s.streams j) = s.streams j) :
    s.setStream j f = s := by
  unfold Program.setStream
  rw [hf, Function.update_eq_self]

theorem notify_nil : s.notify [] = s := by
  unfold Program.notify
  rw [List.append_nil]

/-- The pending data of a stream that is stopped. -/
def PwgStream.cleared (self : PwgStream) : PwgStream :=
  { self with toStream := { streamClearPending self.toStream with graphRate := 0 } }

/-- `pwg_stream_stop` where a start has failed: nothing is notified. -/
theorem streamStop_idle (hr : (s.streams j).running = false)
    (hg : (s.streams j).graphRate = 0) : s.streamStop j =
      (((s.stopLoop (.stream j)).destroy (.stream j) .stream).closeConnection
        (.stream j)).setStream j PwgStream.cleared := by
  have unset : s.setStream j (fun self => { self with running := false }) = s :=
    setStream_same (by rw [← hr])
  have only : OnlyHandles (.stream j) s
      (((s.stopLoop (.stream j)).destroy (.stream j) .stream).closeConnection (.stream j)) :=
    (OnlyHandles.stopLoop.trans .destroy).trans .closeConnection
  unfold Program.streamStop
  simp only [unset, hr, only.streams, hg, if_true, Bool.false_eq_true, if_false]
  exact notify_nil

theorem Building.streamStop (b : Building (.stream j) s t)
    (hr : (s.streams j).running = false) (hg : (s.streams j).graphRate = 0) :
    ∃ u, t.streamStop j = u.setStream j PwgStream.cleared ∧ Restored (.stream j) s u := by
  obtain ⟨only, closed, empty⟩ := b.inv.release (o := .stream j) (by simp)
  refine ⟨_, streamStop_idle (by rw [b.only.streams, hr]) (by rw [b.only.streams, hg]),
    b.only.trans only, closed.found fun i ha kind => ?_, empty⟩
  rw [Program.attachedTo] at ha
  cases hc : (t.objects i).core <;> rw [hc] at ha <;> cases ha

/-- A start has failed: what it has made is gone, and so is what was pending. -/
def StreamFailed (j : Nat) (s t : Program) : Prop :=
  ∃ u, Restored (.stream j) s u ∧ (t = u ∨ t = u.setStream j PwgStream.cleared)

theorem Building.startFails (b : Building (.stream j) s t)
    (hr : (s.streams j).running = false) (hg : (s.streams j).graphRate = 0) :
    StreamFailed j s (t.streamStop j) := by
  obtain ⟨u, hu, restored⟩ := b.streamStop hr hg
  exact ⟨u, restored, .inr hu⟩

theorem streamConnect_cases {format : SpaAudioFormat} (b : Building (.stream j) s t)
    (hr : (s.streams j).running = false) (hg : (s.streams j).graphRate = 0)
    (made : ∀ kind ∈ [HandleKind.threadLoop, .context, .core], t.handle (.stream j) kind ≠ none)
    (vacant : t.handle (.stream j) .stream = none) :
    (∃ error u, t.streamConnect results format j = (some error, u) ∧ StreamFailed j s u) ∨
      ∃ u, t.streamConnect results format j = (none, ((u.startLoop (.stream j)).setStream j
          fun self => { self with threadLoop := true, running := true }).notify
            [.stream j (.notify .running)]) ∧
        Building (.stream j) s u ∧ ∀ kind ∈ (HandleOwner.stream j).kinds,
          u.handle (.stream j) kind ≠ none := by
  have failed : ∀ {error : PwgError} {t}, Building (.stream j) s t →
      ∃ error' u, (some error, t.streamStop j) = (some error', u) ∧ StreamFailed j s u :=
    fun b => ⟨_, _, rfl, b.startFails hr hg⟩
  unfold Program.streamConnect
  simp only
  generalize ht' : t.make (.stream j) .stream (t.handle (.stream j) .core)
    (results.streamNew (streamProperties results (t.streams j))) = t'
  have b' : Building (.stream j) s t' := ht' ▸ b.makeFrom (made .core (by simp)) vacant rfl
    (by simp) (by simp [HandleOwner.kinds]) _
  split
  next => exact .inl (failed b')
  next hn =>
    split
    next => exact .inl (failed b')
    next =>
      split
      next => exact .inl (failed b')
      next =>
        refine .inr ⟨t', rfl, b', fun kind hk => ?_⟩
        by_cases hs : kind = .stream
        · rw [hs]
          exact hn
        · rw [← ht', handle_make_other hs]
          refine made kind ?_
          simpa [HandleOwner.kinds, hs] using hk

theorem streamStart_cases (results : PipewireResults) (h : Settled s)
    (hr : (s.streams j).running = false) :
    (∃ error u, s.streamStart results j = (some error, u) ∧ StreamFailed j s u) ∨
      ∃ u, s.streamStart results j = (none, ((u.startLoop (.stream j)).setStream j
          fun self => { self with threadLoop := true, running := true }).notify
            [.stream j (.notify .running)]) ∧
        Building (.stream j) s u ∧ ∀ kind ∈ (HandleOwner.stream j).kinds,
          u.handle (.stream j) kind ≠ none := by
  have empty : ∀ kind, s.handle (.stream j) kind = none := fun kind => h.empty hr
  have hg := h.graphRate j hr
  have failed : ∀ {error : PwgError} {t}, Building (.stream j) s t →
      ∃ error' u, (some error, t.streamStop j) = (some error', u) ∧ StreamFailed j s u :=
    fun b => ⟨_, _, rfl, b.startFails hr hg⟩
  unfold Program.streamStart
  simp only [hr, Bool.false_eq_true, if_false]
  split
  next => exact .inl ⟨_, s, rfl, s, ⟨.refl _ s, h.inv, empty⟩, .inl rfl⟩
  next format _ =>
    generalize ht₁ : s.make (.stream j) .threadLoop none results.threadLoopNew = t₁
    have b₁ : Building (.stream j) s t₁ := ht₁ ▸ Building.makeLoop h.inv empty (by simp)
      (by simp [HandleOwner.kinds]) _
    have only₁ : ∀ kind, kind ≠ .threadLoop → t₁.handle (.stream j) kind = none :=
      fun kind hk => ht₁ ▸ (handle_make_other hk).trans (empty kind)
    split
    next hn => exact .inl ⟨_, t₁, rfl, t₁, b₁.restored hn only₁, .inl rfl⟩
    next hn =>
      generalize ht₂ : t₁.make (.stream j) .context (t₁.handle (.stream j) .threadLoop)
        results.contextNew = t₂
      have b₂ : Building (.stream j) s t₂ := ht₂ ▸ b₁.makeFrom hn (only₁ _ (by simp)) rfl
        (by simp) (by simp [HandleOwner.kinds]) _
      have only₂ : ∀ kind, kind ≠ .context →
          t₂.handle (.stream j) kind = t₁.handle (.stream j) kind :=
        fun kind hk => ht₂ ▸ handle_make_other hk
      split
      next => exact .inl (failed b₂)
      next hn₂ =>
        generalize ht₃ : t₂.make (.stream j) .core (t₂.handle (.stream j) .context)
          (results.contextConnect none) = t₃
        have noCore : t₂.handle (.stream j) .core = none := by
          rw [only₂ _ (by simp)]
          exact only₁ _ (by simp)
        have b₃ : Building (.stream j) s t₃ := ht₃ ▸ b₂.makeFrom hn₂ noCore rfl (by simp)
          (by simp [HandleOwner.kinds]) _
        have only₃ : ∀ kind, kind ≠ .core →
            t₃.handle (.stream j) kind = t₂.handle (.stream j) kind :=
          fun kind hk => ht₃ ▸ handle_make_other hk
        split
        next => exact .inl (failed b₃)
        next hn₃ =>
          split
          next => exact .inl (failed b₃)
          next =>
            refine streamConnect_cases b₃ hr hg (fun kind hk => ?_) ?_
            · simp only [List.mem_cons, List.not_mem_nil, or_false] at hk
              rcases hk with rfl | rfl | rfl
              · rw [only₃ _ (by simp), only₂ _ (by simp)]
                exact hn
              · rw [only₃ _ (by simp)]
                exact hn₂
              · exact hn₃
            · rw [only₃ _ (by simp), only₂ _ (by simp)]
              exact only₁ _ (by simp)

end PipewireGobject
