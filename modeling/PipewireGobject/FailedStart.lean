import PipewireGobject.ProgramSettled
import PipewireGobject.StreamPhase

namespace PipewireGobject

variable {lost : Nat → Prop} {s t u : Program} {o : HandleOwner} {kind : HandleKind}
  {results : PipewireResults} {k j i : Nat} {h loop core : Handle} {global : Global}

/-- The properties of a wrapper and what it was constructed with are the same. -/
structure PwgObject.Same (x y : PwgObject) : Prop where
  kind : y.kind = x.kind
  core : y.core = x.core
  global : y.global = x.global
  running : y.running = x.running
  bound : y.bound = x.bound
  state : y.state = x.state
  error : y.error = x.error
  paramInfos : y.paramInfos = x.paramInfos
  params : y.params = x.params

/-- Only the handles and the listeners of a wrapper change. -/
structure ObjectFrame (i : Nat) (s t : Program) : Prop where
  cores : t.cores = s.cores
  streams : t.streams = s.streams
  count : t.objectCount = s.objectCount
  notices : t.notices = s.notices
  objects : ∀ i', i' ≠ i → t.objects i' = s.objects i'
  same : (s.objects i).Same (t.objects i)
  handle : ∀ o, o ≠ .object i → t.handle o = s.handle o

theorem PwgObject.Same.refl (x : PwgObject) : x.Same x :=
  ⟨rfl, rfl, rfl, rfl, rfl, rfl, rfl, rfl, rfl⟩

theorem PwgObject.Same.trans {x y z : PwgObject} (h : x.Same y) (h' : y.Same z) : x.Same z where
  kind := h'.kind.trans h.kind
  core := h'.core.trans h.core
  global := h'.global.trans h.global
  running := h'.running.trans h.running
  bound := h'.bound.trans h.bound
  state := h'.state.trans h.state
  error := h'.error.trans h.error
  paramInfos := h'.paramInfos.trans h.paramInfos
  params := h'.params.trans h.params

theorem ObjectFrame.trans (h : ObjectFrame i s t) (h' : ObjectFrame i t u) :
    ObjectFrame i s u where
  cores := h'.cores.trans h.cores
  streams := h'.streams.trans h.streams
  count := h'.count.trans h.count
  notices := h'.notices.trans h.notices
  objects i' hi := (h'.objects i' hi).trans (h.objects i' hi)
  same := h.same.trans h'.same
  handle o ho := (h'.handle o ho).trans (h.handle o ho)

theorem OnlyHandles.frame (h : OnlyHandles (.object i) s t) : ObjectFrame i s t where
  cores := h.cores
  streams := h.streams
  count := h.count
  notices := h.notices
  objects i' _ := congrFun h.objects i'
  same := by
    rw [h.objects]
    exact .refl _
  handle := h.handle

theorem record_frame {events : List (CustodyEvent Handle Nat)} :
    ObjectFrame i s (s.record events) :=
  ⟨rfl, rfl, rfl, rfl, fun _ _ => rfl, .refl _, fun _ _ => rfl⟩

theorem setObject_frame {f : PwgObject → PwgObject} (hf : (s.objects i).Same (f (s.objects i))) :
    ObjectFrame i s (s.setObject i f) where
  cores := rfl
  streams := rfl
  count := rfl
  notices := rfl
  objects i' hi := by rw [setObject_objects, if_neg hi]
  same := by
    rw [setObject_objects, if_pos rfl]
    exact hf
  handle _ _ := rfl

theorem setObject_same_handles {f : PwgObject → PwgObject}
    (hf : (f (s.objects i)).core = (s.objects i).core) : SameHandles s (s.setObject i f) where
  handle := rfl
  custody := rfl
  next := rfl
  core i' := by
    rw [setObject_objects]
    split
    next hi => rw [hi, hf]
    next => rfl
  handlers _ := rfl
  count := rfl

/-- One loop is locked. -/
def LockedOnly (s : Program) (l : Nat) : Prop :=
  Locked s.custody l ∧ ∀ l', l' ≠ l → Unlocked s.custody l'

theorem LockedOnly.only {l : Nat} (h : LockedOnly s l) (only : OnlyHandles o s t) :
    LockedOnly t l :=
  ⟨(only.locks l).2.mpr h.1, fun l' hl => (only.locks l').1.mpr (h.2 l' hl)⟩

theorem ProgramInv.lock (inv : ProgramInv lost s)
    (hl : s.handle (.core k) .threadLoop = some loop) (unlocked : ∀ l, Unlocked s.custody l) :
    ProgramInv lost (s.lock (some loop)) ∧ LockedOnly (s.lock (some loop)) loop.loop := by
  refine ⟨inv.record (by simp) (by simp) ⟨inv.used (by simp) hl, unlocked _⟩,
    locked_lock (unlocked _), fun l hne => ?_⟩
  refine (locks_append fun e he => ?_).1.mpr (unlocked l)
  cases List.mem_singleton.mp he
  simpa using fun he => hne he.symm

theorem ProgramInv.unlock (inv : ProgramInv lost s) (locked : LockedOnly s loop.loop) :
    ProgramInv lost (s.unlock (some loop)) ∧
      ∀ l, Unlocked (s.unlock (some loop)).custody l := by
  refine ⟨inv.record (by simp) (by simp) locked.1, fun l => ?_⟩
  by_cases hl : l = loop.loop
  · subst hl
    exact unlocked_unlock locked.1
  · refine (locks_append fun e he => ?_).1.mpr (locked.2 l hl)
    cases List.mem_singleton.mp he
    simpa using fun he => hl he.symm

/-- The proxies of a wrapper live on the thread loop of its core. -/
theorem ProgramInv.proxy_loop (inv : ProgramInv noneLost s)
    (hh : s.handle (.object i) kind = some h) (hk : (s.objects i).core = some k) :
    ∃ l, s.handle (.core k) .threadLoop = some l ∧ h.loop = l.loop := by
  obtain ⟨k', d, hk', hd, hc⟩ := inv.proxied i kind h hh id
  cases hk.symm.trans hk'
  obtain ⟨l, hl, he⟩ := inv.looped _ _ d hd rfl
  obtain ⟨-, -, -, loopOf, -⟩ := inv.created h _ hc
  exact ⟨l, hl, loopOf.trans he⟩

/-- The object goes, then the registry, under the lock. -/
theorem ProgramInv.destroyProxies (inv : ProgramInv noneLost s)
    (locked : ∀ kind h, s.handle (.object i) kind = some h → Locked s.custody h.loop) :
    OnlyHandles (.object i) s ((s.destroy (.object i) .object).destroy (.object i) .registry) ∧
      ProgramInv noneLost ((s.destroy (.object i) .object).destroy (.object i) .registry) ∧
      ∀ kind, ((s.destroy (.object i) .object).destroy (.object i) .registry).handle
        (.object i) kind = none := by
  have only : OnlyHandles (.object i) s (s.destroy (.object i) .object) := .destroy
  have first : ProgramInv noneLost (s.destroy (.object i) .object) := by
    refine inv.destroy (fun _ _ => id) (by simp) (fun h hh => .inr ⟨?_, locked _ h hh⟩) ?_
      (by simp)
    · obtain ⟨-, hk, -⟩ := inv.placed _ _ h hh
      rw [Handle.IsProxy, hk]
      rfl
    · intro kind hk
      cases kind <;> cases hk
  have second : ProgramInv noneLost
      ((s.destroy (.object i) .object).destroy (.object i) .registry) := by
    refine first.destroy (fun _ _ => id) (by simp) (fun h hh => .inr ⟨?_, ?_⟩) ?_ (by simp)
    · obtain ⟨-, hk, -⟩ := first.placed _ _ h hh
      rw [Handle.IsProxy, hk]
      rfl
    · rw [handle_destroy, if_neg (by simp)] at hh
      exact (only.locks _).2.mpr (locked _ h hh)
    · intro kind hk
      cases kind <;> cases hk
  refine ⟨only.trans .destroy, second, fun kind => ?_⟩
  by_contra some'
  obtain ⟨x, hx⟩ := Option.ne_none_iff_exists'.mp some'
  have field := (second.placed _ _ x hx).2.2
  rw [handle_destroy, handle_destroy] at hx
  simp only [HandleOwner.kinds, List.mem_cons, List.not_mem_nil, or_false] at field
  rcases field with rfl | rfl <;> simp at hx

/-- A wrapper without handles, as it is after a failed start and before a stop is through. -/
structure ObjectReleased (i : Nat) (s t : Program) : Prop where
  frame : ObjectFrame i s t
  inv : ProgramInv noneLost t
  unlocked : ∀ l, Unlocked t.custody l
  empty : ∀ kind, t.handle (.object i) kind = none

theorem objectDestroy_released (inv : ProgramInv noneLost s)
    (unlocked : ∀ l, Unlocked s.custody l) :
    ObjectReleased i s (s.objectDestroyPipewireObjects i) := by
  unfold Program.objectDestroyPipewireObjects
  simp only
  cases hl : (s.objects i).core.bind fun k => s.handle (.core k) .threadLoop with
  | none =>
    have empty : ∀ kind, s.handle (.object i) kind = none := fun kind => by
      by_contra some'
      obtain ⟨x, hx⟩ := Option.ne_none_iff_exists'.mp some'
      obtain ⟨k, -, hk, -⟩ := inv.proxied i kind x hx id
      obtain ⟨l, hl', -⟩ := inv.proxy_loop hx hk
      rw [hk, Option.bind_some, hl'] at hl
      cases hl
    have unrecorded : ∀ p : Program, p.record [] = p := fun p => by
      unfold Program.record
      rw [List.append_nil]
    have quiet : ∀ p : Program, p.lock none = p ∧ p.unlock none = p := fun p =>
      ⟨unrecorded p, unrecorded p⟩
    rw [(quiet s).1, destroy_none (empty _), destroy_none (empty _), (quiet _).2]
    exact ⟨setObject_frame ⟨rfl, rfl, rfl, rfl, rfl, rfl, rfl, rfl, rfl⟩,
      inv.same (setObject_same_handles rfl), unlocked, empty⟩
  | some loop =>
    obtain ⟨k, hk, hloop⟩ := Option.bind_eq_some_iff.mp hl
    obtain ⟨locked, lockedOnly⟩ := inv.lock hloop unlocked
    obtain ⟨only, destroyed, empty⟩ := locked.destroyProxies (i := i) fun kind h hh => by
      obtain ⟨l, hl', he⟩ := inv.proxy_loop hh hk
      cases hloop.symm.trans hl'
      rw [he]
      exact lockedOnly.1
    generalize ht : ((s.lock (some loop)).destroy (.object i) .object).destroy (.object i)
      .registry = t at only destroyed empty ⊢
    have unset : ProgramInv noneLost (t.setObject i fun self => { self with
        hasRegistryListener := false, hasObjectListener := false }) :=
      destroyed.same (setObject_same_handles rfl)
    have still : LockedOnly t loop.loop := lockedOnly.only only
    obtain ⟨unlocked', all⟩ := unset.unlock still
    refine ⟨?_, unlocked', all, empty⟩
    exact ((record_frame.trans only.frame).trans
      (setObject_frame ⟨rfl, rfl, rfl, rfl, rfl, rfl, rfl, rfl, rfl⟩)).trans record_frame

theorem ObjectFrame.running (f : ObjectFrame i s t) (o : HandleOwner) (ho : o ≠ .object i) :
    t.running o = s.running o := by
  cases o with
  | core k => simp only [Program.running, f.cores]
  | stream j => simp only [Program.running, f.streams]
  | object i' => simp only [Program.running, f.objects i' fun hi => ho (by rw [hi])]

theorem ObjectReleased.settled (r : ObjectReleased i s t) (h : Settled s)
    (hr : (s.objects i).running = false) : Settled t where
  inv := r.inv
  whole o := by
    by_cases ho : o = .object i
    · subst ho
      exact .inr ⟨r.frame.same.running.trans hr, r.empty⟩
    · unfold Program.Whole
      rw [r.frame.handle o ho, r.frame.running o ho]
      exact h.whole o
  unlocked := r.unlocked
  graphRate := by
    rw [r.frame.streams]
    exact h.graphRate

/-- A proxy is made under the lock. -/
theorem ProgramInv.makeProxy (inv : ProgramInv noneLost s)
    (hd : s.handle (.core k) .core = some core) (hk : (s.objects i).core = some k)
    (hl : s.handle (.core k) .threadLoop = some loop) (locked : Locked s.custody loop.loop)
    (hp : kind.isProxy = true) (vacant : s.handle (.object i) kind = none) (ok : Bool) :
    ProgramInv noneLost (s.make (.object i) kind (some core) ok) := by
  cases ok with
  | false =>
    rw [make_failed vacant]
    exact inv
  | true =>
    obtain ⟨-, coreKind, -⟩ := inv.placed _ _ core hd
    obtain ⟨l, hl', he⟩ := inv.looped _ _ core hd rfl
    cases hl.symm.trans hl'
    have parent : kind.parent = some .core := by cases kind <;> first | rfl | cases hp
    have field : kind ∈ (HandleOwner.object i).kinds := by
      cases kind <;> simp [HandleKind.isProxy, HandleOwner.kinds] at hp ⊢
    refine inv.make vacant field (fun _ _ => id) ⟨by rw [coreKind]; exact parent, rfl, ?_⟩
      ?_ ?_ ?_ ?_
    · intro notProxy
      rw [show (s.fresh (.object i) kind (some core)).kind = kind from rfl, hp] at notProxy
      cases notProxy
    · intro p hp'
      cases hp'
      exact inv.alive hd (by simp)
    · intro _
      show Locked s.custody core.loop
      rw [he]
      exact locked
    · intro _ notProxy
      rw [hp] at notProxy
      cases notProxy
    · intro i' hi
      cases hi
      exact ⟨k, core, hk, hd, rfl⟩

/-- A wrapper that has both proxies runs. -/
theorem ObjectFrame.bound (frame : ObjectFrame i s t) (h : Settled s)
    (inv : ProgramInv noneLost t) (lockedOnly : LockedOnly t loop.loop)
    (made : ∀ kind ∈ (HandleOwner.object i).kinds, t.handle (.object i) kind ≠ none) :
    Settled ((t.setObject i fun self => { self with
      hasObjectListener := true
      generation := self.generation + 1
      running := true
      bound := true }).unlock (some loop)) := by
  generalize hu : t.setObject i (fun self => { self with
    hasObjectListener := true
    generation := self.generation + 1
    running := true
    bound := true }) = u
  have inv' : ProgramInv noneLost u := hu ▸ inv.same (setObject_same_handles rfl)
  have custody : u.custody = t.custody := hu ▸ rfl
  have lockedOnly' : LockedOnly u loop.loop := by
    rw [LockedOnly, custody]
    exact lockedOnly
  obtain ⟨unlocked, all⟩ := inv'.unlock lockedOnly'
  have handle : u.handle = t.handle := hu ▸ rfl
  have streams : u.streams = t.streams := hu ▸ rfl
  refine ⟨unlocked, fun o => ?_, all, ?_⟩
  · show u.running o = true ∧ (∀ kind ∈ o.kinds, u.handle o kind ≠ none) ∨
      u.running o = false ∧ ∀ kind, u.handle o kind = none
    rw [handle]
    by_cases ho : o = .object i
    · subst ho
      refine .inl ⟨?_, made⟩
      rw [← hu, running_setObject, if_pos rfl]
    · rw [frame.handle o ho, ← hu, running_setObject, if_neg ho, frame.running o ho]
      exact h.whole o
  · show ∀ j, (u.streams j).running = false → (u.streams j).graphRate = 0
    rw [streams, frame.streams]
    exact h.graphRate

theorem objectBind_cases (results : PipewireResults) (global : Global) (h : Settled s)
    (hr : (s.objects i).running = false) (hk : (s.objects i).core = some k)
    (hl : s.handle (.core k) .threadLoop = some loop)
    (hd : s.handle (.core k) .core = some core) :
    (∃ error t, s.objectBind results i global loop core = (some error, t) ∧
      ObjectReleased i s t) ∨
    ∃ t, s.objectBind results i global loop core = (none, t) ∧ Settled t := by
  have empty : ∀ kind, s.handle (.object i) kind = none := fun kind => h.empty hr
  obtain ⟨locked, lockedOnly⟩ := h.inv.lock hl h.unlocked
  unfold Program.objectBind
  simp only
  generalize ht₁ : (s.lock (some loop)).make (.object i) .registry (some core)
    results.coreGetRegistry = t₁
  have only₁ : OnlyHandles (.object i) (s.lock (some loop)) t₁ := ht₁ ▸ .make
  have inv₁ : ProgramInv noneLost t₁ :=
    ht₁ ▸ locked.makeProxy hd hk hl lockedOnly.1 rfl (empty _) _
  have frame₁ : ObjectFrame i s t₁ := record_frame.trans only₁.frame
  have vacant₁ : ∀ kind, kind ≠ .registry → t₁.handle (.object i) kind = none :=
    fun kind hne => ht₁ ▸ (handle_make_other hne).trans (empty kind)
  split
  next hn =>
    left
    obtain ⟨unlocked, all⟩ := inv₁.unlock (lockedOnly.only only₁)
    refine ⟨_, _, rfl, frame₁.trans record_frame, unlocked, all, fun kind => ?_⟩
    by_cases hkind : kind = .registry
    · rw [hkind]
      exact hn
    · exact vacant₁ kind hkind
  next hn =>
    generalize ht₂ : t₁.setObject i (fun self => { self with hasRegistryListener := true }) = t₂
    have inv₂ : ProgramInv noneLost t₂ := ht₂ ▸ inv₁.same (setObject_same_handles rfl)
    have custody₂ : t₂.custody = t₁.custody := ht₂ ▸ rfl
    have lockedOnly₂ : LockedOnly t₂ loop.loop := by
      rw [LockedOnly, custody₂]
      exact lockedOnly.only only₁
    have frame₂ : ObjectFrame i s t₂ := frame₁.trans
      (ht₂ ▸ setObject_frame ⟨rfl, rfl, rfl, rfl, rfl, rfl, rfl, rfl, rfl⟩)
    have coreHandles : t₂.handle (.core k) = s.handle (.core k) := frame₂.handle _ (by simp)
    have handle₂ : t₂.handle (.object i) = t₁.handle (.object i) := ht₂ ▸ rfl
    generalize ht₃ : t₂.make (.object i) .object (some core) _ = t₃
    have only₃ : OnlyHandles (.object i) t₂ t₃ := ht₃ ▸ .make
    have inv₃ : ProgramInv noneLost t₃ := ht₃ ▸ inv₂.makeProxy (by rw [coreHandles]; exact hd)
      (frame₂.same.core.trans hk) (by rw [coreHandles]; exact hl) lockedOnly₂.1 rfl
      (by rw [handle₂]; exact vacant₁ _ (by simp)) _
    have frame₃ : ObjectFrame i s t₃ := frame₂.trans only₃.frame
    have failed : ∀ {error : PwgError}, ∃ error' t,
        (some error, (t₃.unlock (some loop)).objectDestroyPipewireObjects i) = (some error', t) ∧
          ObjectReleased i s t := by
      intro error
      obtain ⟨unlocked, all⟩ := inv₃.unlock (lockedOnly₂.only only₃)
      have released := objectDestroy_released (i := i) unlocked all
      exact ⟨_, _, rfl, { released with
        frame := (frame₃.trans record_frame).trans released.frame }⟩
    split
    next => exact .inl failed
    next hn₃ =>
      split
      next => exact .inl failed
      next =>
        refine .inr ⟨_, rfl, Settled.notify ?_⟩
        refine frame₃.bound h inv₃ (lockedOnly₂.only only₃) fun kind hkind => ?_
        simp only [HandleOwner.kinds, List.mem_cons, List.not_mem_nil, or_false] at hkind
        rcases hkind with rfl | rfl
        · rw [← ht₃, handle_make_other (by simp), handle₂]
          exact hn
        · exact hn₃

/-- What a failed start of a wrapper leaves: only its core may have announced something. -/
structure StartFailed (i : Nat) (s t : Program) : Prop where
  notices : ∃ new, t.notices = s.notices ++ new ∧ ∀ n ∈ new, ∃ k, n = .core k
  same : (s.objects i).Same (t.objects i)

theorem StartFailed.refl : StartFailed i s s := ⟨⟨[], by simp, by simp⟩, .refl _⟩

/-- The core of a wrapper is connected, or a start has connected it, or failed to. -/
theorem coreConnect_for (h : Settled s) (r : Option PwgError × Program)
    (hr : (if (s.cores k).connected = true then (none, s) else s.coreConnect results k) = r) :
    Settled r.2 ∧ r.2.objects = s.objects ∧ StartFailed i s r.2 := by
  subst hr
  split
  next => exact ⟨h, rfl, .refl⟩
  next hc =>
    refine ⟨h.coreConnect, ?_⟩
    rcases coreConnect_cases results h (by simpa using hc) with
      ⟨error, t, he, restored⟩ | ⟨u, he, b, -⟩
    · rw [he]
      refine ⟨restored.only.objects, ⟨[], ?_, by simp⟩, ?_⟩
      · rw [restored.only.notices, List.append_nil]
      · rw [restored.only.objects]
        exact .refl _
    · rw [he]
      have objects : (((u.startLoop (.core k)).setCore k fun self =>
          { self with connected := true }).notify [.core k]).objects = s.objects := b.only.objects
      refine ⟨objects, ⟨[.core k], ?_, by simp⟩, ?_⟩
      · exact congrArg (· ++ [Notice.core k]) b.only.notices
      · rw [objects]
        exact .refl _

theorem objectStart_spec (h : Settled s) : Settled (s.objectStart results i).2 ∧
    ∀ error t, s.objectStart results i = (some error, t) → StartFailed i s t := by
  have unchanged : ∀ {error : PwgError}, Settled (some error, s).2 ∧
      ∀ error' t, (some error, s) = (some error', t) → StartFailed i s t := by
    intro error
    refine ⟨h, fun error' t he => ?_⟩
    cases he
    exact .refl
  unfold Program.objectStart
  simp only
  split
  next =>
    refine ⟨h, fun error t he => ?_⟩
    cases he
  next hr =>
    have stopped : (s.objects i).running = false := by simpa using hr
    split
    next k global hk _ =>
      split
      next => exact unchanged
      next =>
        generalize hc : (if (s.cores k).connected = true then (none, s)
          else s.coreConnect results k) = r
        obtain ⟨settled, objects, failed⟩ := coreConnect_for (i := i) h r hc
        obtain ⟨error, t⟩ := r
        cases error with
        | some error =>
          refine ⟨settled, fun error' t' he => ?_⟩
          cases he
          exact failed
        | none =>
          simp only
          split
          next loop core hl hd =>
            have running : (t.objects i).running = false := by
              rw [show t.objects = s.objects from objects]
              exact stopped
            have core' : (t.objects i).core = some k := by
              rw [show t.objects = s.objects from objects]
              exact hk
            rcases objectBind_cases results global settled running core' hl hd
              with ⟨error, t', he, released⟩ | ⟨t', he, settled'⟩
            · rw [he]
              refine ⟨released.settled settled running, fun error' u hu => ?_⟩
              cases hu
              obtain ⟨⟨new, notices, ofCore⟩, same⟩ := failed
              exact ⟨⟨new, released.frame.notices.trans notices, ofCore⟩,
                same.trans released.frame.same⟩
            · rw [he]
              refine ⟨settled', fun error' u hu => ?_⟩
              cases hu
          next =>
            refine ⟨settled, fun error' t' he => ?_⟩
            cases he
            exact failed
    next => exact unchanged

/-- A wrapper changes while it runs or does not run as before, on the same core. -/
theorem Settled.setObject {f : PwgObject → PwgObject} (h : Settled s)
    (core : (f (s.objects i)).core = (s.objects i).core)
    (running : (f (s.objects i)).running = (s.objects i).running) :
    Settled (s.setObject i f) :=
  h.same (setObject_same_handles core) (fun _ => running_setObject_same running) h.graphRate

theorem Settled.objectStop (h : Settled s) : Settled (s.objectStop i) ∧
    ((s.objectStop i).objects i).running = false ∧
      ∀ i', ((s.objectStop i).objects i').core = (s.objects i').core := by
  unfold Program.objectStop
  split
  next hr => exact ⟨h, hr.1, fun _ => rfl⟩
  next =>
    simp only
    generalize hu : s.setObject i (fun self => { self with
      generation := self.generation + 1 }) = u
    have settled : Settled u := hu ▸ h.setObject rfl rfl
    have cores : ∀ i', (u.objects i').core = (s.objects i').core :=
      hu ▸ (setObject_same_handles rfl).core
    have released := objectDestroy_released (i := i) settled.inv settled.unlocked
    generalize ht : u.objectDestroyPipewireObjects i = t at released ⊢
    have cleared : SameHandles t (t.setObject i PwgObject.cleared) := setObject_same_handles rfl
    refine ⟨Settled.notify ⟨released.inv.same cleared, fun o => ?_, released.unlocked, ?_⟩, ?_,
      fun i' => ?_⟩
    · unfold Program.Whole
      rw [cleared.handle, running_setObject]
      by_cases ho : o = .object i
      · subst ho
        exact .inr ⟨by rw [if_pos rfl]; rfl, released.empty⟩
      · rw [if_neg ho, released.frame.running o ho, released.frame.handle o ho]
        exact settled.whole o
    · show ∀ j, (t.streams j).running = false → (t.streams j).graphRate = 0
      rw [released.frame.streams]
      exact settled.graphRate
    · show ((t.setObject i PwgObject.cleared).objects i).running = false
      rw [setObject_objects, if_pos rfl]
      rfl
    · refine (cleared.core i').trans (Eq.trans ?_ (cores i'))
      by_cases hi : i' = i
      · rw [hi]
        exact released.frame.same.core
      · rw [released.frame.objects i' hi]

theorem objectUpdate_fields (state : Option (CString × Option CString))
    (paramInfos : Option (List ParamInfo)) (self : PwgObject) :
    (objectUpdate state paramInfos self).1.core = self.core ∧
      (objectUpdate state paramInfos self).1.running = self.running := by
  unfold objectUpdate
  cases self.kind <;> cases state <;> cases paramInfos <;> exact ⟨rfl, rfl⟩

theorem Settled.objectDispatchEvent (h : Settled s) (event : ObjectEvent) :
    Settled (s.objectDispatchEvent i event) := by
  unfold Program.objectDispatchEvent
  simp only
  split
  next => exact h
  next =>
    split
    next state paramInfos _ =>
      obtain ⟨core, running⟩ := objectUpdate_fields state paramInfos (s.objects i)
      exact (h.setObject core running).notify
    next => exact (h.setObject rfl rfl).notify
    next => exact h.objectStop.1

/-- A wrapper without handles changes its core. -/
theorem Settled.reattach (h : Settled s) (handle : t.handle = s.handle)
    (custody : t.custody = s.custody) (next : t.next = s.next) (streams : t.streams = s.streams)
    (empty : ∀ kind, s.handle (.object i) kind = none)
    (cores : ∀ i', i' ≠ i → (t.objects i').core = (s.objects i').core)
    (attached : ∀ i k, (t.objects i).core = some k ↔ i ∈ (t.cores k).handlers)
    (counted : ∀ i, t.objectCount ≤ i → (t.objects i).core = none)
    (running : ∀ o, t.running o = s.running o) : Settled t where
  inv := {
    custody := by rw [custody]; exact h.inv.custody
    created := by rw [custody, next]; exact h.inv.created
    lives := by rw [custody, handle]; exact h.inv.lives
    placed := by rw [handle]; exact h.inv.placed
    looped := by rw [handle]; exact h.inv.looped
    proxied := by
      intro i' kind x hx hi
      rw [handle] at hx
      have other : i' ≠ i := by
        rintro rfl
        rw [empty] at hx
        cases hx
      rw [handle, custody, cores i' other]
      exact h.inv.proxied i' kind x hx hi
    attached := attached
    counted := counted }
  whole o := by
    unfold Program.Whole
    rw [handle, running]
    exact h.whole o
  unlocked := by rw [custody]; exact h.unlocked
  graphRate := by rw [streams]; exact h.graphRate

/-- A wrapper that has not been made yet. -/
theorem Settled.unmade (h : Settled s) : (∀ kind, s.handle (.object s.objectCount) kind = none) ∧
    s.running (.object s.objectCount) = false := by
  have core : (s.objects s.objectCount).core = none := h.inv.counted _ (Nat.le_refl _)
  have empty : ∀ kind, s.handle (.object s.objectCount) kind = none := fun kind => by
    by_contra some'
    obtain ⟨x, hx⟩ := Option.ne_none_iff_exists'.mp some'
    obtain ⟨k, d, hk, -⟩ := h.inv.proxied _ kind x hx id
    rw [core] at hk
    cases hk
  refine ⟨empty, ?_⟩
  rcases h.whole (.object s.objectCount) with ⟨-, full⟩ | ⟨hr, -⟩
  · exact absurd (empty .registry) (full .registry (by simp [HandleOwner.kinds]))
  · exact hr

theorem Settled.objectNew (h : Settled s) (kind : ObjectKind) (core : Option Nat)
    (global : Option Global) : Settled (s.objectNew kind core global) := by
  obtain ⟨empty, stopped⟩ := h.unmade
  have absent : ∀ k, s.objectCount ∉ (s.cores k).handlers := fun k hm => by
    have core := (h.inv.attached _ k).mpr hm
    rw [h.inv.counted _ (Nat.le_refl _)] at core
    cases core
  unfold Program.objectNew
  simp only
  generalize hu : ({ s.setObject s.objectCount (fun _ => { kind, core, global }) with
    objectCount := s.objectCount + 1 } : Program) = u
  have objects : ∀ i, u.objects i =
      if i = s.objectCount then { kind, core, global } else s.objects i := by
    intro i
    rw [← hu]
    exact setObject_objects (s := s) (f := fun _ => { kind, core, global })
  have same : u.handle = s.handle ∧ u.custody = s.custody ∧ u.next = s.next ∧
      u.streams = s.streams ∧ u.cores = s.cores ∧ u.objectCount = s.objectCount + 1 := by
    rw [← hu]
    exact ⟨rfl, rfl, rfl, rfl, rfl, rfl⟩
  obtain ⟨handle, custody, next, streams, cores, count⟩ := same
  have others : ∀ i, i ≠ s.objectCount → (u.objects i).core = (s.objects i).core := fun i hi => by
    rw [objects, if_neg hi]
  have counted : ∀ i, u.objectCount ≤ i → (u.objects i).core = none := fun i hi => by
    rw [count] at hi
    rw [others i (by omega)]
    exact h.inv.counted i (by omega)
  have running : ∀ o, u.running o = s.running o := by
    intro o
    cases o with
    | core k => simp only [Program.running, cores]
    | stream j => simp only [Program.running, streams]
    | object i =>
      rw [Program.running, objects]
      split
      next hi => rw [hi]; exact stopped.symm
      next => rfl
  cases core with
  | none =>
    refine h.reattach handle custody next streams empty others (fun i k => ?_) counted running
    rw [cores, ← h.inv.attached i k, objects]
    split
    next hi => rw [hi, h.inv.counted _ (Nat.le_refl _)]
    next => exact Iff.rfl
  | some k₀ =>
    refine h.reattach handle custody next streams empty others (fun i k => ?_) counted
      fun o => ?_
    · show (u.objects i).core = some k ↔ i ∈ ((Program.setCore k₀ _ u).cores k).handlers
      rw [setCore_cores, objects, cores]
      by_cases hi : i = s.objectCount
      · rw [if_pos hi, hi]
        by_cases hk : k = k₀
        · simp [hk]
        · rw [if_neg hk]
          exact iff_of_false (fun he => hk (Option.some.inj he).symm) (absent k)
      · rw [if_neg hi, h.inv.attached i k]
        by_cases hk : k = k₀
        · subst hk
          simp [hi]
        · rw [if_neg hk]
    · rw [← running o]
      exact running_setCore_same rfl

theorem Settled.objectDispose (h : Settled s) : Settled (s.objectDispose i) := by
  obtain ⟨settled, stopped, -⟩ := h.objectStop (i := i)
  unfold Program.objectDispose
  simp only
  generalize s.objectStop i = t at settled stopped ⊢
  have empty : ∀ kind, t.handle (.object i) kind = none := fun kind => settled.empty stopped
  generalize hu : t.setObject i (fun self => { self with core := none, global := none }) = u
  have objects : ∀ i', (u.objects i').core = if i' = i then none else (t.objects i').core := by
    intro i'
    rw [← hu, setObject_objects]
    split <;> rfl
  have running : ∀ o, u.running o = t.running o := by
    intro o
    rw [← hu]
    exact running_setObject_same rfl
  have same : u.handle = t.handle ∧ u.custody = t.custody ∧ u.next = t.next ∧
      u.streams = t.streams ∧ u.cores = t.cores ∧ u.objectCount = t.objectCount := by
    rw [← hu]
    exact ⟨rfl, rfl, rfl, rfl, rfl, rfl⟩
  obtain ⟨handle, custody, next, streams, cores, count⟩ := same
  have counted : ∀ i', t.objectCount ≤ i' → (u.objects i').core = none := by
    intro i' hi
    rw [objects]
    split
    next => rfl
    next => exact settled.inv.counted i' hi
  cases hc : (t.objects i).core with
  | none =>
    refine settled.reattach handle custody next streams empty (fun i' hi => ?_) (fun i' k => ?_)
      (by rw [count]; exact counted) running
    · rw [objects, if_neg hi]
    · rw [objects, cores, ← settled.inv.attached i' k]
      split
      next hi => rw [hi, hc]
      next => exact Iff.rfl
  | some k₀ =>
    refine settled.reattach handle custody next streams empty (fun i' hi => ?_) (fun i' k => ?_)
      (by show ∀ i', u.objectCount ≤ i' → (u.objects i').core = none; rw [count]; exact counted)
      fun o => ?_
    · show (u.objects i').core = _
      rw [objects, if_neg hi]
    · show (u.objects i').core = some k ↔ i' ∈ ((Program.setCore k₀ _ u).cores k).handlers
      rw [objects, setCore_cores]
      have before := settled.inv.attached i' k
      rw [← cores] at before
      by_cases hi : i' = i
      · rw [if_pos hi]
        refine iff_of_false (by simp) ?_
        by_cases hk : k = k₀
        · simp [hk, hi]
        · rw [if_neg hk, ← before, hi, hc]
          simpa using fun he => hk he.symm
      · rw [if_neg hi, before]
        by_cases hk : k = k₀
        · subst hk
          simp [hi]
        · rw [if_neg hk]
    · rw [← running o]
      exact running_setCore_same rfl

theorem streamQueue_fields (callback : StreamCallback) (x : Stream) :
    (streamQueue callback x).running = x.running ∧
      (streamQueue callback x).graphRate = x.graphRate := by
  cases callback with
  | queuePeak peak => simp [streamQueue, streamQueuePeak, streamQueueDispatchLocked_eq]
  | queueGraphRate rate =>
    simp only [streamQueue, streamQueueGraphRate]
    split <;> simp [streamQueueDispatchLocked_eq]
  | queueFormat format => simp [streamQueue, streamQueueFormat, streamQueueDispatchLocked_eq]
  | queueAudioBlock block =>
    simp only [streamQueue, streamQueueAudioBlock]
    split <;> simp [streamQueueDispatchLocked_eq]

/-- A dispatch publishes no graph rate where the stream does not run. -/
theorem streamDispatch_fields (x : Stream) : (streamDispatchPending x).1.running = x.running ∧
    (x.running = false → (streamDispatchPending x).1.graphRate = x.graphRate) := by
  have rate : ∀ y : Stream, (streamDispatchRate x y).1.running = y.running ∧
      (y.running = false → (streamDispatchRate x y).1.graphRate = y.graphRate) := by
    intro y
    unfold streamDispatchRate
    split
    next hy => exact ⟨rfl, fun hr => absurd hy.2.1 (by simp [hr])⟩
    next => exact ⟨rfl, fun _ => rfl⟩
  have peak : ∀ y : Stream, (streamDispatchPeak x y).1.running = y.running ∧
      (streamDispatchPeak x y).1.graphRate = y.graphRate := by
    intro y
    unfold streamDispatchPeak
    split <;> exact ⟨rfl, rfl⟩
  have whole : ∀ y : Stream, y.running = x.running → y.graphRate = x.graphRate →
      (streamDispatchPeak x (streamDispatchRate x y).1).1.running = x.running ∧
        (x.running = false →
          (streamDispatchPeak x (streamDispatchRate x y).1).1.graphRate = x.graphRate) := by
    intro y hr hg
    refine ⟨(peak _).1.trans ((rate y).1.trans hr), fun stopped => ?_⟩
    exact (peak _).2.trans (((rate y).2 (hr.trans stopped)).trans hg)
  unfold streamDispatchPending
  cases x.pendingFormat with
  | none => exact whole _ rfl rfl
  | some format => exact whole _ rfl rfl

theorem Settled.setter {α : Type} (h : Settled s) (change : Except PwgError α)
    (set : α → Program) (sets : ∀ value, change = .ok value → Settled (set value)) :
    Settled (s.setter change set).2 := by
  unfold Program.setter
  split
  next => exact h
  next value => exact sets value rfl

theorem except_map_ok {α β : Type} {x : Except PwgError α} {f : α → β} {y : β}
    (h : (do let a ← x; pure (f a)) = Except.ok y) : ∃ a, x = .ok a ∧ y = f a := by
  cases x with
  | error error => cases h
  | ok a =>
    cases h
    exact ⟨a, rfl, rfl⟩

theorem Settled.call (h : Settled s) (call : ProgramCall) :
    Settled (s.call results call).2 := by
  cases call with
  | coreConnect k => exact h.coreConnect
  | coreDisconnect k => exact h.coreDisconnect
  | coreSetPipewireProperty k key value =>
    refine h.setter _ _ fun self hs => ?_
    obtain ⟨properties, -, rfl⟩ := except_map_ok hs
    exact h.same (setCore_same_handles rfl) (fun _ => running_setCore_same rfl) h.graphRate
  | streamStart j => exact h.streamStart
  | streamStop j => exact h.streamStop
  | streamSetPipewireProperty j key value =>
    refine h.setter _ _ fun self hs => ?_
    obtain ⟨properties, -, rfl⟩ := except_map_ok hs
    exact h.setStream rfl (h.graphRate j)
  | streamSetRequestedFormat j sampleFormat rate channels =>
    refine h.setter _ _ fun self hs => ?_
    unfold PipewireGobject.streamSetRequestedFormat at hs
    split at hs
    next => cases hs
    next =>
      obtain ⟨format, -, rfl⟩ := except_map_ok hs
      exact h.setStream rfl (h.graphRate j)
  | streamSetDeliverAudioBlocks j deliver =>
    simp only [Program.call]
    split
    next => exact h
    next => exact (h.setStream rfl (h.graphRate j)).notify
  | streamQueue j callback =>
    simp only [Program.call]
    split
    next =>
      obtain ⟨running, graphRate⟩ := streamQueue_fields callback (s.streams j).toStream
      refine h.setStream running fun hr => ?_
      exact graphRate.trans (h.graphRate j (running.symm.trans hr))
    next => exact h
  | streamDispatch j =>
    simp only [Program.call]
    split
    next => exact h
    next =>
      obtain ⟨running, graphRate⟩ := streamDispatch_fields
        { (s.streams j).toStream with sources := (s.streams j).sources - 1 }
      refine Settled.notify (h.setStream running fun hr => ?_)
      have stopped : (s.streams j).running = false := running.symm.trans hr
      exact (graphRate stopped).trans (h.graphRate j stopped)
  | objectNew kind core global => exact h.objectNew kind core global
  | objectStart i => exact (objectStart_spec h).1
  | objectStop i => exact h.objectStop.1
  | objectDispatch i event => exact h.objectDispatchEvent event
  | objectDispose i => exact h.objectDispose

theorem settled_start (targets : Nat → Option CString × Bool) :
    Settled (Program.start targets) where
  inv := {
    custody := justified_nil
    created := by simp [Program.start]
    lives := by simp [Program.start, Lives]
    placed := by simp [Program.start]
    looped := by simp [Program.start]
    proxied := by simp [Program.start]
    attached := by simp [Program.start]
    counted := by simp [Program.start] }
  whole o := .inr ⟨by cases o <;> rfl, fun _ => rfl⟩
  unlocked _ := rfl
  graphRate _ _ := rfl

theorem settled_reach {targets : Nat → Option CString × Bool}
    (h : Reach Program.step anyStep (Program.start targets) s) : Settled s := by
  refine h.invariant (settled_start targets) fun s label t settled _ ht => ?_
  cases ht
  exact settled.call label.1

/-- The properties and the requested configuration of a stream are the same. -/
structure PwgStream.Same (x y : PwgStream) : Prop where
  targetObject : y.targetObject = x.targetObject
  monitor : y.monitor = x.monitor
  deliverAudioBlocks : y.deliverAudioBlocks = x.deliverAudioBlocks
  running : y.running = x.running
  rate : y.rate = x.rate
  graphRate : y.graphRate = x.graphRate
  channels : y.channels = x.channels
  peak : y.peak = x.peak
  audioFormat : y.audioFormat = x.audioFormat
  pipewireProperties : y.pipewireProperties = x.pipewireProperties
  requestedSampleFormat : y.requestedSampleFormat = x.requestedSampleFormat
  requestedRate : y.requestedRate = x.requestedRate
  requestedChannels : y.requestedChannels = x.requestedChannels

/-- What a call leaves that returns `FALSE`. -/
def FailsCleanly (s t : Program) : ProgramCall → Prop
  | .coreConnect k => t.notices = s.notices ∧ t.cores k = s.cores k
  | .streamStart j => t.notices = s.notices ∧ (s.streams j).Same (t.streams j)
  | .objectStart i => StartFailed i s t
  | _ => t = s

/-- What holds of the handles of a program between the calls: each one that was made is held by
a running object or was destroyed once, after everything that was made from it. -/
structure LeavesNothing (s : Program) : Prop where
  whole : ∀ o, s.Whole o
  parented : ∀ h parent, .created h parent ∈ s.custody → Parented h parent
  once : ∀ h parent, .created h parent ∈ s.custody →
    s.custody.count (.created h parent) = 1 ∧
      s.custody.count (.destroyed h) = if s.handle h.owner h.kind = some h then 0 else 1
  childFirst : ∀ before h after, s.custody = before ++ .destroyed h :: after →
    ∀ child, .created child (some h) ∈ s.custody → .destroyed child ∈ before
  loopStopped : ∀ before h after, s.custody = before ++ .destroyed h :: after →
    h.kind.isProxy = false → .stopped h.loop ∈ before ∧ .started h.loop ∉ after
  alternate : ∀ before after, s.custody = before ++ after →
    ∀ l, Unlocked before l ∨ Locked before l
  balanced : ∀ l, Unlocked s.custody l

theorem Settled.leavesNothing (h : Settled s) : LeavesNothing s where
  whole := h.whole
  parented x p hc := (h.inv.created x p hc).2.2
  once x p hc := by
    refine ⟨h.inv.custody.created_once hc, ?_⟩
    have lives := h.inv.lives x
    split
    next held =>
      have alive := (lives.mpr ⟨held, fun _ _ => id⟩).2
      exact List.count_eq_zero_of_not_mem alive
    next gone =>
      have destroyed : .destroyed x ∈ s.custody := by
        by_contra alive
        exact gone (lives.mp ⟨⟨p, hc⟩, alive⟩).1
      have most := h.inv.custody.destroyed_once (x := x)
      have least := List.count_pos_iff.mpr destroyed
      omega
  childFirst before x after he child hc := h.inv.custody.child_first he hc
  loopStopped before x after he hx := by
    have stopped : .stopped x.loop ∈ before :=
      h.inv.custody.stopped_first he (by simp [Handle.IsProxy, hx])
    refine ⟨stopped, fun started => ?_⟩
    obtain ⟨first, rest, hb⟩ := List.append_of_mem stopped
    have split : s.custody = first ++ .stopped x.loop :: (rest ++ .destroyed x :: after) := by
      rw [he, hb]
      simp
    refine h.inv.custody.not_restarted split ?_
    exact List.mem_append_right _ (List.mem_cons_of_mem _ started)
  alternate before after he l := by
    have earlier := h.inv.custody
    rw [he] at earlier
    exact locks_alternate earlier.earlier l
  balanced := h.unlocked

theorem StreamFailed.cleanly (f : StreamFailed j s t)
    (hg : (s.streams j).graphRate = 0) :
    t.notices = s.notices ∧ (s.streams j).Same (t.streams j) := by
  obtain ⟨u, restored, rfl | rfl⟩ := f
  · refine ⟨restored.only.notices, ?_⟩
    rw [restored.only.streams]
    exact ⟨rfl, rfl, rfl, rfl, rfl, rfl, rfl, rfl, rfl, rfl, rfl, rfl, rfl⟩
  · refine ⟨restored.only.notices, ?_⟩
    simp only [Program.setStream, Function.update_self]
    rw [restored.only.streams]
    exact ⟨rfl, rfl, rfl, rfl, rfl, hg.symm, rfl, rfl, rfl, rfl, rfl, rfl, rfl⟩

theorem setter_refused {α : Type} {change : Except PwgError α} {set : α → Program}
    {error : PwgError} (hc : s.setter change set = (some error, t)) : t = s := by
  unfold Program.setter at hc
  split at hc
  next => exact (congrArg Prod.snd hc).symm
  next => cases hc

theorem Settled.failsCleanly (h : Settled s) {call : ProgramCall} {error : PwgError}
    (hc : s.call results call = (some error, t)) : FailsCleanly s t call := by
  cases call with
  | coreConnect k =>
    change s.coreConnect results k = _ at hc
    by_cases connected : (s.cores k).connected = true
    · rw [Program.coreConnect, if_pos connected] at hc
      cases hc
    · rcases coreConnect_cases results h (by simpa using connected) with
        ⟨error', u, hu, restored⟩ | ⟨u, hu, -⟩
      · rw [hu] at hc
        cases hc
        exact ⟨restored.only.notices, congrFun restored.only.cores k⟩
      · rw [hu] at hc
        cases hc
  | streamStart j =>
    change s.streamStart results j = _ at hc
    by_cases running : (s.streams j).running = true
    · rw [Program.streamStart, if_pos running] at hc
      cases hc
    · have stopped : (s.streams j).running = false := by simpa using running
      rcases streamStart_cases results h stopped with
        ⟨error', u, hu, failed⟩ | ⟨u, hu, -⟩
      · rw [hu] at hc
        cases hc
        exact failed.cleanly (h.graphRate j stopped)
      · rw [hu] at hc
        cases hc
  | objectStart i => exact (objectStart_spec h).2 error t hc
  | coreSetPipewireProperty k key value => exact setter_refused hc
  | streamSetPipewireProperty j key value => exact setter_refused hc
  | streamSetRequestedFormat j sampleFormat rate channels => exact setter_refused hc
  | _ => cases hc

theorem failedStart_leavesNothing {targets : Nat → Option CString × Bool}
    (h : Reach Program.step anyStep (Program.start targets) s) :
    LeavesNothing s ∧ ∀ call results error t, s.call results call = (some error, t) →
      FailsCleanly s t call := by
  have settled := settled_reach h
  exact ⟨settled.leavesNothing, fun call results error t hc => settled.failsCleanly hc⟩

/-- A core whose loop does not start, a node that cannot be bound and a stream that does not
connect, each tried once more with success, and the core disconnected. -/
def failedStarts : Program :=
  final Program.step (Program.start fun _ => (none, false)) [
    (.coreConnect 0, { threadLoopStart := -1 }),
    (.objectNew .node (some 0) (some ⟨7, 0, some ObjectKind.node.interface, 3, []⟩), {}),
    (.objectStart 0, { registryBind := fun _ _ _ => false }),
    (.objectStart 0, {}),
    (.streamStart 0, { streamConnect := fun _ _ _ _ => -1 }),
    (.streamStart 0, {}),
    (.coreDisconnect 0, {})]

theorem failedStart_leavesNothing_session :
    LeavesNothing failedStarts ∧ failedStarts.custody.length = 41 ∧
      (failedStarts.streams 0).running = true ∧ (failedStarts.objects 0).running = false ∧
      (failedStarts.call { contextNew := false } (.streamStart 1)).1 =
        some ⟨.pipewire, text "Could not create PipeWire context"⟩ ∧
      FailsCleanly failedStarts (failedStarts.call { contextNew := false } (.streamStart 1)).2
        (.streamStart 1) := by
  have whole := failedStart_leavesNothing
    (reach_final (allAllowed_anyStep _ _) : Reach Program.step anyStep _ failedStarts)
  have error : (failedStarts.call { contextNew := false } (.streamStart 1)).1 =
      some ⟨.pipewire, text "Could not create PipeWire context"⟩ := by decide +kernel
  exact ⟨whole.1, by decide +kernel, by decide +kernel, by decide +kernel, error,
    whole.2 _ _ _ _ (Prod.ext error rfl)⟩

end PipewireGobject
