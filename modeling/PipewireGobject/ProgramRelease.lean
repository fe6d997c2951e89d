import PipewireGobject.ProgramCustody

namespace PipewireGobject

variable {lost : Nat → Prop} {s t : Program} {o : HandleOwner} {kind : HandleKind}
  {h : Handle}

theorem handle_make {o' : HandleOwner} {kind' : HandleKind} {parent : Option Handle} {ok : Bool} :
    (s.make o kind parent ok).handle o' kind' =
      if o' = o ∧ kind' = kind then (if ok then some (s.fresh o kind parent) else none)
      else s.handle o' kind' := by
  unfold Program.make
  cases ok <;> exact handle_setHandle

theorem handle_make_other {kind' : HandleKind} {parent : Option Handle} {ok : Bool}
    (hk : kind' ≠ kind) : (s.make o kind parent ok).handle o kind' = s.handle o kind' := by
  rw [handle_make, if_neg fun he => hk he.2]

theorem handle_destroy {o' : HandleOwner} {kind' : HandleKind} :
    (s.destroy o kind).handle o' kind' =
      if o' = o ∧ kind' = kind then none else s.handle o' kind' := by
  unfold Program.destroy
  split
  next hn =>
    split
    next hp => rw [hp.1, hp.2, hn]
    next => rfl
  next => exact handle_setHandle

theorem handle_disconnectCore {o' : HandleOwner} {kind' : HandleKind} :
    (s.disconnectCore o).handle o' kind' =
      if o' = o ∧ kind' = .core then none else s.handle o' kind' := by
  unfold Program.disconnectCore
  split
  next hn =>
    split
    next hp => rw [hp.1, hp.2, hn]
    next => rfl
  next => exact handle_setHandle

/-- Only the handles of `o` change, and no lock is taken or released. -/
structure OnlyHandles (o : HandleOwner) (s t : Program) : Prop where
  cores : t.cores = s.cores
  streams : t.streams = s.streams
  objects : t.objects = s.objects
  count : t.objectCount = s.objectCount
  notices : t.notices = s.notices
  handle : ∀ o', o' ≠ o → t.handle o' = s.handle o'
  locks : ∀ l, (Unlocked t.custody l ↔ Unlocked s.custody l) ∧
    (Locked t.custody l ↔ Locked s.custody l)
  kept : ∀ e ∈ s.custody, e ∈ t.custody

theorem OnlyHandles.refl (o : HandleOwner) (s : Program) : OnlyHandles o s s :=
  ⟨rfl, rfl, rfl, rfl, rfl, fun _ _ => rfl, fun _ => ⟨Iff.rfl, Iff.rfl⟩, fun _ => id⟩

theorem OnlyHandles.trans {u : Program} (h : OnlyHandles o s t) (h' : OnlyHandles o t u) :
    OnlyHandles o s u where
  cores := h'.cores.trans h.cores
  streams := h'.streams.trans h.streams
  objects := h'.objects.trans h.objects
  count := h'.count.trans h.count
  notices := h'.notices.trans h.notices
  handle o' ho := (h'.handle o' ho).trans (h.handle o' ho)
  locks l := ⟨(h'.locks l).1.trans (h.locks l).1, (h'.locks l).2.trans (h.locks l).2⟩
  kept e he := h'.kept e (h.kept e he)

theorem OnlyHandles.setHandle {r : Option Handle} : OnlyHandles o s (s.setHandle o kind r) :=
  { OnlyHandles.refl o s with handle := fun _ ho => Function.update_of_ne ho _ _ }

/-- Events that neither lock nor unlock are recorded. -/
theorem OnlyHandles.record (events : List (CustodyEvent Handle Nat))
    (free : ∀ e ∈ events, ∀ l, e ≠ .locked l ∧ e ≠ .unlocked l) :
    OnlyHandles o s (s.record events) :=
  { OnlyHandles.refl o s with
    locks := fun l => locks_append fun e he => free e he l
    kept := fun _ he => List.mem_append_left _ he }

theorem OnlyHandles.make {parent : Option Handle} {ok : Bool} :
    OnlyHandles o s (s.make o kind parent ok) := by
  unfold Program.make
  cases ok with
  | false => exact .setHandle
  | true =>
    have recorded : OnlyHandles o s (s.record [.created (s.fresh o kind parent) parent]) :=
      .record _ (by simp)
    exact { recorded.trans .setHandle with }

theorem OnlyHandles.destroy : OnlyHandles o s (s.destroy o kind) := by
  unfold Program.destroy
  split
  next => exact .refl o s
  next => exact (OnlyHandles.record _ (by simp)).trans .setHandle

theorem OnlyHandles.disconnectCore : OnlyHandles o s (s.disconnectCore o) := by
  unfold Program.disconnectCore
  split
  next => exact .refl o s
  next =>
    refine (OnlyHandles.record _ fun e he l => ?_).trans .setHandle
    rcases List.mem_append.mp he with he | he
    · obtain ⟨x, -, rfl⟩ := List.mem_map.mp he
      simp
    · cases List.mem_singleton.mp he
      simp

theorem OnlyHandles.startLoop : OnlyHandles o s (s.startLoop o) :=
  .record _ fun e he l => by
    obtain ⟨x, -, rfl⟩ := List.mem_map.mp he
    simp

theorem OnlyHandles.stopLoop : OnlyHandles o s (s.stopLoop o) :=
  .record _ fun e he l => by
    obtain ⟨x, -, rfl⟩ := List.mem_map.mp he
    simp

theorem OnlyHandles.closeConnection : OnlyHandles o s (s.closeConnection o) :=
  (OnlyHandles.disconnectCore.trans .destroy).trans .destroy

/-- A thread loop that is there can be used. -/
theorem ProgramInv.used (inv : ProgramInv lost s) (object : ∀ i, o ≠ .object i)
    (hl : s.handle o .threadLoop = some h) : Used Handle.loop s.custody h.loop :=
  ⟨h, inv.alive hl fun i hi => absurd hi (object i), rfl⟩

theorem ProgramInv.stopLoop (inv : ProgramInv lost s) (object : ∀ i, o ≠ .object i) :
    ProgramInv lost (s.stopLoop o) := by
  unfold Program.stopLoop
  cases hl : s.handle o .threadLoop with
  | none => exact inv.same ⟨rfl, List.append_nil _, rfl, fun _ => rfl, fun _ => rfl, rfl⟩
  | some l => exact inv.record (by simp) (by simp) (inv.used object hl)

theorem stopLoop_stopped (hl : s.handle o .threadLoop = some h) :
    .stopped h.loop ∈ (s.stopLoop o).custody := by
  simp [Program.stopLoop, Program.record, hl]

/-- A thread loop is started before it is ever stopped. -/
theorem ProgramInv.startLoop (inv : ProgramInv lost s) (object : ∀ i, o ≠ .object i)
    (unstopped : ∀ l, s.handle o .threadLoop = some l → .stopped l.loop ∉ s.custody) :
    ProgramInv lost (s.startLoop o) := by
  unfold Program.startLoop
  cases hl : s.handle o .threadLoop with
  | none => exact inv.same ⟨rfl, List.append_nil _, rfl, fun _ => rfl, fun _ => rfl, rfl⟩
  | some l => exact inv.record (by simp) (by simp) ⟨inv.used object hl, unstopped l hl⟩

/-- The connection is closed: the handles of `o` are gone, and its wrappers have lost theirs. -/
theorem ProgramInv.closeConnection (inv : ProgramInv noneLost s) (object : ∀ i, o ≠ .object i)
    (stopped : ∀ l, s.handle o .threadLoop = some l → .stopped l.loop ∈ s.custody)
    (stream : s.handle o .stream = none) :
    ProgramInv (s.attachedTo o) (s.closeConnection o) ∧
      ∀ kind, (s.closeConnection o).handle o kind = none := by
  have kept : ∀ i, o = .object i → ¬s.attachedTo o i := fun i hi => absurd hi (object i)
  have disconnected : ProgramInv (s.attachedTo o) (s.disconnectCore o) :=
    inv.disconnectCore stopped stream
  have stopped' : ∀ l, s.handle o .threadLoop = some l →
      .stopped l.loop ∈ (s.disconnectCore o).custody := fun l hl =>
    OnlyHandles.disconnectCore.kept _ (stopped l hl)
  have released : ∀ kind h, (s.disconnectCore o).handle o kind = some h →
      .stopped h.loop ∈ (s.disconnectCore o).custody := by
    intro kind h hh
    obtain ⟨-, -, field⟩ := disconnected.placed o kind h hh
    have notProxy : kind.isProxy = false := by
      by_contra proxy
      obtain ⟨i, hi⟩ := (kinds_proxy field).mp (by simpa using proxy)
      exact object i hi
    obtain ⟨l, hl, he⟩ := disconnected.looped o kind h hh notProxy
    rw [handle_disconnectCore, if_neg (by simp)] at hl
    rw [he]
    exact stopped' l hl
  have context : ProgramInv (s.attachedTo o) ((s.disconnectCore o).destroy o .context) := by
    refine disconnected.destroy kept (by simp) (fun h hh => .inl (released _ h hh)) ?_ (by simp)
    intro kind hk
    cases kind <;> cases hk
    rw [handle_disconnectCore, if_pos ⟨rfl, rfl⟩]
  have left : ∀ kind, kind ≠ .threadLoop →
      ((s.disconnectCore o).destroy o .context).handle o kind = none := by
    intro kind hk
    rw [handle_destroy, handle_disconnectCore]
    cases kind with
    | threadLoop => exact absurd rfl hk
    | context | core => simp
    | stream => simpa using stream
    | registry | object =>
      simp only [reduceCtorEq, and_false, if_false]
      by_contra some'
      obtain ⟨h, hh⟩ := Option.ne_none_iff_exists'.mp some'
      obtain ⟨i, hi⟩ := (kinds_proxy (inv.placed _ _ h hh).2.2).mp rfl
      exact object i hi
  refine ⟨context.destroy kept (by simp) (fun h hh => .inl ?_) (fun kind hk => left kind ?_)
    fun _ => left, fun kind => ?_⟩
  · refine OnlyHandles.destroy.kept _ (released .threadLoop h ?_)
    rw [handle_destroy, if_neg (by simp)] at hh
    exact hh
  · rintro rfl
    cases hk
  · show (((s.disconnectCore o).destroy o .context).destroy o .threadLoop).handle o kind = none
    rw [handle_destroy]
    split
    next => rfl
    next hk => exact left kind fun he => hk ⟨rfl, he⟩

/-- What a stop and a failed start do with the handles of `o`. -/
theorem ProgramInv.release (inv : ProgramInv noneLost s) (object : ∀ i, o ≠ .object i) :
    OnlyHandles o s (((s.stopLoop o).destroy o .stream).closeConnection o) ∧
      ProgramInv (s.attachedTo o) (((s.stopLoop o).destroy o .stream).closeConnection o) ∧
      ∀ kind, (((s.stopLoop o).destroy o .stream).closeConnection o).handle o kind = none := by
  have halted : ProgramInv noneLost (s.stopLoop o) := inv.stopLoop object
  have released : ∀ h, (s.stopLoop o).handle o .stream = some h →
      .stopped h.loop ∈ (s.stopLoop o).custody := by
    intro h hh
    obtain ⟨l, hl, he⟩ := halted.looped o .stream h hh rfl
    rw [he]
    exact stopLoop_stopped hl
  have streamless : ProgramInv noneLost ((s.stopLoop o).destroy o .stream) := by
    refine halted.destroy (fun _ _ => id) (by simp) (fun h hh => .inl (released h hh)) ?_ (by simp)
    intro kind hk
    cases kind <;> cases hk
  have only : OnlyHandles o s ((s.stopLoop o).destroy o .stream) :=
    OnlyHandles.stopLoop.trans .destroy
  obtain ⟨closed, gone⟩ := streamless.closeConnection object
    (fun l hl => by
      rw [handle_destroy, if_neg (by simp)] at hl
      exact OnlyHandles.destroy.kept _ (stopLoop_stopped hl))
    (by rw [handle_destroy, if_pos ⟨rfl, rfl⟩])
  refine ⟨only.trans .closeConnection, ?_, gone⟩
  have attached : ((s.stopLoop o).destroy o .stream).attachedTo o = s.attachedTo o := by
    funext i
    rw [Program.attachedTo, only.objects, Program.attachedTo]
  rw [← attached]
  exact closed

/-- The wrappers that have lost their proxies hold none. -/
theorem ProgramInv.found (inv : ProgramInv lost s)
    (empty : ∀ i, lost i → ∀ kind, s.handle (.object i) kind = none) : ProgramInv noneLost s :=
  { inv with
    lives := fun h => by
      refine (inv.lives h).trans (and_congr_right fun hh => ⟨fun _ _ _ => id, fun _ i hi hl => ?_⟩)
      rw [hi, empty i hl] at hh
      cases hh
    proxied := fun i kind h hh _ => by
      refine inv.proxied i kind h hh fun hl => ?_
      rw [empty i hl] at hh
      cases hh }

/-- No loop that does not exist yet has been stopped. -/
theorem ProgramInv.unstopped (inv : ProgramInv lost s) : .stopped s.next ∉ s.custody := by
  intro hs
  obtain ⟨before, after, he⟩ := List.append_of_mem hs
  obtain ⟨x, ⟨⟨p, hc⟩, -⟩, hx⟩ := inv.custody.at_event he
  have known : .created x p ∈ s.custody := by
    rw [he]
    exact List.mem_append_left _ hc
  have loop := (inv.created x p known).2.1
  omega

/-- Handles of `o` are being made on the way from `s` to `t`. -/
structure Building (o : HandleOwner) (s t : Program) : Prop where
  only : OnlyHandles o s t
  inv : ProgramInv noneLost t
  unstopped : ∀ l, t.handle o .threadLoop = some l → .stopped l.loop ∉ t.custody

theorem Building.start (inv : ProgramInv noneLost s) (empty : ∀ kind, s.handle o kind = none) :
    Building o s s where
  only := .refl o s
  inv := inv
  unstopped l hl := by
    rw [empty] at hl
    cases hl

/-- The next handle is made from the one before it. -/
theorem Building.make (b : Building o s t) (object : ∀ i, o ≠ .object i) (ok : Bool)
    {parent : Option Handle} (vacant : t.handle o kind = none) (field : kind ∈ o.kinds)
    (from' : kind = .threadLoop ∧ parent = none ∨ ∃ kind' p, kind.parent = some kind' ∧
      t.handle o kind' = some p ∧ parent = some p) :
    Building o s (t.make o kind parent ok) := by
  have proxy : ¬kind.isProxy = true := fun hp => by
    obtain ⟨i, hi⟩ := (kinds_proxy field).mp hp
    exact object i hi
  refine ⟨b.only.trans .make, ?_, ?_⟩
  · cases ok with
    | false =>
      rw [make_failed vacant]
      exact b.inv
    | true =>
      rcases from' with ⟨rfl, rfl⟩ | ⟨kind', p, hk, hp, rfl⟩
      · exact b.inv.make vacant field (fun _ _ => id) ⟨rfl, rfl⟩ (by simp)
          (fun hp => absurd hp proxy) (fun hk => absurd rfl hk) fun i hi => absurd hi (object i)
      · obtain ⟨owner, kindOf, -⟩ := b.inv.placed o kind' p hp
        refine b.inv.make vacant field (fun _ _ => id)
          ⟨by rw [kindOf]; exact hk, rfl, fun _ => owner.symm⟩ ?_ (fun hp => absurd hp proxy) ?_
          fun i hi => absurd hi (object i)
        · rintro q hq
          cases hq
          exact b.inv.alive hp fun _ _ => id
        · intro _ _
          have notProxy : kind'.isProxy = false := by
            cases kind <;> cases hk <;> rfl
          exact b.inv.looped o kind' p hp notProxy
  · intro l hl hs
    have before : .stopped l.loop ∈ t.custody := by
      unfold Program.make at hs
      cases ok with
      | false => exact hs
      | true => simpa using hs
    rw [handle_make] at hl
    split at hl
    next hp =>
      obtain ⟨-, rfl⟩ := hp
      cases ok with
      | false => cases hl
      | true =>
        cases hl
        rcases from' with ⟨-, rfl⟩ | ⟨kind', p, hk, -⟩
        · exact b.inv.unstopped before
        · cases hk
    next => exact b.unstopped l hl before

/-- A connection starts with a thread loop. -/
theorem Building.makeLoop (inv : ProgramInv noneLost s)
    (empty : ∀ kind, s.handle o kind = none) (object : ∀ i, o ≠ .object i)
    (field : .threadLoop ∈ o.kinds) (ok : Bool) :
    Building o s (s.make o .threadLoop none ok) :=
  (Building.start inv empty).make object ok (empty _) field (.inl ⟨rfl, rfl⟩)

theorem Building.makeFrom (b : Building o s t) {parent : HandleKind}
    (made : t.handle o parent ≠ none) (vacant : t.handle o kind = none)
    (from' : kind.parent = some parent) (object : ∀ i, o ≠ .object i) (field : kind ∈ o.kinds)
    (ok : Bool) : Building o s (t.make o kind (t.handle o parent) ok) := by
  obtain ⟨p, hp⟩ := Option.ne_none_iff_exists'.mp made
  exact b.make object ok vacant field (.inr ⟨parent, p, from', hp, hp⟩)

end PipewireGobject
