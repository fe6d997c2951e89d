import PipewireGobject.ProgramCalls

namespace PipewireGobject

/-- A handle fits what it was made from. -/
def Parented (h : Handle) : Option Handle → Prop
  | none => h.kind = .threadLoop ∧ h.loop = h.serial
  | some p =>
    h.kind.parent = some p.kind ∧ h.loop = p.loop ∧ (h.kind.isProxy = false → h.owner = p.owner)

/-- The handles that live are those in the fields, but for the `lost` wrappers: the core of
those has disconnected, and they have still to find out. -/
structure ProgramInv (lost : Nat → Prop) (s : Program) : Prop where
  custody : Justified (Custody Handle.loop Handle.IsProxy) s.custody
  created : ∀ h p, .created h p ∈ s.custody →
    h.serial < s.next ∧ h.loop < s.next ∧ Parented h p
  lives : ∀ h, Lives s.custody h ↔
    s.handle h.owner h.kind = some h ∧ ∀ i, h.owner = .object i → ¬lost i
  placed : ∀ o kind h, s.handle o kind = some h → h.owner = o ∧ h.kind = kind ∧ kind ∈ o.kinds
  looped : ∀ o kind h, s.handle o kind = some h → kind.isProxy = false →
    ∃ l, s.handle o .threadLoop = some l ∧ h.loop = l.loop
  proxied : ∀ i kind h, s.handle (.object i) kind = some h → ¬lost i →
    ∃ k d, (s.objects i).core = some k ∧ s.handle (.core k) .core = some d ∧
      .created h (some d) ∈ s.custody
  attached : ∀ i k, (s.objects i).core = some k ↔ i ∈ (s.cores k).handlers
  counted : ∀ i, s.objectCount ≤ i → (s.objects i).core = none

/-- Nothing changes but what no handle depends on. -/
structure SameHandles (s t : Program) : Prop where
  handle : t.handle = s.handle
  custody : t.custody = s.custody
  next : t.next = s.next
  core : ∀ i, (t.objects i).core = (s.objects i).core
  handlers : ∀ k, (t.cores k).handlers = (s.cores k).handlers
  count : t.objectCount = s.objectCount

variable {lost : Nat → Prop} {s t : Program} {o : HandleOwner} {kind : HandleKind}
  {h x : Handle} {event : CustodyEvent Handle Nat}

theorem ProgramInv.same (inv : ProgramInv lost s) (same : SameHandles s t) :
    ProgramInv lost t where
  custody := by rw [same.custody]; exact inv.custody
  created := by rw [same.custody, same.next]; exact inv.created
  lives := by rw [same.custody, same.handle]; exact inv.lives
  placed := by rw [same.handle]; exact inv.placed
  looped := by rw [same.handle]; exact inv.looped
  proxied i := by rw [same.handle, same.custody, same.core]; exact inv.proxied i
  attached i k := by rw [same.core, same.handlers]; exact inv.attached i k
  counted i := by rw [same.count, same.core]; exact inv.counted i

/-- Starting, stopping, locking and unlocking a loop. -/
theorem ProgramInv.record (inv : ProgramInv lost s)
    (created : ∀ x p, event ≠ .created x p) (destroyed : ∀ x, event ≠ .destroyed x)
    (allowed : Custody Handle.loop Handle.IsProxy s.custody event) :
    ProgramInv lost (s.record [event]) where
  custody := justified_concat.mpr ⟨inv.custody, allowed⟩
  created h p hc := by
    rcases List.mem_append.mp hc with hc | hc
    · exact inv.created h p hc
    · exact absurd (List.mem_singleton.mp hc).symm (created h p)
  lives h := (lives_quiet created destroyed).trans (inv.lives h)
  placed := inv.placed
  looped := inv.looped
  proxied i kind h hh hl := by
    obtain ⟨k, d, hk, hd, hc⟩ := inv.proxied i kind h hh hl
    exact ⟨k, d, hk, hd, List.mem_append_left _ hc⟩
  attached := inv.attached
  counted := inv.counted

theorem handle_setHandle {o' : HandleOwner} {kind' : HandleKind} {r : Option Handle} :
    (s.setHandle o kind r).handle o' kind' =
      if o' = o ∧ kind' = kind then r else s.handle o' kind' := by
  unfold Program.setHandle
  by_cases ho : o' = o
  · subst ho
    by_cases hk : kind' = kind
    · subst hk
      simp
    · simp [hk]
  · simp [ho]

/-- A field that is empty already. -/
theorem setHandle_none (vacant : s.handle o kind = none) : s.setHandle o kind none = s := by
  have same : Function.update (s.handle o) kind none = s.handle o := by
    rw [← vacant, Function.update_eq_self]
  unfold Program.setHandle
  rw [same, Function.update_eq_self]

theorem make_failed {parent : Option Handle} (vacant : s.handle o kind = none) :
    s.make o kind parent false = s := setHandle_none vacant

/-- Two handles in the same field at the same time. -/
theorem ProgramInv.place_inj (inv : ProgramInv lost s) (hh : s.handle o kind = some h)
    (hl : Lives s.custody x) (hx : x.owner = o ∧ x.kind = kind) : x = h := by
  obtain ⟨rfl, rfl⟩ := hx
  exact Option.some.inj (((inv.lives x).mp hl).1.symm.trans hh)

theorem ProgramInv.alive (inv : ProgramInv lost s) (hh : s.handle o kind = some h)
    (kept : ∀ i, o = .object i → ¬lost i) : Lives s.custody h := by
  obtain ⟨rfl, rfl, -⟩ := inv.placed o kind h hh
  exact (inv.lives h).mpr ⟨hh, kept⟩

/-- A handle is made for a field that is empty. -/
theorem ProgramInv.make (inv : ProgramInv lost s) {parent : Option Handle}
    (vacant : s.handle o kind = none) (field : kind ∈ o.kinds)
    (kept : ∀ i, o = .object i → ¬lost i)
    (parented : Parented (s.fresh o kind parent) parent)
    (parent_lives : ∀ p ∈ parent, Lives s.custody p)
    (locked : kind.isProxy = true → Locked s.custody (s.fresh o kind parent).loop)
    (looped : kind ≠ .threadLoop → kind.isProxy = false →
      ∃ l, s.handle o .threadLoop = some l ∧ (s.fresh o kind parent).loop = l.loop)
    (proxied : ∀ i, o = .object i → ∃ k d, (s.objects i).core = some k ∧
      s.handle (.core k) .core = some d ∧ parent = some d) :
    ProgramInv lost (s.make o kind parent true) := by
  have unknown : ∀ p, .created (s.fresh o kind parent) p ∉ s.custody := fun p hc =>
    absurd (inv.created _ p hc).1 (Nat.lt_irrefl s.next)
  have handle : ∀ o' kind', (s.make o kind parent true).handle o' kind' =
      if o' = o ∧ kind' = kind then some (s.fresh o kind parent) else s.handle o' kind' :=
    fun _ _ => handle_setHandle
  have old : ∀ {o' kind' h}, s.handle o' kind' = some h →
      (s.make o kind parent true).handle o' kind' = some h := by
    intro o' kind' h hh
    rw [handle, if_neg]
    · exact hh
    · rintro ⟨rfl, rfl⟩
      rw [vacant] at hh
      cases hh
  exact {
    custody := justified_concat.mpr ⟨inv.custody, unknown, parent_lives, locked⟩
    created := by
      intro h p hc
      rcases List.mem_append.mp hc with hc | hc
      · obtain ⟨serial, loop, hp⟩ := inv.created h p hc
        exact ⟨Nat.lt_succ_of_lt serial, Nat.lt_succ_of_lt loop, hp⟩
      · cases List.mem_singleton.mp hc
        refine ⟨Nat.lt_succ_self _, ?_, parented⟩
        cases parent with
        | none => exact Nat.lt_succ_self _
        | some p =>
          obtain ⟨⟨q, hq⟩, -⟩ := parent_lives p rfl
          exact Nat.lt_succ_of_lt (inv.created p q hq).2.1
    lives := by
      intro h
      refine (lives_created (inv.custody.unborn unknown)).trans ?_
      rw [handle]
      by_cases hp : h.owner = o ∧ h.kind = kind
      · rw [if_pos hp]
        constructor
        · rintro (hl | rfl)
          · have hh := ((inv.lives h).mp hl).1
            rw [hp.1, hp.2, vacant] at hh
            cases hh
          · exact ⟨rfl, kept⟩
        · rintro ⟨hh, -⟩
          exact .inr (Option.some.inj hh).symm
      · rw [if_neg hp, ← inv.lives h]
        refine or_iff_left ?_
        rintro rfl
        exact hp ⟨rfl, rfl⟩
    placed := by
      intro o' kind' h hh
      rw [handle] at hh
      split at hh
      next hp =>
        obtain ⟨rfl, rfl⟩ := hp
        cases hh
        exact ⟨rfl, rfl, field⟩
      next => exact inv.placed o' kind' h hh
    looped := by
      intro o' kind' h hh hk
      rw [handle] at hh
      split at hh
      next hp =>
        obtain ⟨rfl, rfl⟩ := hp
        cases hh
        by_cases hl : kind' = .threadLoop
        · subst hl
          exact ⟨_, by rw [handle, if_pos ⟨rfl, rfl⟩], rfl⟩
        · obtain ⟨l, hl, he⟩ := looped hl hk
          exact ⟨l, old hl, he⟩
      next =>
        obtain ⟨l, hl, he⟩ := inv.looped o' kind' h hh hk
        exact ⟨l, old hl, he⟩
    proxied := by
      intro i kind' h hh hl
      rw [handle] at hh
      split at hh
      next hp =>
        obtain ⟨ho, -⟩ := hp
        cases hh
        obtain ⟨k, d, hk, hd, rfl⟩ := proxied i ho.symm
        exact ⟨k, d, hk, old hd, List.mem_append_right _ (List.mem_singleton_self _)⟩
      next =>
        obtain ⟨k, d, hk, hd, hc⟩ := inv.proxied i kind' h hh hl
        exact ⟨k, d, hk, old hd, List.mem_append_left _ hc⟩
    attached := inv.attached
    counted := inv.counted }

/-- What is made from a handle and is no proxy has the same owner. -/
theorem ProgramInv.child (inv : ProgramInv lost s) (hc : .created x (some h) ∈ s.custody) :
    x.kind.parent = some h.kind ∧ (x.kind.isProxy = false → x.owner = h.owner) := by
  obtain ⟨parent, -, owner⟩ := (inv.created x (some h) hc).2.2
  exact ⟨parent, owner⟩

/-- A handle is destroyed when nothing is left that was made from it. -/
theorem ProgramInv.destroyed (inv : ProgramInv lost s) (hh : s.handle o kind = some h)
    (kept : ∀ i, o = .object i → ¬lost i)
    (childless : ∀ c, .created c (some h) ∈ s.custody → .destroyed c ∈ s.custody)
    (released : .stopped h.loop ∈ s.custody ∨ h.IsProxy ∧ Locked s.custody h.loop)
    (last : kind = .threadLoop → ∀ kind', kind' ≠ .threadLoop → s.handle o kind' = none)
    (unused : kind = .core → ∀ i kind' k, o = .core k → (s.objects i).core = some k →
      s.handle (.object i) kind' ≠ none → lost i) :
    ProgramInv lost ((s.record [.destroyed h]).setHandle o kind none) := by
  have hl : Lives s.custody h := inv.alive hh kept
  have handle : ∀ o' kind', ((s.record [.destroyed h]).setHandle o kind none).handle o' kind' =
      if o' = o ∧ kind' = kind then none else s.handle o' kind' := fun _ _ => handle_setHandle
  have old : ∀ {o' kind' x}, ((s.record [.destroyed h]).setHandle o kind none).handle o' kind' =
      some x → ¬(o' = o ∧ kind' = kind) ∧ s.handle o' kind' = some x := by
    intro o' kind' x hx
    rw [handle] at hx
    split at hx
    next => cases hx
    next hp => exact ⟨hp, hx⟩
  exact {
    custody := justified_concat.mpr ⟨inv.custody, hl, childless, released⟩
    created := by
      intro x p hc
      rcases List.mem_append.mp hc with hc | hc
      · exact inv.created x p hc
      · cases List.mem_singleton.mp hc
    lives := by
      intro x
      refine lives_destroyed.trans ?_
      rw [handle, inv.lives x]
      by_cases hp : x.owner = o ∧ x.kind = kind
      · rw [if_pos hp]
        refine iff_of_false ?_ (by simp)
        rintro ⟨⟨hx, -⟩, hne⟩
        rw [hp.1, hp.2, hh] at hx
        exact hne (Option.some.inj hx).symm
      · rw [if_neg hp]
        refine and_iff_left ?_
        rintro rfl
        obtain ⟨ho, hk, -⟩ := inv.placed o kind x hh
        exact hp ⟨ho, hk⟩
    placed := fun o' kind' x hx => inv.placed o' kind' x (old hx).2
    looped := by
      intro o' kind' x hx hk
      obtain ⟨hp, before⟩ := old hx
      obtain ⟨l, hl, he⟩ := inv.looped o' kind' x before hk
      refine ⟨l, ?_, he⟩
      rw [handle, if_neg]
      · exact hl
      · rintro ⟨rfl, rfl⟩
        rw [last rfl kind' fun h => hp ⟨rfl, h⟩] at before
        cases before
    proxied := by
      intro i kind' x hx hi
      obtain ⟨-, before⟩ := old hx
      obtain ⟨k, d, hk, hd, hc⟩ := inv.proxied i kind' x before hi
      refine ⟨k, d, hk, ?_, List.mem_append_left _ hc⟩
      rw [handle, if_neg]
      · exact hd
      · rintro ⟨rfl, rfl⟩
        exact hi (unused rfl i kind' k rfl hk (by rw [before]; simp))
    attached := inv.attached
    counted := inv.counted }

/-- What is left of what was made from a handle. -/
theorem ProgramInv.child_place (inv : ProgramInv lost s) {c : Handle} (core : kind ≠ .core)
    (hh : h.owner = o ∧ h.kind = kind) (hc : .created c (some h) ∈ s.custody)
    (alive : .destroyed c ∉ s.custody) :
    ∃ kind', kind'.parent = some kind ∧ s.handle o kind' ≠ none := by
  obtain ⟨parent, owner⟩ := inv.child hc
  have notProxy : c.kind.isProxy = false := by
    rw [hh.2] at parent
    cases hk : c.kind with
    | registry | object =>
      rw [hk] at parent
      exact absurd (Option.some.inj parent).symm core
    | _ => rfl
  have place := ((inv.lives c).mp ⟨⟨_, hc⟩, alive⟩).1
  rw [owner notProxy, hh.1] at place
  exact ⟨c.kind, by rw [parent, hh.2], by rw [place]; simp⟩

theorem ProgramInv.destroy (inv : ProgramInv lost s) (kept : ∀ i, o = .object i → ¬lost i)
    (core : kind ≠ .core)
    (released : ∀ h, s.handle o kind = some h →
      .stopped h.loop ∈ s.custody ∨ h.IsProxy ∧ Locked s.custody h.loop)
    (childless : ∀ kind', kind'.parent = some kind → s.handle o kind' = none)
    (last : kind = .threadLoop → ∀ kind', kind' ≠ .threadLoop → s.handle o kind' = none) :
    ProgramInv lost (s.destroy o kind) := by
  unfold Program.destroy
  split
  next => exact inv
  next h hh =>
    obtain ⟨ho, hk, -⟩ := inv.placed o kind h hh
    refine inv.destroyed hh kept (fun c hc => ?_) (released h hh) last fun hk => absurd hk core
    by_contra alive
    obtain ⟨kind', parent, place⟩ := inv.child_place core ⟨ho, hk⟩ hc alive
    exact place (childless kind' parent)

/-- The wrappers of the core `o`. -/
def Program.attachedTo (s : Program) (o : HandleOwner) (i : Nat) : Prop :=
  (s.objects i).core.map .core = some o

def noneLost : Nat → Prop := fun _ => False

theorem mem_proxies {core : Handle} : x ∈ s.proxies core ↔
    .created x (some core) ∈ s.custody ∧ x.kind.isProxy = true ∧ .destroyed x ∉ s.custody := by
  unfold Program.proxies
  rw [List.mem_filterMap]
  constructor
  · rintro ⟨event, hm, hx⟩
    cases event with
    | created h parent =>
      simp only at hx
      split at hx
      next hp =>
        obtain ⟨rfl, proxy, alive⟩ := hp
        cases hx
        exact ⟨hm, proxy, alive⟩
      next => cases hx
    | _ => cases hx
  · rintro ⟨hc, proxy, alive⟩
    exact ⟨_, hc, by simp [proxy, alive]⟩

theorem ProgramInv.nodup_proxies (inv : ProgramInv lost s) {core : Handle} :
    (s.proxies core).Nodup := by
  refine inv.custody.nodup_created fun event y hy => ?_
  cases event with
  | created h parent =>
    simp only at hy
    split at hy
    next => exact ⟨parent, by rw [Option.some.inj hy]⟩
    next => cases hy
  | _ => cases hy

/-- Nothing is made from a proxy. -/
theorem ProgramInv.proxy_childless (inv : ProgramInv lost s) (hx : x.kind.isProxy = true)
    (c : Handle) : .created c (some x) ∉ s.custody := fun hc => by
  have parent := (inv.child hc).1
  cases hk : x.kind <;> rw [hk] at hx parent <;> cases hx <;>
    cases hc' : c.kind <;> rw [hc'] at parent <;> cases parent

/-- Wrappers hold proxies, and nothing else does. -/
theorem kinds_proxy (field : kind ∈ o.kinds) : kind.isProxy = true ↔ ∃ i, o = .object i := by
  cases o <;> cases kind <;> simp [HandleOwner.kinds, HandleKind.isProxy] at field ⊢

/-- The wrappers of a core have lost the proxies that `pw_core_disconnect` destroys. -/
theorem ProgramInv.proxies_lost (inv : ProgramInv noneLost s) {core : Handle}
    (hd : s.handle o .core = some core) :
    x ∈ s.proxies core ↔ Lives s.custody x ∧ ∃ i, x.owner = .object i ∧ s.attachedTo o i := by
  obtain ⟨owner, -, -⟩ := inv.placed o .core core hd
  rw [mem_proxies]
  constructor
  · rintro ⟨hc, proxy, alive⟩
    have hl : Lives s.custody x := ⟨⟨_, hc⟩, alive⟩
    obtain ⟨place, -⟩ := (inv.lives x).mp hl
    obtain ⟨-, -, field⟩ := inv.placed _ _ x place
    obtain ⟨i, ho⟩ := (kinds_proxy field).mp proxy
    rw [ho] at place
    obtain ⟨k, d, hk, hd', hc'⟩ := inv.proxied i x.kind x place id
    cases inv.custody.parent_unique hc hc'
    obtain ⟨owner', -, -⟩ := inv.placed _ _ core hd'
    exact ⟨hl, i, ho, by rw [Program.attachedTo, hk, ← owner, owner']; rfl⟩
  · rintro ⟨hl, i, ho, attached⟩
    obtain ⟨place, -⟩ := (inv.lives x).mp hl
    obtain ⟨-, -, field⟩ := inv.placed _ _ x place
    have proxy := (kinds_proxy field).mpr ⟨i, ho⟩
    rw [ho] at place
    obtain ⟨k, d, hk, hd', hc⟩ := inv.proxied i x.kind x place id
    rw [Program.attachedTo, hk] at attached
    cases attached
    cases hd.symm.trans hd'
    exact ⟨hc, proxy, hl.2⟩

/-- When the proxies are gone, nothing is left that was made from the core. -/
theorem ProgramInv.core_childless (inv : ProgramInv noneLost s) {core c : Handle}
    (hd : s.handle o .core = some core) (stream : s.handle o .stream = none)
    (hc : .created c (some core) ∈ s.custody) :
    .destroyed c ∈ s.custody ++ (s.proxies core).map .destroyed := by
  obtain ⟨owner, coreKind, -⟩ := inv.placed o .core core hd
  obtain ⟨parent, childOwner⟩ := inv.child hc
  by_cases alive : .destroyed c ∈ s.custody
  · exact List.mem_append_left _ alive
  by_cases proxy : c.kind.isProxy = true
  · exact List.mem_append_right _ (List.mem_map_of_mem (mem_proxies.mpr ⟨hc, proxy, alive⟩))
  have place := ((inv.lives c).mp ⟨⟨_, hc⟩, alive⟩).1
  rw [childOwner (by simpa using proxy), owner] at place
  rw [coreKind] at parent
  cases hk : c.kind with
  | stream =>
    rw [hk, stream] at place
    cases place
  | registry | object => exact absurd (by rw [hk]; rfl) proxy
  | _ =>
    rw [hk] at parent
    cases parent

/-- The proxies of a core go, and then the core. -/
theorem ProgramInv.core_justified (inv : ProgramInv noneLost s) {core : Handle}
    (hd : s.handle o .core = some core) (stream : s.handle o .stream = none)
    (stopped : .stopped core.loop ∈ s.custody) :
    Justified (Custody Handle.loop Handle.IsProxy)
      (s.custody ++ (s.proxies core).map .destroyed ++ [.destroyed core]) := by
  obtain ⟨-, coreKind, -⟩ := inv.placed o .core core hd
  have coreLives : Lives s.custody core := inv.alive hd fun _ _ => id
  refine justified_concat.mpr ⟨?_, ?_, fun c hc => ?_, .inl (List.mem_append_left _ stopped)⟩
  · refine inv.custody.destroyAll inv.nodup_proxies (fun x hx => ((inv.proxies_lost hd).mp hx).1)
      (fun x hx => inv.proxy_childless (mem_proxies.mp hx).2.1) fun x hx => ?_
    obtain ⟨-, -, -, loopOf, -⟩ := inv.created x _ (mem_proxies.mp hx).1
    rw [loopOf]
    exact stopped
  · refine lives_destroyAll.mpr ⟨coreLives, fun hx => ?_⟩
    have proxy := (mem_proxies.mp hx).2.1
    rw [coreKind] at proxy
    cases proxy
  · exact inv.core_childless hd stream (by simpa using hc)

/-- The fields of the wrappers of a core refer to destroyed proxies after this. -/
theorem ProgramInv.disconnectCore (inv : ProgramInv noneLost s)
    (stopped : ∀ l, s.handle o .threadLoop = some l → .stopped l.loop ∈ s.custody)
    (stream : s.handle o .stream = none) :
    ProgramInv (s.attachedTo o) (s.disconnectCore o) := by
  unfold Program.disconnectCore
  split
  next hd =>
    have detached : ∀ i kind h, s.handle (.object i) kind = some h → ¬s.attachedTo o i := by
      intro i kind h hh ha
      obtain ⟨k, d, hk, hd', -⟩ := inv.proxied i kind h hh id
      rw [Program.attachedTo, hk] at ha
      cases ha
      rw [hd] at hd'
      cases hd'
    exact { inv with
      lives := fun h => by
        refine (inv.lives h).trans (and_congr_right fun hh => ⟨fun _ i hi => ?_, fun _ _ _ => id⟩)
        exact detached i h.kind h (hi ▸ hh)
      proxied := fun i kind h hh _ => inv.proxied i kind h hh id }
  next core hd =>
    obtain ⟨loop, hloop, loopOf⟩ := inv.looped o .core core hd rfl
    have justified := inv.core_justified hd stream (loopOf ▸ stopped loop hloop)
    obtain ⟨owner, coreKind, -⟩ := inv.placed o .core core hd
    generalize ht : (s.record ((s.proxies core).map .destroyed ++ [.destroyed core])).setHandle o
      .core none = t
    have custody : t.custody =
        s.custody ++ (s.proxies core).map .destroyed ++ [.destroyed core] := by
      rw [← ht]
      exact (List.append_assoc _ _ _).symm
    have handle : ∀ o' kind', t.handle o' kind' =
        if o' = o ∧ kind' = .core then none else s.handle o' kind' := by
      rw [← ht]
      exact fun _ _ => handle_setHandle
    have old : ∀ {o' kind' x}, t.handle o' kind' = some x → s.handle o' kind' = some x := by
      intro o' kind' x hx
      rw [handle] at hx
      split at hx
      next => cases hx
      next => exact hx
    have objects : t.objects = s.objects := ht ▸ rfl
    exact {
      custody := custody ▸ justified
      created := by
        intro x p hc
        have next : t.next = s.next := ht ▸ rfl
        rw [next]
        exact inv.created x p (by simpa [custody] using hc)
      lives := by
        intro x
        rw [custody, lives_destroyed, lives_destroyAll, inv.proxies_lost hd, handle]
        by_cases hp : x.owner = o ∧ x.kind = .core
        · rw [if_pos hp]
          refine iff_of_false ?_ (by simp)
          rintro ⟨⟨hl, -⟩, hne⟩
          exact hne (inv.place_inj hd hl hp)
        · rw [if_neg hp]
          constructor
          · rintro ⟨⟨hl, kept⟩, -⟩
            exact ⟨((inv.lives x).mp hl).1, fun i hi ha => kept ⟨hl, i, hi, ha⟩⟩
          · rintro ⟨place, kept⟩
            refine ⟨⟨(inv.lives x).mpr ⟨place, fun _ _ => id⟩, ?_⟩, ?_⟩
            · rintro ⟨-, i, hi, ha⟩
              exact kept i hi ha
            · rintro rfl
              exact hp ⟨owner, coreKind⟩
      placed := fun o' kind' x hx => inv.placed o' kind' x (old hx)
      looped := by
        intro o' kind' x hx hk
        obtain ⟨l, hl, he⟩ := inv.looped o' kind' x (old hx) hk
        exact ⟨l, by rw [handle, if_neg (by simp)]; exact hl, he⟩
      proxied := by
        intro i kind' x hx hi
        obtain ⟨k, d, hk, hd', hc⟩ := inv.proxied i kind' x (old hx) id
        refine ⟨k, d, by rw [objects]; exact hk, ?_, by simp [custody, hc]⟩
        rw [handle, if_neg]
        · exact hd'
        · rintro ⟨rfl, -⟩
          exact hi (by rw [Program.attachedTo, hk]; rfl)
      attached := by
        have cores : t.cores = s.cores := ht ▸ rfl
        rw [objects, cores]
        exact inv.attached
      counted := by
        have count : t.objectCount = s.objectCount := ht ▸ rfl
        rw [objects, count]
        exact inv.counted }

end PipewireGobject
