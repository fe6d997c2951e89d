import Mathlib.Logic.Function.Basic
import Mathlib.Data.List.Basic
import Mathlib.Data.List.Nodup

namespace PipewireGobject

/-- A resource belongs to the epoch it was created in and was created for one slot. -/
structure Resource (κ : Type) where
  id : Nat
  epoch : Nat
  slot : κ
  deriving DecidableEq

/-- What is recorded of a use, with what was true at that moment: whether there was a
resource and it was alive, and whether the hook was registered on a live resource when it
was zeroed. -/
inductive SlotEvent (κ : Type)
  | accessed (resource : Option (Resource κ)) (alive : Bool)
  | hookZeroed (slot : κ) (registered : Bool)
  deriving DecidableEq

/-- Slots that hold handles of resources. A slot also has a hook, which is registered on
a resource, and a flag that says so. All resources of an epoch die when it closes. -/
structure Slots (κ : Type) where
  up : Bool := false
  epoch : Nat := 0
  handle : κ → Option (Resource κ) := fun _ => none
  hook : κ → Option (Resource κ) := fun _ => none
  listening : κ → Bool := fun _ => false
  created : List (Resource κ) := []
  destroyed : List (Resource κ) := []
  log : List (SlotEvent κ) := []

variable {κ : Type} [DecidableEq κ] {s : Slots κ} {k j : κ} {r : Resource κ}
variable {o : Option (Resource κ)}

namespace Slots

def alive (s : Slots κ) (r : Resource κ) : Bool :=
  s.up && r.epoch = s.epoch && !s.destroyed.contains r

theorem alive_iff : s.alive r = true ↔ s.up = true ∧ r.epoch = s.epoch ∧ r ∉ s.destroyed := by
  simp [alive, and_assoc]

def openEpoch (s : Slots κ) : Slots κ := { s with up := true, epoch := s.epoch + 1 }

def closeEpoch (s : Slots κ) : Slots κ := { s with up := false }

def access (o : Option (Resource κ)) (s : Slots κ) : Slots κ :=
  { s with log := s.log ++ [.accessed o (o.any s.alive)] }

/-- A resource that is about to be created for the slot. -/
def new (s : Slots κ) (k : κ) : Resource κ := ⟨s.created.length, s.epoch, k⟩

def zeroHook (k : κ) (s : Slots κ) : Slots κ :=
  { s with
    hook := Function.update s.hook k none
    log := s.log ++ [.hookZeroed k ((s.hook k).any s.alive)] }

/-- Use what the handle refers to. -/
def use (k : κ) (s : Slots κ) : Slots κ := access (s.handle k) s

/-- Create a resource and overwrite the handle with it. -/
def create (k : κ) (s : Slots κ) : Slots κ :=
  { s with
    handle := Function.update s.handle k (some (s.new k))
    created := s.created ++ [s.new k] }

/-- Create a resource, zero the hook, and register it on the resource unless that fails. -/
def bind (k : κ) (registered : Bool) (s : Slots κ) : Slots κ :=
  let t := access (some (s.new k)) (zeroHook k (create k s))
  if registered then
    { t with
      hook := Function.update t.hook k (some (s.new k))
      listening := Function.update t.listening k true }
  else t

/-- Create a resource and zero the hook, fail to register it and destroy the resource
again: the handle never gets to see it. -/
def bindAborted (k : κ) (s : Slots κ) : Slots κ :=
  let t := access (some (s.new k)) (access (some (s.new k))
    (zeroHook k { s with created := s.created ++ [s.new k] }))
  { t with destroyed := t.destroyed ++ [s.new k] }

/-- Remove the hook from whatever it is registered on, if the flag is set. -/
def unhook (k : κ) (s : Slots κ) : Slots κ :=
  if s.listening k then
    let t := match s.hook k with
      | some r => access (some r) s
      | none => s
    { t with
      hook := Function.update t.hook k none
      listening := Function.update t.listening k false }
  else s

/-- Remove the hook and destroy what the handle refers to. -/
def destroy (k : κ) (s : Slots κ) : Slots κ :=
  match s.handle k with
  | none => { s with listening := Function.update s.listening k false }
  | some r =>
    let t := access (some r) (unhook k s)
    { t with
      handle := Function.update t.handle k none
      destroyed := t.destroyed ++ [r] }

/-- Drop the handle without destroying anything. -/
def forget (k : κ) (s : Slots κ) : Slots κ :=
  { s with
    handle := Function.update s.handle k none
    listening := Function.update s.listening k false }

/-- Overwrite the handle with nothing and leave the flag as it is. -/
def lose (k : κ) (s : Slots κ) : Slots κ :=
  { s with handle := Function.update s.handle k none }

@[simp] theorem access_fields : (access o s).up = s.up ∧ (access o s).epoch = s.epoch ∧
    (access o s).handle = s.handle ∧ (access o s).hook = s.hook ∧
    (access o s).listening = s.listening ∧ (access o s).created = s.created ∧
    (access o s).destroyed = s.destroyed := ⟨rfl, rfl, rfl, rfl, rfl, rfl, rfl⟩

/-- Every handle refers to a resource of its own slot that has not been destroyed, a hook
is registered on no other resource, and nothing is destroyed twice. -/
structure Owned (s : Slots κ) : Prop where
  handle : ∀ k r, s.handle k = some r → r.slot = k ∧ r ∈ s.created ∧ r ∉ s.destroyed
  attached : ∀ k r q, s.handle k = some r → s.hook k = some q → q = r
  hook : ∀ k q, s.hook k = some q → q.slot = k ∧ q ∈ s.created
  fresh : ∀ r ∈ s.created, r.id < s.created.length ∧ r.epoch ≤ s.epoch
  destroyed : ∀ r ∈ s.destroyed, r ∈ s.created
  once : s.destroyed.Nodup

omit [DecidableEq κ] in
theorem Owned.new_not_mem (h : s.Owned) (k : κ) : s.new k ∉ s.created :=
  fun hm => Nat.lt_irrefl _ (h.fresh _ hm).1

omit [DecidableEq κ] in
theorem Owned.openEpoch (h : s.Owned) : s.openEpoch.Owned :=
  { h with fresh := fun r hr => ⟨(h.fresh r hr).1, Nat.le_succ_of_le (h.fresh r hr).2⟩ }

omit [DecidableEq κ] in
theorem Owned.closeEpoch (h : s.Owned) : s.closeEpoch.Owned := { h with }

theorem Owned.access (h : s.Owned) : (s.access o).Owned := { h with }

omit [DecidableEq κ] in
/-- Handles and hooks are dropped; nothing is created or destroyed. -/
theorem Owned.of_fewer {t : Slots κ} (h : s.Owned)
    (handle : ∀ k r, t.handle k = some r → s.handle k = some r)
    (hook : ∀ k r, t.hook k = some r → s.hook k = some r)
    (epoch : t.epoch = s.epoch) (created : t.created = s.created)
    (destroyed : t.destroyed = s.destroyed) : t.Owned where
  handle k r hk := by
    rw [created, destroyed]
    exact h.handle k r (handle k r hk)
  attached k r q hk hq := h.attached k r q (handle k r hk) (hook k q hq)
  hook k q hq := by
    rw [created]
    exact h.hook k q (hook k q hq)
  fresh := by
    rw [created, epoch]
    exact h.fresh
  destroyed := by
    rw [created, destroyed]
    exact h.destroyed
  once := destroyed ▸ h.once

theorem update_none {f : κ → Option (Resource κ)} (h : Function.update f k none j = some r) :
    j ≠ k ∧ f j = some r := by
  by_cases hj : j = k
  · subst hj
    simp at h
  · exact ⟨hj, by simpa [hj] using h⟩

theorem Owned.forget (h : s.Owned) : (s.forget k).Owned :=
  h.of_fewer (fun _ _ hr => (update_none hr).2) (fun _ _ hr => hr) rfl rfl rfl

theorem Owned.lose (h : s.Owned) : (s.lose k).Owned :=
  h.of_fewer (fun _ _ hr => (update_none hr).2) (fun _ _ hr => hr) rfl rfl rfl

theorem Owned.zeroHook (h : s.Owned) : (s.zeroHook k).Owned :=
  h.of_fewer (fun _ _ hr => hr) (fun _ _ hr => (update_none hr).2) rfl rfl rfl

theorem unhook_fields (k : κ) (s : Slots κ) : (s.unhook k).up = s.up ∧
    (s.unhook k).epoch = s.epoch ∧ (s.unhook k).handle = s.handle ∧
    (s.unhook k).created = s.created ∧ (s.unhook k).destroyed = s.destroyed ∧
    ∀ j r, (s.unhook k).hook j = some r → s.hook j = some r := by
  unfold Slots.unhook
  split
  · cases s.hook k with
    | none => exact ⟨rfl, rfl, rfl, rfl, rfl, fun _ _ hr => (update_none hr).2⟩
    | some q => exact ⟨rfl, rfl, rfl, rfl, rfl, fun _ _ hr => (update_none hr).2⟩
  · exact ⟨rfl, rfl, rfl, rfl, rfl, fun _ _ hr => hr⟩

theorem Owned.unhook (h : s.Owned) : (s.unhook k).Owned := by
  obtain ⟨-, hepoch, hhandle, hcreated, hdestroyed, hhook⟩ := unhook_fields k s
  exact h.of_fewer (fun _ _ hr => by rwa [hhandle] at hr) hhook hepoch hcreated hdestroyed

theorem Owned.destroy (h : s.Owned) : (s.destroy k).Owned := by
  unfold Slots.destroy
  split
  next => exact { h with }
  next r hk =>
    obtain ⟨hslot, hcreated, hfresh⟩ := h.handle k r hk
    obtain ⟨-, -, hhandle, hc, hd, -⟩ := unhook_fields k s
    have h' : (s.unhook k).Owned := h.unhook
    exact {
      handle := fun j q hq => by
        obtain ⟨hne, hq⟩ := update_none hq
        obtain ⟨hs, hm, hn⟩ := h'.handle j q hq
        refine ⟨hs, hm, ?_⟩
        simp only [List.mem_append, List.mem_singleton, not_or]
        refine ⟨hn, ?_⟩
        rintro rfl
        exact hne (hs.symm.trans hslot)
      attached := fun j q p hq hp => h'.attached j q p (update_none hq).2 hp
      hook := h'.hook
      fresh := h'.fresh
      destroyed := fun q hq => by
        rcases List.mem_append.mp hq with hq | hq
        · exact h'.destroyed q hq
        · rw [List.mem_singleton.mp hq]
          show r ∈ (s.unhook k).created
          rwa [hc]
      once := by
        have hn : r ∉ (s.unhook k).destroyed := by rwa [hd]
        exact List.nodup_append.mpr ⟨h'.once, by simp, by
          intro a ha b hb
          cases List.mem_singleton.mp hb
          rintro rfl
          exact hn ha⟩ }

/-- The handle refers to the new resource, and so does the hook if it is registered. -/
theorem Owned.bind {registered : Bool} (h : s.Owned) : (s.bind k registered).Owned := by
  have hnew := h.new_not_mem k
  have zeroed : (Slots.zeroHook k (Slots.create k s)).Owned := {
    handle := fun j r hr => by
      by_cases hj : j = k
      · subst hj
        have hr' : s.new j = r := by simpa [Slots.zeroHook, Slots.create] using hr
        subst hr'
        refine ⟨rfl, by simp [Slots.zeroHook, Slots.create], fun hm => hnew (h.destroyed _ hm)⟩
      · obtain ⟨hs, hm, hn⟩ := h.handle j r (by simpa [Slots.zeroHook, Slots.create, hj] using hr)
        exact ⟨hs, List.mem_append_left _ hm, hn⟩
    attached := fun j r q hr hq => by
      obtain ⟨hj, hq⟩ := update_none hq
      exact h.attached j r q (by simpa [Slots.zeroHook, Slots.create, hj] using hr) hq
    hook := fun j q hq => by
      obtain ⟨hs, hm⟩ := h.hook j q (update_none hq).2
      exact ⟨hs, List.mem_append_left _ hm⟩
    fresh := fun r hr => by
      rcases List.mem_append.mp hr with hr | hr
      · obtain ⟨hid, hepoch⟩ := h.fresh r hr
        exact ⟨by simp [Slots.zeroHook, Slots.create]; omega, hepoch⟩
      · cases List.mem_singleton.mp hr
        exact ⟨by simp [Slots.zeroHook, Slots.create, Slots.new], Nat.le_refl _⟩
    destroyed := fun r hr => List.mem_append_left _ (h.destroyed r hr)
    once := h.once }
  unfold Slots.bind
  split
  next =>
    exact { zeroed with
      attached := fun j r q hr hq => by
        by_cases hj : j = k
        · subst hj
          have hr' : s.new j = r := by simpa [Slots.zeroHook, Slots.create, Slots.access] using hr
          have hq' : s.new j = q := by simpa using hq
          exact hq'.symm.trans hr'
        · exact zeroed.attached j r q hr (by simpa [hj] using hq)
      hook := fun j q hq => by
        by_cases hj : j = k
        · subst hj
          have hq' : s.new j = q := by simpa using hq
          subst hq'
          exact ⟨rfl, by simp [Slots.zeroHook, Slots.create]⟩
        · exact zeroed.hook j q (by simpa [hj] using hq) }
  next => exact zeroed.access

theorem Owned.bindAborted (h : s.Owned) : (s.bindAborted k).Owned := by
  have hnew := h.new_not_mem k
  have zeroed : (s.zeroHook k).Owned := h.zeroHook
  exact {
    handle := fun j r hr => by
      obtain ⟨hs, hm, hn⟩ := h.handle j r hr
      refine ⟨hs, List.mem_append_left _ hm, ?_⟩
      simp only [Slots.bindAborted, Slots.zeroHook, Slots.access, List.mem_append,
        List.mem_singleton, not_or]
      exact ⟨hn, fun he => hnew (he ▸ hm)⟩
    attached := fun j r q hr hq => zeroed.attached j r q hr hq
    hook := fun j q hq => ⟨(zeroed.hook j q hq).1, List.mem_append_left _ (zeroed.hook j q hq).2⟩
    fresh := fun r hr => by
      rcases List.mem_append.mp hr with hr | hr
      · obtain ⟨hid, hepoch⟩ := h.fresh r hr
        exact ⟨by simp [Slots.bindAborted, Slots.zeroHook, Slots.access]; omega, hepoch⟩
      · cases List.mem_singleton.mp hr
        exact ⟨by simp [Slots.bindAborted, Slots.zeroHook, Slots.access, Slots.new],
          Nat.le_refl _⟩
    destroyed := fun r hr => by
      rcases List.mem_append.mp hr with hr | hr
      · exact List.mem_append_left _ (h.destroyed r hr)
      · exact List.mem_append_right _ hr
    once := by
      refine List.nodup_append.mpr ⟨h.once, by simp, ?_⟩
      intro a ha b hb
      cases List.mem_singleton.mp hb
      rintro rfl
      exact hnew (h.destroyed _ ha) }

/-- Every live resource is the one that the handle of its slot refers to. -/
def Covered (s : Slots κ) : Prop :=
  ∀ r ∈ s.created, s.alive r = true → s.handle r.slot = some r

/-- At most one live resource was created for the slot. -/
def OneAlive (s : Slots κ) (k : κ) : Prop :=
  ∀ r ∈ s.created, ∀ q ∈ s.created, r.slot = k → q.slot = k → s.alive r = true →
    s.alive q = true → r = q

theorem Covered.oneAlive (h : s.Covered) (k : κ) : s.OneAlive k := by
  rintro r hr q hq rfl hslot halive halive'
  have hr' := h r hr halive
  have hq' := h q hq halive'
  rw [hslot, hr'] at hq'
  exact Option.some.inj hq'

/-- What was created is still referred to by its handle, has been destroyed once, or died
with its epoch; nothing was destroyed twice. -/
def Accounted (s : Slots κ) : Prop :=
  (∀ r ∈ s.created, s.handle r.slot = some r ∨ s.destroyed.count r = 1 ∨
    ¬ (s.up = true ∧ r.epoch = s.epoch)) ∧
  ∀ r, s.destroyed.count r ≤ 1

theorem Covered.accounted (h : s.Covered) (owned : s.Owned) : s.Accounted := by
  refine ⟨fun r hr => ?_, fun r => List.nodup_iff_count_le_one.mp owned.once r⟩
  cases halive : s.alive r with
  | true => exact .inl (h r hr halive)
  | false =>
    by_cases hd : r ∈ s.destroyed
    · exact .inr (.inl (List.count_eq_one_of_mem owned.once hd))
    · refine .inr (.inr fun hup => ?_)
      rw [alive_iff.mpr ⟨hup.1, hup.2, hd⟩] at halive
      cases halive

/-- No hook has been zeroed while it was registered on a live resource. -/
def HooksKept (s : Slots κ) : Prop :=
  ∀ k registered, .hookZeroed k registered ∈ s.log → registered = false

/-- Only live resources have been used. -/
def UsedAlive (s : Slots κ) : Prop := ∀ o alive, .accessed o alive ∈ s.log → alive = true

/-- The handle of the slot refers to nothing that is alive. -/
def Vacant (s : Slots κ) (k : κ) : Prop := (s.handle k).any s.alive = false

instance : Decidable (s.Vacant k) := inferInstanceAs (Decidable (_ = _))

theorem Vacant.dead (vacant : s.Vacant k) (hk : s.handle k = some r) : s.alive r = false := by
  unfold Slots.Vacant at vacant
  rwa [hk] at vacant

theorem vacant_of_dead (dead : ∀ r, s.handle k = some r → s.alive r = false) : s.Vacant k := by
  unfold Slots.Vacant
  cases hk : s.handle k with
  | none => rfl
  | some r => exact dead r hk

theorem vacant_of_none (hk : s.handle k = none) : s.Vacant k := by
  simp [Slots.Vacant, hk]

theorem vacant_of_down (down : s.up = false) : s.Vacant k :=
  vacant_of_dead fun r _ => by simp [Slots.alive, down]

/-- A hook of a vacant slot is registered on nothing alive. -/
theorem Covered.hook_dead (h : s.Covered) (owned : s.Owned) (vacant : s.Vacant k) :
    (s.hook k).any s.alive = false := by
  cases hk : s.hook k with
  | none => rfl
  | some q =>
    obtain ⟨hslot, hm⟩ := owned.hook k q hk
    show s.alive q = false
    cases ha : s.alive q with
    | false => rfl
    | true =>
      have hq := h q hm ha
      rw [hslot] at hq
      rw [← ha, vacant.dead hq]

theorem Covered.openEpoch (h : s.Owned) : s.openEpoch.Covered := by
  intro r hr ha
  obtain ⟨-, hepoch, -⟩ := alive_iff.mp ha
  have := (h.fresh r hr).2
  simp only [Slots.openEpoch] at hepoch
  omega

theorem Covered.closeEpoch : s.closeEpoch.Covered := by
  intro r _ ha
  simp [Slots.alive, Slots.closeEpoch] at ha

theorem Covered.access (h : s.Covered) : (s.access o).Covered := h

theorem Owned.use (h : s.Owned) : (s.use k).Owned := h.access

theorem Covered.use (h : s.Covered) : (s.use k).Covered := h.access (o := s.handle k)

/-- Live resources keep their handles. -/
theorem Covered.of_kept {t : Slots κ} (h : s.Covered) (created : t.created = s.created)
    (alive : ∀ r ∈ s.created, t.alive r = true → s.alive r = true)
    (kept : ∀ r ∈ s.created, t.alive r = true → s.handle r.slot = some r →
      t.handle r.slot = some r) : t.Covered := by
  intro r hr ha
  rw [created] at hr
  exact kept r hr ha (h r hr (alive r hr ha))

theorem Vacant.slot_ne (vacant : s.Vacant k) (ha : s.alive r = true)
    (hh : s.handle r.slot = some r) : r.slot ≠ k := by
  rintro rfl
  rw [vacant.dead hh] at ha
  cases ha

theorem Covered.forget (h : s.Covered) (vacant : s.Vacant k) : (s.forget k).Covered := by
  refine h.of_kept rfl (fun _ _ ha => ha) fun r _ ha hh => ?_
  have hne : r.slot ≠ k := vacant.slot_ne ha hh
  simpa [Slots.forget, hne] using hh

theorem Covered.lose (h : s.Covered) (vacant : s.Vacant k) : (s.lose k).Covered := by
  refine h.of_kept rfl (fun _ _ ha => ha) fun r _ ha hh => ?_
  have hne : r.slot ≠ k := vacant.slot_ne ha hh
  simpa [Slots.lose, hne] using hh

theorem alive_of_destroyed (t : Slots κ) (up : t.up = s.up) (epoch : t.epoch = s.epoch)
    (destroyed : ∀ r ∈ s.destroyed, r ∈ t.destroyed) (ha : t.alive r = true) :
    s.alive r = true := by
  obtain ⟨hup, hepoch, hn⟩ := alive_iff.mp ha
  exact alive_iff.mpr ⟨up ▸ hup, epoch ▸ hepoch, fun hm => hn (destroyed r hm)⟩

theorem destroy_of_handle (hk : s.handle k = some r) : (s.destroy k).up = s.up ∧
    (s.destroy k).epoch = s.epoch ∧ (s.destroy k).handle = Function.update s.handle k none ∧
    (s.destroy k).created = s.created ∧ (s.destroy k).destroyed = s.destroyed ++ [r] := by
  obtain ⟨hup, hepoch, hhandle, hcreated, hdestroyed, -⟩ := unhook_fields k s
  unfold Slots.destroy
  split
  next hn =>
    rw [hk] at hn
    cases hn
  next q hq =>
    rw [hk] at hq
    cases Option.some.inj hq
    simp [hup, hepoch, hhandle, hcreated, hdestroyed]

theorem destroy_of_none (hk : s.handle k = none) :
    s.destroy k = { s with listening := Function.update s.listening k false } := by
  unfold Slots.destroy
  split
  next => rfl
  next r hr =>
    rw [hk] at hr
    cases hr

theorem destroy_epoch (k : κ) (s : Slots κ) :
    (s.destroy k).up = s.up ∧ (s.destroy k).epoch = s.epoch ∧
      ∀ j r, (s.destroy k).handle j = some r → s.handle j = some r := by
  cases hk : s.handle k with
  | none =>
    rw [destroy_of_none hk]
    exact ⟨rfl, rfl, fun _ _ hj => hj⟩
  | some r =>
    obtain ⟨hup, hepoch, hhandle, -⟩ := destroy_of_handle hk
    exact ⟨hup, hepoch, fun j q hj => (update_none (hhandle ▸ hj)).2⟩

theorem Covered.destroy (h : s.Covered) : (s.destroy k).Covered := by
  cases hk : s.handle k with
  | none =>
    rw [destroy_of_none hk]
    exact h
  | some r =>
    obtain ⟨hup, hepoch, hhandle, hcreated, hdestroyed⟩ := destroy_of_handle hk
    refine h.of_kept hcreated (fun q _ ha => alive_of_destroyed _ hup hepoch ?_ ha) ?_
    · intro q hq
      rw [hdestroyed]
      exact List.mem_append_left _ hq
    · intro q _ ha hh
      have hne : q.slot ≠ k := by
        rintro rfl
        rw [hk] at hh
        cases Option.some.inj hh
        have hn := (alive_iff.mp ha).2.2
        simp [hdestroyed] at hn
      simpa [hne, hhandle] using hh

theorem bind_fields (k : κ) (registered : Bool) (s : Slots κ) :
    (s.bind k registered).up = s.up ∧ (s.bind k registered).epoch = s.epoch ∧
    (s.bind k registered).handle = Function.update s.handle k (some (s.new k)) ∧
    (s.bind k registered).created = s.created ++ [s.new k] ∧
    (s.bind k registered).destroyed = s.destroyed ∧
    (s.bind k registered).alive = s.alive := by
  unfold Slots.bind
  split <;> exact ⟨rfl, rfl, rfl, rfl, rfl, rfl⟩

/-- The new resource is covered by the handle, and it overwrote nothing alive. -/
theorem Covered.bind {registered : Bool} (h : s.Covered) (vacant : s.Vacant k) :
    (s.bind k registered).Covered := by
  obtain ⟨-, -, handle, created, -, alive⟩ := bind_fields k registered s
  intro r hr ha
  rw [created] at hr
  rw [alive] at ha
  rw [handle]
  rcases List.mem_append.mp hr with hr | hr
  · have hh := h r hr ha
    have hne : r.slot ≠ k := vacant.slot_ne ha hh
    simpa [hne] using hh
  · cases List.mem_singleton.mp hr
    simp [Slots.new]

theorem Covered.bindAborted (h : s.Covered) : (s.bindAborted k).Covered := by
  intro r hr ha
  rcases List.mem_append.mp hr with hr | hr
  · refine h r hr (alive_of_destroyed (s.bindAborted k) rfl rfl (fun q hq => ?_) ha)
    exact List.mem_append_left _ hq
  · cases List.mem_singleton.mp hr
    have := (alive_iff.mp ha).2.2
    simp [Slots.bindAborted] at this

theorem vacant_openEpoch (owned : s.Owned) : s.openEpoch.Vacant k :=
  vacant_of_dead fun r hr => by
    have older := (owned.fresh r (owned.handle k r hr).2.1).2
    refine Bool.eq_false_iff.mpr fun ha => ?_
    have hepoch : r.epoch = s.epoch + 1 := (alive_iff.mp ha).2.1
    omega

theorem vacant_forget_iff (hne : j ≠ k) : (s.forget k).Vacant j ↔ s.Vacant j := by
  have hh : (s.forget k).handle j = s.handle j := by simp [Slots.forget, hne]
  unfold Slots.Vacant
  rw [hh]
  rfl

theorem vacant_forget : (s.forget k).Vacant k := vacant_of_none (by simp [Slots.forget])

theorem vacant_use_iff : (s.use k).Vacant j ↔ s.Vacant j := Iff.rfl

theorem vacant_bind_iff {registered : Bool} (hne : j ≠ k) :
    (s.bind k registered).Vacant j ↔ s.Vacant j := by
  obtain ⟨-, -, handle, -, -, alive⟩ := bind_fields k registered s
  unfold Slots.Vacant
  rw [handle, alive, Function.update_of_ne hne]

theorem not_vacant_bind {registered : Bool} (owned : s.Owned) (up : s.up = true) :
    ¬ (s.bind k registered).Vacant k := by
  obtain ⟨-, -, handle, -, -, alive⟩ := bind_fields k registered s
  have ha : s.alive (s.new k) = true :=
    alive_iff.mpr ⟨up, rfl, fun hm => owned.new_not_mem k (owned.destroyed _ hm)⟩
  simp [Slots.Vacant, handle, alive, ha]

theorem vacant_destroy : (s.destroy k).Vacant k := by
  cases hk : s.handle k with
  | none =>
    rw [destroy_of_none hk]
    exact vacant_of_none hk
  | some r =>
    obtain ⟨-, -, hhandle, -⟩ := destroy_of_handle hk
    exact vacant_of_none (by simp [hhandle])

theorem vacant_destroy_iff (owned : s.Owned) (hne : j ≠ k) :
    (s.destroy k).Vacant j ↔ s.Vacant j := by
  cases hk : s.handle k with
  | none =>
    rw [destroy_of_none hk]
    exact Iff.rfl
  | some r =>
    obtain ⟨hup, hepoch, hhandle, -, hdestroyed⟩ := destroy_of_handle hk
    cases hj : s.handle j with
    | none =>
      have hj' : (s.destroy k).handle j = none := by simpa [hhandle, hne] using hj
      exact iff_of_true (vacant_of_none hj') (vacant_of_none hj)
    | some q =>
      have hj' : (s.destroy k).handle j = some q := by simpa [hhandle, hne] using hj
      have hqr : q ≠ r := by
        rintro rfl
        exact hne ((owned.handle j q hj).1.symm.trans (owned.handle k q hk).1)
      have ha : (s.destroy k).alive q = s.alive q := by
        simp [Slots.alive, hup, hepoch, hdestroyed, hqr]
      unfold Slots.Vacant
      simp [hj, hj', ha]

theorem vacant_bindAborted_iff (owned : s.Owned) : (s.bindAborted k).Vacant j ↔ s.Vacant j := by
  cases hj : s.handle j with
  | none => exact iff_of_true (vacant_of_none hj) (vacant_of_none hj)
  | some r =>
    have hne : r ≠ s.new k := by
      rintro rfl
      exact owned.new_not_mem k (owned.handle j _ hj).2.1
    have hj' : (s.bindAborted k).handle j = some r := hj
    have ha : (s.bindAborted k).alive r = s.alive r := by
      simp [Slots.alive, Slots.bindAborted, Slots.zeroHook, Slots.access, hne]
    unfold Slots.Vacant
    simp [hj, hj', ha]

theorem HooksKept.access (h : s.HooksKept) : (s.access o).HooksKept := by
  intro j registered hm
  exact h j registered (by simpa [Slots.access] using hm)

theorem HooksKept.use (h : s.HooksKept) : (s.use k).HooksKept := h.access

theorem HooksKept.zeroHook (h : s.HooksKept) (dead : (s.hook k).any s.alive = false) :
    (s.zeroHook k).HooksKept := by
  intro j registered hm
  rcases List.mem_append.mp hm with hm | hm
  · exact h j registered hm
  · cases List.mem_singleton.mp hm
    exact dead

theorem HooksKept.bind {registered : Bool} (h : s.HooksKept)
    (dead : (s.hook k).any s.alive = false) : (s.bind k registered).HooksKept := by
  unfold Slots.bind
  split <;> exact (HooksKept.zeroHook (s := Slots.create k s) h dead).access (o := some (s.new k))

theorem HooksKept.bindAborted (h : s.HooksKept) (dead : (s.hook k).any s.alive = false) :
    (s.bindAborted k).HooksKept :=
  ((HooksKept.zeroHook (s := { s with created := s.created ++ [s.new k] }) h dead).access
    (o := some (s.new k))).access (o := some (s.new k))

theorem HooksKept.unhook (h : s.HooksKept) : (s.unhook k).HooksKept := by
  unfold Slots.unhook
  split
  · cases s.hook k with
    | none => exact h
    | some q => exact h.access (o := some q)
  · exact h

theorem HooksKept.destroy (h : s.HooksKept) : (s.destroy k).HooksKept := by
  unfold Slots.destroy
  split
  next => exact h
  next r _ => exact (h.unhook (k := k)).access (o := some r)

theorem UsedAlive.access (h : s.UsedAlive) (ha : o.any s.alive = true) :
    (s.access o).UsedAlive := by
  intro q alive hm
  rcases List.mem_append.mp hm with hm | hm
  · exact h q alive hm
  · cases List.mem_singleton.mp hm
    exact ha

theorem UsedAlive.zeroHook (h : s.UsedAlive) : (s.zeroHook k).UsedAlive := by
  intro q alive hm
  exact h q alive (by simpa [Slots.zeroHook] using hm)

theorem new_alive (owned : s.Owned) (up : s.up = true) : s.alive (s.new k) = true :=
  alive_iff.mpr ⟨up, rfl, fun hm => owned.new_not_mem k (owned.destroyed _ hm)⟩

theorem UsedAlive.use (h : s.UsedAlive) (alive : (s.handle k).any s.alive = true) :
    (s.use k).UsedAlive := h.access alive

theorem UsedAlive.bind {registered : Bool} (h : s.UsedAlive) (owned : s.Owned)
    (up : s.up = true) : (s.bind k registered).UsedAlive := by
  unfold Slots.bind
  split <;> exact (UsedAlive.zeroHook (s := Slots.create k s) h).access (o := some (s.new k))
    (new_alive owned up)

theorem UsedAlive.bindAborted (h : s.UsedAlive) (owned : s.Owned) (up : s.up = true) :
    (s.bindAborted k).UsedAlive :=
  ((UsedAlive.zeroHook (s := { s with created := s.created ++ [s.new k] }) h).access
    (o := some (s.new k)) (new_alive owned up)).access (o := some (s.new k)) (new_alive owned up)

theorem UsedAlive.destroy (h : s.UsedAlive) (owned : s.Owned)
    (alive : ∀ r, s.handle k = some r → s.alive r = true) : (s.destroy k).UsedAlive := by
  unfold Slots.destroy
  split
  next => exact h
  next r hk =>
    have ha := alive r hk
    have unhooked : (s.unhook k).UsedAlive := by
      unfold Slots.unhook
      split
      · cases hq : s.hook k with
        | none => exact h
        | some q =>
          rw [owned.attached k r q hk hq]
          exact h.access (o := some r) ha
      · exact h
    obtain ⟨hup, hepoch, -, -, hdestroyed, -⟩ := unhook_fields k s
    refine unhooked.access ?_
    show (s.unhook k).alive r = true
    rw [alive_iff] at ha ⊢
    rwa [hup, hepoch, hdestroyed]

end Slots

end PipewireGobject
