import PipewireGobject.ProxyOwnership

namespace PipewireGobject

variable {ω : Type} [DecidableEq ω] {S : WrapperSet ω} {kind : ω → WrapperKind}
variable {result : PipewireResult} {p q : Slots (ω × ProxyField)} {s t : Wrappers ω} {w : ω}
variable {k : ω × ProxyField} {pending pending' : List ω} {i : WrapperStmt ω}
variable {c : Config (Wrappers ω) (WrapperStmt ω)} {code code' rest : List (WrapperStmt ω)}

/-- Every handle refers to a proxy of the connection, or to one of the last connection that
its wrapper is due to forget. -/
structure ProxiesLive (kind : ω → WrapperKind) (due : List ω) (p : Slots (ω × ProxyField)) :
    Prop where
  owned : p.Owned
  used : p.UsedAlive
  current : p.up = true → ∀ k r, p.handle k = some r → r.epoch = p.epoch
  forgets : p.up = false → ∀ k r, p.handle k = some r → k.1 ∈ due
  object : ∀ w, kind w = .registry → p.handle (w, .object) = none

theorem ProxiesLive.alive {r : Resource (ω × ProxyField)} (h : ProxiesLive kind pending p)
    (up : p.up = true) (hk : p.handle k = some r) : p.alive r = true :=
  Slots.alive_iff.mpr ⟨up, h.current up k r hk, (h.owned.handle k r hk).2.2⟩

omit [DecidableEq ω] in
theorem ProxiesLive.of_fewer (h : ProxiesLive kind pending p) (owned : q.Owned) (used : q.UsedAlive)
    (up : q.up = p.up) (epoch : q.epoch = p.epoch)
    (handle : ∀ k r, q.handle k = some r → p.handle k = some r) : ProxiesLive kind pending q where
  owned := owned
  used := used
  current hup k r hk := by
    rw [epoch]
    exact h.current (up ▸ hup) k r (handle k r hk)
  forgets hdown k r hk := h.forgets (up ▸ hdown) k r (handle k r hk)
  object w hw := by
    cases hk : q.handle (w, .object) with
    | none => rfl
    | some r =>
      have hr := handle _ r hk
      rw [h.object w hw] at hr
      cases hr

omit [DecidableEq ω] in
theorem ProxiesLive.while_up (h : ProxiesLive kind pending p) (up : p.up = true) :
    ProxiesLive kind pending' p :=
  { h with
    forgets := fun down => by
      rw [up] at down
      cases down }

theorem ProxiesLive.forget (h : ProxiesLive kind pending p) :
    ProxiesLive kind pending (p.forget k) :=
  h.of_fewer h.owned.forget h.used rfl rfl fun _ _ hk => (Slots.update_none hk).2

theorem ProxiesLive.lose (h : ProxiesLive kind pending p) : ProxiesLive kind pending (p.lose k) :=
  h.of_fewer h.owned.lose h.used rfl rfl fun _ _ hk => (Slots.update_none hk).2

theorem ProxiesLive.use (h : ProxiesLive kind pending p) (up : p.up = true)
    (hk : p.handle k ≠ none) : ProxiesLive kind pending (p.use k) := by
  obtain ⟨r, hr⟩ := Option.ne_none_iff_exists'.mp hk
  refine h.of_fewer h.owned.use (h.used.use ?_) rfl rfl fun _ _ hk => hk
  rw [hr]
  exact h.alive up hr

theorem ProxiesLive.destroy (h : ProxiesLive kind pending p)
    (live : p.up = true ∨ p.handle k = none) : ProxiesLive kind pending (p.destroy k) := by
  obtain ⟨up, epoch, handle⟩ := Slots.destroy_epoch k p
  refine h.of_fewer h.owned.destroy (h.used.destroy h.owned fun r hr => ?_) up epoch handle
  rcases live with live | empty
  · exact h.alive live hr
  · rw [empty] at hr
    cases hr

theorem ProxiesLive.destroyBoth (h : ProxiesLive kind pending p)
    (live : p.up = true ∨ p.handle (w, .registry) = none ∧ p.handle (w, .object) = none) :
    ProxiesLive kind pending (destroyBoth w p) := by
  obtain ⟨up, -, handle⟩ := Slots.destroy_epoch (w, .object) p
  have object : ProxiesLive kind pending (p.destroy (w, .object)) :=
    h.destroy (live.imp_right (·.2))
  refine object.destroy ?_
  rcases live with live | empty
  · exact .inl (up.trans live)
  · right
    cases hk : (p.destroy (w, .object)).handle (w, .registry) with
    | none => rfl
    | some r =>
      have hr := handle _ r hk
      rw [empty.1] at hr
      cases hr

theorem ProxiesLive.bind (registered : Bool) (h : ProxiesLive kind pending p) (up : p.up = true)
    (hkind : k.2 = .object → kind k.1 ≠ .registry) :
    ProxiesLive kind pending (p.bind k registered) := by
  obtain ⟨up', epoch, handle, -⟩ := Slots.bind_fields k registered p
  exact {
    owned := h.owned.bind
    used := h.used.bind h.owned up
    current := fun _ j r hj => by
      rw [handle] at hj
      rw [epoch]
      by_cases hjk : j = k
      · subst hjk
        have hr : p.new j = r := by simpa using hj
        exact hr ▸ rfl
      · exact h.current up j r (by simpa [hjk] using hj)
    forgets := fun down => by
      rw [up', up] at down
      cases down
    object := fun w hw => by
      rw [handle]
      by_cases hk : (w, ProxyField.object) = k
      · subst hk
        exact absurd hw (hkind rfl)
      · simpa [hk] using h.object w hw }

theorem ProxiesLive.bindAborted (h : ProxiesLive kind pending p) (up : p.up = true) :
    ProxiesLive kind pending (p.bindAborted k) :=
  h.of_fewer h.owned.bindAborted (h.used.bindAborted h.owned up) rfl rfl fun _ _ hk => hk

omit [DecidableEq ω] in
theorem ProxiesLive.openEpoch (h : ProxiesLive kind pending p) (empty : ∀ k, p.handle k = none) :
    ProxiesLive kind pending' p.openEpoch where
  owned := h.owned.openEpoch
  used := h.used
  current _ k r hk := by
    have hn : p.openEpoch.handle k = none := empty k
    rw [hk] at hn
    cases hn
  forgets hdown := by
    cases hdown
  object w _ := empty (w, .object)

omit [DecidableEq ω] in
theorem ProxiesLive.closeEpoch (h : ProxiesLive kind pending p) (all : ∀ w, w ∈ pending') :
    ProxiesLive kind pending' p.closeEpoch where
  owned := h.owned.closeEpoch
  used := h.used
  current hup := by
    cases hup
  forgets _ k _ _ := all k.1
  object := h.object

theorem ProxiesLive.boundRegistry (h : ProxiesLive kind pending p) (up : p.up = true) :
    ProxiesLive kind pending (boundRegistry w p) ∧ (boundRegistry w p).up = true := by
  obtain ⟨up', -, handle, -⟩ := Slots.bind_fields (w, .registry) true p
  have bound : ProxiesLive kind pending (p.bind (w, .registry) true) := h.bind true up (by simp)
  exact ⟨bound.use (up'.trans up) (by simp [handle]), up'.trans up⟩

/-- A node, device or link is not stopped while it refers to proxies of a closed connection,
and no method is called that the object cannot take any more. -/
def WrapperStmt.reachesLive (kind : ω → WrapperKind) (p : Slots (ω × ProxyField)) :
    WrapperStmt ω → Prop
  | .stop w => p.up = false → (kind w).bindsObject = true →
      p.handle (w, .registry) = none ∧ p.handle (w, .object) = none
  | .enumParamsCall w => p.up = true ∧ p.handle (w, .object) ≠ none
  | _ => True

instance (p : Slots (ω × ProxyField)) : DecidablePred (WrapperStmt.reachesLive kind p)
  | .stop _ => inferInstanceAs (Decidable (_ → _ → _ ∧ _))
  | .enumParamsCall _ => inferInstanceAs (Decidable (_ ∧ _))
  | .handlers | .connect | .disconnect | .disconnectReturn _ _ | .emitConnected | .start _ _
  | .startProxies _ _ | .sync _ | .coreSync _ | .coreSyncWait _ | .metadataSyncAgain _ _
  | .metadataStopRegistry _ | .clearBound _ | .clearRunning _ | .dispatchEvent _ _ _
  | .callMethod _ | .enumParams _ => .isTrue trivial

theorem ProxiesLive.effect (h : ProxiesLive kind pending p) (effect : ProxyEffect kind p i q)
    (hi : i ≠ .connect ∧ i ≠ .disconnect) (reaches : i.reachesLive kind p) :
    ProxiesLive kind pending q := by
  have binds_ne {w : ω} (hb : (kind w).bindsObject = true) : kind w ≠ .registry := by
    intro hk
    simp [hk, WrapperKind.bindsObject] at hb
  cases effect with
  | same => exact h
  | opened => exact absurd rfl hi.1
  | closed => exact absurd rfl hi.2
  | forgotten => exact h.forget
  | forgottenBoth => exact h.forget.forget
  | destroyed _ k up => exact h.destroy (.inl up)
  | destroyedBoth w binds =>
    refine h.destroyBoth ?_
    cases up : p.up with
    | true => exact .inl rfl
    | false => exact .inr (reaches up binds)
  | used _ k up hk => exact h.use up hk
  | usedUnchecked w => exact h.use reaches.1 reaches.2
  | registryLost => exact h.lose
  | registryBound w sync up => exact h.bind true up (by simp)
  | objectLost w sync up binds =>
    obtain ⟨registry, up'⟩ := h.boundRegistry (w := w) up
    exact registry.lose.destroyBoth (.inl up')
  | objectUnheard w sync up binds =>
    obtain ⟨registry, up'⟩ := h.boundRegistry (w := w) up
    obtain ⟨up'', -⟩ := Slots.bind_fields (w, .object) false (PipewireGobject.boundRegistry w p)
    have object := registry.bind (k := (w, .object)) false up' fun _ => binds_ne binds
    exact object.destroyBoth (.inl (up''.trans up'))
  | objectBound w sync up binds =>
    obtain ⟨registry, up'⟩ := h.boundRegistry (w := w) up
    exact registry.bind true up' fun _ => binds_ne binds
  | metadataUnheard _ w up _ registry => exact (h.use up registry).bindAborted up
  | metadataBound _ w up hkind registry =>
    exact (h.use up registry).bind true up fun _ => by simp [hkind]

/-- The handler of a wrapper forgets its proxies, and those of the others are still due. -/
theorem reset_live (h : ProxiesLive kind (w :: pending) s.proxies) (down : s.connected = false) :
    ProxiesLive kind pending (reset (kind w) w s).1.proxies := by
  have others {k : ω × ProxyField} {r : Resource (ω × ProxyField)}
      (hk : s.proxies.handle k = some r) (hw : k.1 ≠ w) : k.1 ∈ pending :=
    (List.mem_cons.mp (h.forgets down k r hk)).resolve_left hw
  have both : ProxiesLive kind pending (forgetBoth w s.proxies) :=
    { h.forget.forget with
      forgets := fun _ k r hk => by
        obtain ⟨object, once⟩ := Slots.update_none hk
        obtain ⟨registry, before⟩ := Slots.update_none once
        refine others before ?_
        rintro rfl
        obtain ⟨w, field⟩ := k
        cases field
        · exact registry rfl
        · exact object rfl }
  cases hkind : kind w with
  | registry =>
    exact { h.forget (k := (w, .registry)) with
      forgets := fun _ k r hk => by
        obtain ⟨registry, before⟩ := Slots.update_none hk
        refine others before ?_
        rintro rfl
        obtain ⟨w, field⟩ := k
        cases field
        · exact registry rfl
        · rw [h.object w hkind] at before
          cases before }
  | _ => exact both

def WrapperStmt.returns : WrapperStmt ω → Bool
  | .disconnectReturn _ _ => true
  | _ => false

/-- The code that runs before the innermost `pwg_core_disconnect` returns. -/
def beforeReturn (code : List (WrapperStmt ω)) : List (WrapperStmt ω) :=
  code.takeWhile fun i => !i.returns

/-- The wrappers whose handlers of `notify::connected` are still to run. -/
def Wrappers.due (s : Wrappers ω) : List ω := s.emission.getD []

/-- Connecting and disconnecting stay apart: the core connects only when every wrapper has
forgotten its proxies and is not running, or is about to end running before the disconnect
returns; a disconnect that emits nothing finds no wrapper running. -/
def WrapperStmt.keepsApart (S : WrapperSet ω) (result : PipewireResult) (s : Wrappers ω)
    (code : List (WrapperStmt ω)) : WrapperStmt ω → Prop
  | .connect => result = .succeeded → s.connected = false → ∀ w ∈ S.order,
      s.registry w = none ∧ s.object w = none ∧
        ((s.wrapper w).running = true → .clearRunning w ∈ beforeReturn code)
  | .disconnect => s.connected = false ∨ s.emission ≠ none → ∀ w ∈ S.order,
      (s.wrapper w).running = false
  | _ => True

instance (s : Wrappers ω) (code : List (WrapperStmt ω)) :
    DecidablePred (WrapperStmt.keepsApart S result s code)
  | .connect => inferInstanceAs (Decidable (_ → _ → ∀ w ∈ S.order, _ ∧ _ ∧ (_ → _)))
  | .disconnect => inferInstanceAs (Decidable (_ ∨ _ → ∀ w ∈ S.order, _))
  | .handlers | .disconnectReturn _ _ | .emitConnected | .start _ _ | .startProxies _ _
  | .sync _ | .coreSync _ | .coreSyncWait _ | .metadataSyncAgain _ _ | .stop _
  | .metadataStopRegistry _ | .clearBound _ | .clearRunning _ | .dispatchEvent _ _ _
  | .callMethod _ | .enumParams _ | .enumParamsCall _ => .isTrue trivial

def ConnectionsApart (S : WrapperSet ω) : WrapperRule ω := fun c label =>
  match label with
  | .run result => ∀ i ∈ c.code.head?,
      i.reachesLive S.kind c.state.proxies ∧ i.keepsApart S result c.state c.code
  | _ => True

instance (c : Config (Wrappers ω) (WrapperStmt ω)) : DecidablePred (ConnectionsApart S c)
  | .run result => inferInstanceAs (Decidable (∀ i ∈ c.code.head?,
      WrapperStmt.reachesLive S.kind c.state.proxies i ∧
        WrapperStmt.keepsApart S result c.state c.code i))
  | .call _ | .environment _ => .isTrue trivial

structure ConnectionInv (S : WrapperSet ω) (s : Wrappers ω) (code : List (WrapperStmt ω)) :
    Prop where
  proxies : ProxiesLive S.kind s.due s.proxies
  running : ∀ w, (s.wrapper w).running = true →
    s.proxies.up = true ∧ (s.wrapper w).startedOn = s.proxies.epoch ∨
      s.proxies.up = false ∧ w ∈ s.due ∨ .clearRunning w ∈ beforeReturn code
  emitting : code.count .emitConnected = if s.emission.isSome then 1 else 0
  returns : ∀ dead wereRunning rest, .disconnectReturn dead wereRunning :: rest <:+ code →
    dead ≤ s.proxies.epoch ∧ (s.proxies.up = true → dead < s.proxies.epoch) ∧
      (wereRunning = [] ∨ .emitConnected ∉ rest)

omit [DecidableEq ω] in
theorem beforeReturn_append (new : ∀ j ∈ code, j.returns = false) :
    beforeReturn (code ++ rest) = code ++ beforeReturn rest :=
  List.takeWhile_append_of_pos (by simpa using new)

omit [DecidableEq ω] in
theorem beforeReturn_cons (hi : i.returns = false) :
    beforeReturn (i :: rest) = i :: beforeReturn rest := by
  simp [beforeReturn, hi]

omit [DecidableEq ω] in
/-- Statements that do not return come before every return there is. -/
theorem suffix_of_append {dead : Nat} {wereRunning : List ω}
    (new : ∀ j ∈ code, j.returns = false)
    (h : .disconnectReturn dead wereRunning :: code' <:+ code ++ rest) :
    .disconnectReturn dead wereRunning :: code' <:+ rest := by
  induction code with
  | nil => exact h
  | cons j code ih =>
    rcases List.suffix_cons_iff.mp h with he | h
    · obtain ⟨rfl, -⟩ := List.cons.inj he
      exact absurd (new _ List.mem_cons_self) (by simp [WrapperStmt.returns])
    · exact ih (fun j hj => new j (List.mem_cons_of_mem _ hj)) h

/-- No epoch begins or ends, and statements that clear a flag stay in place. -/
theorem ConnectionInv.of_same (h : ConnectionInv S s code)
    (proxies : ProxiesLive S.kind s.due t.proxies) (up : t.proxies.up = s.proxies.up)
    (epoch : t.proxies.epoch = s.proxies.epoch) (emission : t.emission = s.emission)
    (running : ∀ w, (t.wrapper w).running = true →
      t.proxies.up = true ∧ (t.wrapper w).startedOn = t.proxies.epoch ∨
        (s.wrapper w).running = true ∧ (t.wrapper w).startedOn = (s.wrapper w).startedOn ∧
          (.clearRunning w ∈ beforeReturn code → .clearRunning w ∈ beforeReturn code'))
    (count : code'.count .emitConnected = code.count .emitConnected)
    (returns : ∀ dead wereRunning rest, .disconnectReturn dead wereRunning :: rest <:+ code' →
      .disconnectReturn dead wereRunning :: rest <:+ code) : ConnectionInv S t code' where
  proxies := by
    unfold Wrappers.due
    rw [emission]
    exact proxies
  running w hw := by
    rcases running w hw with started | ⟨before, startedOn, clears⟩
    · exact .inl started
    · rw [startedOn, up, epoch]
      have due : t.due = s.due := by simp [Wrappers.due, emission]
      rw [due]
      exact (h.running w before).imp_right (Or.imp_right clears)
  emitting := by rw [count, emission, h.emitting]
  returns dead wereRunning rest hr := by
    rw [up, epoch]
    exact h.returns dead wereRunning rest (returns dead wereRunning rest hr)

/-- What follows a statement other than the ones that disconnect or emit. -/
theorem ConnectionInv.of_new (h : ConnectionInv S s (i :: rest))
    (hi : i.returns = false ∧ i ≠ .emitConnected)
    (new : ∀ j ∈ code, j.returns = false ∧ j ≠ .emitConnected)
    (proxies : ProxiesLive S.kind s.due t.proxies) (up : t.proxies.up = s.proxies.up)
    (epoch : t.proxies.epoch = s.proxies.epoch) (emission : t.emission = s.emission)
    (running : ∀ w, (t.wrapper w).running = true →
      t.proxies.up = true ∧ (t.wrapper w).startedOn = t.proxies.epoch ∨
        (s.wrapper w).running = true ∧ (t.wrapper w).startedOn = (s.wrapper w).startedOn ∧
          i ≠ .clearRunning w) : ConnectionInv S t (code ++ rest) := by
  refine h.of_same proxies up epoch emission ?_ ?_ ?_
  · intro w hw
    rcases running w hw with hp | ⟨before, startedOn, hne⟩
    · exact .inl hp
    refine .inr ⟨before, startedOn, fun hc => ?_⟩
    rw [beforeReturn_cons hi.1] at hc
    rw [beforeReturn_append fun j hj => (new j hj).1]
    exact List.mem_append_right _ ((List.mem_cons.mp hc).resolve_left (Ne.symm hne))
  · have none_new : code.count .emitConnected = 0 :=
      List.count_eq_zero.mpr fun hm => (new _ hm).2 rfl
    rw [List.count_append, none_new, List.count_cons_of_ne hi.2, Nat.zero_add]
  · intro dead wereRunning rest' hr
    exact (suffix_of_append (fun j hj => (new j hj).1) hr).trans (List.suffix_cons i rest)

omit [DecidableEq ω] in
theorem follows_quiet {i j : WrapperStmt ω} (hj : j.follows kind i)
    (hi : i ≠ .connect ∧ i ≠ .disconnect ∧ i ≠ .emitConnected) :
    j.returns = false ∧ j ≠ .emitConnected := by
  cases j with
  | disconnectReturn => exact absurd hj hi.2.1
  | emitConnected => exact absurd hj (by simp [hi, WrapperStmt.follows])
  | _ => exact ⟨rfl, by simp⟩

theorem ConnectionInv.connect (h : ConnectionInv S s (.connect :: rest))
    (apart : WrapperStmt.connect.keepsApart S result s (.connect :: rest)) :
    ConnectionInv S (coreConnect S.order result s).1
      ((coreConnect S.order result s).2 ++ rest) := by
  have unchanged : ConnectionInv S s ([] ++ rest) :=
    h.of_new ⟨rfl, by simp⟩ (by simp) h.proxies rfl rfl rfl fun w hw => .inr ⟨hw, rfl, by simp⟩
  unfold coreConnect
  split
  next => exact unchanged
  next down =>
    cases result with
    | succeeded =>
      have forgotten := apart rfl (Bool.eq_false_iff.mpr down)
      have empty (k : ω × ProxyField) : s.proxies.handle k = none := by
        obtain ⟨registry, object, -⟩ := forgotten k.1 (S.complete k.1)
        obtain ⟨w, field⟩ := k
        cases field
        · exact registry
        · exact object
      have emits : (notifyConnected S.order (s.onProxies .openEpoch)).2 =
          if s.emission.isSome then [] else [.handlers, .emitConnected] := rfl
      simp only [emits]
      exact {
        proxies := h.proxies.openEpoch empty
        running := fun w hw => by
          have clears := (forgotten w (S.complete w)).2.2 hw
          rw [beforeReturn_cons rfl] at clears
          have clears : .clearRunning w ∈ beforeReturn rest :=
            (List.mem_cons.mp clears).resolve_left (by simp)
          right; right
          split
          · exact clears
          · rw [beforeReturn_append (by simp [WrapperStmt.returns])]
            exact List.mem_append_right _ clears
        emitting := by
          have count := h.emitting
          rw [List.count_cons_of_ne (by simp)] at count
          split
          next he => simpa [he, notifyConnected] using count
          next he => simpa [he, notifyConnected] using count
        returns := fun dead wereRunning rest' hr => by
          have hr : .disconnectReturn dead wereRunning :: rest' <:+ rest := by
            split at hr
            · exact hr
            · exact suffix_of_append (by simp [WrapperStmt.returns]) hr
          obtain ⟨older, -, outer⟩ := h.returns dead wereRunning rest'
            (hr.trans (List.suffix_cons _ rest))
          exact ⟨Nat.le_succ_of_le older, fun _ => Nat.lt_succ_of_le older, outer⟩ }
    | _ => exact unchanged

/-- Once the core is disconnected, every wrapper that still runs has its handler ahead of it. -/
theorem ConnectionInv.disconnected {wereRunning : List ω}
    (h : ConnectionInv S s (.disconnect :: rest)) (code : List (WrapperStmt ω))
    (proxies : ProxiesLive S.kind t.due t.proxies) (down : t.proxies.up = false)
    (epoch : t.proxies.epoch = s.proxies.epoch)
    (running : ∀ w, (t.wrapper w).running = true → w ∈ t.due)
    (new : ∀ j ∈ code, j.returns = false)
    (emitting : (code ++ rest).count .emitConnected = if t.emission.isSome then 1 else 0)
    (outer : wereRunning = [] ∨ .emitConnected ∉ rest) :
    ConnectionInv S t (code ++ .disconnectReturn s.proxies.epoch wereRunning :: rest) where
  proxies := proxies
  running w hw := .inr (.inl ⟨down, running w hw⟩)
  emitting := by
    rw [← emitting, List.count_append, List.count_append, List.count_cons_of_ne (by simp)]
  returns dead wereRunning' rest' hr := by
    have hup : t.proxies.up = true → dead < t.proxies.epoch := by simp [down]
    rcases List.suffix_cons_iff.mp (suffix_of_append new hr) with he | hr
    · cases he
      exact ⟨Nat.le_of_eq epoch.symm, hup, outer⟩
    · obtain ⟨older, -, outer'⟩ := h.returns dead wereRunning' rest'
        (hr.trans (List.suffix_cons _ rest))
      rw [epoch]
      exact ⟨older, epoch ▸ hup, outer'⟩

/-- A disconnect leaves its return to run, below the emission if it has begun one. -/
theorem ConnectionInv.disconnect (h : ConnectionInv S s (.disconnect :: rest))
    (apart : WrapperStmt.disconnect.keepsApart S result s (.disconnect :: rest)) :
    ConnectionInv S (coreDisconnect S.order s).1 ((coreDisconnect S.order s).2 ++ rest) := by
  have count : rest.count .emitConnected = if s.emission.isSome then 1 else 0 := by
    rw [← h.emitting, List.count_cons_of_ne (by simp)]
  have idle (he : s.connected = false ∨ s.emission ≠ none) (w : ω) :
      (s.wrapper w).running = false := apart he w (S.complete w)
  have noneRunning (he : s.connected = false ∨ s.emission ≠ none) :
      (S.order.filter fun w => (s.wrapper w).running) = [] := by
    rw [List.filter_eq_nil_iff]
    intro w _
    simp [idle he w]
  cases up : s.connected with
  | false =>
    have unchanged : coreDisconnect S.order s = (s, [.disconnectReturn s.proxies.epoch []]) := by
      simp [coreDisconnect, up, noneRunning (.inl up)]
    rw [unchanged]
    have stopped (w : ω) (hw : (s.wrapper w).running = true) : w ∈ s.due := by
      rw [idle (.inl up) w] at hw
      cases hw
    exact h.disconnected [] h.proxies up rfl stopped (by simp) count (.inl rfl)
  | true =>
    let t : Wrappers ω := { s.onProxies .closeEpoch with emission := some S.order }
    have closed : ProxiesLive S.kind t.due t.proxies := h.proxies.closeEpoch S.complete
    have due (w : ω) (_ : (t.wrapper w).running = true) : w ∈ t.due := S.complete w
    cases he : s.emission with
    | some l =>
      have nested : coreDisconnect S.order s = (t, [.disconnectReturn s.proxies.epoch []]) := by
        simp [coreDisconnect, up, notifyConnected, he, noneRunning (.inr (by simp [he])), t]
      rw [nested]
      rw [he] at count
      exact h.disconnected [] closed rfl rfl due (by simp) count (.inl rfl)
    | none =>
      rw [he] at count
      have none_rest : .emitConnected ∉ rest := List.count_eq_zero.mp count
      have outer : coreDisconnect S.order s =
          (t, [.handlers, .emitConnected] ++ [.disconnectReturn s.proxies.epoch
            (S.order.filter fun w => (s.wrapper w).running)]) := by
        simp [coreDisconnect, up, notifyConnected, he, t]
      have emitting : (.handlers :: .emitConnected :: rest).count .emitConnected = 1 := by
        have none_count : rest.count .emitConnected = 0 := count
        simp [none_count]
      rw [outer, List.append_assoc]
      exact h.disconnected [.handlers, .emitConnected] closed rfl rfl due
        (by simp [WrapperStmt.returns]) emitting (.inr none_rest)

/-- Once a disconnect returns, what was about to end running has done so. -/
theorem ConnectionInv.disconnectReturn {dead : Nat} {wereRunning : List ω}
    (h : ConnectionInv S s (.disconnectReturn dead wereRunning :: rest)) :
    ConnectionInv S s rest where
  proxies := h.proxies
  running w hw := by
    have hr := h.running w hw
    simp only [beforeReturn, WrapperStmt.returns, List.takeWhile_cons, Bool.not_true,
      Bool.false_eq_true, if_false, List.not_mem_nil, or_false] at hr
    exact hr.imp_right .inl
  emitting := by
    rw [← h.emitting]
    exact (List.count_cons_of_ne (by simp)).symm
  returns dead' wereRunning' rest' hr :=
    h.returns dead' wereRunning' rest' (hr.trans (List.suffix_cons _ rest))

theorem reset_clears (of : WrapperKind) (w : ω) (s : Wrappers ω) :
    .clearRunning w ∈ (reset of w s).2 := by
  cases of <;> simp [reset, registryReset, metadataReset, nodeReset, deviceReset, linkReset,
    objectReset]

/-- What an emission knows of the code below it. -/
theorem ConnectionInv.below (h : ConnectionInv S s (.emitConnected :: rest)) :
    rest.count .emitConnected = 0 ∧
    (∀ w, (s.wrapper w).running = true →
      s.proxies.up = true ∧ (s.wrapper w).startedOn = s.proxies.epoch ∨
        s.proxies.up = false ∧ w ∈ s.due ∨ .clearRunning w ∈ beforeReturn rest) ∧
    ∀ dead wereRunning rest', .disconnectReturn dead wereRunning :: rest' <:+ rest →
      dead ≤ s.proxies.epoch ∧ (s.proxies.up = true → dead < s.proxies.epoch) ∧
        (wereRunning = [] ∨ .emitConnected ∉ rest') := by
  refine ⟨?_, ?_, ?_⟩
  · have hc := h.emitting
    rw [List.count_cons_self] at hc
    split at hc <;> omega
  · intro w hw
    have hr := h.running w hw
    rw [beforeReturn_cons rfl] at hr
    exact hr.imp_right (Or.imp_right fun hc => (List.mem_cons.mp hc).resolve_left (by simp))
  · intro dead wereRunning rest' hr
    exact h.returns dead wereRunning rest' (hr.trans (List.suffix_cons _ rest))

/-- A wrapper has handled the notification, and the emission goes on. -/
theorem ConnectionInv.emitNext (h : ConnectionInv S s (.emitConnected :: rest))
    (quiet : ∀ j ∈ code, j.returns = false ∧ j ≠ .emitConnected)
    (proxies : ProxiesLive S.kind t.due t.proxies) (up : t.proxies.up = s.proxies.up)
    (epoch : t.proxies.epoch = s.proxies.epoch) (emission : t.emission.isSome = true)
    (running : ∀ v, (t.wrapper v).running = true →
      (s.wrapper v).running = true ∧ (t.wrapper v).startedOn = (s.wrapper v).startedOn)
    (handled : s.proxies.up = false → ∀ v ∈ s.due, v ∈ t.due ∨ .clearRunning v ∈ code) :
    ConnectionInv S t (code ++ [.handlers, .emitConnected] ++ rest) := by
  obtain ⟨count, before, returns⟩ := h.below
  have new : ∀ j ∈ code ++ [.handlers, .emitConnected], j.returns = false := by
    intro j hj
    rcases List.mem_append.mp hj with hj | hj
    · exact (quiet j hj).1
    · simp only [List.mem_cons, List.not_mem_nil, or_false] at hj
      rcases hj with rfl | rfl <;> rfl
  refine ⟨proxies, fun v hv => ?_, ?_, fun dead wereRunning rest' hr => ?_⟩
  · obtain ⟨hv, startedOn⟩ := running v hv
    rw [startedOn, up, epoch, beforeReturn_append new]
    rcases before v hv with started | ⟨down, due⟩ | clears
    · exact .inl started
    · rcases handled down v due with due | clears
      · exact .inr (.inl ⟨down, due⟩)
      · exact .inr (.inr (List.mem_append_left _ (List.mem_append_left _ clears)))
    · exact .inr (.inr (List.mem_append_right _ clears))
  · have none_new : code.count .emitConnected = 0 :=
      List.count_eq_zero.mpr fun hm => (quiet _ hm).2 rfl
    rw [if_pos emission, List.append_assoc, List.count_append, none_new]
    simp [count]
  · rw [up, epoch]
    exact returns dead wereRunning rest' (suffix_of_append new hr)

theorem ConnectionInv.emitConnected (h : ConnectionInv S s (.emitConnected :: rest)) :
    ConnectionInv S (emitConnected S.kind s).1 ((emitConnected S.kind s).2 ++ rest) := by
  obtain ⟨count, running, returns⟩ := h.below
  have proxies := h.proxies
  unfold PipewireGobject.emitConnected
  split
  next he => exact ⟨proxies, running, by simp [he, count], returns⟩
  next he =>
    have due : s.due = [] := by simp [Wrappers.due, he]
    rw [due] at proxies running
    exact ⟨proxies, running, by simp [count], returns⟩
  next w l he =>
    have due : s.due = w :: l := by simp [Wrappers.due, he]
    rw [due] at proxies
    let u : Wrappers ω := { s with emission := some l }
    unfold onCoreConnectedNotify
    split
    next up =>
      refine h.emitNext (t := u) (by simp) (proxies.while_up up) rfl rfl rfl
        (fun v hv => ⟨hv, rfl⟩) fun down => ?_
      rw [show s.proxies.up = true from up] at down
      cases down
    next hc =>
      have down : s.connected = false := Bool.eq_false_iff.mpr hc
      have same : SameRunning u (reset (S.kind w) w u).1 := reset_sameRunning (S.kind w) w u
      have live : ProxiesLive S.kind l (reset (S.kind w) w u).1.proxies :=
        reset_live (s := u) proxies down
      have effect : ProxyEffect S.kind u.proxies .handlers (reset (S.kind w) w u).1.proxies :=
        reset_effect .handlers (S.kind w) down
      obtain ⟨up, epoch⟩ := effect.epoch (by simp)
      have due' : (reset (S.kind w) w u).1.due = l := by
        unfold Wrappers.due
        rw [same.emission]
        rfl
      refine h.emitNext (fun j hj => follows_quiet (reset_follows S.kind .handlers j hj) (by simp))
        (due'.symm ▸ live) up epoch (by rw [same.emission]; rfl) (fun v hv => ?_) fun _ v hv => ?_
      · rw [same.running] at hv
        exact ⟨hv, same.startedOn v⟩
      · rw [due] at hv
        rw [due']
        rcases List.mem_cons.mp hv with rfl | hv
        · exact .inr (reset_clears (S.kind v) v u)
        · exact .inl hv

theorem ConnectionInv.startProxies {sync : Bool}
    (h : ConnectionInv S s (.startProxies w sync :: rest)) :
    ConnectionInv S (wrapperExec S result (.startProxies w sync) s).1
      ((wrapperExec S result (.startProxies w sync) s).2 ++ rest) := by
  have quiet : ∀ j ∈ (wrapperExec S result (.startProxies w sync) s).2,
      j.returns = false ∧ j ≠ .emitConnected := fun j hj =>
    follows_quiet (wrapperExec_follows _ j hj) (by simp)
  have effect := wrapperExec_effect S result s (.startProxies w sync) (by simp)
  obtain ⟨up, epoch⟩ := effect.epoch (by simp)
  have live := h.proxies.effect effect (by simp) trivial
  have started (v : ω) : (wrapperExec S result (.startProxies w sync) s).1.emission = s.emission ∧
      ((wrapperExec S result (.startProxies w sync) s).1.wrapper v = s.wrapper v ∨
        s.proxies.up = true ∧ ((wrapperExec S result (.startProxies w sync) s).1.wrapper
          v).startedOn = s.proxies.epoch) := by
    simp only [wrapperExec]
    split
    next => exact ⟨rfl, .inl rfl⟩
    next hc =>
      have hup : s.proxies.up = true := Bool.not_eq_false _ ▸ hc
      have started := startProxies_started (S.kind w) result w v s
      exact started.imp_right (Or.imp_right fun hv => ⟨hup, hv⟩)
  refine h.of_new ⟨rfl, by simp⟩ quiet live up epoch (started w).1 fun v hv => ?_
  rw [up, epoch]
  rcases (started v).2 with same | now
  · rw [same] at hv ⊢
    exact .inr ⟨hv, rfl, by simp⟩
  · exact .inl now

theorem ConnectionInv.clearRunning (h : ConnectionInv S s (.clearRunning w :: rest)) :
    ConnectionInv S (wrapperExec S result (.clearRunning w) s).1
      ((wrapperExec S result (.clearRunning w) s).2 ++ rest) := by
  simp only [wrapperExec]
  split
  next =>
    refine h.of_new ⟨rfl, by simp⟩ (by simp [WrapperStmt.returns]) h.proxies rfl rfl rfl
      fun v hv => ?_
    by_cases hvw : v = w
    · subst hvw
      simp [Wrappers.modify] at hv
    · right
      simp only [Wrappers.modify, Function.update_of_ne hvw] at hv ⊢
      exact ⟨hv, trivial, by simpa using Ne.symm hvw⟩
  next hn =>
    refine h.of_new ⟨rfl, by simp⟩ (by simp) h.proxies rfl rfl rfl fun v hv => ?_
    refine .inr ⟨hv, rfl, ?_⟩
    rintro he
    cases he
    exact hn hv

theorem ConnectionInv.run (h : ConnectionInv S s (i :: rest))
    (stops : StopsMetadata S.kind (i :: rest)) (reaches : i.reachesLive S.kind s.proxies)
    (apart : i.keepsApart S result s (i :: rest)) :
    ConnectionInv S (wrapperExec S result i s).1 ((wrapperExec S result i s).2 ++ rest) := by
  by_cases hi : i.changesRunning = true ∨ i.returns = true
  · cases i with
    | connect => exact h.connect apart
    | disconnect => exact h.disconnect apart
    | disconnectReturn => exact h.disconnectReturn
    | emitConnected => exact h.emitConnected
    | startProxies => exact h.startProxies
    | clearRunning => exact h.clearRunning
    | _ => simp [WrapperStmt.changesRunning, WrapperStmt.returns] at hi
  obtain ⟨changes, returns⟩ := not_or.mp hi
  have other : i ≠ .connect ∧ i ≠ .disconnect ∧ i ≠ .emitConnected := by
    refine ⟨?_, ?_, ?_⟩ <;> rintro rfl <;> simp [WrapperStmt.changesRunning] at changes
  have same : SameRunning s (wrapperExec S result i s).1 :=
    wrapperExec_sameRunning i (by simpa using changes)
  have effect := wrapperExec_effect S result s i
    fun w he => stops w (he ▸ List.mem_cons_self)
  obtain ⟨up, epoch⟩ := effect.epoch ⟨other.1, other.2.1⟩
  refine h.of_new ⟨by simpa using returns, other.2.2⟩
    (fun j hj => follows_quiet (wrapperExec_follows i j hj) other)
    (h.proxies.effect effect ⟨other.1, other.2.1⟩ reaches) up epoch same.emission fun w hw => ?_
  refine .inr ⟨same.running w ▸ hw, same.startedOn w, ?_⟩
  rintro rfl
  simp [WrapperStmt.changesRunning] at changes

theorem connection_preserves : (wrapperComponent S).Preserves (ConnectionsApart S) fun s code =>
    StopsMetadata S.kind code ∧ ConnectionInv S s code := by
  refine stopsMetadata_preserves.under {
    call := ?_
    run := ?_
    environment := fun event => event.elim }
  · intro operation s code r h _ _ hr
    obtain ⟨i, rfl, hi⟩ := wrapperCall_eq S.kind hr
    obtain ⟨returns, emits⟩ := follows_quiet hi (by simp)
    refine h.of_same h.proxies rfl rfl rfl (fun w hw => .inr ⟨hw, rfl, fun hc => ?_⟩) ?_ ?_
    · rw [List.singleton_append, beforeReturn_cons returns]
      exact List.mem_cons_of_mem i hc
    · exact List.count_cons_of_ne emits
    · exact fun _ _ _ => suffix_of_append (show ∀ j ∈ [i], j.returns = false by simpa using returns)
  · intro result i s rest h ha
    obtain ⟨reaches, apart⟩ := ha.1 i rfl
    exact h.run ha.2 reaches apart

/-- When `pwg_core_disconnect` returns, no wrapper that was running is still running, nor has
it a handle of the connection that died. -/
def DisconnectsClean (c : Config (Wrappers ω) (WrapperStmt ω)) : Prop :=
  ∀ dead wereRunning rest, c.code = .disconnectReturn dead wereRunning :: rest →
    ∀ w ∈ wereRunning,
      ((c.state.wrapper w).running = true → dead < (c.state.wrapper w).startedOn) ∧
      ∀ field r, c.state.proxies.handle (w, field) = some r → dead < r.epoch

theorem ConnectionInv.disconnectsClean (h : ConnectionInv S c.state c.code) :
    DisconnectsClean c := by
  intro dead wereRunning rest hc w hw
  rw [hc] at h
  obtain ⟨-, newer, outer⟩ := h.returns dead wereRunning rest List.suffix_rfl
  have none_rest : .emitConnected ∉ rest :=
    outer.resolve_left (List.ne_nil_of_mem hw)
  have due : c.state.due = [] := by
    have count := h.emitting
    rw [List.count_cons_of_ne (by simp), List.count_eq_zero.mpr none_rest] at count
    cases he : c.state.emission with
    | none => simp [Wrappers.due, he]
    | some l => simp [he] at count
  refine ⟨fun running => ?_, fun field r hr => ?_⟩
  · rcases h.running w running with ⟨up, startedOn⟩ | ⟨-, hm⟩ | clears
    · rw [startedOn]
      exact newer up
    · simp [due] at hm
    · simp [beforeReturn, WrapperStmt.returns] at clears
  · cases up : c.state.proxies.up with
    | true =>
      rw [h.proxies.current up _ r hr]
      exact newer up
    | false =>
      have hm := h.proxies.forgets up _ r hr
      simp [due] at hm

theorem connectionInv_init :
    ConnectionInv S (wrapperInit : Config (Wrappers ω) (WrapperStmt ω)).state wrapperInit.code where
  proxies := {
    owned := proxiesOwned_init (S := S).owned
    used := by simp [wrapperInit, Slots.UsedAlive]
    current := by simp [wrapperInit]
    forgets := by simp [wrapperInit]
    object := by simp [wrapperInit] }
  running := by simp [wrapperInit]
  emitting := by simp [wrapperInit]
  returns := by simp [wrapperInit]

theorem wrapperProxies_live
    (h : Reach (wrapperComponent S).step (ConnectionsApart S) wrapperInit c) :
    DisconnectsClean c ∧ c.state.proxies.UsedAlive := by
  obtain ⟨-, inv⟩ := connection_preserves.reach h
    ⟨by simp [wrapperInit, StopsMetadata], connectionInv_init⟩
  exact ⟨inv.disconnectsClean, inv.proxies.used⟩

/-- A registry and a node run, and the core disconnects. -/
def disconnecting (n : Nat) : List (Label (WrapperCall WrapperKind) PipewireResult Empty) :=
  .call (.start .registry) :: List.replicate 16 (.run .succeeded) ++
    .call (.start .node) :: List.replicate 4 (.run .succeeded) ++
    .call .disconnect :: List.replicate n (.run .succeeded)

/-- When all wrappers have been told, a handler connects again and starts the registry. -/
def restartedByHandler : Config (Wrappers WrapperKind) (WrapperStmt WrapperKind) :=
  final (wrapperComponent oneOfEach).step wrapperInit
    (disconnecting 27 ++ .call .connect :: .run .succeeded :: .call (.start .registry) ::
      List.replicate 15 (.run .succeeded))

/-- A handler that runs before those of the wrappers connects again. -/
def reconnectedFirst : Config (Wrappers WrapperKind) (WrapperStmt WrapperKind) :=
  final (wrapperComponent oneOfEach).step wrapperInit
    (disconnecting 1 ++ .call .connect :: List.replicate 13 (.run .succeeded))

/-- Then the registry is stopped. -/
def stoppedAfterwards : Config (Wrappers WrapperKind) (WrapperStmt WrapperKind) :=
  final (wrapperComponent oneOfEach).step reconnectedFirst
    [.run .succeeded, .call (.stop .registry), .run .succeeded]

/-- A handler that runs before the one of the node stops it. -/
def stoppedMeanwhile : Config (Wrappers WrapperKind) (WrapperStmt WrapperKind) :=
  final (wrapperComponent oneOfEach).step wrapperInit
    (disconnecting 1 ++ [.call (.stop .node), .run .succeeded])

theorem wrapperProxies_live_restartedByHandler :
    restartedByHandler.code = [.disconnectReturn 1 [.registry, .node]] ∧
      restartedByHandler.state.proxies.up = true ∧
      DisconnectsClean restartedByHandler ∧ restartedByHandler.state.proxies.UsedAlive :=
  ⟨by decide +kernel, by decide +kernel,
    wrapperProxies_live (c := restartedByHandler) (reach_final (by decide +kernel))⟩

theorem wrapperProxies_live_fails :
    (Reach (wrapperComponent oneOfEach).step anyStep wrapperInit reconnectedFirst ∧
      ¬ DisconnectsClean reconnectedFirst) ∧
    (Reach (wrapperComponent oneOfEach).step anyStep wrapperInit stoppedAfterwards ∧
      ¬ stoppedAfterwards.state.proxies.UsedAlive) ∧
    Reach (wrapperComponent oneOfEach).step anyStep wrapperInit stoppedMeanwhile ∧
      ¬ stoppedMeanwhile.state.proxies.UsedAlive := by
  have reconnected : Reach (wrapperComponent oneOfEach).step anyStep wrapperInit
      reconnectedFirst := reach_final (allAllowed_anyStep _ _)
  refine ⟨⟨reconnected, fun h => ?_⟩,
    ⟨reconnected.trans (reach_final (allAllowed_anyStep _ _)), fun h => ?_⟩,
    reach_final (allAllowed_anyStep _ _), fun h => ?_⟩
  · -- the registry still runs on the connection that has died
    have clean := (h 1 [.registry, .node] [] (by decide +kernel) .registry (by decide)).1
      (by decide +kernel)
    revert clean
    decide +kernel
  · exact absurd (h (some ⟨0, 1, (.registry, .registry)⟩) false (by decide +kernel)) (by decide)
  · exact absurd (h (some ⟨2, 1, (.node, .object)⟩) false (by decide +kernel)) (by decide)

end PipewireGobject
