import PipewireGobject.WrapperEffect

namespace PipewireGobject

variable {ω : Type} [DecidableEq ω] {S : WrapperSet ω} {result : PipewireResult}
variable {p q : Slots (ω × ProxyField)} {s : Wrappers ω} {w : ω}
variable {c : Config (Wrappers ω) (WrapperStmt ω)} {code rest : List (WrapperStmt ω)}

/-- The wrapper that goes on to `pw_core_get_registry`. -/
def WrapperStmt.starting : WrapperStmt ω → Option ω
  | .startProxies w _ => some w
  | _ => none

/-- A start goes on to `pw_core_get_registry` only while its registry handle refers to no
live proxy. -/
def StartsVacant : WrapperRule ω := fun c label =>
  label.isRun = true → c.state.connected = true →
    ∀ w ∈ c.code.head?.bind WrapperStmt.starting, c.state.proxies.Vacant (w, .registry)

instance (c : Config (Wrappers ω) (WrapperStmt ω))
    (label : Label (WrapperCall ω) PipewireResult Empty) : Decidable (StartsVacant c label) :=
  inferInstanceAs (Decidable (_ → _ → _))

/-- An object is bound through a registry that lives as long as it does. -/
structure ProxiesOwned (kind : ω → WrapperKind) (p : Slots (ω × ProxyField)) : Prop where
  owned : p.Owned
  covered : p.Covered
  hooks : p.HooksKept
  object : ∀ w, (kind w).bindsObject = true → p.Vacant (w, .registry) → p.Vacant (w, .object)

variable {kind : ω → WrapperKind} {k : ω × ProxyField}

theorem ProxiesOwned.openEpoch (h : ProxiesOwned kind p) : ProxiesOwned kind p.openEpoch where
  owned := h.owned.openEpoch
  covered := .openEpoch h.owned
  hooks := h.hooks
  object _ _ _ := Slots.vacant_openEpoch h.owned

theorem ProxiesOwned.closeEpoch (h : ProxiesOwned kind p) : ProxiesOwned kind p.closeEpoch where
  owned := h.owned.closeEpoch
  covered := .closeEpoch
  hooks := h.hooks
  object _ _ _ := Slots.vacant_of_down rfl

theorem Slots.Vacant.forget_iff {j : ω × ProxyField} (vacant : p.Vacant k) :
    (p.forget k).Vacant j ↔ p.Vacant j := by
  by_cases hj : j = k
  · subst hj
    exact iff_of_true Slots.vacant_forget vacant
  · exact Slots.vacant_forget_iff hj

theorem ProxiesOwned.forget (h : ProxiesOwned kind p) (vacant : p.Vacant k) :
    ProxiesOwned kind (p.forget k) where
  owned := h.owned.forget
  covered := h.covered.forget vacant
  hooks := h.hooks
  object w hw hr := vacant.forget_iff.mpr (h.object w hw (vacant.forget_iff.mp hr))

theorem ProxiesOwned.lose (h : ProxiesOwned kind p) (vacant : p.Vacant k) :
    ProxiesOwned kind (p.lose k) where
  owned := h.owned.lose
  covered := h.covered.lose vacant
  hooks := h.hooks
  object w hw hr := vacant.forget_iff.mpr (h.object w hw (vacant.forget_iff.mp hr))

theorem ProxiesOwned.use (h : ProxiesOwned kind p) : ProxiesOwned kind (p.use k) where
  owned := h.owned.use
  covered := h.covered.use
  hooks := h.hooks.use
  object w hw hr := Slots.vacant_use_iff.mpr (h.object w hw (Slots.vacant_use_iff.mp hr))

/-- A registry goes last. -/
theorem ProxiesOwned.destroy (h : ProxiesOwned kind p)
    (last : k.2 = .registry → (kind k.1).bindsObject = true → p.Vacant (k.1, .object)) :
    ProxiesOwned kind (p.destroy k) where
  owned := h.owned.destroy
  covered := h.covered.destroy
  hooks := h.hooks.destroy
  object w hw hr := by
    by_cases ho : k = (w, .object)
    · exact ho ▸ Slots.vacant_destroy
    rw [Slots.vacant_destroy_iff h.owned (Ne.symm ho)]
    by_cases hk : k = (w, .registry)
    · subst hk
      exact last rfl hw
    · exact h.object w hw ((Slots.vacant_destroy_iff h.owned (Ne.symm hk)).mp hr)

/-- What is overwritten is not alive, and an object is bound through a live registry. -/
theorem ProxiesOwned.bind (registered : Bool) (h : ProxiesOwned kind p) (up : p.up = true)
    (vacant : p.Vacant k)
    (through : k.2 = .object → (kind k.1).bindsObject = true → ¬ p.Vacant (k.1, .registry)) :
    ProxiesOwned kind (p.bind k registered) where
  owned := h.owned.bind
  covered := h.covered.bind vacant
  hooks := h.hooks.bind (h.covered.hook_dead h.owned vacant)
  object w hw hr := by
    by_cases hk : k = (w, .registry)
    · exact absurd (hk ▸ hr) (Slots.not_vacant_bind h.owned up)
    rw [Slots.vacant_bind_iff (Ne.symm hk)] at hr
    by_cases ho : k = (w, .object)
    · subst ho
      exact absurd hr (through rfl hw)
    · exact (Slots.vacant_bind_iff (Ne.symm ho)).mpr (h.object w hw hr)

theorem ProxiesOwned.bindAborted (h : ProxiesOwned kind p) (vacant : p.Vacant k) :
    ProxiesOwned kind (p.bindAborted k) where
  owned := h.owned.bindAborted
  covered := h.covered.bindAborted
  hooks := h.hooks.bindAborted (h.covered.hook_dead h.owned vacant)
  object w hw hr := (Slots.vacant_bindAborted_iff h.owned).mpr
    (h.object w hw ((Slots.vacant_bindAborted_iff h.owned).mp hr))

theorem ProxiesOwned.destroyBoth (h : ProxiesOwned kind p) :
    ProxiesOwned kind (destroyBoth w p) := by
  have object : ProxiesOwned kind (p.destroy (w, .object)) := h.destroy (by simp)
  exact object.destroy fun _ _ => Slots.vacant_destroy

/-- The new registry is live, and no object is left of an older one. -/
theorem ProxiesOwned.boundRegistry (h : ProxiesOwned kind p) (up : p.up = true)
    (vacant : p.Vacant (w, .registry)) (binds : (kind w).bindsObject = true) :
    ProxiesOwned kind (boundRegistry w p) ∧ (boundRegistry w p).up = true ∧
      ¬ (boundRegistry w p).Vacant (w, .registry) ∧
      (boundRegistry w p).Vacant (w, .object) := by
  have bound : ProxiesOwned kind (p.bind (w, .registry) true) := h.bind true up vacant (by simp)
  have empty : p.Vacant (w, .object) := h.object w binds vacant
  exact ⟨bound.use, (Slots.bind_fields _ _ _).1.trans up, Slots.not_vacant_bind h.owned up,
    (Slots.vacant_bind_iff (by simp)).mpr empty⟩

theorem ProxiesOwned.effect {i : WrapperStmt ω} (h : ProxiesOwned kind p)
    (effect : ProxyEffect kind p i q)
    (starts : p.up = true → ∀ w ∈ i.starting, p.Vacant (w, .registry)) :
    ProxiesOwned kind q := by
  cases effect with
  | same => exact h
  | opened => exact h.openEpoch
  | closed => exact h.closeEpoch
  | forgotten _ k dead =>
    exact h.forget (dead.elim Slots.vacant_of_down Slots.vacant_of_none)
  | forgottenBoth _ w down =>
    have registry : ProxiesOwned kind (p.forget (w, .registry)) :=
      h.forget (Slots.vacant_of_down down)
    exact registry.forget (Slots.vacant_of_down down)
  | destroyed _ k _ last =>
    refine h.destroy fun hr hb => ?_
    rw [last hr] at hb
    cases hb
  | destroyedBoth w _ => exact h.destroyBoth
  | used => exact h.use
  | usedUnchecked => exact h.use
  | registryLost w sync up => exact h.lose (starts up w rfl)
  | registryBound w sync up => exact h.bind true up (starts up w rfl) (by simp)
  | objectLost w sync up binds =>
    obtain ⟨registry, -, -, vacant⟩ := h.boundRegistry up (starts up w rfl) binds
    exact (registry.lose vacant).destroyBoth
  | objectUnheard w sync up binds =>
    obtain ⟨registry, up', live, vacant⟩ := h.boundRegistry up (starts up w rfl) binds
    exact (registry.bind false up' vacant fun _ _ => live).destroyBoth
  | objectBound w sync up binds =>
    obtain ⟨registry, up', live, vacant⟩ := h.boundRegistry up (starts up w rfl) binds
    exact registry.bind true up' vacant fun _ _ => live
  | metadataUnheard _ w up hkind _ empty =>
    exact h.use.bindAborted (Slots.vacant_of_none empty)
  | metadataBound _ w up hkind _ empty =>
    refine h.use.bind true up (Slots.vacant_of_none empty) fun _ hb => ?_
    simp [hkind, WrapperKind.bindsObject] at hb

/-- The code left to run stops only metadata wrappers in two parts. -/
def StopsMetadata (kind : ω → WrapperKind) (code : List (WrapperStmt ω)) : Prop :=
  ∀ w, .metadataStopRegistry w ∈ code → (kind w).bindsObject = false

theorem stopsMetadata_preserves {allowed : WrapperRule ω} :
    (wrapperComponent S).Preserves allowed fun _ code => StopsMetadata S.kind code where
  call operation s code r h _ _ hr := by
    obtain ⟨i, rfl, hi⟩ := wrapperCall_eq S.kind hr
    intro w hw
    rcases List.mem_append.mp hw with hw | hw
    · cases List.mem_singleton.mp hw
      rw [show S.kind w = .metadata from hi]
      rfl
    · exact h w hw
  run result i s rest h _ := by
    intro w hw
    rcases List.mem_append.mp hw with hw | hw
    · rw [show S.kind w = .metadata from wrapperExec_follows i _ hw]
      rfl
    · exact h w (List.mem_cons_of_mem i hw)
  environment event := event.elim

theorem proxies_preserves : (wrapperComponent S).Preserves StartsVacant fun s code =>
    StopsMetadata S.kind code ∧ ProxiesOwned S.kind s.proxies := by
  refine stopsMetadata_preserves.under {
    call := ?_
    run := ?_
    environment := fun event => event.elim }
  · intro operation s code r h _ _ hr
    obtain ⟨i, rfl, -⟩ := wrapperCall_eq S.kind hr
    exact h
  · intro result i s rest h ha
    have effect := wrapperExec_effect S result s i
      fun w hi => ha.2 w (hi ▸ List.mem_cons_self)
    exact h.effect effect (ha.1 rfl)

theorem proxiesOwned_init : ProxiesOwned S.kind
    (wrapperInit : Config (Wrappers ω) (WrapperStmt ω)).state.proxies := by
  constructor <;> first | constructor | skip
  all_goals simp [wrapperInit, Slots.HooksKept, Slots.Covered, Slots.Vacant]

theorem wrapperStart_owns (h : Reach (wrapperComponent S).step StartsVacant wrapperInit c) :
    (∀ k, c.state.proxies.OneAlive k) ∧ c.state.proxies.Accounted ∧
      c.state.proxies.HooksKept := by
  obtain ⟨-, owned⟩ :=
    proxies_preserves.reach h ⟨by simp [wrapperInit, StopsMetadata], proxiesOwned_init⟩
  exact ⟨owned.covered.oneAlive, owned.covered.accounted owned.owned, owned.hooks⟩

/-- One wrapper of each kind. -/
def oneOfEach : WrapperSet WrapperKind where
  kind := id
  order := [.registry, .metadata, .node, .device, .link]
  complete w := by cases w <;> decide

/-- A registry and a node are started, the node is stopped, and the core disconnects. -/
def startedInTurn : Config (Wrappers WrapperKind) (WrapperStmt WrapperKind) :=
  final (wrapperComponent oneOfEach).step wrapperInit
    (.call (.start .registry) :: List.replicate 16 (.run .succeeded) ++
      .call (.start .node) :: List.replicate 4 (.run .succeeded) ++
      .call (.stop .node) :: List.replicate 6 (.run .succeeded) ++
      .call .disconnect :: List.replicate 28 (.run .succeeded))

/-- A handler of `notify::connected` starts the registry whose start has connected the core. -/
def startedInside : Config (Wrappers WrapperKind) (WrapperStmt WrapperKind) :=
  final (wrapperComponent oneOfEach).step wrapperInit
    (.call (.start .registry) :: List.replicate 2 (.run .succeeded) ++
      .call (.start .registry) :: List.replicate 16 (.run .succeeded))

theorem wrapperStart_owns_startedInTurn :
    startedInTurn.state.proxies.destroyed.map (·.id) = [2, 1] ∧
      startedInTurn.state.proxies.created.length = 3 ∧
      (∀ k, startedInTurn.state.proxies.OneAlive k) ∧ startedInTurn.state.proxies.Accounted ∧
      startedInTurn.state.proxies.HooksKept :=
  ⟨by decide +kernel, by decide +kernel,
    wrapperStart_owns (c := startedInTurn) (reach_final (by decide +kernel))⟩

/-- Both registries live, the handle has lost the first, and its hook has been zeroed. -/
theorem wrapperStart_owns_fails :
    Reach (wrapperComponent oneOfEach).step anyStep wrapperInit startedInside ∧
      ¬ startedInside.state.proxies.OneAlive (.registry, .registry) ∧
      ¬ startedInside.state.proxies.Accounted ∧ ¬ startedInside.state.proxies.HooksKept := by
  refine ⟨reach_final (allAllowed_anyStep _ _), fun h => ?_, fun h => ?_, fun h => ?_⟩
  · have same := h ⟨0, 1, (.registry, .registry)⟩ (by decide +kernel)
      ⟨1, 1, (.registry, .registry)⟩ (by decide +kernel) rfl rfl (by decide +kernel)
      (by decide +kernel)
    exact absurd same (by decide)
  · have kept := h.1 ⟨0, 1, (.registry, .registry)⟩ (by decide +kernel)
    revert kept
    decide +kernel
  · exact absurd (h (.registry, .registry) true (by decide +kernel)) (by decide)

end PipewireGobject
