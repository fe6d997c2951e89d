import PipewireGobject.ProgramConnect

namespace PipewireGobject

variable {lost : Nat → Prop} {s t u : Program} {o : HandleOwner} {kind : HandleKind}
  {results : PipewireResults} {k j i : Nat} {hs : List Nat}

/-- A start has succeeded. -/
theorem Building.settled (b : Building o s u) (h : Settled s) (object : ∀ i, o ≠ .object i)
    (full : ∀ kind ∈ o.kinds, u.handle o kind ≠ none) (same : SameHandles (u.startLoop o) t)
    (runs : t.running o = true) (others : ∀ o', o' ≠ o → t.running o' = s.running o')
    (graphRate : ∀ j, (t.streams j).running = false → (t.streams j).graphRate = 0) :
    Settled t where
  inv := (b.inv.startLoop object b.unstopped).same same
  whole o' := by
    unfold Program.Whole
    have handle : t.handle = u.handle := same.handle
    rw [handle]
    by_cases ho : o' = o
    · subst ho
      exact .inl ⟨runs, full⟩
    · rw [b.only.handle o' ho, others o' ho]
      exact h.whole o'
  unlocked l := by
    rw [same.custody]
    have only : OnlyHandles o s (u.startLoop o) := b.only.trans .startLoop
    exact (only.locks l).1.mpr (h.unlocked l)
  graphRate := graphRate

/-- The wrappers of a list are reset, and nothing else changes but what is notified. -/
structure Resets (hs : List Nat) (s t : Program) : Prop where
  cores : t.cores = s.cores
  streams : t.streams = s.streams
  count : t.objectCount = s.objectCount
  custody : t.custody = s.custody
  next : t.next = s.next
  handle : ∀ o, (∀ i ∈ hs, o ≠ .object i) → t.handle o = s.handle o
  objects : ∀ i, i ∉ hs → t.objects i = s.objects i
  core : ∀ i, (t.objects i).core = (s.objects i).core
  stopped : ∀ i ∈ hs, (t.objects i).running = false
  proxies : ∀ i ∈ hs, ∀ kind, kind.isProxy = true → t.handle (.object i) kind = none
  kept : ∀ o kind, kind.isProxy = false → t.handle o kind = s.handle o kind

theorem Resets.refl (s : Program) : Resets [] s s :=
  ⟨rfl, rfl, rfl, rfl, rfl, fun _ _ => rfl, fun _ _ => rfl, fun _ => rfl, by simp, by simp,
    fun _ _ _ => rfl⟩

theorem handle_objectReset {o' : HandleOwner} : (s.objectReset i).handle o' kind =
    if o' = .object i ∧ kind.isProxy = true then none else s.handle o' kind := by
  show ((s.setHandle (.object i) .registry none).setHandle (.object i) .object none).handle
    o' kind = _
  rw [handle_setHandle, handle_setHandle]
  cases kind <;> simp [HandleKind.isProxy]

theorem objectReset_resets : Resets [i] s (s.objectReset i) where
  cores := rfl
  streams := rfl
  count := rfl
  custody := rfl
  next := rfl
  handle o ho := by
    funext kind
    rw [handle_objectReset, if_neg fun he => ho i (by simp) he.1]
  objects i' hi := by
    have other : i' ≠ i := by simpa using hi
    simp [Program.objectReset, Program.objectClear, Program.setObject, Program.setHandle,
      Program.notify, other]
  core i' := by
    by_cases other : i' = i
    · subst other
      simp [Program.objectReset, Program.objectClear, Program.setObject, Program.setHandle,
        Program.notify, PwgObject.cleared]
    · simp [Program.objectReset, Program.objectClear, Program.setObject, Program.setHandle,
        Program.notify, other]
  stopped i' hi := by
    obtain rfl := List.mem_singleton.mp hi
    simp [Program.objectReset, Program.objectClear, Program.setObject, Program.setHandle,
      Program.notify, PwgObject.cleared]
  proxies i' hi kind hk := by
    obtain rfl := List.mem_singleton.mp hi
    rw [handle_objectReset, if_pos ⟨rfl, hk⟩]
  kept o kind hk := by rw [handle_objectReset, if_neg (by simp [hk])]

theorem Resets.cons (first : Resets [i] s t) (rest : Resets hs t u) : Resets (i :: hs) s u where
  cores := rest.cores.trans first.cores
  streams := rest.streams.trans first.streams
  count := rest.count.trans first.count
  custody := rest.custody.trans first.custody
  next := rest.next.trans first.next
  handle o ho := by
    rw [rest.handle o fun i' hi => ho i' (List.mem_cons_of_mem i hi)]
    exact first.handle o (by simpa using ho i List.mem_cons_self)
  objects i' hi := by
    rw [List.mem_cons, not_or] at hi
    rw [rest.objects i' hi.2]
    exact first.objects i' (by simpa using hi.1)
  core i' := (rest.core i').trans (first.core i')
  stopped i' hi := by
    by_cases later : i' ∈ hs
    · exact rest.stopped i' later
    · obtain rfl : i' = i := (List.mem_cons.mp hi).resolve_right later
      rw [rest.objects i' later]
      exact first.stopped i' (by simp)
  proxies i' hi kind hk := by
    by_cases later : i' ∈ hs
    · exact rest.proxies i' later kind hk
    · obtain rfl : i' = i := (List.mem_cons.mp hi).resolve_right later
      rw [rest.handle _ fun i hm he => later (by cases he; exact hm)]
      exact first.proxies i' (by simp) kind hk
  kept o kind hk := (rest.kept o kind hk).trans (first.kept o kind hk)

theorem notify_resets (hc : (s.cores k).connected = false) :
    Resets hs s (hs.foldl (fun s i => s.objectOnCoreConnectedNotify k i) s) := by
  induction hs generalizing s with
  | nil => exact .refl s
  | cons i hs ih =>
    rw [List.foldl_cons]
    have reset : s.objectOnCoreConnectedNotify k i = s.objectReset i :=
      if_neg (by rw [hc]; simp)
    rw [reset]
    exact objectReset_resets.cons (ih hc)

/-- A wrapper that has been reset holds nothing. -/
theorem Resets.gone (r : Resets hs s t) (inv : ProgramInv lost s) (hi : i ∈ hs) :
    t.handle (.object i) kind = none := by
  cases hk : kind.isProxy with
  | true => exact r.proxies i hi kind hk
  | false =>
    rw [r.kept _ kind hk]
    by_contra some'
    obtain ⟨x, hx⟩ := Option.ne_none_iff_exists'.mp some'
    have proxy := (kinds_proxy (inv.placed _ _ x hx).2.2).mpr ⟨i, rfl⟩
    rw [hk] at proxy
    cases proxy

/-- The wrappers that have lost their proxies have found out. -/
theorem Resets.inv (r : Resets hs s t) (inv : ProgramInv lost s)
    (exact' : ∀ i, lost i ↔ i ∈ hs) : ProgramInv noneLost t := by
  have same : ∀ {o kind x}, t.handle o kind = some x →
      (∀ i, o = .object i → ¬lost i) ∧ s.handle o kind = some x := by
    intro o kind x hx
    have present : ∀ i ∈ hs, o ≠ .object i := by
      rintro i hi rfl
      rw [r.gone inv hi] at hx
      cases hx
    refine ⟨fun i ho hl => present i ((exact' i).mp hl) ho, ?_⟩
    rw [← r.handle o present]
    exact hx
  exact {
    custody := by rw [r.custody]; exact inv.custody
    created := by rw [r.custody, r.next]; exact inv.created
    lives := by
      intro x
      rw [r.custody, inv.lives x]
      constructor
      · rintro ⟨place, kept⟩
        refine ⟨?_, fun _ _ => id⟩
        rw [r.handle _ fun i hi ho => kept i ho ((exact' i).mpr hi)]
        exact place
      · rintro ⟨place, -⟩
        exact ⟨(same place).2, (same place).1⟩
    placed := fun o kind x hx => inv.placed o kind x (same hx).2
    looped := by
      intro o kind x hx hk
      obtain ⟨l, hl, he⟩ := inv.looped o kind x (same hx).2 hk
      exact ⟨l, by rw [r.kept o _ rfl]; exact hl, he⟩
    proxied := by
      intro i kind x hx _
      obtain ⟨kept, place⟩ := same hx
      obtain ⟨k, d, hk, hd, hc⟩ := inv.proxied i kind x place (kept i rfl)
      exact ⟨k, d, by rw [r.core]; exact hk, by rw [r.kept _ _ rfl]; exact hd,
        by rw [r.custody]; exact hc⟩
    attached := by
      intro i k
      rw [r.core, r.cores]
      exact inv.attached i k
    counted := by
      intro i
      rw [r.count, r.core]
      exact inv.counted i }

theorem setCore_cores {f : PwgCore → PwgCore} {k' : Nat} :
    (s.setCore k f).cores k' = if k' = k then f (s.cores k) else s.cores k' := by
  unfold Program.setCore
  by_cases hk : k' = k
  · subst hk
    simp
  · simp [hk]

theorem setStream_streams {f : PwgStream → PwgStream} {j' : Nat} :
    (s.setStream j f).streams j' = if j' = j then f (s.streams j) else s.streams j' := by
  unfold Program.setStream
  by_cases hj : j' = j
  · subst hj
    simp
  · simp [hj]

theorem setObject_objects {f : PwgObject → PwgObject} {i' : Nat} :
    (s.setObject i f).objects i' = if i' = i then f (s.objects i) else s.objects i' := by
  unfold Program.setObject
  by_cases hi : i' = i
  · subst hi
    simp
  · simp [hi]

theorem setCore_same_handles {f : PwgCore → PwgCore}
    (hf : (f (s.cores k)).handlers = (s.cores k).handlers) : SameHandles s (s.setCore k f) where
  handle := rfl
  custody := rfl
  next := rfl
  core _ := rfl
  handlers k' := by
    rw [setCore_cores]
    split
    next hk => rw [hk, hf]
    next => rfl
  count := rfl

/-- `pwg_core_disconnect` on a core that is connected. -/
theorem Settled.disconnect (h : Settled s) (hc : (s.cores k).connected = true) :
    Settled (s.coreDisconnect k) := by
  unfold Program.coreDisconnect
  simp only [hc, if_true]
  generalize hu : s.setCore k (fun self => { self with connected := false }) = u
  have same : SameHandles s u := hu ▸ setCore_same_handles rfl
  have cores : ∀ k', (u.cores k').connected = if k' = k then false else (s.cores k').connected := by
    intro k'
    rw [← hu, setCore_cores]
    split <;> rfl
  obtain ⟨only, closed, empty⟩ := (h.inv.same same).closeCore (k := k)
  generalize ht : (u.stopLoop (.core k)).closeConnection (.core k) = t at only closed empty ⊢
  have resets : Resets (t.cores k).handlers (t.notify [.core k]) (t.notifyConnected k) := by
    refine notify_resets ?_
    show (t.cores k).connected = false
    rw [only.cores, cores, if_pos rfl]
  have attached : ∀ i, u.attachedTo (.core k) i ↔ i ∈ (t.cores k).handlers := by
    intro i
    rw [only.cores, ← (h.inv.same same).attached i k, Program.attachedTo]
    cases (u.objects i).core <;> simp
  have notified : ProgramInv (u.attachedTo (.core k)) (t.notify [.core k]) :=
    closed.same ⟨rfl, rfl, rfl, fun _ => rfl, fun _ => rfl, rfl⟩
  have streams : (t.notifyConnected k).streams = s.streams := by
    have unchanged : u.streams = s.streams := hu ▸ rfl
    exact resets.streams.trans (only.streams.trans unchanged)
  exact {
    inv := resets.inv notified attached
    whole := by
      intro o
      by_cases ho : o = .core k
      · subst ho
        refine .inr ⟨?_, fun kind => ?_⟩
        · rw [Program.running, resets.cores]
          show (t.cores k).connected = false
          rw [only.cores, cores, if_pos rfl]
        · rw [resets.handle _ (by simp)]
          exact empty kind
      · have before : (t.notify [.core k]).handle o = s.handle o :=
          (only.handle o ho).trans (congrFun same.handle o)
        cases o with
        | core k' =>
          have hk : k' ≠ k := fun hk => ho (by rw [hk])
          have connected : ((t.notifyConnected k).cores k').connected =
              (s.cores k').connected := by
            rw [resets.cores]
            show (t.cores k').connected = _
            rw [only.cores, cores, if_neg hk]
          unfold Program.Whole
          rw [resets.handle _ (by simp), before, Program.running, connected]
          exact h.whole (.core k')
        | stream j =>
          unfold Program.Whole
          rw [resets.handle _ (by simp), before, Program.running, streams]
          exact h.whole (.stream j)
        | object i =>
          by_cases hi : i ∈ (t.cores k).handlers
          · exact .inr ⟨resets.stopped i hi, fun kind => resets.gone notified hi⟩
          · have objects : (t.notifyConnected k).objects i = s.objects i := by
              rw [resets.objects i hi]
              exact (congrFun only.objects i).trans (hu ▸ rfl)
            unfold Program.Whole
            rw [resets.handle _ fun i' hi' he => hi (by cases he; exact hi'), before,
              Program.running, objects]
            exact h.whole (.object i)
    unlocked := by
      intro l
      rw [resets.custody]
      refine (only.locks l).1.mpr ?_
      rw [same.custody]
      exact h.unlocked l
    graphRate := by
      rw [streams]
      exact h.graphRate }

theorem Settled.coreDisconnect (h : Settled s) : Settled (s.coreDisconnect k) := by
  cases hc : (s.cores k).connected with
  | true => exact h.disconnect hc
  | false =>
    have empty : ∀ kind, s.handle (.core k) kind = none := fun kind => h.empty hc
    exact ((Building.start h.inv empty).coreDisconnect h hc).settled h hc

theorem setStream_same_handles {f : PwgStream → PwgStream} : SameHandles s (s.setStream j f) :=
  ⟨rfl, rfl, rfl, fun _ => rfl, fun _ => rfl, rfl⟩

theorem notify_same_handles {notices : List Notice} : SameHandles s (s.notify notices) :=
  ⟨rfl, rfl, rfl, fun _ => rfl, fun _ => rfl, rfl⟩

theorem running_setCore {f : PwgCore → PwgCore} : (s.setCore k f).running o =
    if o = .core k then (f (s.cores k)).connected else s.running o := by
  cases o with
  | core k' =>
    by_cases hk : k' = k <;> simp [Program.running, setCore_cores, hk]
  | stream j | object i => rfl

theorem running_setCore_same {f : PwgCore → PwgCore}
    (same : (f (s.cores k)).connected = (s.cores k).connected) :
    (s.setCore k f).running o = s.running o := by
  rw [running_setCore]
  split
  next ho => rw [ho, same]; rfl
  next => rfl

theorem running_setStream {f : PwgStream → PwgStream} : (s.setStream j f).running o =
    if o = .stream j then (f (s.streams j)).running else s.running o := by
  cases o with
  | stream j' =>
    by_cases hj : j' = j <;> simp [Program.running, setStream_streams, hj]
  | core k | object i => rfl

theorem running_setObject {f : PwgObject → PwgObject} : (s.setObject i f).running o =
    if o = .object i then (f (s.objects i)).running else s.running o := by
  cases o with
  | object i' =>
    by_cases hi : i' = i <;> simp [Program.running, setObject_objects, hi]
  | core k | stream j => rfl

theorem running_setObject_same {f : PwgObject → PwgObject}
    (same : (f (s.objects i)).running = (s.objects i).running) :
    (s.setObject i f).running o = s.running o := by
  rw [running_setObject]
  split
  next ho => rw [ho, same]; rfl
  next => rfl

/-- A stream changes while it runs or does not run as before. -/
theorem Settled.setStream {f : PwgStream → PwgStream} (h : Settled s)
    (running : (f (s.streams j)).running = (s.streams j).running)
    (graphRate : (f (s.streams j)).running = false → (f (s.streams j)).graphRate = 0) :
    Settled (s.setStream j f) := by
  refine h.same setStream_same_handles (fun o => ?_) fun j' hr => ?_
  · rw [running_setStream]
    split
    next ho => rw [ho, running]; rfl
    next => rfl
  · rw [setStream_streams] at hr ⊢
    by_cases hj : j' = j
    · rw [if_pos hj] at hr ⊢
      exact graphRate hr
    · rw [if_neg hj] at hr ⊢
      exact h.graphRate j' hr

theorem Settled.notify {notices : List Notice} (h : Settled s) : Settled (s.notify notices) :=
  h.same notify_same_handles (fun o => by cases o <;> rfl) h.graphRate

theorem Settled.coreConnect (h : Settled s) : Settled (s.coreConnect results k).2 := by
  cases hc : (s.cores k).connected with
  | true =>
    have unchanged : s.coreConnect results k = (none, s) := if_pos hc
    rw [unchanged]
    exact h
  | false =>
    rcases coreConnect_cases results h hc with ⟨error, t, he, restored⟩ | ⟨u, he, b, full⟩
    · rw [he]
      exact restored.settled h hc
    · rw [he]
      have only : OnlyHandles (.core k) s (u.startLoop (.core k)) := b.only.trans .startLoop
      refine Settled.notify (b.settled h (by simp) full (setCore_same_handles rfl) ?_
        (fun o' ho => ?_) fun j' hj => ?_)
      · rw [running_setCore, if_pos rfl]
      · rw [running_setCore, if_neg ho]
        exact only.running o'
      · have same : (u.startLoop (.core k)).streams j' = s.streams j' := congrFun only.streams j'
        exact (congrArg (·.graphRate) same).trans
          (h.graphRate j' ((congrArg (·.running) same).symm.trans hj))

theorem StreamFailed.settled (failed : StreamFailed j s t) (h : Settled s)
    (hr : (s.streams j).running = false) : Settled t := by
  obtain ⟨u, restored, ht⟩ := failed
  have settled : Settled u := restored.settled h hr
  rcases ht with rfl | rfl
  · exact settled
  · exact settled.setStream rfl fun _ => rfl

theorem Settled.streamStart (h : Settled s) : Settled (s.streamStart results j).2 := by
  cases hr : (s.streams j).running with
  | true =>
    have unchanged : s.streamStart results j = (none, s) := if_pos hr
    rw [unchanged]
    exact h
  | false =>
    rcases streamStart_cases results h hr with ⟨error, t, he, failed⟩ | ⟨u, he, b, full⟩
    · rw [he]
      exact failed.settled h hr
    · rw [he]
      have only : OnlyHandles (.stream j) s (u.startLoop (.stream j)) := b.only.trans .startLoop
      refine Settled.notify (b.settled h (by simp) full setStream_same_handles ?_
        (fun o' ho => ?_) fun j' hj => ?_)
      · rw [running_setStream, if_pos rfl]
      · rw [running_setStream, if_neg ho]
        exact only.running o'
      · rw [setStream_streams, only.streams] at hj ⊢
        by_cases he : j' = j
        · rw [if_pos he] at hj
          cases hj
        · rw [if_neg he] at hj ⊢
          exact h.graphRate j' hj

/-- `pwg_stream_stop` on a stream that runs. -/
theorem Settled.streamStop (h : Settled s) : Settled (s.streamStop j) := by
  unfold Program.streamStop
  simp only
  refine Settled.notify ?_
  generalize hu : s.setStream j (fun self => { self with running := false }) = u
  have same : SameHandles s u := hu ▸ setStream_same_handles
  have streams : ∀ j', (u.streams j').running = false → j' ≠ j → (u.streams j').graphRate = 0 := by
    intro j' hr hj
    rw [← hu, setStream_streams, if_neg hj] at hr ⊢
    exact h.graphRate j' hr
  obtain ⟨only, closed, empty⟩ := (h.inv.same same).release (o := .stream j) (by simp)
  generalize ht : ((u.stopLoop (.stream j)).destroy (.stream j) .stream).closeConnection
    (.stream j) = t at only closed empty ⊢
  have found : ProgramInv noneLost t := closed.found fun i ha kind => by
    rw [Program.attachedTo] at ha
    cases hc : (u.objects i).core <;> rw [hc] at ha <;> cases ha
  exact {
    inv := found.same setStream_same_handles
    whole := by
      intro o
      by_cases ho : o = .stream j
      · subst ho
        refine .inr ⟨?_, empty⟩
        rw [running_setStream, if_pos rfl, only.streams, ← hu, setStream_streams, if_pos rfl]
        rfl
      · unfold Program.Whole
        rw [running_setStream, if_neg ho, only.running, ← hu, running_setStream, if_neg ho]
        show _ ∧ (∀ kind ∈ o.kinds, t.handle o kind ≠ none) ∨ _ ∧ ∀ kind, t.handle o kind = none
        rw [only.handle o ho, same.handle]
        exact h.whole o
    unlocked := by
      intro l
      refine (only.locks l).1.mpr ?_
      rw [same.custody]
      exact h.unlocked l
    graphRate := by
      intro j' hr
      rw [setStream_streams, only.streams] at hr ⊢
      by_cases hj : j' = j
      · rw [if_pos hj]
      · rw [if_neg hj] at hr ⊢
        exact streams j' hr hj }

end PipewireGobject
