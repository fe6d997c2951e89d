import PipewireGobject.Recording

namespace PipewireGobject

universe u
variable {σ ι ω χ ε P : Type u} {V : P → Type u}

/-- Properties, the statements that announce that one has changed, and those that are yet to go on
into such an announcement. -/
structure Properties (σ ι P : Type u) (V : P → Type u) where
  read : σ → (p : P) → V p
  announces : σ → ι → Option P
  owes : σ → ι → P → Bool

namespace Properties

/-- Who reads a property whenever its change is announced. -/
def reader [DecidableEq P] (A : Properties σ ι P V) : Observer σ ι ω ε ((p : P) → V p) where
  sees i s t known p := if A.announces s i = some p then A.read t p else known p
  hears _ known := known

/-- A statement that changes a property, or owes its announcement, announces it or leaves that to
what is left to run; operations and events change no property. `I` holds wherever a statement
runs. -/
structure Announced (A : Properties σ ι P V) (C : Component σ ι ω χ ε)
    (I : σ → List ι → Prop) : Prop where
  call : ∀ operation s r, C.call operation s = some r →
    A.read r.1 = A.read s ∧ A.owes r.1 = A.owes s
  exec : ∀ choice i s rest p, I s (i :: rest) → A.announces s i = some p ∨
    A.read (C.exec choice i s).1 p = A.read s p ∧ A.owes s i p = false ∨
    ∃ j ∈ (C.exec choice i s).2 ++ rest, A.owes (C.exec choice i s).1 j p = true
  owed : ∀ choice i s j p, A.owes s j p = true → A.announces s i = some p ∨
    A.owes (C.exec choice i s).1 j p = true
  environment : ∀ event s t, C.environment event s = some t →
    A.read t = A.read s ∧ A.owes t = A.owes s

/-- Each property is as it was last read, or its announcement is left to run. -/
def UpToDate (A : Properties σ ι P V) (s : σ × ((p : P) → V p)) (code : List ι) : Prop :=
  ∀ p, s.2 p = A.read s.1 p ∨ ∃ j ∈ code, A.owes s.1 j p = true

variable {A : Properties σ ι P V} {C : Component σ ι ω χ ε} {I : σ → List ι → Prop}

theorem Announced.upToDate [DecidableEq P] (h : A.Announced C I) :
    (C.observed A.reader).Preserves (fun c label => anyStep c label ∧ I c.state.1 c.code)
      A.UpToDate where
  call operation s code r known _ _ hr p := by
    obtain ⟨t, ht, rfl⟩ := Option.map_eq_some_iff.mp hr
    obtain ⟨read, owes⟩ := h.call operation s.1 t ht
    rcases known p with same | ⟨j, hj, owed⟩
    · exact .inl (same.trans (congrFun read p).symm)
    · exact .inr ⟨j, List.mem_append_right t.2 hj, by rw [owes]; exact owed⟩
  run choice i s rest known holds p := by
    by_cases announced : A.announces s.1 i = some p
    · exact .inl (if_pos announced)
    have stays : (if A.announces s.1 i = some p then A.read (C.exec choice i s.1).1 p else s.2 p) =
        s.2 p := if_neg announced
    rcases (h.exec choice i s.1 rest p holds.2).resolve_left announced with ⟨kept, free⟩ | owed
    · rcases known p with same | ⟨j, hj, owes⟩
      · exact .inl (stays.trans (same.trans kept.symm))
      · rcases List.mem_cons.mp hj with rfl | hj
        · rw [free] at owes
          cases owes
        · exact .inr ⟨j, List.mem_append_right _ hj,
            (h.owed choice i s.1 j p owes).resolve_left announced⟩
    · exact .inr owed
  environment event s code t known _ ht p := by
    obtain ⟨u, hu, rfl⟩ := Option.map_eq_some_iff.mp ht
    obtain ⟨read, owes⟩ := h.environment event s.1 u hu
    rcases known p with same | ⟨j, hj, owed⟩
    · exact .inl (same.trans (congrFun read p).symm)
    · exact .inr ⟨j, hj, by rw [owes]; exact owed⟩

/-- Every property has been read, and nothing runs. -/
def readFirst (A : Properties σ ι P V) (s : σ) : Config (σ × ((p : P) → V p)) ι :=
  ⟨(s, A.read s), []⟩

theorem Announced.reach [DecidableEq P] (h : A.Announced C I) (kept : C.Preserves anyStep I)
    {s : σ} (start : I s []) {c : Config (σ × ((p : P) → V p)) ι}
    (hc : Reach (C.observed A.reader).step anyStep (A.readFirst s) c) :
    A.UpToDate c.state c.code := by
  have held : (C.observed A.reader).Preserves anyStep (fun s code => I s.1 code) :=
    kept.observed fun _ _ ha => ha
  exact ((held.under h.upToDate).reach hc ⟨start, fun _ => .inl rfl⟩).2

/-- Properties that a statement announces at once. -/
def atOnce [DecidableEq P] (read : σ → (p : P) → V p) (announces : ι → Option P) :
    Properties σ ι P V :=
  ⟨read, fun _ => announces, fun _ i p => announces i = some p⟩

theorem reach_atOnce [DecidableEq P] {read : σ → (p : P) → V p} {announces : ι → Option P}
    (call : ∀ operation s r, C.call operation s = some r → read r.1 = read s)
    (exec : ∀ choice i s p, read (C.exec choice i s).1 p = read s p ∨
      ∃ j ∈ (C.exec choice i s).2, announces j = some p)
    (environment : ∀ event s t, C.environment event s = some t → read t = read s)
    {s : σ} {c : Config (σ × ((p : P) → V p)) ι}
    (hc : Reach (C.observed (atOnce read announces).reader).step anyStep
      ((atOnce read announces).readFirst s) c) :
    (atOnce read announces).UpToDate c.state c.code := by
  have announced : (atOnce read announces).Announced C (fun _ _ => True) := {
    call := fun operation s r hr => ⟨call operation s r hr, rfl⟩
    exec := fun choice i s rest p _ => by
      by_cases announced : announces i = some p
      · exact .inl announced
      · rcases exec choice i s p with kept | ⟨j, hj, told⟩
        · exact .inr (.inl ⟨kept, decide_eq_false announced⟩)
        · exact .inr (.inr ⟨j, List.mem_append_left rest hj, decide_eq_true told⟩)
    owed := fun _ _ _ _ _ owes => .inr owes
    environment := fun event s t ht => ⟨environment event s t ht, rfl⟩ }
  exact announced.reach ⟨fun _ _ _ _ _ _ _ _ => trivial, fun _ _ _ _ _ _ => trivial,
    fun _ _ _ _ _ _ _ => trivial⟩ trivial hc

end Properties

end PipewireGobject
