import Mathlib.Data.List.AList

namespace PipewireGobject

variable {κ ι β : Type} [DecidableEq κ]

/-- A table from keys to entries. -/
abbrev Table (κ β : Type) := AList fun _ : κ => β

/-- Go through a table and remove the entries that do not satisfy `p`. -/
def Table.keep (p : β → Bool) (t : Table κ β) : Table κ β :=
  ⟨t.entries.filter fun item => p item.2, t.nodupKeys.sublist List.filter_sublist⟩

theorem Table.lookup_keep (p : β → Bool) (t : Table κ β) (k : κ) :
    (Table.keep p t).lookup k = (t.lookup k).filter p := by
  refine Option.ext fun b => ?_
  have found : b ∈ (Table.keep p t).lookup k ↔ b ∈ t.lookup k ∧ p b = true := by
    rw [AList.mem_lookup_iff, AList.mem_lookup_iff]
    exact List.mem_filter
  have kept : b ∈ (t.lookup k).filter p ↔ b ∈ t.lookup k ∧ p b = true := by
    simp [Option.filter_eq_some_iff]
  exact found.trans kept.symm

theorem Table.mem_of_mem_keep {p : β → Bool} {t : Table κ β} {k : κ} (h : k ∈ Table.keep p t) :
    k ∈ t := by
  rw [← AList.lookup_isSome, Table.lookup_keep] at h
  exact AList.lookup_isSome.mp (Option.isSome_of_isSome_filter _ _ h)

/-- Remove the entries whose keys do not satisfy `p`. -/
def Table.keepKeys (p : κ → Bool) (t : Table κ β) : Table κ β :=
  ⟨t.entries.filter fun item => p item.1, t.nodupKeys.sublist List.filter_sublist⟩

theorem Table.lookup_keepKeys (p : κ → Bool) (t : Table κ β) (k : κ) :
    (Table.keepKeys p t).lookup k = if p k then t.lookup k else none := by
  refine Option.ext fun b => ?_
  have found : b ∈ (Table.keepKeys p t).lookup k ↔ b ∈ t.lookup k ∧ p k = true := by
    rw [AList.mem_lookup_iff, AList.mem_lookup_iff]
    exact List.mem_filter
  refine found.trans ?_
  cases p k <;> simp

/-- The entries of a table are filed under what `encode` makes of their own index. -/
def Filed (encode : ι → κ) (index : β → ι) (t : Table κ β) : Prop :=
  ∀ k b, b ∈ t.lookup k → k = encode (index b)

/-- What a table holds for an index. -/
def Table.find (encode : ι → κ) (t : Table κ β) (i : ι) : Option β := t.lookup (encode i)

variable {encode : ι → κ} {index : β → ι} {t : Table κ β}

theorem filed_empty : Filed encode index (∅ : Table κ β) := by
  intro k b hb
  simp at hb

theorem Filed.insert (h : Filed encode index t) (b : β) :
    Filed encode index (t.insert (encode (index b)) b) := by
  intro k b' hb
  by_cases hk : k = encode (index b)
  · subst hk
    rw [AList.lookup_insert] at hb
    cases hb
    rfl
  · rw [AList.lookup_insert_ne hk] at hb
    exact h k b' hb

theorem Filed.erase (h : Filed encode index t) (k : κ) : Filed encode index (t.erase k) := by
  intro k' b hb
  by_cases hk : k' = k
  · subst hk
    simp [AList.lookup_erase] at hb
  · rw [AList.lookup_erase_ne hk] at hb
    exact h k' b hb

theorem Filed.keep (h : Filed encode index t) (p : β → Bool) :
    Filed encode index (Table.keep p t) := by
  intro k b hb
  rw [Table.lookup_keep] at hb
  exact h k b (Option.filter_eq_some_iff.mp hb).1

section Injective

variable [DecidableEq ι] (injective : Function.Injective encode)

include injective

theorem Table.find_insert (t : Table κ β) (i : ι) (b : β) :
    Table.find encode (t.insert (encode i) b) =
      Function.update (Table.find encode t) i (some b) := by
  funext j
  by_cases hj : j = i
  · subst hj
    simp [Table.find]
  · rw [Function.update_of_ne hj]
    exact AList.lookup_insert_ne fun he => hj (injective he)

theorem Table.find_erase (t : Table κ β) (i : ι) :
    Table.find encode (t.erase (encode i)) = Function.update (Table.find encode t) i none := by
  funext j
  by_cases hj : j = i
  · subst hj
    simp [Table.find]
  · rw [Function.update_of_ne hj]
    exact AList.lookup_erase_ne fun he => hj (injective he)

omit [DecidableEq ι] in
/-- Removing by the index that the entries carry removes by the index they are found at. -/
theorem Table.find_keep (h : Filed encode index t) (p : ι → Bool) (i : ι) :
    Table.find encode (Table.keep (fun b => p (index b)) t) i =
      if p i then Table.find encode t i else none := by
  unfold Table.find
  rw [Table.lookup_keep]
  cases hl : t.lookup (encode i) with
  | none => simp
  | some b =>
    have own : index b = i := (injective (h _ b hl)).symm
    simp [Option.filter, own]

end Injective

end PipewireGobject
