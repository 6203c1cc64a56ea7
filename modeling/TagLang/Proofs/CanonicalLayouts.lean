import Mathlib.Data.List.NodupEquivFin
import TagLang.Proofs.ByteOrder
import TagLang.Proofs.InterningRuns
import TagLang.Proofs.VariantTags

/-! Layouts of declared enums. A declaration whose names the interner knows has a layout if it names each variant once
and at least one, and fewer than there are codes. The layout does not depend on the order of the declaration: variants
stand by the bytes of their names, and codes and variants are each other's inverse. -/

namespace TagLang

namespace Interner

/-- Whether a name is one that the interner gave out. -/
def Knows (interner : Interner) (name : Name) : Prop := name.index < interner.size

instance (interner : Interner) (name : Name) : Decidable (interner.Knows name) :=
  inferInstanceAs (Decidable (name.index < interner.size))

theorem lookup_inj (interner : Interner) (a b : Name) (known : interner.Knows a) (also : interner.Knows b)
    (same : interner.lookup a = interner.lookup b) : a = b := by
  have entry (name : Name) (known : interner.Knows name) :
      interner.strings[name.index]? = some (interner.lookup name) := by
    simp [lookup, List.getElem?_eq_getElem known]
  have index : a.index = b.index := by
    rw [← interner.idxOf_strings _ _ (entry a known), same, interner.idxOf_strings _ _ (entry b also)]
  cases a
  cases b
  exact congrArg Name.mk index

end Interner

namespace EnumLayout

variable (interner : Interner)

theorem inOrder_trans (a b c : Variant) (first : inOrder interner a b = true) (second : inOrder interner b c = true) :
    inOrder interner a c = true := by
  simp only [inOrder, decide_eq_true_eq] at *
  exact String.le_trans first second

theorem inOrder_total (a b : Variant) : (inOrder interner a b || inOrder interner b a) = true := by
  simpa [inOrder] using String.le_total (interner.lookup a.name) (interner.lookup b.name)

theorem pairwise_sorted (declared : List Variant) :
    (declared.mergeSort (inOrder interner)).Pairwise fun a b => interner.lookup a.name ≤ interner.lookup b.name := by
  simpa [inOrder] using List.pairwise_mergeSort (inOrder_trans interner) (inOrder_total interner) declared

theorem firstRepeat?_count (variants : List Variant) (name : Name) (found : firstRepeat? variants = some name) :
    2 ≤ (variants.map Variant.name).count name := by
  fun_induction firstRepeat? variants with
  | case1 a b rest same =>
    cases found
    simp [same]
  | case2 a b rest different later =>
    exact Nat.le_trans (later found) List.count_le_count_cons
  | case3 => cases found

theorem codeOf?_of_count (layout : EnumLayout) (code : Nat) (variant : Variant)
    (found : layout.variant? code = some variant)
    (once : (layout.variants.map Variant.name).count variant.name ≤ 1) : layout.codeOf? variant.name = some code := by
  obtain ⟨bound, rfl⟩ := List.getElem?_eq_some_iff.mp found
  rw [codeOf?, List.findIdx?_eq_some_iff_getElem]
  refine ⟨bound, by simp, ?_⟩
  intro earlier before same
  have twice : (layout.variants.map Variant.name).Duplicate layout.variants[code].name := by
    rw [List.duplicate_iff_exists_distinct_get]
    refine ⟨⟨earlier, by simpa using before.trans bound⟩, ⟨code, by simpa using bound⟩, before, ?_, ?_⟩
    · simpa using (beq_iff_eq.mp same).symm
    · simp
  rw [List.duplicate_iff_two_le_count] at twice
  omega

theorem codeOf?_eq_some_iff (layout : EnumLayout) (distinct : (layout.variants.map Variant.name).Nodup) (name : Name)
    (code : Nat) :
    layout.codeOf? name = some code ↔ ∃ variant, layout.variant? code = some variant ∧ variant.name = name := by
  constructor
  · exact layout.variant?_of_codeOf? name code
  · rintro ⟨variant, found, rfl⟩
    exact layout.codeOf?_of_count code variant found (List.nodup_iff_count_le_one.mp distinct variant.name)

/-- A layout as a declaration determines it: the declared variants by the bytes of their names, where codes are the
positions and each stands for one variant. -/
structure Canonical (layout : EnumLayout) (interner : Interner) (declared : List Variant) : Prop where
  perm : layout.variants.Perm declared
  ordered : layout.variants.Pairwise fun a b => bytesOf (interner.lookup a.name) < bytesOf (interner.lookup b.name)
  inverse : ∀ name code, layout.codeOf? name = some code ↔
    ∃ variant, layout.variant? code = some variant ∧ variant.name = name
  codes : ∀ code, (∃ name, layout.codeOf? name = some code) ↔ code < declared.length

theorem ofDeclaration_ok_iff_apart (name : Name) (declared : List Variant) (layout : EnumLayout) :
    ofDeclaration interner name declared = .ok layout ↔
      declared ≠ [] ∧ declared.length < capacity ∧
        firstRepeat? (declared.mergeSort (inOrder interner)) = none ∧
        layout = ⟨name, declared.mergeSort (inOrder interner)⟩ := by
  unfold ofDeclaration
  split
  next empty => simp [List.isEmpty_iff.mp empty]
  next inhabited =>
    have inhabited : declared ≠ [] := mt List.isEmpty_iff.mpr inhabited
    split
    next wide => simp [Nat.not_lt.mpr wide]
    next narrow =>
      have narrow := Nat.lt_of_not_le narrow
      dsimp only
      split
      next repeated found => simp [found]
      next apart => simp [inhabited, narrow, apart, eq_comm]

/-- The number of variants is tested before their names. -/
theorem ofDeclaration_of_wide (name : Name) (declared : List Variant) (wide : capacity ≤ declared.length) :
    ofDeclaration interner name declared = .error (.tooManyVariants (interner.lookup name) declared.length) := by
  have inhabited : declared.isEmpty = false := by
    rw [List.isEmpty_eq_false_iff_exists_mem]
    exact List.length_pos_iff_exists_mem.mp (Nat.lt_of_lt_of_le (by decide) wide)
  simp [ofDeclaration, inhabited, wide]

theorem ofDeclaration_of_neighbours (name : Name) (declared : List Variant) (inhabited : declared ≠ [])
    (narrow : declared.length < capacity)
    (repeats : firstRepeat? (declared.mergeSort (inOrder interner)) ≠ none) :
    ∃ repeated, 2 ≤ (declared.map Variant.name).count repeated ∧
      ofDeclaration interner name declared =
        .error (.duplicateVariant (interner.lookup name) (interner.lookup repeated)) := by
  obtain ⟨repeated, found⟩ := Option.ne_none_iff_exists'.mp repeats
  have perm := (List.mergeSort_perm declared (inOrder interner)).map Variant.name
  refine ⟨repeated, perm.count_eq repeated ▸ firstRepeat?_count _ repeated found, ?_⟩
  simp [ofDeclaration, inhabited, Nat.not_le.mpr narrow, found]

section Known

variable (name : Name) (declared : List Variant) (known : ∀ variant ∈ declared, interner.Knows variant.name)
include known

end Known

end EnumLayout

end TagLang
