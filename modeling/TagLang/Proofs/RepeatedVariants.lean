import Mathlib.Data.List.Chain
import TagLang.Proofs.CanonicalLayouts

/-! Variants that a declaration names twice. The sort brings variants of one string together and keeps their order, and
only neighbours are compared. A string that is not empty has one name, so its repeats are neighbours and are refused.
The empty string is read from every name that the interner does not know, so two variants of one such name can have
another one between them, and then both get into the layout. -/

namespace TagLang

namespace Interner

theorem knows_of_lookup (interner : Interner) (name : Name) (written : interner.lookup name ≠ "") :
    interner.Knows name := by
  by_contra unknown
  exact written (interner.lookup_beyond name (Nat.le_of_not_lt unknown))

theorem lookup_eq_iff (interner : Interner) (name other : Name) (written : interner.lookup name ≠ "") :
    interner.lookup other = interner.lookup name ↔ other = name := by
  constructor
  · intro same
    have also : interner.lookup other ≠ "" := same ▸ written
    exact interner.lookup_inj other name (interner.knows_of_lookup other also)
      (interner.knows_of_lookup name written) same
  · intro same
    rw [same]

end Interner

namespace EnumLayout

variable (interner : Interner)

def isSpelled (s : String) (variant : Variant) : Bool := interner.lookup variant.name == s

/-- The declared names that read as the empty string, in the order of the declaration. -/
def blankNames (declared : List Variant) : List Name := (declared.filter (isSpelled interner "")).map Variant.name

/-- Whether a declaration names a variant twice by a name with a string of its own. -/
def RepeatsWritten (declared : List Variant) : Prop :=
  ∃ repeated, interner.lookup repeated ≠ "" ∧ 2 ≤ (declared.map Variant.name).count repeated

theorem not_repeatsWritten_iff (declared : List Variant) :
    ¬ RepeatsWritten interner declared ↔
      ∀ name, interner.lookup name ≠ "" → (declared.map Variant.name).count name ≤ 1 := by
  simp only [RepeatsWritten, not_exists, not_and, Nat.not_le]
  exact forall₂_congr fun _ _ => Nat.lt_succ_iff

theorem lookup_of_spelled (declared : List Variant) (s : String) (variant : Variant)
    (member : variant ∈ declared.filter (isSpelled interner s)) : interner.lookup variant.name = s := by
  simpa [isSpelled] using (List.mem_filter.mp member).2

theorem firstRepeat?_eq_none_iff (variants : List Variant) :
    firstRepeat? variants = none ↔ variants.IsChain fun a b => a.name ≠ b.name := by
  fun_induction firstRepeat? variants with
  | case1 a b rest same => simp [same]
  | case2 a b rest different later => simp [different, later]
  | case3 variants short =>
    cases variants with
    | nil => simp
    | cons a rest =>
      cases rest with
      | nil => simp
      | cons b rest => exact absurd rfl (short a b rest)

/-- The sort is stable: variants of one string keep the order of the declaration. -/
theorem filter_sorted (declared : List Variant) (s : String) :
    (declared.mergeSort (inOrder interner)).filter (isSpelled interner s) = declared.filter (isSpelled interner s) := by
  have alike : (declared.filter (isSpelled interner s)).Pairwise fun a b => inOrder interner a b = true := by
    refine List.pairwise_of_forall_mem_list ?_
    intro a first b second
    simp [inOrder, lookup_of_spelled interner declared s a first, lookup_of_spelled interner declared s b second]
  have kept := List.sublist_mergeSort (inOrder_trans interner) (inOrder_total interner) alike List.filter_sublist
  have among := kept.filter (isSpelled interner s)
  rw [List.filter_filter] at among
  simp only [Bool.and_self] at among
  have perm := (List.mergeSort_perm declared (inOrder interner)).filter (isSpelled interner s)
  exact (among.eq_of_length perm.length_eq.symm).symm

theorem filter_eq_nil_of_above (first : Variant) (rest : List Variant)
    (sorted : (first :: rest).Pairwise fun a b => interner.lookup a.name ≤ interner.lookup b.name) (s : String)
    (above : s ≤ interner.lookup first.name) (apart : ¬ isSpelled interner s first = true) :
    (first :: rest).filter (isSpelled interner s) = [] := by
  rw [List.filter_eq_nil_iff]
  intro variant member spelled
  simp only [isSpelled, beq_iff_eq] at apart spelled
  rcases List.mem_cons.mp member with same | after
  · exact apart (same ▸ spelled)
  · have below : interner.lookup first.name ≤ s := spelled ▸ List.rel_of_pairwise_cons sorted after
    exact apart (String.le_antisymm below above)

/-- In a list that is sorted by strings, neighbours differ in name exactly if they do so among the variants of each
string. -/
theorem isChain_iff_of_sorted (variants : List Variant)
    (sorted : variants.Pairwise fun a b => interner.lookup a.name ≤ interner.lookup b.name) :
    (variants.IsChain fun a b => a.name ≠ b.name) ↔
      ∀ s, (variants.filter (isSpelled interner s)).IsChain fun a b => a.name ≠ b.name := by
  induction variants with
  | nil => simp
  | cons a rest later =>
    obtain ⟨above, sorted⟩ := List.pairwise_cons.mp sorted
    cases rest with
    | nil =>
      simp only [List.IsChain.singleton, true_iff]
      intro s
      by_cases here : isSpelled interner s a = true <;> simp [here]
    | cons b rest =>
      rw [List.isChain_cons_cons, later sorted]
      constructor
      · intro apart s
        obtain ⟨different, later⟩ := apart
        by_cases here : isSpelled interner s a = true
        · by_cases next : isSpelled interner s b = true
          · have tail := later s
            simp only [List.filter_cons, here, next, if_true] at tail ⊢
            exact List.isChain_cons_cons.mpr ⟨different, tail⟩
          · have reached : s ≤ interner.lookup b.name := beq_iff_eq.mp here ▸ above b List.mem_cons_self
            rw [List.filter_cons_of_pos here, filter_eq_nil_of_above interner b rest sorted s reached next]
            exact .singleton a
        · simpa [List.filter_cons, here] using later s
      · intro apart
        constructor
        · intro same
          have pair := apart (interner.lookup a.name)
          simp [isSpelled, same] at pair
        · intro s
          have tail := apart s
          by_cases here : isSpelled interner s a = true
          · rw [List.filter_cons_of_pos here] at tail
            exact tail.tail
          · rwa [List.filter_cons_of_neg here] at tail

section Written

variable (name : Name) (written : interner.lookup name ≠ "") (declared : List Variant)
include written

theorem length_spelled :
    (declared.filter (isSpelled interner (interner.lookup name))).length = (declared.map Variant.name).count name := by
  rw [List.count_eq_countP, List.countP_map, List.countP_eq_length_filter]
  congr 1
  apply List.filter_congr
  intro variant _
  rw [isSpelled, Function.comp_apply, beq_eq_beq]
  exact interner.lookup_eq_iff name variant.name written

/-- Variants of a string that is not empty share their name, so neighbours differ only if there is at most one. -/
theorem isChain_written_iff :
    ((declared.filter (isSpelled interner (interner.lookup name))).IsChain fun a b => a.name ≠ b.name) ↔
      (declared.map Variant.name).count name ≤ 1 := by
  rw [← length_spelled interner name written declared]
  have named (variant : Variant) (member : variant ∈ declared.filter (isSpelled interner (interner.lookup name))) :
      variant.name = name :=
    (interner.lookup_eq_iff name variant.name written).mp (lookup_of_spelled interner declared _ variant member)
  match declared.filter (isSpelled interner (interner.lookup name)), named with
  | [], _ => simp
  | [variant], _ => simp
  | a :: b :: rest, named => simp [named a (by simp), named b (by simp)]

end Written

/-- What is refused: a name with a string of its own that occurs twice, or a blank name twice in a row. -/
theorem firstRepeat?_sorted_iff (declared : List Variant) :
    firstRepeat? (declared.mergeSort (inOrder interner)) = none ↔
      ¬ RepeatsWritten interner declared ∧ (blankNames interner declared).IsChain (· ≠ ·) := by
  rw [firstRepeat?_eq_none_iff, isChain_iff_of_sorted interner _ (pairwise_sorted interner declared),
    not_repeatsWritten_iff]
  simp only [filter_sorted]
  rw [blankNames, List.isChain_map]
  constructor
  · intro apart
    refine ⟨?_, apart ""⟩
    intro name written
    exact (isChain_written_iff interner name written declared).mp (apart _)
  · intro apart s
    obtain ⟨once, blank⟩ := apart
    cases found : declared.filter (isSpelled interner s) with
    | nil => exact .nil
    | cons variant rest =>
      have spelled := lookup_of_spelled interner declared s variant (by simp [found])
      rw [← found]
      by_cases empty : s = ""
      · rw [empty]
        exact blank
      · rw [← spelled] at empty ⊢
        exact (isChain_written_iff interner variant.name empty declared).mpr (once variant.name empty)

theorem count_blankNames (declared : List Variant) (name : Name) (blank : interner.lookup name = "") :
    (blankNames interner declared).count name = (declared.map Variant.name).count name := by
  simp only [blankNames, List.count_eq_countP, List.countP_map, List.countP_filter]
  apply List.countP_congr
  intro variant _
  simp only [Function.comp_apply, isSpelled, Bool.and_eq_true, beq_iff_eq, and_iff_left_iff_imp]
  intro same
  rw [same, blank]

theorem nodup_names_iff (declared : List Variant) :
    (declared.map Variant.name).Nodup ↔
      ¬ RepeatsWritten interner declared ∧ (blankNames interner declared).Nodup := by
  rw [not_repeatsWritten_iff]
  constructor
  · intro distinct
    refine ⟨fun name _ => List.nodup_iff_count_le_one.mp distinct name, ?_⟩
    exact distinct.sublist (List.filter_sublist.map Variant.name)
  · intro apart
    obtain ⟨once, blank⟩ := apart
    rw [List.nodup_iff_count_le_one]
    intro name
    by_cases empty : interner.lookup name = ""
    · rw [← count_blankNames interner declared name empty]
      exact List.nodup_iff_count_le_one.mp blank name
    · exact once name empty

/-- Whether a declaration is refused for a variant that it does name twice. -/
def RefusesRepeat (name : Name) (declared : List Variant) : Prop :=
  ∃ repeated, 2 ≤ (declared.map Variant.name).count repeated ∧ ofDeclaration interner name declared =
    .error (.duplicateVariant (interner.lookup name) (interner.lookup repeated))

/-- Whether every code is the code of its variant's name. -/
def OneToOne (layout : EnumLayout) : Prop :=
  ∀ code variant, layout.variant? code = some variant → layout.codeOf? variant.name = some code

theorem refusesRepeat_iff (name : Name) (declared : List Variant) :
    RefusesRepeat interner name declared ↔
      declared.length < capacity ∧ firstRepeat? (declared.mergeSort (inOrder interner)) ≠ none := by
  constructor
  · intro refused
    obtain ⟨repeated, twice, failed⟩ := refused
    have narrow : declared.length < capacity := by
      by_contra wide
      rw [ofDeclaration_of_wide interner name declared (Nat.le_of_not_lt wide)] at failed
      cases failed
    refine ⟨narrow, ?_⟩
    intro apart
    have inhabited : declared ≠ [] := by
      intro empty
      simp [empty] at twice
    rw [(ofDeclaration_ok_iff_apart interner name declared _).mpr ⟨inhabited, narrow, apart, rfl⟩] at failed
    cases failed
  · rintro ⟨narrow, repeats⟩
    refine ofDeclaration_of_neighbours interner name declared ?_ narrow repeats
    intro empty
    simp [empty, firstRepeat?] at repeats

theorem oneToOne_iff (layout : EnumLayout) : layout.OneToOne ↔ (layout.variants.map Variant.name).Nodup := by
  constructor
  · intro coded
    rw [List.nodup_iff_getElem?_ne_getElem?]
    intro first second before bound same
    have bound : second < layout.variants.length := by simpa using bound
    have early := coded first _ (List.getElem?_eq_getElem (before.trans bound))
    have late := coded second _ (List.getElem?_eq_getElem bound)
    have named : layout.variants[first].name = layout.variants[second].name := by
      simpa [before.trans bound, bound] using same
    rw [named, late, Option.some.injEq] at early
    omega
  · intro distinct code variant found
    exact (codeOf?_eq_some_iff layout distinct variant.name code).mpr ⟨variant, found, rfl⟩

section Built

variable {interner} {name : Name} {declared : List Variant} {layout : EnumLayout}
  (built : ofDeclaration interner name declared = .ok layout)
include built

theorem perm_of_built : (layout.variants.map Variant.name).Perm (declared.map Variant.name) := by
  obtain ⟨_, _, _, rfl⟩ := (ofDeclaration_ok_iff_apart interner name declared layout).mp built
  exact (List.mergeSort_perm declared (inOrder interner)).map Variant.name

theorem apart_of_built :
    ¬ RepeatsWritten interner declared ∧ (blankNames interner declared).IsChain (· ≠ ·) := by
  obtain ⟨_, _, apart, _⟩ := (ofDeclaration_ok_iff_apart interner name declared layout).mp built
  exact (firstRepeat?_sorted_iff interner declared).mp apart

theorem nodup_iff_of_built :
    (layout.variants.map Variant.name).Nodup ↔ (blankNames interner declared).Nodup := by
  rw [(perm_of_built built).nodup_iff, nodup_names_iff interner declared]
  exact and_iff_right (apart_of_built built).1

theorem codeOf?_of_written (code : Nat) (variant : Variant) (found : layout.variant? code = some variant)
    (written : interner.lookup variant.name ≠ "") : layout.codeOf? variant.name = some code := by
  apply layout.codeOf?_of_count code variant found
  rw [(perm_of_built built).count_eq]
  exact (not_repeatsWritten_iff interner declared).mp (apart_of_built built).1 variant.name written

end Built

theorem nodup_of_single (names : List Name) (single : ∀ a ∈ names, ∀ b ∈ names, a = b)
    (apart : names.IsChain (· ≠ ·)) : names.Nodup := by
  match names with
  | [] => exact .nil
  | [name] => exact List.nodup_singleton name
  | a :: b :: rest => exact absurd (single a (by simp) b (by simp)) (List.isChain_cons_cons.mp apart).1

/-- A declaration repeats a name if it does so among the names with a string of their own or among the blank ones. One
of more variants than there are codes is refused for their number. Any other is refused for a repeat of a name with a
string of its own, but of the blank ones only for two in a row. A layout that it does get has distinct names, and codes
that its names lead back to, exactly if the blank names are distinct; names that are not blank always lead back to their
codes. Where all blank names are the same, every repeat is refused. -/
theorem ofDeclaration_repeats (interner : Interner) (name : Name) (declared : List Variant) :
    (¬ (declared.map Variant.name).Nodup ↔
      RepeatsWritten interner declared ∨ ¬ (blankNames interner declared).Nodup) ∧
    (RefusesRepeat interner name declared ↔ declared.length < capacity ∧
      (RepeatsWritten interner declared ∨ ¬ (blankNames interner declared).IsChain (· ≠ ·))) ∧
    (capacity ≤ declared.length → ofDeclaration interner name declared =
      .error (.tooManyVariants (interner.lookup name) declared.length)) ∧
    (declared ≠ [] → declared.length < capacity → RefusesRepeat interner name declared ∨
      ∃ layout, ofDeclaration interner name declared = .ok layout) ∧
    (∀ layout, ofDeclaration interner name declared = .ok layout →
      ((layout.variants.map Variant.name).Nodup ↔ (blankNames interner declared).Nodup) ∧
      (layout.OneToOne ↔ (blankNames interner declared).Nodup) ∧
      ∀ code variant, layout.variant? code = some variant → interner.lookup variant.name ≠ "" →
        layout.codeOf? variant.name = some code) ∧
    ((∀ a ∈ blankNames interner declared, ∀ b ∈ blankNames interner declared, a = b) →
      (RefusesRepeat interner name declared ↔
        declared.length < capacity ∧ ¬ (declared.map Variant.name).Nodup) ∧
      ∀ layout, ofDeclaration interner name declared = .ok layout →
        (layout.variants.map Variant.name).Nodup ∧ layout.OneToOne) := by
  have repeats : ¬ (declared.map Variant.name).Nodup ↔
      RepeatsWritten interner declared ∨ ¬ (blankNames interner declared).Nodup := by
    rw [nodup_names_iff interner declared, not_and_or, not_not]
  have refused : RefusesRepeat interner name declared ↔ declared.length < capacity ∧
      (RepeatsWritten interner declared ∨ ¬ (blankNames interner declared).IsChain (· ≠ ·)) := by
    rw [refusesRepeat_iff, ne_eq, firstRepeat?_sorted_iff, not_and_or, not_not]
  refine ⟨repeats, refused, ofDeclaration_of_wide interner name declared, ?_, ?_, ?_⟩
  · intro inhabited narrow
    rw [refusesRepeat_iff]
    by_cases apart : firstRepeat? (declared.mergeSort (inOrder interner)) = none
    · exact .inr ⟨_, (ofDeclaration_ok_iff_apart interner name declared _).mpr ⟨inhabited, narrow, apart, rfl⟩⟩
    · exact .inl ⟨narrow, apart⟩
  · intro layout built
    have distinct := nodup_iff_of_built built
    exact ⟨distinct, (oneToOne_iff layout).trans distinct, codeOf?_of_written built⟩
  · intro single
    have distinct := nodup_of_single (blankNames interner declared) single
    constructor
    · rw [refused, repeats]
      exact and_congr_right fun _ => or_congr_right (not_congr ⟨distinct, fun nodup => nodup.isChain⟩)
    · intro layout built
      have names := (nodup_iff_of_built built).mpr (distinct (apart_of_built built).2)
      exact ⟨names, (oneToOne_iff layout).mpr names⟩

/-- Two names that the interner does not know, one of them on both sides of the other. -/
theorem ofDeclaration_repeats_overlooked :
    let interner : Interner := ⟨["Gap"], by decide⟩
    let outer : Variant := ⟨⟨500⟩, 0⟩
    let inner : Variant := ⟨⟨501⟩, 0⟩
    let layout : EnumLayout := ⟨⟨7⟩, [outer, inner, outer]⟩
    2 ≤ ([outer, inner, outer].map Variant.name).count outer.name ∧
      ofDeclaration interner ⟨7⟩ [outer, inner, outer] = .ok layout ∧
      ¬ RefusesRepeat interner ⟨7⟩ [outer, inner, outer] ∧ ¬ (layout.variants.map Variant.name).Nodup ∧
      layout.variant? 2 = some outer ∧ layout.codeOf? outer.name = some 0 := by
  intro interner outer inner layout
  have built : ofDeclaration interner ⟨7⟩ [outer, inner, outer] = .ok layout := by
    unfold ofDeclaration
    rw [List.mergeSort_of_pairwise (by decide)]
    rfl
  refine ⟨by decide, built, ?_, by decide, rfl, rfl⟩
  intro refused
  obtain ⟨repeated, _, failed⟩ := refused
  rw [built] at failed
  cases failed

end EnumLayout

end TagLang
