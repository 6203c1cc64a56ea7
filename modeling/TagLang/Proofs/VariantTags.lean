import TagLang.Branching
import TagLang.Proofs.ValueEquality

/-! Enum variants beside named tags. A registered variant goes by the code of its name, and the code leads back to
the name, so a variant takes the arms that the named tag with its name and payload takes. -/

namespace TagLang

namespace EnumLayout

variable (layout : EnumLayout)

theorem variant?_of_codeOf? (name : Name) (code : Nat) (coded : layout.codeOf? name = some code) :
    ∃ variant, layout.variant? code = some variant ∧ variant.name = name := by
  obtain ⟨bound, found, _⟩ := List.findIdx?_eq_some_iff_getElem.mp coded
  exact ⟨_, List.getElem?_eq_getElem bound, beq_iff_eq.mp found⟩

theorem codeOf?_eq_iff (name other : Name) (code : Nat) (coded : layout.codeOf? name = some code) :
    layout.codeOf? other = some code ↔ name = other := by
  constructor
  · intro also
    obtain ⟨variant, found, named⟩ := layout.variant?_of_codeOf? name code coded
    obtain ⟨same, foundToo, namedToo⟩ := layout.variant?_of_codeOf? other code also
    rw [found] at foundToo
    rw [← named, ← namedToo, Option.some.inj foundToo]
  · rintro rfl
    exact coded

end EnumLayout

namespace Discriminant

variable (enums : EnumRegistry) (layout : EnumLayout) (enumId : EnumId) (variant : Name) (code : Nat)
  (registered : enums.get? enumId = some layout) (coded : layout.codeOf? variant = some code)
include registered coded

theorem isDenotedBy_dense (name : Name) :
    (dense enumId code).isDenotedBy enums name = (named variant).isDenotedBy enums name := by
  have denoted := layout.codeOf?_eq_iff variant name code coded
  rw [Bool.eq_iff_iff]
  simpa [isDenotedBy, registered] using denoted

theorem describe_dense (interner : Interner) :
    (dense enumId code).describe interner enums = (named variant).describe interner enums := by
  obtain ⟨declared, found, name⟩ := layout.variant?_of_codeOf? variant code coded
  simp only [describe, registered, Option.bind_some, found, name]

end Discriminant

namespace Value

theorem discriminant?_ofTag (name : Name) (payload : List Value) :
    (ofTag name payload).discriminant? = .some (.named name) := by
  unfold ofTag
  split
  · split_ifs with isTrue isFalse isNone
    · rw [isTrue]; rfl
    · rw [isFalse]; rfl
    · rw [isNone]; rfl
    · rfl
  · split_ifs with isSome isOk isError
    · rw [isSome]; rfl
    · rw [isOk]; rfl
    · rw [isError]; rfl
    · rfl
  · rfl

theorem payload_ofTag (name : Name) (payload : List Value) : (ofTag name payload).payload = payload := by
  unfold ofTag
  split
  · split_ifs <;> rfl
  · split_ifs <;> rfl
  · rfl

theorem ofVariant_ok (interner : Interner) (layout : EnumLayout) (enumId : EnumId) (variant : Name)
    (payload : List Value) (value : Value) (built : ofVariant interner layout enumId variant payload = .ok value) :
    ∃ code, layout.codeOf? variant = .some code ∧ value = tag (.dense enumId code) payload := by
  unfold ofVariant at built
  split at built
  next => cases built
  next code coded =>
    refine ⟨code, coded, ?_⟩
    split at built
    next declared found =>
      split_ifs at built
      exact (Except.ok.inj built).symm
    next => exact (Except.ok.inj built).symm

end Value

/-- Tags whose discriminants are denoted and described alike take the same arm with the same payload. -/
theorem selectArm_congr (interner : Interner) (arena : Arena) (arms : List Arm) (left right : Value)
    (first second : Discriminant) (leftTagged : left.discriminant? = some first)
    (rightTagged : right.discriminant? = some second)
    (denoted : ∀ name, first.isDenotedBy arena.enums name = second.isDenotedBy arena.enums name)
    (described : first.describe interner arena.enums = second.describe interner arena.enums)
    (payload : left.payload = right.payload) :
    selectArm interner arena arms left = selectArm interner arena arms right := by
  have isFor : Arm.isFor arena.enums first = Arm.isFor arena.enums second := by
    funext arm
    unfold Arm.isFor
    cases arm.pattern with
    | default => rfl
    | tag name bindings => exact denoted name
  unfold selectArm
  rw [leftTagged, rightTagged]
  simp only [isFor, described, payload]

/-- A variant of a registered enum is dispatched as the named tag with its name and payload is, to the same arm with
the same bindings or to the same error; and variants of one enum are equal if their names are, as those tags are. -/
theorem selectArm_ofVariant (interner : Interner) (arena : Arena) (layout : EnumLayout) (enumId : EnumId)
    (registered : arena.enums.get? enumId = some layout) :
    (∀ variant payload dense, Value.ofVariant interner layout enumId variant payload = .ok dense →
      ∀ arms, selectArm interner arena arms dense = selectArm interner arena arms (.ofTag variant payload)) ∧
    ∀ variant payload dense another contents other,
      Value.ofVariant interner layout enumId variant payload = .ok dense →
      Value.ofVariant interner layout enumId another contents = .ok other →
      (dense.equals other = true ↔ variant = another) ∧
      (variant = another ↔ (Value.ofTag variant payload).equals (.ofTag another contents) = true) := by
  constructor
  · intro variant payload dense built arms
    obtain ⟨code, coded, rfl⟩ := Value.ofVariant_ok interner layout enumId variant payload dense built
    have denoted := Discriminant.isDenotedBy_dense arena.enums layout enumId variant code registered coded
    have described := Discriminant.describe_dense arena.enums layout enumId variant code registered coded interner
    have tagged := Value.discriminant?_ofTag variant payload
    have carried := Value.payload_ofTag variant payload
    exact selectArm_congr interner arena arms _ _ _ _ rfl tagged denoted described carried.symm
  · intro variant payload dense another contents other built builtToo
    obtain ⟨code, coded, rfl⟩ := Value.ofVariant_ok interner layout enumId variant payload dense built
    obtain ⟨same, codedToo, rfl⟩ := Value.ofVariant_ok interner layout enumId another contents other builtToo
    have named := layout.codeOf?_eq_iff variant another code coded
    have tagged := Value.discriminant?_ofTag variant payload
    rw [Value.equals_tagged_iff _ _ _ rfl, Value.equals_tagged_iff _ _ _ tagged, Value.discriminant?_ofTag]
    rw [codedToo] at named
    simp only [Value.discriminant?, Option.some.injEq, Discriminant.dense.injEq, true_and,
      Discriminant.named.injEq] at named ⊢
    exact ⟨named, eq_comm⟩

/-- An enum with variants `side` and `none`: the named tag `none` is first-class, the variant of that name is not. -/
theorem selectArm_ofVariant_collapsed :
    let layout : EnumLayout := ⟨⟨7⟩, [⟨.noneTag, 0⟩, ⟨⟨8⟩, 1⟩]⟩
    let arena : Arena := { Arena.empty with names := #[⟨9⟩], enums := ⟨#[layout]⟩ }
    let arms : List Arm := [⟨.tag ⟨8⟩ ⟨0, 1⟩, ⟨0⟩⟩]
    let bare : Value := .tag (.dense ⟨0⟩ 0) []
    let side : Value := .tag (.dense ⟨0⟩ 1) [.number .one]
    Value.ofVariant .new layout ⟨0⟩ .noneTag [] = .ok bare ∧ Value.ofTag .noneTag [] = .none ∧
      Value.ofVariant .new layout ⟨0⟩ ⟨8⟩ [.number .one] = .ok side ∧
      selectArm .new arena arms side = selectArm .new arena arms (.ofTag ⟨8⟩ [.number .one]) ∧
      selectArm .new arena arms side = some (.ok ⟨⟨0⟩, [(⟨9⟩, .number .one)]⟩) ∧
      selectArm .new arena arms bare = selectArm .new arena arms .none ∧
      selectArm .new arena arms bare = some (.error (.of (.nonExhaustiveMatch "none"))) ∧
      ¬ side.equals bare = true := by
  intro layout arena arms bare side
  obtain ⟨dispatched, compared⟩ := selectArm_ofVariant .new arena layout ⟨0⟩ rfl
  have builtBare : Value.ofVariant .new layout ⟨0⟩ .noneTag [] = .ok bare := rfl
  have builtSide : Value.ofVariant .new layout ⟨0⟩ ⟨8⟩ [.number .one] = .ok side := rfl
  have different : Name.mk 8 ≠ .noneTag := by decide
  refine ⟨builtBare, rfl, builtSide, dispatched _ _ _ builtSide arms, rfl, dispatched _ _ _ builtBare arms, rfl, ?_⟩
  intro equal
  exact different ((compared _ _ _ _ _ _ builtSide builtBare).1.mp equal)

end TagLang
