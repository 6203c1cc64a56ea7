import TagLang.Proofs.VariantTags
import TagLang.Session.Run

/-! Enum variants away from home. A variant carries the position of its enum and its code, and both are read in the
registry of the program that runs, so what a variant means abroad depends on what is registered there. -/

namespace TagLang

namespace EnumRegistry

variable (home away : EnumRegistry)

/-- Whether a code that two registries both give out, at one position, belongs to one name. -/
def CodesAgree : Prop :=
  ∀ enumId layout other, home.get? enumId = some layout → away.get? enumId = some other →
    ∀ variant name code, layout.codeOf? variant = some code → other.codeOf? name = some code → name = variant

/-- Whether two registries have enums of one name wherever both have one with variants. -/
def NamesAgree : Prop :=
  ∀ enumId layout other, home.get? enumId = some layout → away.get? enumId = some other →
    layout.variants ≠ [] → other.variants ≠ [] → layout.name = other.name

end EnumRegistry

namespace Arm

/-- Whether no arm is for a value. -/
def Unmatched (interner : Interner) (arena : Arena) (value : Value) (arms : List Arm) : Prop :=
  ∃ described, selectArm interner arena arms value = some (.error (.of (.nonExhaustiveMatch described)))

/-- Whether a value takes an arm that stands behind others: it matches none of those, and with the arm it does match. -/
def Taken (interner : Interner) (arena : Arena) (value : Value) (earlier : List Arm) (arm : Arm) : Prop :=
  Unmatched interner arena value earlier ∧ ¬ Unmatched interner arena value (earlier ++ [arm])

variable (interner : Interner) (arena : Arena) (value : Value) (discriminant : Discriminant)
  (tagged : value.discriminant? = some discriminant)
include tagged

theorem unmatched_iff (arms : List Arm) :
    Unmatched interner arena value arms ↔ ∀ arm ∈ arms, ¬ arm.isFor arena.enums discriminant = true := by
  simp only [Unmatched, selectArm, tagged]
  constructor
  · rintro ⟨described, failed⟩
    split at failed
    next absent => exact List.find?_eq_none.mp absent
    next => cases failed
    next name range body found =>
      obtain ⟨names, _, outcome⟩ := Option.bind_eq_some_iff.mp failed
      split at outcome <;> cases outcome
  · intro unmatched
    have absent : arms.find? (·.isFor arena.enums discriminant) = none := List.find?_eq_none.mpr unmatched
    rw [absent]
    exact ⟨_, rfl⟩

theorem taken_iff (earlier : List Arm) (arm : Arm) :
    Taken interner arena value earlier arm ↔
      (∀ other ∈ earlier, ¬ other.isFor arena.enums discriminant = true) ∧
        arm.isFor arena.enums discriminant = true := by
  unfold Taken
  rw [unmatched_iff _ _ _ _ tagged, unmatched_iff _ _ _ _ tagged]
  constructor
  · rintro ⟨unmatched, matched⟩
    refine ⟨unmatched, ?_⟩
    by_contra different
    apply matched
    intro other listed
    rcases List.mem_append.mp listed with before | last
    · exact unmatched other before
    · rw [List.mem_singleton.mp last]
      exact different
  · rintro ⟨unmatched, matched⟩
    exact ⟨unmatched, fun none => none arm (by simp) matched⟩

end Arm

namespace EnumLayout

theorem ofDeclaration_of_sorted (interner : Interner) (name : Name) (declared : List Variant)
    (inhabited : declared.isEmpty = false) (narrow : declared.length < capacity)
    (sorted : declared.Pairwise fun a b => inOrder interner a b = true) (distinct : firstRepeat? declared = none) :
    ofDeclaration interner name declared = .ok ⟨name, declared⟩ := by
  unfold ofDeclaration
  rw [List.mergeSort_of_pairwise sorted]
  simp [inhabited, Nat.not_le.mpr narrow, distinct]

theorem codeOf?_first (layout : EnumLayout) (inhabited : layout.variants ≠ []) :
    ∃ variant, layout.codeOf? variant = some 0 := by
  obtain ⟨first, rest, shape⟩ := List.exists_cons_of_ne_nil inhabited
  exact ⟨first.name, by simp [codeOf?, shape, List.findIdx?_cons]⟩

theorem variants_ne_nil (layout : EnumLayout) (variant : Name) (code : Nat)
    (coded : layout.codeOf? variant = some code) : layout.variants ≠ [] := by
  intro empty
  simp [codeOf?, empty] at coded

end EnumLayout

/-- Every variant of a layout can be built. -/
theorem Value.ofVariant_of_codeOf? (interner : Interner) (layout : EnumLayout) (enumId : EnumId) (variant : Name)
    (code : Nat) (coded : layout.codeOf? variant = .some code) :
    ∃ payload, ofVariant interner layout enumId variant payload = .ok (tag (.dense enumId code) payload) := by
  obtain ⟨declared, found, _⟩ := layout.variant?_of_codeOf? variant code coded
  refine ⟨List.replicate declared.arity .none, ?_⟩
  simp [ofVariant, coded, found]

section Abroad

variable (home away : Arena)

theorem taken_named_iff :
    (∀ interner enumId layout variant payload value, home.enums.get? enumId = some layout →
      Value.ofVariant interner layout enumId variant payload = .ok value →
      ∀ earlier name range body, Arm.Taken interner away value earlier ⟨.tag name range, body⟩ → name = variant) ↔
    home.enums.CodesAgree away.enums := by
  constructor
  · intro named enumId layout other registered foreign variant name code coded also
    obtain ⟨payload, built⟩ := Value.ofVariant_of_codeOf? .new layout enumId variant code coded
    refine named .new enumId layout variant payload _ registered built [] name .empty .absent ?_
    rw [Arm.taken_iff _ _ _ (.dense enumId code) rfl]
    simp [Arm.isFor, Discriminant.isDenotedBy, foreign, also]
  · intro agree interner enumId layout variant payload value registered built earlier name range body taken
    obtain ⟨code, coded, rfl⟩ := Value.ofVariant_ok interner layout enumId variant payload value built
    rw [Arm.taken_iff _ _ _ (.dense enumId code) rfl] at taken
    have denoted : ((away.enums.get? enumId).bind fun layout => layout.codeOf? name) = some code :=
      beq_iff_eq.mp taken.2
    obtain ⟨other, foreign, also⟩ := Option.bind_eq_some_iff.mp denoted
    exact agree enumId layout other registered foreign variant name code coded also

theorem equals_apart_iff :
    (∀ interner enumId layout variant payload value otherId other another contents foreign,
      home.enums.get? enumId = some layout → away.enums.get? otherId = some other → layout.name ≠ other.name →
      Value.ofVariant interner layout enumId variant payload = .ok value →
      Value.ofVariant interner other otherId another contents = .ok foreign → ¬ value.equals foreign = true) ↔
    home.enums.NamesAgree away.enums := by
  constructor
  · intro apart enumId layout other registered foreign inhabited populated
    by_contra different
    obtain ⟨variant, coded⟩ := layout.codeOf?_first inhabited
    obtain ⟨another, also⟩ := other.codeOf?_first populated
    obtain ⟨payload, built⟩ := Value.ofVariant_of_codeOf? .new layout enumId variant 0 coded
    obtain ⟨contents, builtToo⟩ := Value.ofVariant_of_codeOf? .new other enumId another 0 also
    refine apart .new enumId layout variant payload _ enumId other another contents _ registered foreign different
      built builtToo ?_
    rw [Value.equals_tagged_iff _ _ (.dense enumId 0) rfl]
    rfl
  · intro agree interner enumId layout variant payload value otherId other another contents foreign registered
      registeredToo different built builtToo equal
    obtain ⟨code, coded, rfl⟩ := Value.ofVariant_ok interner layout enumId variant payload value built
    obtain ⟨same, codedToo, rfl⟩ := Value.ofVariant_ok interner other otherId another contents foreign builtToo
    rw [Value.equals_tagged_iff _ _ (.dense enumId code) rfl] at equal
    obtain ⟨rfl, rfl⟩ : otherId = enumId ∧ same = code := by simpa [Value.discriminant?] using equal
    have inhabited := layout.variants_ne_nil variant same coded
    have populated := other.variants_ne_nil another same codedToo
    exact different (agree otherId layout other registered registeredToo inhabited populated)

/-- A variant takes only arms of its own name in another arena if, and only if, the codes that both arenas give out at
one position are those of one name. Variants of enums with different names are never equal if, and only if, the two
arenas have enums of one name wherever both have one. Both are so where arenas share the layouts at shared positions. -/
theorem selectArm_abroad :
    ((∀ interner enumId layout variant payload value, home.enums.get? enumId = some layout →
        Value.ofVariant interner layout enumId variant payload = .ok value →
        ∀ earlier name range body, Arm.Taken interner away value earlier ⟨.tag name range, body⟩ → name = variant) ↔
      home.enums.CodesAgree away.enums) ∧
    ((∀ interner enumId layout variant payload value otherId other another contents foreign,
        home.enums.get? enumId = some layout → away.enums.get? otherId = some other → layout.name ≠ other.name →
        Value.ofVariant interner layout enumId variant payload = .ok value →
        Value.ofVariant interner other otherId another contents = .ok foreign → ¬ value.equals foreign = true) ↔
      home.enums.NamesAgree away.enums) ∧
    ((∀ enumId layout other, home.enums.get? enumId = some layout → away.enums.get? enumId = some other →
        layout = other) →
      home.enums.CodesAgree away.enums ∧ home.enums.NamesAgree away.enums) := by
  refine ⟨taken_named_iff home away, equals_apart_iff home away, fun shared => ⟨?_, ?_⟩⟩
  · intro enumId layout other registered foreign variant name code coded also
    obtain rfl := shared enumId layout other registered foreign
    exact ((layout.codeOf?_eq_iff variant name code coded).mp also).symm
  · intro enumId layout other registered foreign _ _
    rw [shared enumId layout other registered foreign]

end Abroad

/-- `Shape.circle` and `Color.blue` are the first variants of the first enums of two arenas. A closure over the arena of
`Color` that is called with `Shape.circle` takes its arm for `blue`, and the two variants are equal. -/
theorem selectArm_abroad_mistaken :
    let interner : Interner := ⟨["Shape", "circle", "square", "Color", "blue", "red", "f", "x"], by decide⟩
    let shape : EnumLayout := ⟨⟨7⟩, [⟨⟨8⟩, 0⟩, ⟨⟨9⟩, 0⟩]⟩
    let color : EnumLayout := ⟨⟨10⟩, [⟨⟨11⟩, 0⟩, ⟨⟨12⟩, 0⟩]⟩
    let home : Arena := { Arena.empty with
      exprs := #[⟨.variant ⟨0⟩ ⟨8⟩ .empty, .dummy⟩, ⟨.ident ⟨13⟩, .dummy⟩, ⟨.call ⟨1⟩ ⟨0, 1⟩, .dummy⟩]
      exprLists := #[⟨0⟩]
      enums := ⟨#[shape]⟩ }
    let away : Arena := { Arena.empty with
      exprs := #[⟨.ident ⟨14⟩, .dummy⟩, ⟨.int .one, .dummy⟩, ⟨.int .zero, .dummy⟩, ⟨.when ⟨0⟩ ⟨0, 2⟩, .dummy⟩]
      arms := #[⟨.tag ⟨11⟩ .empty, ⟨1⟩⟩, ⟨.default, ⟨2⟩⟩]
      enums := ⟨#[color]⟩ }
    let closure : Closure Value := ⟨.empty, [⟨14⟩], ⟨3⟩, .empty, ⟨1, away⟩, 0⟩
    let session := Session.new interner ⟨0, home⟩ (Environment.new.define ⟨13⟩ (.function closure)) .interpret 1
    let circle : Value := .tag (.dense ⟨0⟩ 0) []
    let blue : Value := .tag (.dense ⟨0⟩ 0) []
    EnumLayout.ofDeclaration interner ⟨7⟩ shape.variants = .ok shape ∧
      EnumLayout.ofDeclaration interner ⟨10⟩ color.variants = .ok color ∧
      Value.ofVariant interner shape ⟨0⟩ ⟨8⟩ [] = .ok circle ∧
      Value.ofVariant interner color ⟨0⟩ ⟨11⟩ [] = .ok blue ∧
      Arm.Taken interner away circle [] ⟨.tag ⟨11⟩ .empty, ⟨1⟩⟩ ∧
      (∃ after, session.eval 12 ⟨2⟩ = .finished (.ok (.number .one)) after) ∧
      shape.name ≠ color.name ∧ circle.equals blue = true := by
  intro interner shape color home away closure session circle blue
  refine ⟨EnumLayout.ofDeclaration_of_sorted _ _ _ rfl (by decide) (by decide) rfl,
    EnumLayout.ofDeclaration_of_sorted _ _ _ rfl (by decide) (by decide) rfl, rfl, rfl, ?_, ⟨_, rfl⟩, by decide, ?_⟩
  · rw [Arm.taken_iff _ _ _ (.dense ⟨0⟩ 0) rfl]
    decide
  · rw [Value.equals_tagged_iff _ _ (.dense ⟨0⟩ 0) rfl]
    rfl

end TagLang
