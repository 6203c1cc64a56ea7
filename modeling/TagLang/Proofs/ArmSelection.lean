import Mathlib.Order.Bounds.Basic
import TagLang.Proofs.MatchedOutcomes

/-! The choice of an arm, told by what it comes to. The first arm that applies decides alone, also where it fails
because it names more values than there are. -/

namespace TagLang

namespace Discriminant

/-- The names of a discriminant: its own, or the name that has its code in the layout that is registered. -/
inductive Denoted (enums : EnumRegistry) (name : Name) : Discriminant → Prop
  | named : Denoted enums name (.named name)
  | dense {enumId : EnumId} {code : Nat} (layout : EnumLayout) (registered : enums.get? enumId = some layout)
      (coded : layout.codeOf? name = some code) : Denoted enums name (.dense enumId code)

theorem isDenotedBy_iff (enums : EnumRegistry) (name : Name) (discriminant : Discriminant) :
    discriminant.isDenotedBy enums name = true ↔ discriminant.Denoted enums name := by
  cases discriminant with
  | named tag =>
    constructor
    · intro same
      rw [beq_iff_eq.mp same]
      exact .named
    · rintro ⟨⟩
      exact beq_self_eq_true name
  | dense enumId code =>
    simp only [isDenotedBy, beq_iff_eq, Option.bind_eq_some_iff]
    constructor
    · rintro ⟨layout, registered, coded⟩
      exact .dense layout registered coded
    · rintro (_ | ⟨layout, registered, coded⟩)
      exact ⟨layout, registered, coded⟩

end Discriminant

namespace Arm

variable (enums : EnumRegistry) (discriminant : Discriminant)

def Applies (arm : Arm) : Prop :=
  arm.pattern = .default ∨ ∃ name range, arm.pattern = .tag name range ∧ discriminant.Denoted enums name

/-- Whether an index is the least of those with an arm that applies. -/
def IsFirst (arms : List Arm) (index : Nat) : Prop :=
  IsLeast {index | ∃ arm, arms[index]? = some arm ∧ arm.Applies enums discriminant} index

theorem isFor_iff (arm : Arm) : arm.isFor enums discriminant = true ↔ arm.Applies enums discriminant := by
  cases pattern : arm.pattern with
  | default => simp [isFor, Applies, pattern]
  | tag name range => simp [isFor, Applies, pattern, Discriminant.isDenotedBy_iff]

theorem find?_eq_none_iff (arms : List Arm) :
    arms.find? (·.isFor enums discriminant) = none ↔ ∀ arm ∈ arms, ¬ arm.Applies enums discriminant := by
  simp only [List.find?_eq_none, isFor_iff]

theorem find?_eq_some_iff (arms : List Arm) (arm : Arm) :
    arms.find? (·.isFor enums discriminant) = some arm ↔
      ∃ index, arms[index]? = some arm ∧ IsFirst enums discriminant arms index := by
  rw [List.find?_eq_some_iff_getElem, isFor_iff]
  constructor
  · rintro ⟨applies, index, bound, rfl, earlier⟩
    refine ⟨index, List.getElem?_eq_getElem bound, ⟨_, List.getElem?_eq_getElem bound, applies⟩, ?_⟩
    rintro other ⟨arm, placed, also⟩
    apply Nat.le_of_not_lt
    intro before
    have unfit := earlier other before
    rw [Bool.not_eq_true', Bool.eq_false_iff] at unfit
    obtain ⟨_, rfl⟩ := List.getElem?_eq_some_iff.mp placed
    exact unfit ((isFor_iff ..).mpr also)
  · rintro ⟨index, placed, ⟨same, placedToo, applies⟩, least⟩
    obtain rfl := Option.some.inj (placed.symm.trans placedToo)
    obtain ⟨bound, rfl⟩ := List.getElem?_eq_some_iff.mp placed
    refine ⟨applies, index, bound, rfl, ?_⟩
    intro other before
    rw [Bool.not_eq_true', Bool.eq_false_iff]
    intro fits
    have inside := List.getElem?_eq_getElem (Nat.lt_trans before bound)
    exact Nat.not_le_of_lt before (least ⟨_, inside, (isFor_iff ..).mp fits⟩)

end Arm

section Selection

variable (interner : Interner) (arena : Arena) (arms : List Arm) (value : Value)

/-- Whether an arm is the first one that applies to a value. -/
def Decides (arm : Arm) : Prop :=
  ∃ discriminant index, value.discriminant? = some discriminant ∧ arms[index]? = some arm ∧
    Arm.IsFirst arena.enums discriminant arms index

/-- What the choice of an arm comes to. -/
inductive Selection : Except EvalError SelectedArm → Prop
  | untagged (untagged : value.discriminant? = none) : Selection (.error (.of (.typeMismatch "Tag" value.typeName)))
  | unmatched (discriminant : Discriminant) (tagged : value.discriminant? = some discriminant)
      (unmatched : ∀ arm ∈ arms, ¬ arm.Applies arena.enums discriminant) :
      Selection (.error (.of (.nonExhaustiveMatch (discriminant.describe interner arena.enums))))
  | default (body : ExprId) (decides : Decides arena arms value ⟨.default, body⟩) : Selection (.ok ⟨body, []⟩)
  /-- The arm names more values than the payload has. -/
  | excess (name : Name) (range : TableRange) (body : ExprId)
      (decides : Decides arena arms value ⟨.tag name range, body⟩) (names : List Name)
      (listed : arena.names? range = some names) (more : value.payload.length < names.length) :
      Selection (.error (.of (.arityMismatch (interner.lookup name) value.payload.length names.length)))
  /-- The arm names the leading values of the payload. -/
  | tag (name : Name) (range : TableRange) (body : ExprId)
      (decides : Decides arena arms value ⟨.tag name range, body⟩) (bindings : List (Name × Value))
      (listed : arena.names? range = some (bindings.map Prod.fst))
      (leading : bindings.map Prod.snd <+: value.payload) : Selection (.ok ⟨body, bindings⟩)

theorem map_snd_zip_leading (names : List Name) (payload : List Value) :
    (names.zip payload).map Prod.snd <+: payload := by
  induction names generalizing payload with
  | nil => exact List.nil_prefix
  | cons name names zipped =>
    cases payload with
    | nil => exact List.nil_prefix
    | cons content payload => simpa using zipped payload

theorem zip_of_leading (bindings : List (Name × Value)) (payload : List Value)
    (leading : bindings.map Prod.snd <+: payload) : (bindings.map Prod.fst).zip payload = bindings := by
  obtain ⟨rest, rfl⟩ := leading
  induction bindings with
  | nil => rfl
  | cons binding bindings zipped => simp [zipped]

variable {interner arena arms value}

theorem decides_iff {arm : Arm} : Decides arena arms value arm ↔
    ∃ discriminant, value.discriminant? = some discriminant ∧
      arms.find? (·.isFor arena.enums discriminant) = some arm := by
  simp only [Decides, Arm.find?_eq_some_iff, exists_and_left]

theorem selection_of_selectArm {outcome : Except EvalError SelectedArm}
    (chosen : selectArm interner arena arms value = some outcome) : Selection interner arena arms value outcome := by
  unfold selectArm at chosen
  split at chosen
  next untagged =>
    cases chosen
    exact .untagged untagged
  next discriminant tagged =>
    split at chosen
    next absent =>
      cases chosen
      exact .unmatched discriminant tagged ((Arm.find?_eq_none_iff ..).mp absent)
    next body found =>
      cases chosen
      exact .default body (decides_iff.mpr ⟨discriminant, tagged, found⟩)
    next name range body found =>
      have decides := decides_iff.mpr ⟨discriminant, tagged, found⟩
      obtain ⟨names, listed, outcome⟩ := Option.bind_eq_some_iff.mp chosen
      split at outcome
      next fits =>
        cases outcome
        refine .tag name range body decides _ ?_ (map_snd_zip_leading ..)
        rw [listed, List.map_fst_zip fits]
      next more =>
        cases outcome
        exact .excess name range body decides names listed (Nat.lt_of_not_le more)

theorem selectArm_of_selection {outcome : Except EvalError SelectedArm}
    (selection : Selection interner arena arms value outcome) :
    selectArm interner arena arms value = some outcome := by
  cases selection with
  | untagged untagged => simp [selectArm, untagged]
  | unmatched discriminant tagged unmatched =>
    have absent := (Arm.find?_eq_none_iff ..).mpr unmatched
    simp [selectArm, tagged, absent]
  | default body decides =>
    obtain ⟨discriminant, tagged, found⟩ := decides_iff.mp decides
    simp [selectArm, tagged, found]
  | excess name range body decides names listed more =>
    obtain ⟨discriminant, tagged, found⟩ := decides_iff.mp decides
    simp [selectArm, tagged, found, listed, Nat.not_le_of_lt more]
  | tag name range body decides bindings listed leading =>
    obtain ⟨discriminant, tagged, found⟩ := decides_iff.mp decides
    have fits : bindings.length ≤ value.payload.length := by simpa using leading.length_le
    have zipped := zip_of_leading bindings value.payload leading
    simp [selectArm, tagged, found, listed, fits, zipped]

variable (interner arena arms value)

/-- An arm is chosen or refused as the first one that applies says, whatever stands after it. There is an outcome
wherever the names of all arms lie in the arena. -/
theorem selectArm_first_applicable :
    (∀ outcome, selectArm interner arena arms value = some outcome ↔ Selection interner arena arms value outcome) ∧
    ((∀ arm ∈ arms, ∀ name range, arm.pattern = .tag name range → range.stop ≤ arena.names.size) →
      ∃ outcome, selectArm interner arena arms value = some outcome) := by
  refine ⟨fun _ => ⟨selection_of_selectArm, selectArm_of_selection⟩, ?_⟩
  intro inside
  apply Option.isSome_iff_exists.mp
  apply selectArm_isSome
  intro arm listed
  cases pattern : arm.pattern with
  | default => simp [Arena.nodeArm?, pattern]
  | tag name range =>
    have bound := inside arm listed name range pattern
    simp [Arena.nodeArm?, Arena.names?, TableRange.read?, pattern, bound]

end Selection

/-- Arms for `ok`, for `side` with two names, and for the rest. `Shape.side(1)` is refused by the second one, though the
last would take it. -/
theorem selectArm_first_applicable_excess :
    let interner : Interner := ⟨["Shape", "side", "x", "y"], by decide⟩
    let arena : Arena := { Arena.empty with names := #[⟨9⟩, ⟨10⟩], enums := ⟨#[⟨⟨7⟩, [⟨⟨8⟩, 1⟩]⟩]⟩ }
    let arms : List Arm := [⟨.tag .okTag ⟨0, 1⟩, ⟨0⟩⟩, ⟨.tag ⟨8⟩ ⟨0, 2⟩, ⟨1⟩⟩, ⟨.default, ⟨2⟩⟩]
    let side : Value := .tag (.dense ⟨0⟩ 0) [.number .one]
    (∀ arm ∈ arms, ∀ name range, arm.pattern = .tag name range → range.stop ≤ arena.names.size) ∧
      (∃ outcome, selectArm interner arena arms side = some outcome) ∧
      Selection interner arena arms side (.error (.of (.arityMismatch "side" 1 2))) ∧
      Selection interner arena arms (.ok side) (.ok ⟨⟨0⟩, [(⟨9⟩, side)]⟩) ∧
      Selection interner arena arms .none (.ok ⟨⟨2⟩, []⟩) ∧
      Selection interner arena arms (.number .one) (.error (.of (.typeMismatch "Tag" "Number"))) := by
  intro interner arena arms side
  have chosen (value : Value) (outcome : Except EvalError SelectedArm) :=
    (selectArm_first_applicable interner arena arms value).1 outcome
  have inside : ∀ arm ∈ arms, ∀ name range, arm.pattern = .tag name range → range.stop ≤ arena.names.size := by
    simp [arms, arena, TableRange.stop]
  exact ⟨inside, (selectArm_first_applicable interner arena arms side).2 inside, (chosen _ _).mp rfl,
    (chosen _ _).mp rfl, (chosen _ _).mp rfl, (chosen _ _).mp rfl⟩

end TagLang
