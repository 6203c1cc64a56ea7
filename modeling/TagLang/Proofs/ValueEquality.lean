import Mathlib.Data.List.Perm.Subperm
import TagLang.Proofs.HereditaryValues

/-! The laws of equality. Equality of the language looks at a value's head and at the parts that lists and records
show under positions and names. Where records name each field once it is an equivalence, and exact equality refines
it. -/

namespace TagLang

namespace Bindings

variable {α : Type}

theorem isSome_get?_iff (bindings : Bindings α) (name : Name) :
    (bindings.get? name).isSome ↔ name ∈ bindings.names := by
  simp [get?, names, List.lookup_isSome_iff]

theorem mem_of_get? (bindings : Bindings α) (name : Name) (value : α) (found : bindings.get? name = some value) :
    (name, value) ∈ bindings.entries := by
  obtain ⟨before, after, entries, _⟩ := List.lookup_eq_some_iff.mp found
  simp [entries]

theorem get?_of_mem (bindings : Bindings α) (distinct : bindings.names.Nodup) (name : Name) (value : α)
    (member : (name, value) ∈ bindings.entries) : bindings.get? name = some value := by
  have named : name ∈ bindings.names := List.mem_map_of_mem member
  obtain ⟨other, found⟩ := Option.isSome_iff_exists.mp ((bindings.isSome_get?_iff name).mpr named)
  have same := List.inj_on_of_nodup_map distinct (bindings.mem_of_get? name other found) member rfl
  simpa [(Prod.mk.inj same).2] using found

/-- Bindings of distinct names that are as many as others and all shown by them leave the others no further name. -/
theorem names_perm (left right : Bindings α) (distinct : left.names.Nodup) (size : left.size = right.size)
    (shown : ∀ name ∈ left.names, (right.get? name).isSome) : left.names.Perm right.names := by
  have within : left.names ⊆ right.names := fun name member => (right.isSome_get?_iff name).mp (shown name member)
  have lengths : right.names.length ≤ left.names.length := by
    unfold Bindings.size at size
    simp [names, size]
  exact (distinct.subperm within).perm_of_length_le lengths

end Bindings

namespace Value

/-- What equality sees of a value besides its parts. -/
inductive Head where
  | number (value : Number)
  | text (value : Text)
  | list
  | record
  | tag (discriminant : Discriminant)
  | function (body : ExprId) (program number : Nat)

def head : Value → Head
  | number value => .number value
  | text value => .text value
  | list _ => .list
  | record _ => .record
  | bool value => .tag (.named (if value then .trueTag else .falseTag))
  | some _ => .tag (.named .someTag)
  | none => .tag (.named .noneTag)
  | ok _ => .tag (.named .okTag)
  | error _ => .tag (.named .errorTag)
  | tag discriminant _ => .tag discriminant
  | function closure => .function closure.body closure.program.number closure.number

/-- Where a list or a record shows its parts. -/
inductive Place where
  | item (position : Nat)
  | field (name : Name)

def part? : Value → Place → Option Value
  | list items, .item position => items[position]?
  | record value, .field name => value.get? name
  | _, _ => .none

theorem part?_mem (value : Value) (place : Place) (part : Value) (found : value.part? place = .some part) :
    part ∈ value.constituents := by
  unfold part? at found
  split at found
  next items position => exact List.mem_of_getElem? found
  next record name =>
    have member := Bindings.mem_of_get? record.fields name part found
    exact List.mem_map_of_mem member
  next => cases found

/-- Values that show related parts under the same places. -/
def PartsRelate (values : Value → Value → Prop) (left right : Value) : Prop :=
  ∀ place, Option.Rel values (left.part? place) (right.part? place)

namespace PartsRelate

variable {values others results : Value → Value → Prop} {left middle right : Value}

theorem imp (related : PartsRelate values left right)
    (widen : ∀ part ∈ left.constituents, ∀ other ∈ right.constituents, values part other → others part other) :
    PartsRelate others left right := by
  intro place
  have same := related place
  have within := left.part?_mem place
  have beside := right.part?_mem place
  generalize left.part? place = part at *
  generalize right.part? place = other at *
  cases same with
  | none => exact .none
  | some same => exact .some (widen _ (within _ rfl) _ (beside _ rfl) same)

theorem flip (related : PartsRelate values left right) :
    PartsRelate (fun part other => values other part) right left := by
  intro place
  have same := related place
  generalize left.part? place = part at *
  generalize right.part? place = other at *
  cases same with
  | none => exact .none
  | some same => exact .some same

theorem trans (first : PartsRelate values left middle) (second : PartsRelate others middle right)
    (join : ∀ part ∈ left.constituents, ∀ between ∈ middle.constituents, ∀ other ∈ right.constituents,
      values part between → others between other → results part other) : PartsRelate results left right := by
  intro place
  have same := first place
  have also := second place
  have within := left.part?_mem place
  have between := middle.part?_mem place
  have beside := right.part?_mem place
  generalize left.part? place = part at *
  generalize middle.part? place = inner at *
  generalize right.part? place = other at *
  cases same with
  | none =>
    cases also
    exact .none
  | some same =>
    cases also with
    | some also => exact .some (join _ (within _ rfl) _ (between _ rfl) _ (beside _ rfl) same also)

end PartsRelate

theorem equalItems_iff (left right : List Value) : equalItems left right = true ↔
    ∀ position : Nat, Option.Rel (fun a b => a.equals b = true) left[position]? right[position]? := by
  induction left generalizing right with
  | nil =>
    cases right with
    | nil => simp [equalItems]
    | cons other others =>
      simp only [equalItems, Bool.false_eq_true, false_iff]
      exact fun related => nomatch related 0
  | cons item items later =>
    cases right with
    | nil =>
      simp only [equalItems, Bool.false_eq_true, false_iff]
      exact fun related => nomatch related 0
    | cons other others =>
      rw [equalItems, Bool.and_eq_true, later]
      constructor
      · rintro ⟨first, rest⟩ (_ | position)
        · exact .some first
        · exact rest position
      · intro related
        have first := related 0
        cases first with
        | some equal => exact ⟨equal, fun position => related (position + 1)⟩

theorem equalFields_iff (fields : List (Name × Value)) (other : Bindings Value) : equalFields fields other = true ↔
    ∀ field ∈ fields, ∃ value, other.get? field.1 = .some value ∧ field.2.equals value = true := by
  induction fields with
  | nil => simp [equalFields]
  | cons field fields later =>
    obtain ⟨name, value⟩ := field
    rw [equalFields, Bool.and_eq_true, later, List.forall_mem_cons]
    cases other.get? name <;> simp

/-- Records that name each field once are equal if they show equal values, or none, under every name. -/
theorem equals_record_iff (left right : Record Value) (distinct : left.fields.names.Nodup)
    (others : right.fields.names.Nodup) : (record left).equals (record right) = true ↔
      ∀ name, Option.Rel (fun a b => a.equals b = true) (left.get? name) (right.get? name) := by
  have compared : (record left).equals (record right) =
      (left.size == right.size && equalFields left.fields.entries right.fields) := by rw [equals]; rfl
  rw [compared, Bool.and_eq_true, beq_iff_eq, equalFields_iff]
  constructor
  · rintro ⟨size, shown⟩ name
    have named : left.fields.names.Perm right.fields.names := by
      refine left.fields.names_perm right.fields distinct size ?_
      intro name named
      obtain ⟨field, member, rfl⟩ := List.mem_map.mp named
      obtain ⟨value, found, _⟩ := shown field member
      simp [found]
    cases found : left.get? name with
    | none =>
      -- Only here do the sizes matter: a name that the left record lacks has no place left in the right one.
      have absent : ¬ (right.get? name).isSome := by
        rw [Record.get?, Bindings.isSome_get?_iff, ← named.mem_iff, ← Bindings.isSome_get?_iff]
        simpa [Record.get?] using found
      rw [Option.not_isSome_iff_eq_none.mp absent]
      exact .none
    | some value =>
      obtain ⟨counterpart, same, equal⟩ := shown (name, value) (left.fields.mem_of_get? name value found)
      have same : right.get? name = .some counterpart := same
      rw [same]
      exact .some equal
  · intro related
    have named : ∀ name, name ∈ left.fields.names ↔ name ∈ right.fields.names := by
      intro name
      rw [← Bindings.isSome_get?_iff, ← Bindings.isSome_get?_iff]
      have same := related name
      unfold Record.get? at same
      generalize left.fields.get? name = value at same ⊢
      generalize right.fields.get? name = other at same ⊢
      cases same <;> rfl
    have size := ((List.perm_ext_iff_of_nodup distinct others).mpr named).length_eq
    refine ⟨by simpa [Bindings.names, Record.size, Bindings.size] using size, ?_⟩
    rintro ⟨name, value⟩ member
    have same := related name
    unfold Record.get? at same
    rw [left.fields.get?_of_mem distinct name value member] at same
    generalize right.fields.get? name = found at same ⊢
    cases same with
    | some equal => exact ⟨_, rfl, equal⟩

end Value

/-- Values whose records name each field once, all through. -/
def Demand.distinctFields : Demand where
  record := List.Nodup

namespace Value

theorem head_eq_tag_iff (value : Value) (discriminant : Discriminant) :
    value.head = .tag discriminant ↔ value.discriminant? = .some discriminant := by
  cases value with
  | bool value => cases value <;> simp [head, discriminant?]
  | _ => simp [head, discriminant?]

theorem part?_of_tagged (value : Value) (discriminant : Discriminant)
    (tagged : value.discriminant? = .some discriminant) (place : Place) : value.part? place = .none := by
  cases value with
  | list | record => cases tagged
  | _ => rfl

theorem equals_tagged_iff (left right : Value) (discriminant : Discriminant)
    (tagged : left.discriminant? = .some discriminant) :
    left.equals right = true ↔ right.discriminant? = .some discriminant := by
  unfold equals
  split
  next => cases tagged
  next => cases tagged
  next => cases tagged
  next => cases tagged
  next => cases tagged
  next =>
    rw [tagged]
    cases right.discriminant? with
    | none => simp
    | some other => rw [beq_iff_eq, Option.some.injEq, eq_comm]

theorem equals_iff_of_tagged (left right : Value) (discriminant : Discriminant)
    (tagged : left.discriminant? = .some discriminant) :
    left.equals right = true ↔ left.head = right.head ∧ PartsRelate (fun a b => a.equals b = true) left right := by
  have leftHead := (head_eq_tag_iff left discriminant).mpr tagged
  rw [equals_tagged_iff left right discriminant tagged, leftHead, @eq_comm _ (Head.tag discriminant), head_eq_tag_iff]
  refine ⟨fun also => ⟨also, fun place => ?_⟩, And.left⟩
  rw [part?_of_tagged left discriminant tagged, part?_of_tagged right discriminant also]
  exact .none

/-- Values whose records name each field once are equal if they have one head and show equal parts. -/
theorem equals_iff (left right : Value) (distinct : Demand.distinctFields.Met left)
    (others : Demand.distinctFields.Met right) :
    left.equals right = true ↔ left.head = right.head ∧ PartsRelate (fun a b => a.equals b = true) left right := by
  cases left with
  | number value =>
    cases right with
    | number other => simp [equals, head, PartsRelate, part?]
    | _ => simp [equals, head, discriminant?]
  | text value =>
    cases right with
    | text other => simp [equals, head, PartsRelate, part?]
    | _ => simp [equals, head, discriminant?]
  | list items =>
    cases right with
    | list contents =>
      rw [equals, equalItems_iff]
      refine ⟨fun related => ⟨rfl, ?_⟩, fun related position => related.2 (.item position)⟩
      rintro (position | name)
      · exact related position
      · exact .none
    | _ => simp [equals, head, discriminant?]
  | record value =>
    cases right with
    | record other =>
      rw [equals_record_iff value other distinct others]
      refine ⟨fun related => ⟨rfl, ?_⟩, fun related name => related.2 (.field name)⟩
      rintro (position | name)
      · exact .none
      · exact related name
    | _ => simp [equals, head, discriminant?]
  | function closure =>
    cases right with
    | function other => simp [equals, head, PartsRelate, part?, Closure.isSame, and_assoc]
    | _ => simp [equals, head, discriminant?]
  | bool | tag | some | none | ok | error => exact equals_iff_of_tagged _ right _ ((head_eq_tag_iff _ _).mp rfl)

theorem equals_refl (value : Value) (distinct : Demand.distinctFields.Holds value) : value.equals value = true := by
  induction distinct with
  | intro value here inside equal =>
    rw [equals_iff value value here here]
    refine ⟨rfl, fun place => ?_⟩
    cases found : value.part? place with
    | none => exact .none
    | some part => exact .some (equal part (value.part?_mem place part found))

theorem equals_symm (left right : Value) (distinct : Demand.distinctFields.Holds left)
    (others : Demand.distinctFields.Holds right) (equal : left.equals right = true) : right.equals left = true := by
  induction distinct generalizing right with
  | intro left here inside flipped =>
    -- By induction on the left value: `equals_iff` reads equality both ways round, the parts' is the hypothesis.
    obtain ⟨heads, parts⟩ := (equals_iff left right here others.here).mp equal
    refine (equals_iff right left others.here here).mpr ⟨heads.symm, parts.flip.imp ?_⟩
    intro other within part beside same
    exact flipped part beside other (others.inside other within) same

theorem equals_trans (left middle right : Value) (distinct : Demand.distinctFields.Holds left)
    (between : Demand.distinctFields.Holds middle) (others : Demand.distinctFields.Holds right)
    (first : left.equals middle = true) (second : middle.equals right = true) : left.equals right = true := by
  induction distinct generalizing middle right with
  | intro left here inside joined =>
    obtain ⟨heads, parts⟩ := (equals_iff left middle here between.here).mp first
    obtain ⟨tops, contents⟩ := (equals_iff middle right between.here others.here).mp second
    refine (equals_iff left right here others.here).mpr ⟨heads.trans tops, parts.trans contents ?_⟩
    intro part within inner amid other beside same also
    exact joined part within inner other (between.inside inner amid) (others.inside other beside) same also

theorem sameItems_iff (left right : List Value) :
    sameItems left right = true ↔ List.Forall₂ (fun a b => a.same b = true) left right := by
  induction left generalizing right with
  | nil => cases right <;> simp [sameItems]
  | cons item items later => cases right <;> simp [sameItems, later]

theorem sameFields_iff (left right : List (Name × Value)) :
    sameFields left right = true ↔ List.Forall₂ (FieldMatch fun a b => a.same b = true) left right := by
  induction left generalizing right with
  | nil => cases right <;> simp [sameFields]
  | cons field fields later => cases right <;> simp [sameFields, later, FieldMatch]

theorem alike_of_same (left right : Value) (same : left.same right = true) :
    left.Alike (fun a b => a.same b = true) (fun a b => a.isSame b = true) right := by
  unfold Value.same at same
  split at same
  next a b => exact beq_iff_eq.mp same ▸ .number a
  next a b => exact beq_iff_eq.mp same ▸ .bool a
  next a b => exact beq_iff_eq.mp same ▸ .text a
  next a b => exact .list ((sameItems_iff a b).mp same)
  next a b =>
    obtain ⟨named, fields⟩ := (Bool.and_eq_true _ _).mp same
    exact .record (beq_iff_eq.mp named) ((sameFields_iff _ _).mp fields)
  next discriminant a _ b =>
    obtain ⟨tagged, payload⟩ := (Bool.and_eq_true _ _).mp same
    obtain rfl := beq_iff_eq.mp tagged
    exact .tag discriminant ((sameItems_iff a b).mp payload)
  next => exact .some same
  next => exact .none
  next => exact .ok same
  next => exact .error same
  next => exact .function same
  next => cases same

theorem head_of_alike {values : Value → Value → Prop} (left right : Value)
    (alike : left.Alike values (fun a b => a.isSame b = true) right) : left.head = right.head := by
  cases alike with
  | function same =>
    simp only [Closure.isSame, Bool.and_eq_true, beq_iff_eq] at same
    obtain ⟨⟨body, program⟩, number⟩ := same
    simp [head, body, program, number]
  | _ => rfl

theorem partsRelate_of_alike {values : Value → Value → Prop} {closures : Closure Value → Closure Value → Prop}
    (left right : Value) (alike : left.Alike values closures right) : PartsRelate values left right := by
  rintro (position | name)
  · cases alike with
    | list items => exact getElem?_related values items position
    | _ => exact .none
  · cases alike with
    | record _ fields => exact lookup_related values fields name
    | _ => exact .none

theorem equals_of_same (left right : Value) (distinct : Demand.distinctFields.Holds left)
    (others : Demand.distinctFields.Holds right) (same : left.same right = true) : left.equals right = true := by
  induction distinct generalizing right with
  | intro left here inside equal =>
    have alike := alike_of_same left right same
    refine (equals_iff left right here others.here).mpr ⟨head_of_alike left right alike, ?_⟩
    refine (partsRelate_of_alike left right alike).imp ?_
    intro part within other beside same
    exact equal part within other (others.inside other beside) same

/-- Equality of the language is an equivalence of the values whose records name each field once, and any two such
values that are exactly equal are equal. -/
theorem equals_equivalence :
    Equivalence (fun left right : { value : Value // Demand.distinctFields.Holds value } =>
      left.1.equals right.1 = true) ∧
    ∀ left right : Value, Demand.distinctFields.Holds left → Demand.distinctFields.Holds right →
      left.same right = true → left.equals right = true := by
  refine ⟨⟨?_, ?_, ?_⟩, equals_of_same⟩
  · intro value
    exact equals_refl value.1 value.2
  · intro left right equal
    exact equals_symm left.1 right.1 left.2 right.2 equal
  · intro left middle right first second
    exact equals_trans left.1 middle.1 right.1 left.2 middle.2 right.2 first second

/-- Two records with their fields in different orders, `[true(1)]` in the one and `[true]` in the other. -/
theorem equals_equivalence_reordered :
    let left : Value := record ⟨.none, ⟨[(⟨7⟩, list [tag (.named .trueTag) [number .one]]), (⟨8⟩, none)]⟩⟩
    let right : Value := record ⟨.some ⟨9⟩, ⟨[(⟨8⟩, none), (⟨7⟩, list [bool true])]⟩⟩
    Demand.distinctFields.Holds left ∧ Demand.distinctFields.Holds right ∧ left.same right = false ∧
      left.equals right = true ∧ right.equals left = true ∧ left.same left = true ∧ left.equals left = true := by
  intro left right
  have leaf (value : Value) (met : Demand.distinctFields.Met value) (empty : value.constituents = []) :
      Demand.distinctFields.Holds value := Demand.holds_plain value met empty
  have listed (item : Value) (holds : Demand.distinctFields.Holds item) : Demand.distinctFields.Holds (list [item]) :=
    .intro _ trivial (List.forall_mem_singleton.mpr holds)
  have tagged : Demand.distinctFields.Holds (tag (.named .trueTag) [number .one]) :=
    .intro _ trivial (List.forall_mem_singleton.mpr (leaf _ trivial rfl))
  have leftHolds : Demand.distinctFields.Holds left := by
    refine Demand.holds_record _ (show List.Nodup [Name.mk 7, Name.mk 8] by decide) ?_
    simp [Bindings.All, listed _ tagged, leaf none trivial rfl]
  have rightHolds : Demand.distinctFields.Holds right := by
    refine Demand.holds_record _ (show List.Nodup [Name.mk 8, Name.mk 7] by decide) ?_
    simp [Bindings.All, listed _ (leaf (bool true) trivial rfl), leaf none trivial rfl]
  obtain ⟨equivalence, refines⟩ := equals_equivalence
  have equal : left.equals right = true := by decide
  have identical : left.same left = true := by decide
  refine ⟨leftHolds, rightHolds, by decide, equal, ?_, identical, refines left left leftHolds leftHolds identical⟩
  exact @equivalence.symm ⟨left, leftHolds⟩ ⟨right, rightHolds⟩ equal

end Value

end TagLang
