import TagLang.Proofs.ValueEquality

/-! Records as what they show. Records of distinct fields are equal if they show equal values under every name, so
neither the order of the fields nor the name of the type counts, and equal records stay equal under equal updates. -/

namespace TagLang

/-- Bindings of distinct names show the same in any order. -/
theorem Bindings.get?_of_perm {α : Type} (left right : Bindings α) (distinct : left.names.Nodup)
    (permuted : left.entries.Perm right.entries) (name : Name) : left.get? name = right.get? name := by
  have others : right.names.Nodup := (permuted.map Prod.fst).nodup_iff.mp distinct
  apply Option.ext
  intro value
  constructor
  · intro found
    exact right.get?_of_mem others name value (permuted.mem_iff.mp (left.mem_of_get? name value found))
  · intro found
    exact left.get?_of_mem distinct name value (permuted.mem_iff.mpr (right.mem_of_get? name value found))

namespace Record

/-- Whether two records show equal values, or none, under a name. -/
def AgreeAt (left right : Record Value) (name : Name) : Prop :=
  left.get? name = none ∧ right.get? name = none ∨
    ∃ value other, left.get? name = some value ∧ right.get? name = some other ∧ value.equals other = true

theorem rel_iff_agreeAt (left right : Record Value) (name : Name) :
    Option.Rel (fun value other : Value => value.equals other = true) (left.get? name) (right.get? name) ↔
      left.AgreeAt right name := by
  unfold AgreeAt
  cases left.get? name <;> cases right.get? name <;> simp

theorem equals_iff_agreeAt (left right : Record Value) (distinct : left.fields.names.Nodup)
    (others : right.fields.names.Nodup) : left.equals right = true ↔ ∀ name, left.AgreeAt right name := by
  rw [equals, Value.equals_record_iff left right distinct others]
  exact forall_congr' (rel_iff_agreeAt left right)

/-- Records that show the very same values are equal, if these are equal to themselves. -/
theorem equals_of_shown (left right : Record Value) (distinct : left.fields.names.Nodup)
    (others : right.fields.names.Nodup) (wellFormed : left.fields.All Demand.distinctFields.Holds)
    (shown : ∀ name, left.get? name = right.get? name) : left.equals right = true := by
  refine (equals_iff_agreeAt left right distinct others).mpr fun name => ?_
  cases found : left.get? name with
  | none => exact .inl ⟨found, shown name ▸ found⟩
  | some value =>
    have reflexive := value.equals_refl (wellFormed.get? name value found)
    exact .inr ⟨value, value, found, shown name ▸ found, reflexive⟩

theorem equals_of_perm (left right leftOther rightOther : Record Value) (distinct : left.fields.names.Nodup)
    (others : right.fields.names.Nodup) (leftPermuted : left.fields.entries.Perm leftOther.fields.entries)
    (rightPermuted : right.fields.entries.Perm rightOther.fields.entries) :
    leftOther.equals rightOther = left.equals right := by
  have leftNames := (leftPermuted.map Prod.fst).nodup_iff.mp distinct
  have rightNames := (rightPermuted.map Prod.fst).nodup_iff.mp others
  rw [Bool.eq_iff_iff, equals_iff_agreeAt _ _ leftNames rightNames, equals_iff_agreeAt _ _ distinct others]
  refine forall_congr' fun name => ?_
  have leftShown : left.get? name = leftOther.get? name := left.fields.get?_of_perm _ distinct leftPermuted name
  have rightShown : right.get? name = rightOther.get? name := right.fields.get?_of_perm _ others rightPermuted name
  rw [AgreeAt, AgreeAt, leftShown, rightShown]

theorem get?_withFields (record : Record Value) (updates : List (Name × Value)) (name : Name) :
    (record.withFields updates).get? name = (updates.reverse.lookup name).or (record.get? name) :=
  record.fields.get?_setAll updates name

theorem nodup_ofFields (typeName : Option Name) (fields : List (Name × Value)) :
    (ofFields typeName fields).fields.names.Nodup :=
  Bindings.nodup_setAll .empty fields List.nodup_nil

theorem get?_ofFields (typeName : Option Name) (fields : List (Name × Value)) (name : Name) :
    (ofFields typeName fields).get? name = fields.reverse.lookup name :=
  (Bindings.get?_setAll .empty fields name).trans Option.or_none

/-- Updates of distinct fields can be made in any order, whatever the type is called. -/
theorem withFields_equals_of_perm (record : Record Value) (typeName : Option Name)
    (updates permuted : List (Name × Value)) (wellFormed : Demand.distinctFields.Holds (.record record))
    (valued : ∀ update ∈ updates, Demand.distinctFields.Holds update.2) (distinct : (updates.map Prod.fst).Nodup)
    (perm : updates.Perm permuted) :
    (record.withFields updates).equals ({ record with typeName }.withFields permuted) = true := by
  have names : record.fields.names.Nodup := wellFormed.here
  have turned : updates.reverse.Perm permuted.reverse :=
    (updates.reverse_perm.trans perm).trans permuted.reverse_perm.symm
  have reversed : (updates.reverse.map Prod.fst).Nodup := by
    rw [List.map_reverse]
    exact List.nodup_reverse.mpr distinct
  refine equals_of_shown _ _ ?_ ?_ (wellFormed.fields.setAll updates valued) fun name => ?_
  · exact record.fields.nodup_setAll updates names
  · exact record.fields.nodup_setAll permuted names
  · have same : updates.reverse.lookup name = permuted.reverse.lookup name :=
      Bindings.get?_of_perm ⟨updates.reverse⟩ ⟨permuted.reverse⟩ reversed turned name
    rw [get?_withFields, get?_withFields, same]
    rfl

theorem agreeAt_withFields (left right : Record Value) (updates : List (Name × Value))
    (wellFormed : ∀ update ∈ updates, Demand.distinctFields.Holds update.2) (name : Name)
    (agree : left.AgreeAt right name) : (left.withFields updates).AgreeAt (right.withFields updates) name := by
  rw [AgreeAt, get?_withFields, get?_withFields]
  cases found : updates.reverse.lookup name with
  | none => exact agree
  | some value =>
    -- Whether the update replaced a field or added one, both records show its very value.
    have member := Bindings.mem_of_get? ⟨updates.reverse⟩ name value found
    have reflexive := value.equals_refl (wellFormed _ (List.mem_reverse.mp member))
    exact .inr ⟨value, value, rfl, rfl, reflexive⟩

/-- Records of distinct fields are equal if they agree under every name. So equality does not see the order of fields
or the names of types: a list of distinct fields builds equal records in any order, and any two lists do if the last
values of each name are equal. Two different fields can be set in either order, and the same updates of equal records
give equal records. -/
theorem equals_extensional (left right : Record Value) (distinct : left.fields.names.Nodup)
    (others : right.fields.names.Nodup) :
    (left.equals right = true ↔ ∀ name, left.AgreeAt right name) ∧
    (∀ leftOther rightOther : Record Value, left.fields.entries.Perm leftOther.fields.entries →
      right.fields.entries.Perm rightOther.fields.entries → leftOther.equals rightOther = left.equals right) ∧
    (∀ typeName other fields permuted, (∀ field ∈ fields, Demand.distinctFields.Holds field.2) →
      (fields.map Prod.fst).Nodup → fields.Perm permuted →
      (ofFields typeName fields).equals (ofFields other permuted) = true) ∧
    (∀ typeName other fields contents, (ofFields typeName fields).equals (ofFields other contents) = true ↔
      ∀ name, Option.Rel (fun a b : Value => a.equals b = true) (fields.reverse.lookup name)
        (contents.reverse.lookup name)) ∧
    (∀ field other value content, Demand.distinctFields.Holds (.record left) → Demand.distinctFields.Holds value →
      Demand.distinctFields.Holds content → field ≠ other →
      ((left.withField field value).withField other content).equals
        ((left.withField other content).withField field value) = true) ∧
    (left.equals right = true → ∀ updates : List (Name × Value),
      (∀ update ∈ updates, Demand.distinctFields.Holds update.2) →
      (left.withFields updates).equals (right.withFields updates) = true) := by
  refine ⟨equals_iff_agreeAt left right distinct others, ?_, ?_, ?_, ?_, ?_⟩
  · intro leftOther rightOther
    exact equals_of_perm left right leftOther rightOther distinct others
  · intro typeName other fields permuted wellFormed names perm
    have empty : Demand.distinctFields.Holds (.record ⟨typeName, .empty⟩) :=
      Demand.holds_record _ List.nodup_nil (Bindings.all_empty _)
    exact withFields_equals_of_perm ⟨typeName, .empty⟩ other fields permuted empty wellFormed names perm
  · intro typeName other fields contents
    rw [equals, Value.equals_record_iff _ _ (nodup_ofFields ..) (nodup_ofFields ..)]
    simp only [get?_ofFields]
  · intro field other value content wellFormed valued contained different
    refine withFields_equals_of_perm left left.typeName [(field, value), (other, content)]
      [(other, content), (field, value)] wellFormed ?_ ?_ (.swap _ _ _)
    · simp [valued, contained]
    · simp [different]
  · intro equal updates wellFormed
    have agree := (equals_iff_agreeAt left right distinct others).mp equal
    refine (equals_iff_agreeAt _ _ ?_ ?_).mpr ?_
    · exact left.fields.nodup_setAll updates distinct
    · exact right.fields.nodup_setAll updates others
    · exact fun name => agreeAt_withFields left right updates wellFormed name (agree name)

/-- Two records with their fields in different orders, of which the left one shows `true(1)` where the right one
shows `true`. -/
theorem equals_extensional_reordered :
    let tagged : Value := .tag (.named .trueTag) [.number .one]
    let left : Record Value := ⟨none, ⟨[(⟨7⟩, .number .zero), (⟨8⟩, tagged)]⟩⟩
    let right : Record Value := ⟨some ⟨9⟩, ⟨[(⟨8⟩, .bool true), (⟨7⟩, .number .zero)]⟩⟩
    let turned : Record Value := ⟨some ⟨6⟩, ⟨[(⟨8⟩, tagged), (⟨7⟩, .number .zero)]⟩⟩
    let updates : List (Name × Value) := [(⟨10⟩, .none), (⟨7⟩, tagged)]
    left.equals right = true ∧ (∀ name, left.AgreeAt right name) ∧ turned.equals right = left.equals right ∧
      (ofFields none left.fields.entries).equals (ofFields (some ⟨6⟩) turned.fields.entries) = true ∧
      ((left.withField ⟨7⟩ tagged).withField ⟨10⟩ .none).equals
        ((left.withField ⟨10⟩ .none).withField ⟨7⟩ tagged) = true ∧
      (left.withFields updates).equals (right.withFields updates) = true := by
  intro tagged left right turned updates
  have plain (value : Value) (met : Demand.distinctFields.Met value) (empty : value.constituents = []) :
      Demand.distinctFields.Holds value := Demand.holds_plain value met empty
  have taggedHolds : Demand.distinctFields.Holds tagged :=
    .intro _ trivial (List.forall_mem_singleton.mpr (plain _ trivial rfl))
  have fields : left.fields.All Demand.distinctFields.Holds := by
    simp [left, Bindings.All, taggedHolds, plain (.number .zero) trivial rfl]
  have distinct : left.fields.names.Nodup := by decide
  have equal : left.equals right = true := by decide
  obtain ⟨extensional, ordered, built, _, swapped, updated⟩ := equals_extensional left right distinct (by decide)
  refine ⟨equal, extensional.mp equal, ordered turned right (.swap _ _ _) (.refl _), ?_, ?_, ?_⟩
  · exact built none (some ⟨6⟩) left.fields.entries turned.fields.entries fields distinct (.swap _ _ _)
  · exact swapped ⟨7⟩ ⟨10⟩ tagged .none (Demand.holds_record _ distinct fields) taggedHolds (plain _ trivial rfl)
      (by decide)
  · exact updated equal updates (by simp [updates, taggedHolds, plain .none trivial rfl])

end Record

end TagLang
