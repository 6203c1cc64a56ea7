import TagLang.Proofs.VariantTags
import TagLang.Proofs.WellFormedValues

/-! Named tags taken apart and put together. The name and the payload of a tag are those that it was built from, and
building a tag from what is read off a value gives the value back, unless it is a plain tag of a canonical shape. -/

namespace TagLang.Value

theorem same_of_alike (left right : Value)
    (alike : left.Alike (fun a b => a.same b = true) (fun a b => a.isSame b = true) right) :
    left.same right = true := by
  cases alike with
  | number | bool | text | none => simp [same]
  | list items => simpa [same, sameItems_iff] using items
  | record named fields => simpa [same, sameFields_iff, named] using fields
  | tag discriminant payload => simpa [same, sameItems_iff] using payload
  | some content | ok content | error content => simpa [same] using content
  | function closure => simpa [same] using closure

theorem same_refl (value : Value) : value.same value = true := by
  induction value using constituents_induction with
  | step value inside =>
    apply same_of_alike
    cases value with
    | number value => exact .number value
    | bool value => exact .bool value
    | text value => exact .text value
    | list items => exact .list (List.forall₂_same.mpr inside)
    | record record =>
      refine .record rfl (List.forall₂_same.mpr ?_)
      intro field member
      exact ⟨rfl, inside field.2 (List.mem_map_of_mem member)⟩
    | tag discriminant payload => exact .tag discriminant (List.forall₂_same.mpr inside)
    | some content => exact .some (inside content List.mem_cons_self)
    | none => exact .none
    | ok content => exact .ok (inside content List.mem_cons_self)
    | error content => exact .error (inside content List.mem_cons_self)
    | function closure => exact .function (by simp [Closure.isSame])

theorem ofTag_of_not_canonical (name : Name) (payload : List Value) (plain : ¬ name.Canonical payload.length) :
    ofTag name payload = tag (.named name) payload := by
  match payload with
  | [] =>
    have other : name ≠ .trueTag ∧ name ≠ .falseTag ∧ name ≠ .noneTag := by simpa [Name.Canonical] using plain
    simp [ofTag, other]
  | [content] =>
    have other : name ≠ .someTag ∧ name ≠ .okTag ∧ name ≠ .errorTag := by simpa [Name.Canonical] using plain
    simp [ofTag, other]
  | _ :: _ :: _ => rfl

theorem ofTag_payload (value : Value) (name : Name) (tagged : value.discriminant? = .some (.named name))
    (built : Demand.wellFormed.Met value) : ofTag name value.payload = value := by
  cases value with
  | tag discriminant payload =>
    obtain rfl := Option.some.inj tagged
    exact ofTag_of_not_canonical name payload built
  | bool truth => cases truth <;> cases tagged <;> rfl
  | some | none | ok | error =>
    cases tagged
    rfl
  | number | text | list | record | function => cases tagged

/-- Of values that are the same, a tag is as well-formed as the other. -/
theorem met_of_same (left right : Value) (discriminant : Discriminant)
    (tagged : right.discriminant? = .some discriminant) (same : left.same right = true)
    (built : Demand.wellFormed.Met left) : Demand.wellFormed.Met right := by
  cases alike_of_same left right same with
  | tag discriminant payload => simpa only [Demand.Met, payload.length_eq] using built
  | record | function => cases tagged
  | _ => trivial

theorem same_ofTag_iff (name another : Name) (payload contents : List Value) :
    (ofTag name payload).same (ofTag another contents) = true ↔
      name = another ∧ List.Forall₂ (fun a b => a.same b = true) payload contents := by
  constructor
  · intro same
    have alike := alike_of_same _ _ same
    have tagged := alike.discriminant?
    have carried := alike.payload
    rw [discriminant?_ofTag, discriminant?_ofTag] at tagged
    rw [payload_ofTag, payload_ofTag] at carried
    exact ⟨Discriminant.named.inj (Option.some.inj tagged), carried⟩
  · rintro ⟨rfl, carried⟩
    exact same_of_alike _ _ (.ofTag name carried)

/-- A tag that is built has its name and its payload, and is well-formed. Building a tag from the name and the payload
of a value gives the same value exactly if the value is well-formed, that is, no plain tag of a canonical shape. So two
tags that are built are the same exactly if their names are and their payloads are, value by value. -/
theorem ofTag_inverse :
    (∀ name payload, (ofTag name payload).discriminant? = .some (.named name) ∧
      (ofTag name payload).payload = payload ∧ Demand.wellFormed.Met (ofTag name payload)) ∧
    (∀ value name, value.discriminant? = .some (.named name) →
      ((ofTag name value.payload).same value = true ↔ Demand.wellFormed.Met value)) ∧
    ∀ name another payload contents, (ofTag name payload).same (ofTag another contents) = true ↔
      name = another ∧ List.Forall₂ (fun a b => a.same b = true) payload contents := by
  have wellFormed := Demand.met_ofTag Demand.wellFormed_laws.named
  refine ⟨?_, ?_, same_ofTag_iff⟩
  · intro name payload
    exact ⟨discriminant?_ofTag name payload, payload_ofTag name payload, wellFormed name payload⟩
  · intro value name tagged
    constructor
    · intro same
      exact met_of_same _ value _ tagged same (wellFormed name value.payload)
    · intro built
      rw [ofTag_payload value name tagged built]
      exact value.same_refl

/-- An `ok` that carries two values is built as a plain tag, and one that carries a single value is not. -/
theorem ofTag_inverse_ok :
    let one : Value := .number .one
    let pair : Value := tag (.named .okTag) [one, one]
    let single : Value := tag (.named .okTag) [one]
    pair.discriminant? = .some (.named .okTag) ∧ Demand.wellFormed.Met pair ∧
      (ofTag .okTag pair.payload).same pair = true ∧
      single.discriminant? = .some (.named .okTag) ∧ ¬ Demand.wellFormed.Met single ∧
      ¬ (ofTag .okTag single.payload).same single = true ∧
      ¬ (ofTag .okTag pair.payload).same (ofTag .okTag single.payload) = true := by
  intro one pair single
  obtain ⟨_, inverse, injective⟩ := ofTag_inverse
  have wellFormed : Demand.wellFormed.Met pair := by simp [pair, Demand.Met, Demand.wellFormed, Name.Canonical]
  have illFormed : ¬ Demand.wellFormed.Met single := by simp [single, Demand.Met, Demand.wellFormed, Name.Canonical]
  refine ⟨rfl, wellFormed, (inverse pair .okTag rfl).mpr wellFormed, rfl, illFormed, ?_, ?_⟩
  · exact mt (inverse single .okTag rfl).mp illFormed
  · intro same
    have counts := ((injective _ _ _ _).mp same).2.length_eq
    simp [pair, single, payload] at counts

end TagLang.Value
