import TagLang.Proofs.EvaluationAnswers
import TagLang.Proofs.MethodResolution
import TagLang.Proofs.ValueEquality

/-! Record updates. The last update of a field wins, a field that is there keeps its place, and new fields follow in
the order in which they first occur. An update that is gathered in a record of its own first comes to the same. -/

namespace TagLang

namespace Bindings

variable {α : Type}

theorem map_fst_put (name : Name) (value : α) (entries : List (Name × α)) :
    (put name value entries).map Prod.fst =
      if name ∈ entries.map Prod.fst then entries.map Prod.fst else entries.map Prod.fst ++ [name] := by
  induction entries with
  | nil => rfl
  | cons entry rest later =>
    obtain ⟨key, old⟩ := entry
    simp only [put]
    split
    next same => simp [same]
    next different =>
      simp only [List.map_cons, later, List.mem_cons, Ne.symm different, false_or]
      split <;> simp

theorem names_set (bindings : Bindings α) (name : Name) (value : α) :
    (bindings.set name value).names = if name ∈ bindings.names then bindings.names else bindings.names ++ [name] :=
  map_fst_put name value bindings.entries

theorem mem_names_set (bindings : Bindings α) (name other : Name) (value : α) :
    other ∈ (bindings.set name value).names ↔ other = name ∨ other ∈ bindings.names := by
  rw [names_set]
  split
  next known => exact ⟨.inr, fun member => member.elim (fun same => same ▸ known) id⟩
  next => simp [or_comm]

/-- Names that are there keep their places, and the new ones follow in the order in which they first occur. -/
theorem names_setAll (bindings : Bindings α) (updates : List (Name × α)) :
    (bindings.setAll updates).names =
      bindings.names ++ ((updates.map Prod.fst).removeAll bindings.names).eraseDups := by
  induction updates generalizing bindings with
  | nil => simp [setAll]
  | cons update updates later =>
    obtain ⟨name, value⟩ := update
    have first : (bindings.setAll ((name, value) :: updates)).names =
        ((bindings.set name value).setAll updates).names := rfl
    rw [first, later, names_set, List.map_cons]
    by_cases known : name ∈ bindings.names
    · simp [known, List.removeAll]
    · have beyond : (updates.map Prod.fst).removeAll (bindings.names ++ [name]) =
          ((updates.map Prod.fst).removeAll bindings.names).filter fun other => !other == name := by
        simp [List.removeAll, List.filter_filter, beq_eq_decide, Bool.and_comm]
      rw [if_neg known, beyond]
      simp [List.removeAll, known, List.eraseDups_cons]

theorem put_put (name : Name) (value old : α) (entries : List (Name × α)) :
    put name value (put name old entries) = put name value entries := by
  induction entries with
  | nil => simp [put]
  | cons entry rest later =>
    by_cases same : entry.1 = name <;> simp [put, same, later]

theorem put_comm (name other : Name) (value content : α) (entries : List (Name × α)) (different : name ≠ other)
    (known : name ∈ entries.map Prod.fst) :
    put name value (put other content entries) = put other content (put name value entries) := by
  induction entries with
  | nil => cases known
  | cons entry rest later =>
    obtain ⟨key, old⟩ := entry
    by_cases first : key = name
    · subst first
      simp [put, different]
    · have known : name ∈ rest.map Prod.fst := (List.mem_cons.mp known).resolve_left (Ne.symm first)
      by_cases second : key = other
      · subst second
        simp [put, first]
      · simp [put, first, second, later known]

/-- A name that is known and not among the updates may as well be set before them. -/
theorem set_setAll (bindings : Bindings α) (name : Name) (value : α) (updates : List (Name × α))
    (known : name ∈ bindings.names) (apart : name ∉ updates.map Prod.fst) :
    (bindings.setAll updates).set name value = (bindings.set name value).setAll updates := by
  induction updates generalizing bindings with
  | nil => rfl
  | cons update updates later =>
    obtain ⟨other, content⟩ := update
    have different : name ≠ other := fun same => apart (by simp [same])
    have kept : name ∈ (bindings.set other content).names := (mem_names_set ..).mpr (.inr known)
    have swapped := congrArg Bindings.mk (put_comm name other value content bindings.entries different known)
    calc ((bindings.set other content).setAll updates).set name value
        = ((bindings.set other content).set name value).setAll updates :=
          later _ kept fun member => apart (List.mem_cons_of_mem _ member)
      _ = ((bindings.set name value).set other content).setAll updates := congrArg (·.setAll updates) swapped

/-- Putting a name among distinct updates, in its place or at their end, sets it last. -/
theorem setAll_put (bindings : Bindings α) (name : Name) (value : α) (updates : List (Name × α))
    (distinct : (updates.map Prod.fst).Nodup) :
    bindings.setAll (put name value updates) = (bindings.setAll updates).set name value := by
  induction updates generalizing bindings with
  | nil => rfl
  | cons update updates later =>
    obtain ⟨other, content⟩ := update
    obtain ⟨fresh, distinct⟩ := List.nodup_cons.mp distinct
    simp only [put]
    split
    next same =>
      -- The value is replaced in place, before updates that all leave its name alone, so it might as well come last.
      subst same
      have known : other ∈ (bindings.set other content).names := (mem_names_set ..).mpr (.inl rfl)
      have again := congrArg Bindings.mk (put_put other value content bindings.entries)
      calc (bindings.set other value).setAll updates
          = ((bindings.set other content).set other value).setAll updates := congrArg (·.setAll updates) again.symm
        _ = ((bindings.set other content).setAll updates).set other value :=
          (set_setAll _ other value updates known fresh).symm
    next => exact later (bindings.set other content) distinct

/-- Updates that are applied to distinct updates first come to the same as both applied in turn. -/
theorem setAll_setAll (bindings gathered : Bindings α) (updates : List (Name × α)) (distinct : gathered.names.Nodup) :
    bindings.setAll (gathered.setAll updates).entries = (bindings.setAll gathered.entries).setAll updates := by
  induction updates generalizing gathered with
  | nil => rfl
  | cons update updates later =>
    obtain ⟨name, value⟩ := update
    have still := nodup_put name value gathered.entries distinct
    calc bindings.setAll ((gathered.set name value).setAll updates).entries
        = (bindings.setAll (put name value gathered.entries)).setAll updates := later _ still
      _ = ((bindings.setAll gathered.entries).set name value).setAll updates :=
        congrArg (·.setAll updates) (setAll_put bindings name value gathered.entries distinct)

theorem setAll_ofList (bindings : Bindings α) (updates : List (Name × α)) :
    bindings.setAll (ofList updates).entries = bindings.setAll updates :=
  setAll_setAll bindings empty updates List.nodup_nil

/-- Bindings of distinct names are told by the order of the names and by what they show. -/
theorem eq_of_names (left right : Bindings α) (order : left.names = right.names) (distinct : left.names.Nodup)
    (shown : ∀ name, left.get? name = right.get? name) : left = right := by
  have size : left.entries.length = right.entries.length := by simpa [names] using congrArg List.length order
  suffices same : left.entries = right.entries from congrArg Bindings.mk same
  apply List.ext_getElem size
  intro position inside beside
  have placed : left.names[position]? = right.names[position]? := by rw [order]
  have named : left.entries[position].1 = right.entries[position].1 := by simpa [names, inside, beside] using placed
  have value : left.get? left.entries[position].1 = some left.entries[position].2 :=
    left.get?_of_mem distinct _ _ (List.getElem_mem inside)
  have content : right.get? right.entries[position].1 = some right.entries[position].2 :=
    right.get?_of_mem (order ▸ distinct) _ _ (List.getElem_mem beside)
  rw [named, shown, content] at value
  exact Prod.ext named (Option.some.inj value).symm

end Bindings

namespace Record

variable {α : Type}

/-- Whether a value is the last that a list of updates gives to a field. -/
def LastUpdate (updates : List (Name × α)) (field : Name) (value : α) : Prop :=
  ∃ before after, updates = before ++ (field, value) :: after ∧ field ∉ after.map Prod.fst

theorem lookup_reverse_eq_some_iff (updates : List (Name × α)) (field : Name) (value : α) :
    updates.reverse.lookup field = some value ↔ LastUpdate updates field value := by
  rw [List.lookup_eq_some_iff]
  constructor
  · rintro ⟨after, before, split, apart⟩
    refine ⟨before.reverse, after.reverse, ?_, ?_⟩
    · simpa using congrArg List.reverse split
    · rw [List.map_reverse, List.mem_reverse, List.mem_map]
      rintro ⟨update, member, rfl⟩
      simpa using apart update member
  · rintro ⟨before, after, rfl, apart⟩
    refine ⟨after.reverse, before.reverse, by simp, ?_⟩
    intro update member
    have different : field ≠ update.1 := by
      rintro rfl
      exact apart (List.mem_map_of_mem (List.mem_reverse.mp member))
    exact bne_iff_ne.mpr different

theorem lookup_reverse_eq_none_iff (updates : List (Name × α)) (field : Name) :
    updates.reverse.lookup field = none ↔ field ∉ updates.map Prod.fst := by
  simp only [List.lookup_eq_none_iff, List.mem_reverse, List.mem_map, not_exists, not_and, bne_iff_ne]
  exact forall₂_congr fun _ _ => ne_comm

/-- What an update makes of a record. -/
structure UpdatedBy (record : Record α) (updates : List (Name × α)) (result : Record α) : Prop where
  typeName : result.typeName = record.typeName
  last : ∀ field value, LastUpdate updates field value → result.get? field = some value
  other : ∀ field, field ∉ updates.map Prod.fst → result.get? field = record.get? field
  order : result.fields.names =
    record.fields.names ++ ((updates.map Prod.fst).removeAll record.fields.names).eraseDups
  distinct : record.fields.names.Nodup → result.fields.names.Nodup

theorem updatedBy_withFields (record : Record α) (updates : List (Name × α)) :
    record.UpdatedBy updates (record.withFields updates) where
  typeName := rfl
  last := by
    intro field value last
    rw [get?, withFields, Bindings.get?_setAll, (lookup_reverse_eq_some_iff updates field value).mpr last]
    rfl
  other := by
    intro field apart
    rw [get?, withFields, Bindings.get?_setAll, (lookup_reverse_eq_none_iff updates field).mpr apart]
    rfl
  order := record.fields.names_setAll updates
  distinct := record.fields.nodup_setAll updates

/-- No other record is what an update makes of a record of distinct fields. -/
theorem UpdatedBy.unique {record left right : Record α} {updates : List (Name × α)}
    (updated : record.UpdatedBy updates left) (also : record.UpdatedBy updates right)
    (distinct : record.fields.names.Nodup) : left = right := by
  have shown (field : Name) : left.fields.get? field = right.fields.get? field := by
    cases found : updates.reverse.lookup field with
    | some value =>
      have last := (lookup_reverse_eq_some_iff updates field value).mp found
      exact (updated.last field value last).trans (also.last field value last).symm
    | none =>
      have apart := (lookup_reverse_eq_none_iff updates field).mp found
      exact (updated.other field apart).trans (also.other field apart).symm
  have fields : left.fields = right.fields :=
    Bindings.eq_of_names _ _ (updated.order.trans also.order.symm) (updated.distinct distinct) shown
  have names : left.typeName = right.typeName := updated.typeName.trans also.typeName.symm
  exact congrArg₂ Record.mk names fields

theorem withFields_append (record : Record α) (updates later : List (Name × α)) :
    record.withFields (updates ++ later) = (record.withFields updates).withFields later := by
  simp [withFields, Bindings.setAll, List.foldl_append]

/-- Updates that are gathered in a record first, where repeated fields fall together, change a record alike. -/
theorem withFields_ofFields (record : Record α) (typeName : Option Name) (updates : List (Name × α)) :
    record.withFields (ofFields typeName updates).fields.entries = record.withFields updates := by
  have gathered := record.fields.setAll_ofList updates
  simp [withFields, ofFields, gathered]

end Record

theorem Value.callMethod_set {m : Type → Type} [Monad m] [LawfulMonad m] (host : Host m)
    (record updates : Record Value) :
    (Value.record record).callMethod host "set" [.record updates] =
      pure (.record (record.withFields updates.fields.entries)) := by
  rw [callMethod_of_ok host _ _ _ ⟨.record, "set", [.record], .receiverFamily⟩ rfl]
  rfl

open Evaluation in
theorem ExprKind.evaluate_update (arena : Arena) (base : ExprId) (range : TableRange) (fields : List FieldInit)
    (listed : arena.fields? range = some fields) (answering : Answering) (session middle after : Session)
    (record : Record Value) (updates : List (Name × Value))
    (based : Reaches answering (part base) session (.ok (.record record)) middle)
    (valued : Reaches answering (fieldParts fields) middle (.ok updates) after) :
    Reaches answering ((update base range).evaluate arena) session (.ok (.record (record.withFields updates)))
      after := by
  have steps : (update base range).evaluate arena =
      (do
        let base ← part base
        let fields ← entry (arena.fields? range)
        let updates ← fieldParts fields
        base.callMethod host "set" [.record (.ofFields none updates)]) := rfl
  have routed := Value.callMethod_set host record (.ofFields none updates)
  rw [Record.withFields_ofFields] at routed
  rw [steps, listed]
  refine (reaches_bind ..).mpr (.inl ⟨_, middle, based, ?_⟩)
  refine (reaches_bind ..).mpr (.inl ⟨fields, middle, (reaches_pure ..).mpr ⟨rfl, rfl⟩, ?_⟩)
  refine (reaches_bind ..).mpr (.inl ⟨updates, after, valued, ?_⟩)
  rw [routed]
  exact (reaches_pure ..).mpr ⟨rfl, rfl⟩

open Evaluation in
/-- An update keeps the record's type name. It shows the last update of each field that has one and the old value of
each other field, under the old names in their order and then the new ones as they first occur, and for a record of
distinct fields no other record does. Updates can be applied in parts, and those of an update expression, which are
gathered in a record and applied by the method `set`, change the record as if they had been applied themselves. -/
theorem Record.withFields_last_write_wins (record : Record Value) (updates later : List (Name × Value)) :
    record.UpdatedBy updates (record.withFields updates) ∧
    (record.fields.names.Nodup → ∀ result, record.UpdatedBy updates result → result = record.withFields updates) ∧
    record.withFields (updates ++ later) = (record.withFields updates).withFields later ∧
    record.withFields (ofFields none updates).fields.entries = record.withFields updates ∧
    (∀ (m : Type → Type) [Monad m] [LawfulMonad m] (host : Host m),
      (Value.record record).callMethod host "set" [.record (.ofFields none updates)] =
        pure (.record (record.withFields updates))) ∧
    ∀ arena base range fields answering session middle after, arena.fields? range = some fields →
      Reaches answering (part base) session (.ok (.record record)) middle →
      Reaches answering (fieldParts fields) middle (.ok updates) after →
      Reaches answering ((ExprKind.update base range).evaluate arena) session
        (.ok (.record (record.withFields updates))) after := by
  have updated := record.updatedBy_withFields updates
  have gathered := record.withFields_ofFields none updates
  refine ⟨updated, ?_, record.withFields_append updates later, gathered, ?_, ?_⟩
  · intro distinct result also
    exact also.unique updated distinct
  · intro m _ _ host
    rw [Value.callMethod_set host record, gathered]
  · intro arena base range fields answering session middle after listed based valued
    exact ExprKind.evaluate_update arena base range fields listed answering session middle after record updates based
      valued

open Evaluation in
/-- A record of the fields 7 and 8, updated by 9, 7 and 9 again: the field 7 keeps its place, and 9 is added once. -/
theorem Record.withFields_last_write_wins_repeated :
    let program : Program := ⟨0, { Arena.empty with
      exprs := #[⟨.int .zero, .dummy⟩, ⟨.int .one, .dummy⟩, ⟨.int .least, .dummy⟩, ⟨.int .greatest, .dummy⟩,
        ⟨.record none ⟨0, 2⟩, .dummy⟩]
      fields := #[⟨⟨7⟩, ⟨0⟩⟩, ⟨⟨8⟩, ⟨1⟩⟩, ⟨⟨9⟩, ⟨2⟩⟩, ⟨⟨7⟩, ⟨3⟩⟩, ⟨⟨9⟩, ⟨1⟩⟩] }⟩
    let session := Session.new .new program .new .interpret 0
    let record : Record Value := ⟨none, ⟨[(⟨7⟩, .number .zero), (⟨8⟩, .number .one)]⟩⟩
    let updates : List (Name × Value) :=
      [(⟨9⟩, .number .least), (⟨7⟩, .number .greatest), (⟨9⟩, .number .one)]
    let updated : Record Value :=
      ⟨none, ⟨[(⟨7⟩, .number .greatest), (⟨8⟩, .number .one), (⟨9⟩, .number .one)]⟩⟩
    record.fields.names.Nodup ∧ record.UpdatedBy updates updated ∧
      Reaches Plan.Answers ((ExprKind.update ⟨4⟩ ⟨2, 3⟩).evaluate program.arena) session (.ok (.record updated))
        session := by
  intro program session record updates updated
  obtain ⟨laws, _, _, _, _, evaluated⟩ := withFields_last_write_wins record updates []
  have based : Reaches Plan.Answers (part ⟨4⟩) session (.ok (.record record)) session :=
    (reaches_ask ..).mpr ⟨20, rfl⟩
  have valued : Reaches Plan.Answers (fieldParts [⟨⟨9⟩, ⟨2⟩⟩, ⟨⟨7⟩, ⟨3⟩⟩, ⟨⟨9⟩, ⟨1⟩⟩]) session (.ok updates) session :=
    ⟨_, _, ⟨20, rfl⟩, _, _, ⟨20, rfl⟩, _, _, ⟨20, rfl⟩, rfl⟩
  exact ⟨by decide, laws, evaluated program.arena ⟨4⟩ ⟨2, 3⟩ _ _ session session session rfl based valued⟩

end TagLang
