import Mathlib.Data.List.Nodup
import TagLang.Environment

/-! What bindings and environments show after they are changed, and what they hold. The latest binding of a name is
the one that is shown, and a capture shows what its environment shows. -/

namespace TagLang

namespace Bindings

variable {α : Type}

theorem lookup_cons (name key : Name) (value : α) (rest : List (Name × α)) :
    ((key, value) :: rest).lookup name = if name = key then some value else rest.lookup name := by
  rw [List.lookup_cons]
  by_cases same : name = key
  · simp [same]
  · rw [beq_eq_false_iff_ne.mpr same, if_neg same]

theorem lookup_put (name other : Name) (value : α) (entries : List (Name × α)) :
    (put name value entries).lookup other = if other = name then some value else entries.lookup other := by
  induction entries with
  | nil => exact lookup_cons other name value []
  | cons entry rest later =>
    obtain ⟨key, old⟩ := entry
    by_cases found : key = name
    · subst found
      by_cases same : other = key <;> simp [put, lookup_cons, same]
    · simp only [put, found, if_false, lookup_cons, later]
      by_cases same : other = name
      · simp [same, Ne.symm found]
      · simp [same]

theorem get?_set (bindings : Bindings α) (name other : Name) (value : α) :
    (bindings.set name value).get? other = if other = name then some value else bindings.get? other :=
  lookup_put name other value bindings.entries

theorem get?_setAll (bindings : Bindings α) (updates : List (Name × α)) (name : Name) :
    (bindings.setAll updates).get? name = (updates.reverse.lookup name).or (bindings.get? name) := by
  induction updates generalizing bindings with
  | nil => rfl
  | cons update updates later =>
    obtain ⟨key, value⟩ := update
    change ((bindings.set key value).setAll updates).get? name = _
    rw [later, get?_set, List.reverse_cons, List.lookup_append, Option.or_assoc]
    by_cases same : name = key <;> simp [Bindings.lookup_cons, same]

theorem mem_put (name : Name) (value : α) (entries : List (Name × α)) (entry : Name × α)
    (member : entry ∈ put name value entries) : entry = (name, value) ∨ entry ∈ entries := by
  induction entries with
  | nil => exact .inl (List.mem_singleton.mp member)
  | cons first rest later =>
    obtain ⟨key, old⟩ := first
    simp only [put] at member
    split at member
    · exact (List.mem_cons.mp member).imp_right (List.mem_cons_of_mem _)
    · rcases List.mem_cons.mp member with same | member
      · exact .inr (same ▸ List.mem_cons_self)
      · exact (later member).imp_right (List.mem_cons_of_mem _)

theorem nodup_put (name : Name) (value : α) (entries : List (Name × α)) (distinct : (entries.map Prod.fst).Nodup) :
    ((put name value entries).map Prod.fst).Nodup := by
  induction entries with
  | nil => simp [put]
  | cons first rest later =>
    obtain ⟨key, old⟩ := first
    obtain ⟨fresh, distinct⟩ := List.nodup_cons.mp distinct
    simp only [put]
    split
    next same => exact List.nodup_cons.mpr ⟨same ▸ fresh, distinct⟩
    next different =>
      refine List.nodup_cons.mpr ⟨?_, later distinct⟩
      intro member
      obtain ⟨entry, put, same⟩ := List.mem_map.mp member
      rcases mem_put name value rest entry put with rfl | member
      · exact different same.symm
      · exact fresh (same ▸ List.mem_map_of_mem member)

theorem nodup_setAll (bindings : Bindings α) (updates : List (Name × α)) (distinct : bindings.names.Nodup) :
    (bindings.setAll updates).names.Nodup := by
  induction updates generalizing bindings with
  | nil => exact distinct
  | cons update updates later =>
    exact later (bindings.set update.1 update.2) (nodup_put update.1 update.2 bindings.entries distinct)

def All (condition : α → Prop) (bindings : Bindings α) : Prop := ∀ entry ∈ bindings.entries, condition entry.2

theorem all_empty (condition : α → Prop) : (empty : Bindings α).All condition := fun _ member => nomatch member

theorem All.get? {condition : α → Prop} {bindings : Bindings α} (all : bindings.All condition) (name : Name)
    (value : α) (found : bindings.get? name = some value) : condition value := by
  obtain ⟨before, after, same, _⟩ := List.lookup_eq_some_iff.mp found
  exact all (name, value) (by rw [same]; simp)

theorem All.set {condition : α → Prop} {bindings : Bindings α} (all : bindings.All condition) (name : Name)
    (value : α) (meets : condition value) : (bindings.set name value).All condition := by
  intro entry member
  rcases mem_put name value bindings.entries entry member with rfl | member
  · exact meets
  · exact all entry member

theorem All.setAll {condition : α → Prop} {bindings : Bindings α} (all : bindings.All condition)
    (updates : List (Name × α)) (meet : ∀ update ∈ updates, condition update.2) :
    (bindings.setAll updates).All condition := by
  induction updates generalizing bindings with
  | nil => exact all
  | cons update updates later =>
    obtain ⟨first, rest⟩ := List.forall_mem_cons.mp meet
    exact later (all.set update.1 update.2 first) rest

end Bindings

namespace Environment

@[simp] theorem lookup?_push (env : Environment) (name : Name) : env.push.lookup? name = env.lookup? name := rfl

theorem lookup?_ofCaptures (captures : Scope) (name : Name) :
    (ofCaptures captures).lookup? name = captures.get? name := by
  simp [lookup?, scopes, ofCaptures]

theorem lookup?_define (env : Environment) (name other : Name) (value : Value) :
    (env.define name value).lookup? other = if other = name then some value else env.lookup? other := by
  obtain ⟨locals, globals⟩ := env
  cases locals with
  | nil => simp [define, lookup?, scopes, Bindings.get?_set]
  | cons scope outer =>
    simp only [define, lookup?, scopes, List.cons_append, List.findSome?_cons, Bindings.get?_set]
    by_cases same : other = name <;> simp [same]

theorem lookup?_defineAll (env : Environment) (bindings : List (Name × Value)) (name : Name) :
    (env.defineAll bindings).lookup? name = (bindings.reverse.lookup name).or (env.lookup? name) := by
  induction bindings generalizing env with
  | nil => rfl
  | cons binding bindings later =>
    obtain ⟨key, value⟩ := binding
    change ((env.define key value).defineAll bindings).lookup? name = _
    rw [later, lookup?_define, List.reverse_cons, List.lookup_append, Option.or_assoc]
    by_cases same : name = key <;> simp [Bindings.lookup_cons, same]

/-- A capture shows every name as the environment does. -/
theorem get?_capture (env : Environment) (name : Name) : env.capture.get? name = env.lookup? name := by
  unfold capture lookup?
  induction env.scopes with
  | nil => rfl
  | cons scope scopes outer =>
    rw [List.foldr_cons, Bindings.get?_setAll, outer, List.reverse_reverse, List.findSome?_cons]
    change (scope.get? name).or _ = _
    cases scope.get? name <;> rfl

def All (condition : Value → Prop) (env : Environment) : Prop := ∀ scope ∈ env.scopes, scope.All condition

theorem all_new (condition : Value → Prop) : new.All condition :=
  List.forall_mem_singleton.mpr (Bindings.all_empty condition)

variable {condition : Value → Prop} {env : Environment}

theorem All.lookup? (all : env.All condition) (name : Name) (value : Value) (found : env.lookup? name = some value) :
    condition value := by
  obtain ⟨scope, member, shown⟩ := List.exists_of_findSome?_eq_some found
  exact (all scope member).get? name value shown

theorem All.push (all : env.All condition) : env.push.All condition :=
  List.forall_mem_cons.mpr ⟨Bindings.all_empty condition, all⟩

theorem All.define (all : env.All condition) (name : Name) (value : Value) (meets : condition value) :
    (env.define name value).All condition := by
  obtain ⟨locals, globals⟩ := env
  cases locals with
  | nil =>
    have shown := all globals (by simp [scopes])
    simpa [All, Environment.define, scopes] using shown.set name value meets
  | cons scope outer =>
    obtain ⟨inner, rest⟩ := List.forall_mem_cons.mp all
    exact List.forall_mem_cons.mpr ⟨inner.set name value meets, rest⟩

theorem All.defineAll (all : env.All condition) (bindings : List (Name × Value))
    (meet : ∀ binding ∈ bindings, condition binding.2) : (env.defineAll bindings).All condition := by
  induction bindings generalizing env with
  | nil => exact all
  | cons binding bindings later =>
    obtain ⟨first, rest⟩ := List.forall_mem_cons.mp meet
    exact later (all.define binding.1 binding.2 first) rest

theorem All.capture (all : env.All condition) : env.capture.All condition := by
  unfold All at all
  unfold Environment.capture
  generalize env.scopes = scopes at all ⊢
  induction scopes with
  | nil => exact Bindings.all_empty condition
  | cons scope scopes outer =>
    obtain ⟨inner, rest⟩ := List.forall_mem_cons.mp all
    exact (outer rest).setAll _ (by simpa [Bindings.All] using inner)

end Environment

end TagLang
