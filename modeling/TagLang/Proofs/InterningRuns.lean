import Mathlib.Data.Finset.Card
import TagLang.InternTable

/-! Runs of an interner. After every history of calls its map and its vector of strings are inverse to each other, and
the vector holds the strings of a plain list of distinct strings that is called alike. However calls are mixed and
repeated, one naming of the strings holds for the whole run: reserved strings first, then the others in the order in
which they first occur. -/

namespace TagLang

namespace Interner

theorem strings_nodup (interner : Interner) : interner.strings.Nodup := interner.distinct

theorem idxOf_strings (interner : Interner) (s : String) (index : Nat) (found : interner.strings[index]? = some s) :
    interner.strings.idxOf s = index := by
  obtain ⟨bound, entry⟩ := List.getElem?_eq_some_iff.mp found
  have place := interner.strings_nodup.idxOf_getElem index bound
  rwa [entry] at place

theorem intern_of_mem (interner : Interner) (s : String) (known : s ∈ interner.strings) :
    interner.intern s = (⟨interner.strings.idxOf s⟩, interner) := by
  unfold intern
  split
  next index found =>
    obtain ⟨bound, entry, _⟩ := List.idxOf?_eq_some_iff.mp found
    rw [interner.idxOf_strings s index (List.getElem?_eq_some_iff.mpr ⟨bound, entry⟩)]
  next fresh => exact absurd known (List.idxOf?_eq_none_iff.mp fresh)

theorem intern_of_not_mem (interner : Interner) (s : String) (fresh : s ∉ interner.strings) :
    (interner.intern s).1 = ⟨interner.strings.length⟩ ∧ (interner.intern s).2.strings = interner.strings ++ [s] := by
  unfold intern
  split
  next index found =>
    have unknown := List.idxOf?_eq_none_iff.mpr fresh
    simp [unknown] at found
  next => exact ⟨rfl, (List.append_assoc ..).symm⟩

theorem tryIntern_of_mem (interner : Interner) (s : String) (known : s ∈ interner.strings) :
    interner.tryIntern s = (.ok ⟨interner.strings.idxOf s⟩, interner) := by
  have accepted : s ∈ interner.strings ∨ interner.size < capacity := .inl known
  simp only [tryIntern, accepted, if_true, interner.intern_of_mem s known]

theorem tryIntern_of_room (interner : Interner) (s : String) (fresh : s ∉ interner.strings)
    (room : interner.size < capacity) :
    (interner.tryIntern s).1 = .ok ⟨interner.size⟩ ∧ (interner.tryIntern s).2.strings = interner.strings ++ [s] := by
  have accepted : s ∈ interner.strings ∨ interner.size < capacity := .inr room
  obtain ⟨name, strings⟩ := interner.intern_of_not_mem s fresh
  simp only [tryIntern, accepted, if_true]
  exact ⟨congrArg Except.ok name, strings⟩

theorem tryIntern_of_full (interner : Interner) (s : String) (fresh : s ∉ interner.strings)
    (full : capacity ≤ interner.size) : interner.tryIntern s = (.error (.overflow interner.size), interner) := by
  have refused : ¬ (s ∈ interner.strings ∨ interner.size < capacity) := by
    rintro (known | room)
    · exact fresh known
    · omega
  simp only [tryIntern, refused, if_false]

theorem lookup_of_mem (interner : Interner) (s : String) (known : s ∈ interner.strings) :
    interner.lookup ⟨interner.strings.idxOf s⟩ = s := by
  have bound := List.idxOf_lt_length_iff.mpr known
  simp [lookup, List.getElem?_eq_getElem bound]

theorem lookup_beyond (interner : Interner) (name : Name) (beyond : interner.size ≤ name.index) :
    interner.lookup name = "" := by
  have missing : interner.strings[name.index]? = none := List.getElem?_eq_none beyond
  simp [lookup, missing]

end Interner

/-- A call to an interner. -/
inductive Interning where
  | intern (s : String)
  | tryIntern (s : String)

def Interning.string : Interning → String
  | intern s | tryIntern s => s

namespace InternTable

/-- The name that a call gives, if any, and the tables after it; a call that gives no name leaves them as they were. -/
def perform (table : InternTable) : Interning → Option Name × InternTable
  | .intern s =>
    match table.intern? s with
    | some (name, after) => (some name, after)
    | none => (none, table)
  | .tryIntern s => ((table.tryIntern s).1.toOption, (table.tryIntern s).2)

def answers (table : InternTable) : List Interning → List (Option Name)
  | [] => []
  | call :: calls => (table.perform call).1 :: (table.perform call).2.answers calls

def after (table : InternTable) (calls : List Interning) : InternTable :=
  calls.foldl (fun table call => (table.perform call).2) table

/-- Both calls name a string in the same way; they differ only in what they make of a refusal. -/
theorem perform_eq (table : InternTable) (call : Interning) :
    table.perform call = ((table.tryIntern call.string).1.toOption, (table.tryIntern call.string).2) := by
  cases call with
  | tryIntern s => rfl
  | intern s =>
    simp only [perform, intern?, Interning.string, tryIntern]
    cases table.index? s with
    | some index => rfl
    | none =>
      by_cases room : table.size < Interner.capacity
      · simp only [room, if_true]
        rfl
      · simp only [room, if_false]
        rfl

/-- Whether the map and the vector are inverse to each other. -/
def Inverse (table : InternTable) : Prop :=
  ∀ s index, table.index? s = some index ↔ table.strings[index]? = some s

/-- Entering a new string into both tables keeps them inverse to each other. -/
theorem Inverse.enter {table : InternTable} (inverse : table.Inverse) (s : String) (fresh : table.index? s = none) :
    ((table.push s).insert s table.size).Inverse := by
  have unlisted (index : Nat) : table.strings[index]? ≠ some s := by
    intro found
    rw [(inverse s index).mpr found] at fresh
    cases fresh
  intro t index
  change ((s, table.size) :: table.map).lookup t = some index ↔ (table.strings.push s)[index]? = some t
  rw [List.lookup_cons, Array.getElem?_push]
  change _ ↔ (if index = table.size then some s else table.strings[index]?) = some t
  by_cases same : t = s
  · subst same
    simp only [beq_self_eq_true, Option.some.injEq]
    split
    next last => simp [last]
    next other => exact iff_of_false (Ne.symm other) (unlisted index)
  · rw [beq_eq_false_iff_ne.mpr same]
    change table.index? t = some index ↔ _
    rw [inverse t index]
    split
    next last =>
      have beyond : table.strings[index]? = none := Array.getElem?_eq_none (Nat.le_of_eq last.symm)
      simpa [beyond] using Ne.symm same
    next => exact Iff.rfl

theorem inverse_empty : empty.Inverse := fun s index => by simp [empty, index?]

/-- Whether the tables are inverse to each other and hold the strings of an interner. -/
structure Represents (table : InternTable) (interner : Interner) : Prop where
  strings : table.strings.toList = interner.strings
  inverse : table.Inverse

theorem represents_new : new.Represents .new where
  strings := rfl
  inverse :=
    inverse_empty.enter "" rfl |>.enter "true" rfl |>.enter "false" rfl |>.enter "some" rfl |>.enter "none" rfl
      |>.enter "ok" rfl |>.enter "error" rfl

namespace Represents

variable {table : InternTable} {interner : Interner} (represents : table.Represents interner)
include represents

theorem getElem? (index : Nat) : table.strings[index]? = interner.strings[index]? := by
  rw [← represents.strings, Array.getElem?_toList]

theorem size : table.size = interner.size := by
  rw [InternTable.size, Interner.size, ← represents.strings, Array.length_toList]

theorem lookup (name : Name) : table.lookup name = interner.lookup name := by
  rw [InternTable.lookup, Interner.lookup, represents.getElem?]

theorem tryIntern_of_mem (s : String) (known : s ∈ interner.strings) :
    table.tryIntern s = (.ok ⟨interner.strings.idxOf s⟩, table) := by
  obtain ⟨index, place⟩ := List.mem_iff_getElem?.mp known
  have found : table.index? s = some index := by rw [represents.inverse, represents.getElem?, place]
  rw [InternTable.tryIntern, found, interner.idxOf_strings s index place]

/-- One call keeps the tables inverse to each other, and answers as the plain list does. -/
theorem tryIntern (s : String) :
    (table.tryIntern s).1 = (interner.tryIntern s).1 ∧
      (table.tryIntern s).2.Represents (interner.tryIntern s).2 := by
  by_cases known : s ∈ interner.strings
  · rw [represents.tryIntern_of_mem s known, interner.tryIntern_of_mem s known]
    exact ⟨rfl, represents⟩
  · have fresh : table.index? s = none := by
      rw [Option.eq_none_iff_forall_ne_some]
      intro index found
      rw [represents.inverse, represents.getElem?] at found
      exact known (List.mem_of_getElem? found)
    simp only [InternTable.tryIntern, fresh, represents.size]
    split
    next room =>
      obtain ⟨name, strings⟩ := interner.tryIntern_of_room s known room
      rw [← represents.size]
      refine ⟨by rw [name, represents.size], ?_, represents.inverse.enter s fresh⟩
      rw [strings, ← represents.strings]
      exact Array.toList_push
    next full =>
      rw [interner.tryIntern_of_full s known (Nat.le_of_not_lt full)]
      exact ⟨rfl, represents⟩

end Represents

end InternTable

namespace Interner

def answers (interner : Interner) : List String → List (Except InternError Name)
  | [] => []
  | s :: strings => (interner.tryIntern s).1 :: (interner.tryIntern s).2.answers strings

def after (interner : Interner) (strings : List String) : Interner :=
  strings.foldl (fun interner s => (interner.tryIntern s).2) interner

/-- The name of a string among those seen so far: its place in the order of first occurrence. -/
def nameAmong (seen : List String) (s : String) : Name := ⟨seen.eraseDups.idxOf s⟩

/-- The strings that a run adds to the reserved ones, in the order in which they first occur. -/
def newcomers (strings : List String) : List String := (strings.removeAll Name.reserved).eraseDups

private theorem eraseDups_concat (seen : List String) (s : String) :
    (seen ++ [s]).eraseDups = if s ∈ seen then seen.eraseDups else seen.eraseDups ++ [s] := by
  rw [List.eraseDups_append]
  by_cases known : s ∈ seen
  · simp [List.removeAll, known]
  · simp [List.removeAll, known, List.eraseDups_cons]

private theorem card_le_append (seen more : List String) : seen.toFinset.card ≤ (seen ++ more).toFinset.card := by
  rw [List.toFinset_append]
  exact Finset.card_le_card Finset.subset_union_left

theorem nameAmong_append (seen more : List String) (s : String) (known : s ∈ seen) :
    nameAmong (seen ++ more) s = nameAmong seen s := by
  unfold nameAmong
  rw [List.eraseDups_append, List.idxOf_append_of_mem (List.mem_eraseDups.mpr known)]

theorem nameAmong_inj (seen : List String) (s t : String) (known : s ∈ seen) :
    nameAmong seen s = nameAmong seen t ↔ s = t := by
  rw [nameAmong, nameAmong, Name.mk.injEq]
  exact List.idxOf_inj (List.mem_eraseDups.mpr known)

section Seen

variable (interner : Interner) (seen : List String) (holds : interner.strings = seen.eraseDups)
include holds

theorem mem_strings_iff (s : String) : s ∈ interner.strings ↔ s ∈ seen := by rw [holds, List.mem_eraseDups]

theorem size_eq_card : interner.size = seen.toFinset.card := by
  have same : interner.strings.toFinset = seen.toFinset := by
    ext t
    simp [interner.mem_strings_iff seen holds]
  rw [← same, List.toFinset_card_of_nodup interner.strings_nodup, size]

/-- An interner that holds the strings seen so far, and has room for the next one, names it by where it first
occurs. -/
theorem tryIntern_seen (s : String) (room : (seen ++ [s]).toFinset.card ≤ capacity) :
    (interner.tryIntern s).1 = .ok (nameAmong (seen ++ [s]) s) ∧
      (interner.tryIntern s).2.strings = (seen ++ [s]).eraseDups := by
  have member := interner.mem_strings_iff seen holds s
  by_cases known : s ∈ seen
  · rw [interner.tryIntern_of_mem s (member.mpr known), nameAmong_append seen [s] s known, eraseDups_concat]
    simp [nameAmong, holds, known]
  · have unseen : s ∉ seen.eraseDups := mt List.mem_eraseDups.mp known
    have grown : (seen ++ [s]).toFinset = insert s seen.toFinset := by
      ext t
      simp
    rw [grown, Finset.card_insert_of_notMem (by simpa using known), ← interner.size_eq_card seen holds] at room
    obtain ⟨name, strings⟩ := interner.tryIntern_of_room s (mt member.mp known) room
    rw [name, strings, nameAmong, eraseDups_concat, if_neg known, size, holds]
    simp [List.idxOf_append_of_notMem unseen]

/-- A string that has been seen keeps its name, whatever is seen later. -/
theorem nameAmong_seen (more : List String) (s : String) (known : s ∈ seen) :
    nameAmong (seen ++ more) s = ⟨interner.strings.idxOf s⟩ := by
  rw [nameAmong_append seen more s known, nameAmong, holds]

end Seen

/-- Over a run, every call is answered with the name of its string among all strings of the run. -/
theorem run_seen (interner : Interner) (seen : List String) (holds : interner.strings = seen.eraseDups)
    (strings : List String) (room : (seen ++ strings).toFinset.card ≤ capacity) :
    interner.answers strings = strings.map (fun s => .ok (nameAmong (seen ++ strings) s)) ∧
      (interner.after strings).strings = (seen ++ strings).eraseDups := by
  induction strings generalizing interner seen with
  | nil => simp [answers, after, holds]
  | cons s strings answered =>
    have split : seen ++ s :: strings = (seen ++ [s]) ++ strings := by simp
    rw [split] at room ⊢
    have here := Nat.le_trans (card_le_append (seen ++ [s]) strings) room
    obtain ⟨answer, held⟩ := interner.tryIntern_seen seen holds s here
    obtain ⟨rest, final⟩ := answered (interner.tryIntern s).2 (seen ++ [s]) held room
    refine ⟨?_, final⟩
    rw [answers, answer, rest, List.map_cons, nameAmong_append (seen ++ [s]) strings s (by simp)]

theorem run_strings (strings : List String) :
    (Name.reserved ++ strings).eraseDups = Name.reserved ++ newcomers strings := by
  rw [List.eraseDups_append, newcomers]
  rfl

end Interner

namespace InternTable

theorem Represents.perform {table : InternTable} {interner : Interner} (represents : table.Represents interner)
    (call : Interning) :
    (table.perform call).1 = (interner.tryIntern call.string).1.toOption ∧
      (table.perform call).2.Represents (interner.tryIntern call.string).2 := by
  obtain ⟨answer, kept⟩ := represents.tryIntern call.string
  rw [table.perform_eq call, answer]
  exact ⟨rfl, kept⟩

/-- Over a run, the tables answer as a plain list of distinct strings does, and represent it at the end. -/
theorem Represents.run {table : InternTable} {interner : Interner} (represents : table.Represents interner)
    (calls : List Interning) :
    table.answers calls = (interner.answers (calls.map Interning.string)).map Except.toOption ∧
      (table.after calls).Represents (interner.after (calls.map Interning.string)) := by
  induction calls generalizing table interner with
  | nil => exact ⟨rfl, represents⟩
  | cons call calls answered =>
    obtain ⟨answer, kept⟩ := represents.perform call
    obtain ⟨rest, final⟩ := answered kept
    refine ⟨?_, final⟩
    rw [answers, answer, rest]
    rfl

end InternTable

open Interner in
/-- One naming holds for a whole run of calls, at whatever moments they are made: it tells strings apart, gives the
reserved strings the first indexes and the newcomers the next ones in their order. At every moment the map and the
vector are inverse to each other, naming a string again that has been named changes neither of them, looking its name up
gives it back, and an index past the end stands for the empty string. -/
theorem InternTable.run_naming (calls : List Interning)
    (few : (Name.reserved ++ calls.map Interning.string).toFinset.card ≤ Interner.capacity) :
    ∃ nameOf : String → Name,
      InternTable.new.answers calls = calls.map (fun call => some (nameOf call.string)) ∧
      (∀ s ∈ Name.reserved ++ calls.map Interning.string, ∀ t ∈ Name.reserved ++ calls.map Interning.string,
        nameOf s = nameOf t ↔ s = t) ∧
      (∀ index s, Name.reserved[index]? = some s → nameOf s = ⟨index⟩) ∧
      (∀ index s, (newcomers (calls.map Interning.string))[index]? = some s → nameOf s = ⟨7 + index⟩) ∧
      ∀ earlier, earlier <+: calls →
        (InternTable.new.after earlier).Inverse ∧
        (∀ call : Interning, call.string ∈ Name.reserved ++ earlier.map Interning.string →
          (InternTable.new.after earlier).perform call =
            (some (nameOf call.string), InternTable.new.after earlier) ∧
          (InternTable.new.after earlier).lookup (nameOf call.string) = call.string) ∧
        ∀ name : Name, (InternTable.new.after earlier).size ≤ name.index →
          (InternTable.new.after earlier).lookup name = "" := by
  have start : Interner.new.strings = Name.reserved.eraseDups := by decide
  obtain ⟨answered, strings⟩ := Interner.new.run_seen Name.reserved start (calls.map Interning.string) few
  have listed := strings.trans (run_strings _)
  have named (index : Nat) (s : String)
      (found : (Name.reserved ++ newcomers (calls.map Interning.string))[index]? = some s) :
      nameAmong (Name.reserved ++ calls.map Interning.string) s = ⟨index⟩ := by
    rw [nameAmong, ← strings]
    rw [← listed] at found
    rw [Interner.idxOf_strings _ s index found]
  refine ⟨nameAmong (Name.reserved ++ calls.map Interning.string), ?_, ?_, ?_, ?_, ?_⟩
  · rw [(represents_new.run calls).1, answered, List.map_map, List.map_map]
    rfl
  · intro s known t _
    exact nameAmong_inj _ s t known
  · intro index s found
    have bound : index < Name.reserved.length := (List.getElem?_eq_some_iff.mp found).1
    apply named index s
    rw [List.getElem?_append_left bound]
    exact found
  · intro index s found
    apply named (7 + index) s
    rw [List.getElem?_append_right (by simp [Name.reserved])]
    simpa [Name.reserved] using found
  · intro earlier before
    obtain ⟨later, rfl⟩ := before
    rw [List.map_append, ← List.append_assoc] at few ⊢
    have room := Nat.le_trans (card_le_append _ _) few
    obtain ⟨_, seen⟩ := Interner.new.run_seen Name.reserved start (earlier.map Interning.string) room
    have represents := (represents_new.run earlier).2
    refine ⟨represents.inverse, ?_, ?_⟩
    · intro call known
      have member := (Interner.mem_strings_iff _ _ seen call.string).mpr known
      rw [Interner.nameAmong_seen _ _ seen (later.map Interning.string) call.string known, perform_eq,
        represents.tryIntern_of_mem call.string member, represents.lookup]
      exact ⟨rfl, Interner.lookup_of_mem _ call.string member⟩
    · intro name beyond
      rw [represents.lookup]
      rw [represents.size] at beyond
      exact Interner.lookup_beyond _ name beyond

/-- `b`, the reserved `true`, `a`, and `b` once more. -/
theorem InternTable.run_naming_repeated :
    let calls : List Interning := [.intern "b", .tryIntern "true", .tryIntern "a", .intern "b"]
    (Name.reserved ++ calls.map Interning.string).toFinset.card ≤ Interner.capacity ∧
      ∃ nameOf : String → Name, nameOf "true" = ⟨1⟩ ∧ nameOf "b" = ⟨7⟩ ∧ nameOf "a" = ⟨8⟩ ∧
        InternTable.new.answers calls =
          [some (nameOf "b"), some (nameOf "true"), some (nameOf "a"), some (nameOf "b")] ∧
        (InternTable.new.after calls).Inverse ∧ (InternTable.new.after calls).lookup (nameOf "b") = "b" := by
  intro calls
  have few : (Name.reserved ++ calls.map Interning.string).toFinset.card ≤ Interner.capacity :=
    Nat.le_trans (List.toFinset_card_le _) (by decide)
  obtain ⟨nameOf, answered, _, reserved, added, moments⟩ := InternTable.run_naming calls few
  obtain ⟨inverse, again, _⟩ := moments calls (List.prefix_refl calls)
  exact ⟨few, nameOf, reserved 1 "true" rfl, added 0 "b" (by decide), added 1 "a" (by decide), answered, inverse,
    (again (.intern "b") (by decide)).2⟩

end TagLang
