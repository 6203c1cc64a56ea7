import Mathlib.Data.List.Infix
import TagLang.Arena

/-! Runs of allocations in an arena. Every table only grows at its end, so a handle reads back what it was given for
after whatever is allocated later, and ids of expressions and of layouts count up from zero. -/

namespace TagLang

inductive Allocation where
  | expr (expr : Expr)
  | exprList (ids : List ExprId)
  | fields (fields : List FieldInit)
  | arms (arms : List Arm)
  | names (names : List Name)
  | layout (layout : EnumLayout)

/-- What an allocation is found by. Ranges of different tables look alike, so the table is told with the range. -/
inductive Handle where
  | expr (id : ExprId)
  | exprList (range : TableRange)
  | fields (range : TableRange)
  | arms (range : TableRange)
  | names (range : TableRange)
  | layout (id : EnumId)
deriving DecidableEq

namespace Handle

def exprIndex? : Handle → Option Nat
  | expr id => some id.index
  | _ => none

def layoutIndex? : Handle → Option Nat
  | layout id => some id.index
  | _ => none

/-- The index behind the last entry that a handle stands for. -/
def stop : Handle → Nat
  | expr id => id.index + 1
  | exprList range | fields range | arms range | names range => range.stop
  | layout id => id.index + 1

end Handle

theorem getElem?_of_grown {α : Type} (before after : Array α) (grown : before.toList <+: after.toList) (index : Nat)
    (entry : α) (found : before[index]? = some entry) : after[index]? = some entry := by
  obtain ⟨bound, rfl⟩ := Array.getElem?_eq_some_iff.mp found
  have kept := List.prefix_iff_getElem?.mp grown index (by simpa using bound)
  simpa using kept

namespace TableRange

variable {α : Type}

theorem read?_of_inside (range : TableRange) (table : Array α) (inside : range.stop ≤ table.size) :
    range.read? table = some ((table.toList.drop range.start).take range.len) := by
  unfold stop at inside
  simp [read?, stop, inside]

theorem stop_le_of_read? (range : TableRange) (table : Array α) (entries : List α)
    (read : range.read? table = some entries) : range.stop ≤ table.size := by
  by_contra outside
  simp [read?, outside] at read

theorem read?_append (table : Array α) (entries : List α) :
    (append table entries).1.read? (append table entries).2 = some entries := by
  have inside : (append table entries).1.stop ≤ (append table entries).2.size := by
    rw [← Array.length_toList]
    simp [append, stop]
  rw [read?_of_inside _ _ inside]
  simp [append]

theorem read?_of_grown (range : TableRange) (before after : Array α) (grown : before.toList <+: after.toList)
    (entries : List α) (read : range.read? before = some entries) : range.read? after = some entries := by
  have inside := range.stop_le_of_read? before entries read
  have still : range.stop ≤ after.size := Nat.le_trans inside (by simpa using grown.length_le)
  rw [range.read?_of_inside before inside] at read
  rw [range.read?_of_inside after still, ← read]
  obtain ⟨more, same⟩ := grown
  have start : range.start ≤ before.toList.length := Nat.le_trans (Nat.le_add_right ..) inside
  have len : range.len ≤ (before.toList.drop range.start).length := by
    simp only [stop] at inside
    simp only [List.length_drop, Array.length_toList]
    omega
  rw [← same, List.drop_append_of_le_length start, List.take_append_of_le_length len]

end TableRange

namespace Arena

def allocate (arena : Arena) : Allocation → Handle × Arena
  | .expr expr => (arena.alloc expr).map .expr id
  | .exprList ids => (arena.allocExprList ids).map .exprList id
  | .fields fields => (arena.allocFields fields).map .fields id
  | .arms arms => (arena.allocArms arms).map .arms id
  | .names names => (arena.allocNames names).map .names id
  | .layout layout => (arena.registerEnum layout).map .layout id

/-- What was allocated under a handle. -/
def read? (arena : Arena) : Handle → Option Allocation
  | .expr id => (arena.expr? id).map .expr
  | .exprList range => (arena.exprList? range).map .exprList
  | .fields range => (arena.fields? range).map .fields
  | .arms range => (arena.arms? range).map .arms
  | .names range => (arena.names? range).map .names
  | .layout id => (arena.enums.get? id).map .layout

def handles (arena : Arena) : List Allocation → List Handle
  | [] => []
  | allocation :: later => (arena.allocate allocation).1 :: (arena.allocate allocation).2.handles later

def afterAll (arena : Arena) (allocations : List Allocation) : Arena :=
  allocations.foldl (fun arena allocation => (arena.allocate allocation).2) arena

/-- How many indexes there are: an index is 32 bits wide. -/
def capacity : Nat := 4294967296

/-- How many entries the table of a handle has. -/
def tableSize (arena : Arena) : Handle → Nat
  | .expr _ => arena.exprs.size
  | .exprList _ => arena.exprLists.size
  | .fields _ => arena.fields.size
  | .arms _ => arena.arms.size
  | .names _ => arena.names.size
  | .layout _ => arena.enums.size

/-- Whether every table of an arena begins as it does in an earlier one. -/
structure Extends (before after : Arena) : Prop where
  exprs : before.exprs.toList <+: after.exprs.toList
  exprLists : before.exprLists.toList <+: after.exprLists.toList
  fields : before.fields.toList <+: after.fields.toList
  arms : before.arms.toList <+: after.arms.toList
  names : before.names.toList <+: after.names.toList
  layouts : before.enums.layouts.toList <+: after.enums.layouts.toList

theorem Extends.refl (arena : Arena) : arena.Extends arena :=
  ⟨List.prefix_rfl, List.prefix_rfl, List.prefix_rfl, List.prefix_rfl, List.prefix_rfl, List.prefix_rfl⟩

theorem Extends.trans {a b c : Arena} (first : a.Extends b) (second : b.Extends c) : a.Extends c where
  exprs := first.exprs.trans second.exprs
  exprLists := first.exprLists.trans second.exprLists
  fields := first.fields.trans second.fields
  arms := first.arms.trans second.arms
  names := first.names.trans second.names
  layouts := first.layouts.trans second.layouts

theorem allocate_extends (arena : Arena) (allocation : Allocation) : arena.Extends (arena.allocate allocation).2 := by
  cases allocation with
  | expr expr => exact { Extends.refl arena with exprs := by simp [allocate, alloc] }
  | exprList ids => exact { Extends.refl arena with exprLists := by simp [allocate, allocExprList, TableRange.append] }
  | fields fields => exact { Extends.refl arena with fields := by simp [allocate, allocFields, TableRange.append] }
  | arms arms => exact { Extends.refl arena with arms := by simp [allocate, allocArms, TableRange.append] }
  | names names => exact { Extends.refl arena with names := by simp [allocate, allocNames, TableRange.append] }
  | layout layout =>
    exact { Extends.refl arena with layouts := by simp [allocate, registerEnum, EnumRegistry.register] }

theorem read?_allocate (arena : Arena) (allocation : Allocation) :
    (arena.allocate allocation).2.read? (arena.allocate allocation).1 = some allocation := by
  cases allocation with
  | expr expr => simp [allocate, read?, alloc, expr?]
  | exprList ids => exact congrArg (Option.map Allocation.exprList) (TableRange.read?_append arena.exprLists ids)
  | fields fields => exact congrArg (Option.map Allocation.fields) (TableRange.read?_append arena.fields fields)
  | arms arms => exact congrArg (Option.map Allocation.arms) (TableRange.read?_append arena.arms arms)
  | names names => exact congrArg (Option.map Allocation.names) (TableRange.read?_append arena.names names)
  | layout layout => simp [allocate, read?, registerEnum, EnumRegistry.register, EnumRegistry.get?]

theorem Extends.read? {before after : Arena} (grown : before.Extends after) (handle : Handle)
    (allocation : Allocation) (read : before.read? handle = some allocation) :
    after.read? handle = some allocation := by
  cases handle with
  | expr id =>
    obtain ⟨expr, found, rfl⟩ := Option.map_eq_some_iff.mp read
    exact congrArg (Option.map Allocation.expr) (getElem?_of_grown _ _ grown.exprs id.index expr found)
  | exprList range =>
    obtain ⟨ids, found, rfl⟩ := Option.map_eq_some_iff.mp read
    exact congrArg (Option.map Allocation.exprList) (range.read?_of_grown _ _ grown.exprLists ids found)
  | fields range =>
    obtain ⟨fields, found, rfl⟩ := Option.map_eq_some_iff.mp read
    exact congrArg (Option.map Allocation.fields) (range.read?_of_grown _ _ grown.fields fields found)
  | arms range =>
    obtain ⟨arms, found, rfl⟩ := Option.map_eq_some_iff.mp read
    exact congrArg (Option.map Allocation.arms) (range.read?_of_grown _ _ grown.arms arms found)
  | names range =>
    obtain ⟨names, found, rfl⟩ := Option.map_eq_some_iff.mp read
    exact congrArg (Option.map Allocation.names) (range.read?_of_grown _ _ grown.names names found)
  | layout id =>
    obtain ⟨layout, found, rfl⟩ := Option.map_eq_some_iff.mp read
    exact congrArg (Option.map Allocation.layout) (getElem?_of_grown _ _ grown.layouts id.index layout found)

theorem afterAll_extends (arena : Arena) (allocations : List Allocation) :
    arena.Extends (arena.afterAll allocations) := by
  induction allocations generalizing arena with
  | nil => exact .refl arena
  | cons allocation later grown => exact (arena.allocate_extends allocation).trans (grown _)

theorem map_read?_handles (arena : Arena) (allocations later : List Allocation) :
    (arena.handles allocations).map (arena.afterAll (allocations ++ later)).read? = allocations.map some := by
  induction allocations generalizing arena with
  | nil => rfl
  | cons allocation rest reads =>
    have grown := (arena.allocate allocation).2.afterAll_extends (rest ++ later)
    have first := grown.read? _ allocation (arena.read?_allocate allocation)
    exact congrArg₂ List.cons first (reads (arena.allocate allocation).2)

/-- Indexes count up if each allocation that gives one out takes the next. -/
theorem range_append_handles (index? : Handle → Option Nat) (size : Arena → Nat)
    (step : ∀ arena allocation, List.range (size arena) ++ (index? (arena.allocate allocation).1).toList =
      List.range (size (arena.allocate allocation).2))
    (arena : Arena) (allocations : List Allocation) :
    List.range (size arena) ++ (arena.handles allocations).filterMap index? =
      List.range (size (arena.afterAll allocations)) := by
  induction allocations generalizing arena with
  | nil => simp [handles, afterAll]
  | cons allocation later counted =>
    have next := counted (arena.allocate allocation).2
    rw [← step arena allocation, List.append_assoc] at next
    rw [handles, List.filterMap_eq_flatMap_toList, List.flatMap_cons, ← List.filterMap_eq_flatMap_toList]
    exact next

theorem range_append_exprIndex? (arena : Arena) (allocation : Allocation) :
    List.range arena.size ++ ((arena.allocate allocation).1.exprIndex?).toList =
      List.range (arena.allocate allocation).2.size := by
  cases allocation with
  | expr expr => simp [allocate, alloc, Handle.exprIndex?, size, List.range_succ]
  | exprList | fields | arms | names | layout => exact List.append_nil _

theorem range_append_layoutIndex? (arena : Arena) (allocation : Allocation) :
    List.range arena.enums.size ++ ((arena.allocate allocation).1.layoutIndex?).toList =
      List.range (arena.allocate allocation).2.enums.size := by
  cases allocation with
  | layout layout =>
    simp [allocate, registerEnum, EnumRegistry.register, Handle.layoutIndex?, EnumRegistry.size, List.range_succ]
  | expr | exprList | fields | arms | names => exact List.append_nil _

theorem stop_le_of_read? (arena : Arena) (handle : Handle) (allocation : Allocation)
    (read : arena.read? handle = some allocation) : handle.stop ≤ arena.tableSize handle := by
  cases handle with
  | expr id | layout id =>
    obtain ⟨_, found, _⟩ := Option.map_eq_some_iff.mp read
    exact (Array.getElem?_eq_some_iff.mp found).1
  | exprList range | fields range | arms range | names range =>
    obtain ⟨entries, found, _⟩ := Option.map_eq_some_iff.mp read
    exact range.stop_le_of_read? _ entries found

end Arena

/-- However allocations of all kinds are mixed, and whatever is allocated later, every handle reads back what it was
given for. Ids of expressions and of layouts are those from zero to the size of their table, each given out once. While
the tables stay below their capacity, so does what a handle stands for, and no id is the one of an absent expression. -/
theorem Arena.handles_stable (allocations later : List Allocation) :
    let handles := Arena.empty.handles allocations
    let reached := Arena.empty.afterAll allocations
    let final := Arena.empty.afterAll (allocations ++ later)
    handles.map final.read? = allocations.map some ∧
      handles.filterMap Handle.exprIndex? = List.range reached.size ∧ (handles.filterMap Handle.exprIndex?).Nodup ∧
      handles.filterMap Handle.layoutIndex? = List.range reached.enums.size ∧
      (handles.filterMap Handle.layoutIndex?).Nodup ∧
      ((∀ handle, final.tableSize handle < Arena.capacity) →
        ∀ handle ∈ handles, handle.stop < Arena.capacity ∧ handle ≠ .expr .absent) := by
  intro handles reached final
  have reads : handles.map final.read? = allocations.map some := Arena.empty.map_read?_handles allocations later
  have exprs : handles.filterMap Handle.exprIndex? = List.range reached.size :=
    Arena.range_append_handles Handle.exprIndex? Arena.size Arena.range_append_exprIndex? Arena.empty allocations
  have layouts : handles.filterMap Handle.layoutIndex? = List.range reached.enums.size :=
    Arena.range_append_handles Handle.layoutIndex? (fun arena => arena.enums.size) Arena.range_append_layoutIndex?
      Arena.empty allocations
  refine ⟨reads, exprs, exprs ▸ List.nodup_range, layouts, layouts ▸ List.nodup_range, ?_⟩
  intro small handle given
  have read : final.read? handle ∈ allocations.map some := by
    rw [← reads]
    exact List.mem_map_of_mem given
  obtain ⟨allocation, _, same⟩ := List.mem_map.mp read
  have fits := Nat.lt_of_le_of_lt (final.stop_le_of_read? handle allocation same.symm) (small handle)
  refine ⟨fits, ?_⟩
  intro absent
  rw [absent] at fits
  exact absurd fits (by decide)

/-- Two expressions, two layouts and lists of every table take turns, an empty list among them; another name list and
another expression come later. -/
theorem Arena.handles_stable_interleaved :
    let one : Expr := ⟨.int .one, ⟨3, 4⟩⟩
    let shape : EnumLayout := ⟨⟨7⟩, [⟨⟨8⟩, 0⟩]⟩
    let allocations : List Allocation := [.names [], .expr one, .layout shape, .exprList [⟨0⟩, ⟨0⟩],
      .arms [⟨.default, ⟨0⟩⟩], .expr ⟨.list ⟨0, 2⟩, .dummy⟩, .fields [⟨⟨9⟩, ⟨1⟩⟩], .names [⟨9⟩, ⟨8⟩], .layout shape]
    let final := Arena.empty.afterAll (allocations ++ [.names [⟨7⟩], .expr one])
    Arena.empty.handles allocations = [.names ⟨0, 0⟩, .expr ⟨0⟩, .layout ⟨0⟩, .exprList ⟨0, 2⟩, .arms ⟨0, 1⟩, .expr ⟨1⟩,
        .fields ⟨0, 1⟩, .names ⟨0, 2⟩, .layout ⟨1⟩] ∧
      (∀ handle, final.tableSize handle < Arena.capacity) ∧
      (Arena.empty.handles allocations).map final.read? = allocations.map some ∧
      ∀ handle ∈ Arena.empty.handles allocations, handle.stop < Arena.capacity ∧ handle ≠ .expr .absent := by
  intro one shape allocations final
  have small : ∀ handle, final.tableSize handle < Arena.capacity := by
    intro handle
    have few : final.tableSize handle < 4 := by cases handle <;> exact Nat.le_of_ble_eq_true rfl
    exact few.trans (by decide)
  obtain ⟨reads, _, _, _, _, fits⟩ := Arena.handles_stable allocations [.names [⟨7⟩], .expr one]
  exact ⟨rfl, small, reads, fits small⟩

end TagLang
