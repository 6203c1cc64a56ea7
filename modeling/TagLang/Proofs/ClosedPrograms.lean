import TagLang.Proofs.HereditaryValues

/-! Closed programs. In a closed arena every id that is stored lies among the expressions and every range inside its
side table; a run of closed programs never reads outside a table, and makes functions of closed programs only. -/

namespace TagLang

namespace TableRange

variable {α : Type}

theorem read?_isSome (range : TableRange) (table : Array α) (inside : range.stop ≤ table.size) :
    (range.read? table).isSome := by
  simp [read?, inside]

theorem mem_of_read? (range : TableRange) (table : Array α) (entries : List α) (read : range.read? table = some entries)
    (entry : α) (member : entry ∈ entries) : entry ∈ table := by
  unfold read? at read
  split at read
  · obtain rfl := Option.some.inj read
    rw [Array.mem_toList_iff, Array.mem_extract_iff_getElem] at member
    obtain ⟨position, bound, rfl⟩ := member
    exact Array.getElem_mem _
  · cases read

end TableRange

def Pattern.bindings? : Pattern → Option TableRange
  | tag _ bindings => some bindings
  | default => none

namespace ExprKind

/-- The ids that an expression stores itself, not in a side table. -/
def ids : ExprKind → List ExprId
  | int _ | text _ | ident _ | tag _ _ | variant _ _ _ | list _ | record _ _ => []
  | binary _ left right => [left, right]
  | unary _ operand => [operand]
  | ifThen cond thenBranch elseBranch => cond :: thenBranch :: elseBranch.toList
  | when scrutinee _ => [scrutinee]
  | update base _ => [base]
  | field receiver _ => [receiver]
  | method receiver _ _ => [receiver]
  | call func _ => [func]
  | lambda _ _ body => [body]
  | letIn _ init body => [init, body]

/-- The ranges that an expression stores, each with the size of its side table. -/
def ranges (arena : Arena) : ExprKind → List (TableRange × Nat)
  | tag _ range | variant _ _ range | list range | method _ _ range | call _ range => [(range, arena.exprLists.size)]
  | record _ range | update _ range => [(range, arena.fields.size)]
  | when _ range => [(range, arena.arms.size)]
  | lambda _ range _ => [(range, arena.names.size)]
  | int _ | text _ | ident _ | binary _ _ _ | unary _ _ | ifThen _ _ _ | field _ _ | letIn _ _ _ => []

end ExprKind

private theorem isSome_mapM {α β : Type} (f : α → Option β) (items : List α) (found : ∀ item ∈ items, (f item).isSome) :
    (items.mapM f).isSome := by
  induction items with
  | nil => rfl
  | cons item items later =>
    obtain ⟨first, rest⟩ := List.forall_mem_cons.mp found
    obtain ⟨result, here⟩ := Option.isSome_iff_exists.mp first
    obtain ⟨results, mapped⟩ := Option.isSome_iff_exists.mp (later rest)
    simp [List.mapM_cons, here, mapped]

namespace Arena

structure Closed (arena : Arena) : Prop where
  ids : ∀ expr ∈ arena.exprs, ∀ id ∈ expr.kind.ids, id.index < arena.size
  ranges : ∀ expr ∈ arena.exprs, ∀ range ∈ expr.kind.ranges arena, range.1.stop ≤ range.2
  exprLists : ∀ id ∈ arena.exprLists, id.index < arena.size
  fields : ∀ field ∈ arena.fields, field.value.index < arena.size
  arms : ∀ arm ∈ arena.arms, arm.body.index < arena.size
  bindings : ∀ arm ∈ arena.arms, ∀ range ∈ arm.pattern.bindings?, range.stop ≤ arena.names.size

namespace Closed

variable {arena : Arena} (closed : arena.Closed)
include closed

theorem exprList (range : TableRange) : ∀ id ∈ (arena.exprList? range).getD [], id.index < arena.size := by
  cases read : arena.exprList? range with
  | none => simp
  | some ids => exact fun id member => closed.exprLists id (range.mem_of_read? _ ids read id member)

theorem fieldList (range : TableRange) :
    ∀ id ∈ ((arena.fields? range).getD []).map FieldInit.value, id.index < arena.size := by
  rw [List.forall_mem_map]
  cases read : arena.fields? range with
  | none => simp
  | some fields => exact fun field member => closed.fields field (range.mem_of_read? _ fields read field member)

theorem armList (range : TableRange) : ∀ id ∈ ((arena.arms? range).getD []).map Arm.body, id.index < arena.size := by
  rw [List.forall_mem_map]
  cases read : arena.arms? range with
  | none => simp
  | some arms => exact fun arm member => closed.arms arm (range.mem_of_read? _ arms read arm member)

theorem nodeArm (arm : Arm) (member : arm ∈ arena.arms) : (arena.nodeArm? arm).isSome := by
  have bindings := closed.bindings arm member
  obtain ⟨pattern, body⟩ := arm
  cases pattern with
  | default => rfl
  | tag name range =>
    have inside : range.stop ≤ arena.names.size := bindings range rfl
    simpa [nodeArm?, names?] using range.read?_isSome arena.names inside

theorem nodeArms (range : TableRange) (inside : range.stop ≤ arena.arms.size) : (arena.nodeArms? range).isSome := by
  obtain ⟨arms, read⟩ := Option.isSome_iff_exists.mp (range.read?_isSome arena.arms inside)
  have readable : ∀ arm ∈ arms, (arena.nodeArm? arm).isSome := by
    intro arm member
    exact closed.nodeArm arm (range.mem_of_read? _ arms read arm member)
  simpa [nodeArms?, arms?, read] using isSome_mapM arena.nodeArm? arms readable

theorem node (expr : Expr) (member : expr ∈ arena.exprs) : (arena.nodeOf? expr.kind).isSome := by
  have ranges := closed.ranges expr member
  cases kind : expr.kind with
  | int | text | ident | binary | unary | ifThen | field | letIn => rfl
  | tag _ range | variant _ _ range | list range | method _ _ range | call _ range =>
    have inside : range.stop ≤ arena.exprLists.size := ranges (range, _) (by simp [kind, ExprKind.ranges])
    obtain ⟨ids, read⟩ := Option.isSome_iff_exists.mp (range.read?_isSome arena.exprLists inside)
    simp [nodeOf?, exprList?, read]
  | record _ range | update _ range =>
    have inside : range.stop ≤ arena.fields.size := ranges (range, _) (by simp [kind, ExprKind.ranges])
    obtain ⟨fields, read⟩ := Option.isSome_iff_exists.mp (range.read?_isSome arena.fields inside)
    simp [nodeOf?, fields?, read]
  | when _ range =>
    have inside : range.stop ≤ arena.arms.size := ranges (range, _) (by simp [kind, ExprKind.ranges])
    obtain ⟨arms, read⟩ := Option.isSome_iff_exists.mp (closed.nodeArms range inside)
    simp [nodeOf?, read]
  | lambda _ range _ =>
    have inside : range.stop ≤ arena.names.size := ranges (range, _) (by simp [kind, ExprKind.ranges])
    obtain ⟨names, read⟩ := Option.isSome_iff_exists.mp (range.read?_isSome arena.names inside)
    simp [nodeOf?, names?, read]

theorem children (expr : Expr) (member : expr ∈ arena.exprs) :
    ∀ child ∈ expr.kind.parts arena ++ expr.kind.body?.toList, child.index < arena.size := by
  have ids := closed.ids expr member
  cases kind : expr.kind with
  | int | text | ident => simp [ExprKind.parts, ExprKind.body?]
  | binary | unary | ifThen | field | lambda | letIn =>
    simpa [kind, ExprKind.parts, ExprKind.body?, ExprKind.ids] using ids
  | tag _ range | variant _ _ range | list range =>
    simp only [ExprKind.parts, ExprKind.body?, Option.toList_none, List.append_nil]
    exact closed.exprList range
  | record _ range =>
    simp only [ExprKind.parts, ExprKind.body?, Option.toList_none, List.append_nil]
    exact closed.fieldList range
  | method _ _ range | call _ range =>
    simp only [kind, ExprKind.ids, List.forall_mem_singleton] at ids
    simp only [ExprKind.parts, ExprKind.body?, Option.toList_none, List.append_nil, List.forall_mem_cons]
    exact ⟨ids, closed.exprList range⟩
  | update _ range =>
    simp only [kind, ExprKind.ids, List.forall_mem_singleton] at ids
    simp only [ExprKind.parts, ExprKind.body?, Option.toList_none, List.append_nil, List.forall_mem_cons]
    exact ⟨ids, closed.fieldList range⟩
  | when _ range =>
    simp only [kind, ExprKind.ids, List.forall_mem_singleton] at ids
    simp only [ExprKind.parts, ExprKind.body?, Option.toList_none, List.append_nil, List.forall_mem_cons]
    exact ⟨ids, closed.armList range⟩

end Closed

end Arena

namespace Demand

def closedCode : Demand where
  program program := program.arena.Closed
  body program id := id.index < program.arena.size

theorem closedCode_laws : closedCode.Laws False where
  ofFields _ := trivial
  withFields _ _ _ := trivial
  named _ _ _ := trivial
  variant _ _ _ _ _ _ _ _ := trivial
  present program id _ inside := by
    have found : program.arena.expr? id = _ := Array.getElem?_eq_getElem inside
    exact .inr (by rw [found]; rfl)
  readable program id expr closed found := .inr (closed.node expr (Array.mem_of_getElem? found))
  children program id expr closed found := closed.children expr (Array.mem_of_getElem? found)

end Demand

/-- A run of closed programs reads no table outside its bounds, and gives functions of closed programs only. -/
theorem Session.eval_in_bounds (session : Session) (closed : session.program.arena.Closed)
    (env : session.env.All Demand.closedCode.Holds) (id : ExprId) (inside : id.index < session.program.arena.size)
    (fuel : Nat) :
    session.eval fuel id ≠ .outOfRange ∧
      ∀ value after, session.eval fuel id = .finished (.ok value) after → Demand.closedCode.Holds value :=
  Demand.closedCode_laws.eval session closed env id inside fuel

/-- `f(1)` for a function `f` of another program, which gives a function of that program. -/
theorem Session.eval_in_bounds_foreign :
    let callee : Program := ⟨1, { Arena.empty with
      exprs := #[⟨.ident ⟨8⟩, .dummy⟩, ⟨.lambda .empty .empty ⟨0⟩, .dummy⟩] }⟩
    let caller : Program := ⟨0, { Arena.empty with
      exprs := #[⟨.ident ⟨7⟩, .dummy⟩, ⟨.int .one, .dummy⟩, ⟨.call ⟨0⟩ ⟨0, 1⟩, .dummy⟩]
      exprLists := #[⟨1⟩] }⟩
    let maker : Closure Value := ⟨.empty, [⟨8⟩], ⟨1⟩, .empty, callee, 0⟩
    let session := Session.new .new caller (Environment.new.define ⟨7⟩ (.function maker)) .interpret 1
    caller.arena.Closed ∧ session.env.All Demand.closedCode.Holds ∧
      (∀ fuel, session.eval fuel ⟨2⟩ ≠ .outOfRange) ∧
      ∃ closure after, session.eval 9 ⟨2⟩ = .finished (.ok (.function closure)) after ∧
        closure.program.number = 1 ∧ Demand.closedCode.Holds (.function closure) := by
  intro callee caller maker session
  have closed : caller.arena.Closed := by constructor <;> decide
  have foreign : callee.arena.Closed := by constructor <;> decide
  have body : maker.body.index < callee.arena.size := by decide
  have held : Demand.closedCode.Holds (.function maker) :=
    Demand.holds_function maker foreign body (Bindings.all_empty _)
  have env : session.env.All Demand.closedCode.Holds := (Environment.all_new _).define ⟨7⟩ _ held
  have bounded (fuel : Nat) := Session.eval_in_bounds session closed env ⟨2⟩ (by decide) fuel
  exact ⟨closed, env, fun fuel => (bounded fuel).1, _, _, rfl, rfl, (bounded 9).2 _ _ rfl⟩

end TagLang
