import Mathlib.Order.Bounds.Basic
import TagLang.Proofs.ChainClimbing

/-! What folding a chain does to its arena. A chain of the wrong shape is refused. Every other chain over operands of
the arena appends one node for each operator, behind its children and over the source text of the operands below it. -/

namespace TagLang

def ExprKind.operator? : ExprKind → Option BinaryOp
  | .binary op _ _ => some op
  | _ => none

/-- The arena with more expressions behind its own, and all its tables as they are. -/
def Arena.append (arena : Arena) (added : List Expr) : Arena := { arena with exprs := arena.exprs ++ added.toArray }

namespace OpTree

variable {base : Arena} {op : BinaryOp} {left right : OpTree}

/-- Where the spans of a tree's operands have one of their ends. -/
def ends (base : Arena) (side : Span → Nat) (tree : OpTree) : Set Nat :=
  {place | ∃ id ∈ tree.operands, ∃ expr, base.expr? id = some expr ∧ side expr.span = place}

/-- Whether a span runs from the first to the last place in the spans of a tree's operands. -/
def Covers (base : Arena) (tree : OpTree) (span : Span) : Prop :=
  IsLeast (tree.ends base Span.start) span.start ∧ IsGreatest (tree.ends base Span.stop) span.stop

theorem covers_leaf (operand : ExprId) (expr : Expr) (read : base.expr? operand = some expr) :
    (leaf operand).Covers base expr.span := by
  have only : ∀ side, (leaf operand).ends base side = {side expr.span} := by
    intro side
    ext place
    simp [ends, operands, read, eq_comm]
  unfold Covers
  rw [only, only]
  exact ⟨isLeast_singleton, isGreatest_singleton⟩

theorem ends_node (side : Span → Nat) :
    (node op left right).ends base side = left.ends base side ∪ right.ends base side := by
  ext place
  simp [ends, operands, or_and_right, exists_or]

theorem Covers.merge {a b : Span} (ofLeft : left.Covers base a) (ofRight : right.Covers base b) :
    (node op left right).Covers base (a.merge b) := by
  unfold Covers
  rw [ends_node, ends_node]
  exact ⟨ofLeft.1.union ofRight.1, ofLeft.2.union ofRight.2⟩

theorem alloc?_appends (tree : OpTree) (arena grown : Arena) (id : ExprId)
    (allocated : tree.alloc? arena = some (id, grown)) :
    ∃ added : List Expr, grown = arena.append added ∧
      (added.map (·.kind.operator?)).Perm (tree.operators.map some) := by
  induction tree generalizing arena grown id with
  | leaf operand =>
    obtain ⟨rfl, rfl⟩ := Prod.mk.inj (Option.some.inj allocated)
    exact ⟨[], by simp [Arena.append], .nil⟩
  | node op left right leftAppends rightAppends =>
    obtain ⟨leftId, middle, rightId, last, leftExpr, rightExpr, leftDone, rightDone, _, _, made⟩ :=
      alloc?_node op left right arena grown id allocated
    obtain ⟨before, rfl, leftPerm⟩ := leftAppends arena middle leftId leftDone
    obtain ⟨after, rfl, rightPerm⟩ := rightAppends _ last rightId rightDone
    obtain ⟨_, rfl⟩ := Prod.mk.inj made
    refine ⟨before ++ (after ++ [⟨.binary op leftId rightId, leftExpr.span.merge rightExpr.span⟩]), ?_, ?_⟩
    · simp [Arena.append]
    · simp only [operators, List.map_append, List.map_cons]
      exact leftPerm.append ((rightPerm.append_right _).trans (List.perm_append_singleton _ _))

end OpTree

namespace Arena

theorem Keeps.size_le (before after : Arena) (keeps : before.Keeps after) : before.size ≤ after.size :=
  Nat.le_of_not_lt fun shrinks => Nat.lt_irrefl _ (keeps.inside before after ⟨after.size⟩ shrinks)

theorem of_alloc (arena grown : Arena) (expr : Expr) (id : ExprId) (made : arena.alloc expr = (id, grown)) :
    id = ⟨arena.size⟩ ∧ grown.size = arena.size + 1 ∧ arena.Keeps grown ∧ grown.expr? id = some expr := by
  have keeps := arena.alloc_keeps expr
  have read := arena.alloc_read expr
  rw [made] at keeps read
  obtain ⟨rfl, rfl⟩ := Prod.mk.inj made
  exact ⟨rfl, Array.size_push _, keeps, read⟩

/-- What a chain over the expressions of `base` leaves at an index behind them. -/
def HoldsNode (base grown : Arena) (index : Nat) : Prop :=
  ∃ op left right span, grown.expr? ⟨index⟩ = some ⟨.binary op left right, span⟩ ∧ left.index < index ∧
    right.index < index ∧ ∃ tree : OpTree, tree.StoredAt grown base.size ⟨index⟩ ∧ tree.Covers base span

theorem HoldsNode.later (base before after : Arena) (keeps : before.Keeps after) (index : Nat)
    (held : base.HoldsNode before index) : base.HoldsNode after index := by
  obtain ⟨op, left, right, span, read, leftBelow, rightBelow, tree, stored, covers⟩ := held
  exact ⟨op, left, right, span, keeps _ _ read, leftBelow, rightBelow, tree, stored.later _ _ _ keeps, covers⟩

end Arena

namespace OpTree

theorem operand_mem_operands (tree : OpTree) (id : ExprId) (met : .operand id ∈ tree.inOrder) : id ∈ tree.operands :=
  operand_mem_chainItems id _ _ (tree.inOrder_eq_chainItems ▸ met)

section Growth

variable (base : Arena) (tree : OpTree) (arena grown : Arena) (id : ExprId) (keeps : base.Keeps arena)
  (inside : ∀ id ∈ tree.operands, id.index < base.size) (allocated : tree.alloc? arena = some (id, grown))
include keeps inside allocated

theorem alloc?_keeps : arena.Keeps grown ∧ tree.StoredAt grown base.size id := by
  obtain ⟨_, _, also, grows, _, _, stored⟩ := tree.alloc?_stored base.size arena (keeps.size_le _ _)
    (fun operand met => inside operand (tree.operand_mem_operands operand met))
  obtain ⟨rfl, rfl⟩ := Prod.mk.inj (Option.some.inj (also.symm.trans allocated))
  exact ⟨grows, stored⟩

/-- What stands under the id that a tree's allocation returns, and what it appends. -/
theorem alloc?_holds :
    (∃ expr, grown.expr? id = some expr ∧ tree.Covers base expr.span) ∧
      ∀ index, arena.size ≤ index → index < grown.size → base.HoldsNode grown index := by
  induction tree generalizing arena grown id with
  | leaf operand =>
    obtain ⟨rfl, rfl⟩ := Prod.mk.inj (Option.some.inj allocated)
    obtain ⟨expr, read⟩ := base.expr?_of_inside operand (inside operand (by simp [operands]))
    exact ⟨⟨expr, keeps operand expr read, covers_leaf operand expr read⟩,
      fun index fresh below => absurd below (Nat.not_lt.mpr fresh)⟩
  | node op left right leftHolds rightHolds =>
    obtain ⟨leftId, middle, rightId, last, leftExpr, rightExpr, leftDone, rightDone, leftRead, rightRead, made⟩ :=
      alloc?_node op left right arena grown id allocated
    have insideLeft : ∀ id ∈ left.operands, id.index < base.size :=
      fun id met => inside id (List.mem_append_left _ met)
    have insideRight : ∀ id ∈ right.operands, id.index < base.size :=
      fun id met => inside id (List.mem_append_right _ met)
    have middleKeeps := keeps.trans _ _ _ (alloc?_keeps base left arena middle leftId keeps insideLeft leftDone).1
    have rightKeeps := (alloc?_keeps base right middle last rightId middleKeeps insideRight rightDone).1
    have stored := (alloc?_keeps base (node op left right) arena grown id keeps inside allocated).2
    obtain ⟨⟨_, leftFound, overLeft⟩, leftNodes⟩ := leftHolds arena middle leftId keeps insideLeft leftDone
    obtain ⟨⟨_, rightFound, overRight⟩, rightNodes⟩ := rightHolds middle last rightId middleKeeps insideRight rightDone
    obtain rfl := Option.some.inj ((rightKeeps _ _ leftFound).symm.trans leftRead)
    obtain rfl := Option.some.inj (rightFound.symm.trans rightRead)
    obtain ⟨rfl, size, grows, read⟩ := last.of_alloc grown _ id made
    refine ⟨⟨_, read, overLeft.merge overRight⟩, ?_⟩
    intro index fresh below
    -- The new nodes are those of the left part, then those of the right part, then the root.
    by_cases inLeft : index < middle.size
    · exact (leftNodes index fresh inLeft).later _ _ _ (rightKeeps.trans _ _ _ grows)
    · by_cases inRight : index < last.size
      · exact (rightNodes index (Nat.le_of_not_lt inLeft) inRight).later _ _ _ grows
      · obtain rfl : index = last.size := by omega
        exact ⟨op, leftId, rightId, _, read, last.inside_of_expr? _ _ leftRead, last.inside_of_expr? _ _ rightRead, _,
          stored, overLeft.merge overRight⟩

end Growth

end OpTree

namespace Arena

theorem foldChain_shape (arena : Arena) (operands : List ExprId) (ops : List BinaryOp) (counted operators : Nat) :
    (arena.foldChain operands ops).1 = .error (.shape counted operators) ↔
      (operands = [] ∨ operands.length ≠ ops.length + 1) ∧ counted = operands.length ∧ operators = ops.length := by
  cases operands with
  | nil => simp [foldChain, eq_comm]
  | cons first rest =>
    simp only [foldChain, List.length_cons]
    split
    next shape =>
      split
      next => simp [shape]
      next => simp [shape]
    next shape => simp [shape, eq_comm]

theorem foldChain_misshapen (arena : Arena) (operands : List ExprId) (ops : List BinaryOp)
    (misshapen : operands = [] ∨ operands.length ≠ ops.length + 1) : (arena.foldChain operands ops).2 = arena := by
  cases operands with
  | nil => rfl
  | cons first rest =>
    have unlinked : rest.length ≠ ops.length := by simpa using misshapen
    simp [foldChain, unlinked]

/-- A chain is refused for its shape alone, and the arena then stays. Otherwise the climb over the chain reads every
operator, and the arena grows by one node for each. -/
theorem foldChain_effects (arena : Arena) (operands : List ExprId) (ops : List BinaryOp) :
    (∀ counted operators, (arena.foldChain operands ops).1 = .error (.shape counted operators) ↔
      (operands = [] ∨ operands.length ≠ ops.length + 1) ∧ counted = operands.length ∧ operators = ops.length) ∧
    ((operands = [] ∨ operands.length ≠ ops.length + 1) → (arena.foldChain operands ops).2 = arena) ∧
    (operands.length = ops.length + 1 → (∀ id ∈ operands, id.index < arena.size) →
      ∃ root grown, arena.foldChain operands ops = (.ok root, grown) ∧
        (∃ first, operands.head? = some first ∧
          ∀ last, Climbs operands ops (.join 0) ⟨arena, first, 0⟩ last ↔ last = ⟨grown, root, ops.length⟩) ∧
        (∃ added : List Expr, grown = arena.append added ∧ (added.map (·.kind.operator?)).Perm (ops.map some)) ∧
        ∀ index, arena.size ≤ index → index < grown.size → arena.HoldsNode grown index) := by
  refine ⟨arena.foldChain_shape operands ops, arena.foldChain_misshapen operands ops, ?_⟩
  intro shape inside
  obtain ⟨first, rest, rfl⟩ := List.exists_cons_of_length_eq_add_one shape
  have links : rest.length = ops.length := by simpa using shape
  obtain ⟨operandsListed, operatorsListed⟩ := OpTree.ofChain_lists first rest ops links
  rw [← operandsListed] at inside
  obtain ⟨root, grown, allocated, _⟩ := (OpTree.ofChain first (ops.zip rest)).alloc?_stored arena.size arena
    (Nat.le_refl _) (fun id met => inside id (OpTree.operand_mem_operands _ id met))
  refine ⟨root, grown, ?_, ⟨first, rfl, Climbs.iff_of_chain first rest links arena grown root allocated⟩, ?_, ?_⟩
  · simp only [foldChain, links, if_true, allocated]
  · have appends := OpTree.alloc?_appends _ arena grown root allocated
    rwa [operatorsListed] at appends
  · exact (OpTree.alloc?_holds arena _ arena grown root (fun _ _ read => read) inside allocated).2

/-- `c * a ** b - a`, with operands whose spans are not in the order of the chain. -/
theorem foldChain_effects_crossed :
    let arena : Arena := { Arena.empty with exprs := #[⟨.int .one, ⟨5, 6⟩⟩, ⟨.int .one, ⟨0, 1⟩⟩, ⟨.int .one, ⟨8, 9⟩⟩] }
    let operands : List ExprId := [⟨2⟩, ⟨0⟩, ⟨1⟩, ⟨0⟩]
    let ops : List BinaryOp := [.mul, .pow, .sub]
    ∃ root grown, arena.foldChain operands ops = (.ok root, grown) ∧
      (∃ first, operands.head? = some first ∧
        ∀ last, Climbs operands ops (.join 0) ⟨arena, first, 0⟩ last ↔ last = ⟨grown, root, ops.length⟩) ∧
      (∃ added : List Expr, grown = arena.append added ∧ (added.map (·.kind.operator?)).Perm (ops.map some)) ∧
      ∀ index, arena.size ≤ index → index < grown.size → arena.HoldsNode grown index :=
  (foldChain_effects _ _ _).2.2 rfl (by decide)

end Arena

end TagLang
