import TagLang.Proofs.ChainGrouping

/-! Folding against flattening. The operator table leaves one place for the root of a chain, and so one grouping: a
tree whose operators stand where the table lets them is rebuilt from the lists of its operands and operators. -/

namespace TagLang

namespace BinaryOp

/-- What may stand on one side below an operator makes room there for everything that binds at least as tight. -/
theorem takes_tighter (side : Associativity) (op child inner : BinaryOp)
    (takes : child.precedence < op.precedence ∨ child.precedence = op.precedence ∧ child.associativity = side)
    (binds : inner.precedence ≤ child.precedence) :
    inner.precedence < op.precedence ∨ inner.precedence = op.precedence ∧ inner.associativity = side := by
  rcases takes with tighter | ⟨level, grouping⟩
  · exact .inl (by omega)
  · rcases Nat.lt_or_eq_of_le binds with tighter | same
    · exact .inl (by omega)
    · have grouped := associativity_of_level inner child same
      exact .inr ⟨same.trans level, grouped.trans grouping⟩

/-- Of two operators in a chain, the table puts at most one above the other. -/
theorem not_takesLeft_of_takesRight (op next : BinaryOp) (right : op.TakesRight next) : ¬ next.TakesLeft op := by
  intro left
  rcases right with tighter | ⟨level, groupsRight⟩
  · rcases left with looser | ⟨same, _⟩ <;> omega
  · rcases left with tighter | ⟨_, groupsLeft⟩
    · omega
    · have same := associativity_of_level next op level
      rw [groupsLeft, groupsRight] at same
      contradiction

end BinaryOp

namespace OpTree

theorem root?_of_operator (tree : OpTree) (inner : BinaryOp) (met : .operator inner ∈ tree.inOrder) :
    ∃ root, tree.root? = some root := by
  cases tree with
  | leaf operand => simp [inOrder] at met
  | node op left right => exact ⟨op, rfl⟩

theorem WellGrouped.precedence_le (tree : OpTree) (grouped : tree.WellGrouped) (root : BinaryOp)
    (top : tree.root? = some root) (inner : BinaryOp) (met : .operator inner ∈ tree.inOrder) :
    inner.precedence ≤ root.precedence := by
  induction tree generalizing root with
  | leaf operand => simp [root?] at top
  | node op left right leftBound rightBound =>
    obtain rfl : op = root := Option.some.inj top
    obtain ⟨leftFits, rightFits, leftGrouped, rightGrouped⟩ := grouped
    simp only [inOrder, List.mem_append, List.mem_cons, Item.operator.injEq] at met
    rcases met with inLeft | rfl | inRight
    · obtain ⟨child, below⟩ := left.root?_of_operator inner inLeft
      have bound := leftBound leftGrouped child below inLeft
      rcases leftFits child below with tighter | ⟨level, _⟩ <;> omega
    · exact Nat.le_refl _
    · obtain ⟨child, below⟩ := right.root?_of_operator inner inRight
      have bound := rightBound rightGrouped child below inRight
      rcases rightFits child below with tighter | ⟨level, _⟩ <;> omega

section Node

variable (op : BinaryOp) (left right : OpTree) (grouped : (node op left right).WellGrouped) (inner : BinaryOp)
include grouped

theorem WellGrouped.takesLeft (met : .operator inner ∈ left.inOrder) : op.TakesLeft inner := by
  obtain ⟨root, top⟩ := left.root?_of_operator inner met
  have bound := precedence_le left grouped.2.2.1 root top inner met
  exact BinaryOp.takes_tighter .left op root inner (grouped.1 root top) bound

theorem WellGrouped.takesRight (met : .operator inner ∈ right.inOrder) : op.TakesRight inner := by
  obtain ⟨root, top⟩ := right.root?_of_operator inner met
  have bound := precedence_le right grouped.2.2.2 root top inner met
  exact BinaryOp.takes_tighter .right op root inner (grouped.2.1 root top) bound

end Node

/-- The root of one grouping does not come before the root of another: it would stand in the other's left part,
and the other's root in its own right part. -/
theorem WellGrouped.root_not_before (op other : BinaryOp) (left right before after : OpTree)
    (grouped : (node op left right).WellGrouped) (also : (node other before after).WellGrouped)
    (between : List Item) (longer : before.inOrder = left.inOrder ++ .operator op :: between)
    (shorter : right.inOrder = between ++ .operator other :: after.inOrder) : False := by
  have above : op.TakesRight other := takesRight op left right grouped other (by simp [shorter])
  have below : other.TakesLeft op := takesLeft other before after also op (by simp [longer])
  exact op.not_takesLeft_of_takesRight other above below

/-- Two groupings of one chain have their roots in one place. -/
theorem WellGrouped.same_root (op other : BinaryOp) (left right before after : OpTree)
    (grouped : (node op left right).WellGrouped) (also : (node other before after).WellGrouped)
    (same : (node op left right).inOrder = (node other before after).inOrder) :
    op = other ∧ left.inOrder = before.inOrder ∧ right.inOrder = after.inOrder := by
  rcases List.append_eq_append_iff.mp same with ⟨between, longer, rest⟩ | ⟨between, longer, rest⟩
  · cases between with
    | nil =>
      simp only [List.nil_append, List.cons.injEq, Item.operator.injEq] at rest
      exact ⟨rest.1, by simpa using longer.symm, rest.2⟩
    | cons item between =>
      simp only [List.cons_append, List.cons.injEq] at rest
      obtain ⟨rfl, shorter⟩ := rest
      exact (root_not_before op other left right before after grouped also between longer shorter).elim
  · cases between with
    | nil =>
      simp only [List.nil_append, List.cons.injEq, Item.operator.injEq] at rest
      exact ⟨rest.1.symm, by simpa using longer, rest.2.symm⟩
    | cons item between =>
      simp only [List.cons_append, List.cons.injEq] at rest
      obtain ⟨rfl, shorter⟩ := rest
      exact (root_not_before other op before after left right also grouped between longer shorter).elim

theorem WellGrouped.eq_of_inOrder (tree other : OpTree) (grouped : tree.WellGrouped) (also : other.WellGrouped)
    (same : tree.inOrder = other.inOrder) : tree = other := by
  induction tree generalizing other with
  | leaf operand =>
    cases other with
    | leaf another => simpa [inOrder] using same
    | node op before after =>
      have met : Item.operator op ∈ [Item.operand operand] := by
        rw [show [Item.operand operand] = _ from same]
        simp [inOrder]
      simp at met
  | node op left right leftUnique rightUnique =>
    cases other with
    | leaf operand =>
      have met : Item.operator op ∈ [Item.operand operand] := by
        rw [show [Item.operand operand] = _ from same.symm]
        simp [inOrder]
      simp at met
    | node another before after =>
      obtain ⟨rfl, leftSame, rightSame⟩ := same_root op another left right before after grouped also same
      obtain ⟨_, _, leftGrouped, rightGrouped⟩ := grouped
      obtain ⟨_, _, beforeGrouped, afterGrouped⟩ := also
      rw [leftUnique before leftGrouped beforeGrouped leftSame, rightUnique after rightGrouped afterGrouped rightSame]

theorem operands_length (tree : OpTree) : tree.operands.length = tree.operators.length + 1 := by
  induction tree with
  | leaf operand => rfl
  | node op left right leftCount rightCount =>
    simp only [operands, operators, List.length_append, List.length_cons, leftCount, rightCount]
    omega

theorem chainItems_append (operands others : List ExprId) (op : BinaryOp) (ops more : List BinaryOp)
    (shape : operands.length = ops.length + 1) :
    chainItems (operands ++ others) (ops ++ op :: more) =
      chainItems operands ops ++ .operator op :: chainItems others more := by
  induction ops generalizing operands with
  | nil =>
    obtain ⟨operand, rfl⟩ := List.length_eq_one_iff.mp shape
    simp [chainItems]
  | cons first ops joined =>
    cases operands with
    | nil => simp at shape
    | cons operand operands => simp [chainItems, joined operands (by simpa using shape)]

theorem inOrder_eq_chainItems (tree : OpTree) : tree.inOrder = chainItems tree.operands tree.operators := by
  induction tree with
  | leaf operand => rfl
  | node op left right leftItems rightItems =>
    simp only [inOrder, operands, operators]
    rw [chainItems_append _ _ _ _ _ left.operands_length, leftItems, rightItems]

/-- A chain is folded into the tree that it was flattened from. -/
theorem WellGrouped.ofChain_flatten (tree : OpTree) (grouped : tree.WellGrouped) (first : ExprId) (rest : List ExprId)
    (listed : tree.operands = first :: rest) : ofChain first (tree.operators.zip rest) = tree := by
  have shape : rest.length = tree.operators.length := by
    have count := tree.operands_length
    simpa [listed] using count
  apply eq_of_inOrder _ _ (ofChain_wellGrouped first _) grouped
  rw [ofChain_inOrder first rest tree.operators shape, inOrder_eq_chainItems, listed]

end OpTree

/-- A tree that is grouped as the operator table allows is rebuilt from its operands and operators, and no other tree
that is so grouped lists the same ones. -/
theorem Arena.foldChain_flatten (tree : OpTree) (grouped : tree.WellGrouped) :
    (∀ arena : Arena, (∀ id ∈ tree.operands, id.index < arena.size) →
      ∃ root grown, arena.foldChain tree.operands tree.operators = (.ok root, grown) ∧
        ∀ other : OpTree, other.StoredAt grown arena.size root ↔ other = tree) ∧
    ∀ other : OpTree, other.WellGrouped → other.operands = tree.operands → other.operators = tree.operators →
      other = tree := by
  have count := tree.operands_length
  constructor
  · intro arena inside
    cases listed : tree.operands with
    | nil => simp [listed] at count
    | cons first rest =>
      have shape : rest.length = tree.operators.length := by simpa [listed] using count
      have rebuilt := OpTree.WellGrouped.ofChain_flatten tree grouped first rest listed
      obtain ⟨root, grown, allocated, _, _, _, stored⟩ := tree.alloc?_stored arena.size arena (Nat.le_refl _) (by
        intro id met
        rw [OpTree.inOrder_eq_chainItems] at met
        exact inside id (OpTree.operand_mem_chainItems id _ _ met))
      refine ⟨root, grown, ?_, ?_⟩
      · simp only [foldChain, shape, if_true, rebuilt, allocated]
      · intro other
        constructor
        · exact OpTree.storedAt_unique grown arena.size tree other root stored
        · intro same
          rw [same]
          exact stored
  · intro other also operands operators
    apply OpTree.WellGrouped.eq_of_inOrder other tree also grouped
    rw [OpTree.inOrder_eq_chainItems, OpTree.inOrder_eq_chainItems tree, operands, operators]

/-- `a - b ** c ** d == e < f` as the operator table groups it. -/
theorem Arena.foldChain_flatten_mixed :
    let arena : Arena := { Arena.empty with exprs := Array.replicate 4 ⟨.int .one, .dummy⟩ }
    let power : OpTree := .node .pow (.leaf ⟨0⟩) (.node .pow (.leaf ⟨3⟩) (.leaf ⟨0⟩))
    let tree : OpTree := .node .eq (.node .sub (.leaf ⟨1⟩) power) (.node .lt (.leaf ⟨2⟩) (.leaf ⟨1⟩))
    tree.operators = [.sub, .pow, .pow, .eq, .lt] ∧
      (∃ root grown, arena.foldChain tree.operands tree.operators = (.ok root, grown) ∧
        ∀ other : OpTree, other.StoredAt grown arena.size root ↔ other = tree) ∧
      ∀ other : OpTree, other.WellGrouped → other.operands = tree.operands → other.operators = tree.operators →
        other = tree := by
  intro arena power tree
  have grouped : tree.WellGrouped := by
    simp [tree, power, OpTree.WellGrouped, OpTree.root?, BinaryOp.TakesLeft, BinaryOp.TakesRight,
      BinaryOp.precedence, BinaryOp.associativity]
  obtain ⟨rebuilt, alone⟩ := Arena.foldChain_flatten tree grouped
  exact ⟨rfl, rebuilt arena (by decide), alone⟩

end TagLang
