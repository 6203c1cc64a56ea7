import TagLang.Proofs.ChainUniqueness

/-! Precedence climbing. A climb reads a chain from left to right with a floor below which it leaves operators to those
who called it. On a chain with a right operand for every operator it has one run, which ends behind the last operator,
and allocates what folding the chain allocates. -/

namespace TagLang

namespace BinaryOp

/-- The tighter an operator binds, the stronger it is. -/
def strength (op : BinaryOp) : Nat := 16 - op.precedence

/-- Whether the operand between `op` and `next` goes to `next`. -/
def GivesWay (op next : BinaryOp) : Prop :=
  op.strength < next.strength ∨ op.strength = next.strength ∧ next.associativity = .right

/-- The floor under which `op` leaves operators to itself while `next` collects its operand. -/
def floor (op next : BinaryOp) : Nat := if op.strength < next.strength then op.strength + 1 else op.strength

theorem precedence_le (op : BinaryOp) : op.precedence ≤ 13 := by
  cases op <;> decide

theorem givesWay_iff (op next : BinaryOp) : op.GivesWay next ↔ op.TakesRight next := by
  have bound := op.precedence_le
  have nextBound := next.precedence_le
  unfold GivesWay TakesRight strength
  constructor
  · rintro (tighter | ⟨level, right⟩)
    · exact .inl (by omega)
    · exact .inr ⟨by omega, right⟩
  · rintro (tighter | ⟨level, right⟩)
    · exact .inl (by omega)
    · exact .inr ⟨by omega, right⟩

/-- What groups to the right binds tighter than everything else. -/
theorem not_tighter_of_right (op next : BinaryOp) (right : op.associativity = .right) :
    op.precedence ≤ next.precedence := by
  cases op with
  | pow => cases next <;> decide
  | _ => cases right

theorem floor_le (op next inner : BinaryOp) (takes : op.TakesRight inner) : op.floor next ≤ inner.strength := by
  have bound := op.precedence_le
  have nextBound := next.precedence_le
  have innerBound := inner.precedence_le
  unfold floor strength
  rcases takes with tighter | ⟨level, right⟩
  · split <;> omega
  · have groups := associativity_of_level inner op level
    have loose := not_tighter_of_right op next (groups.symm.trans right)
    split <;> omega

theorem strength_lt_floor (op next other : BinaryOp) (takes : op.TakesRight next) (keeps : ¬ op.TakesRight other) :
    other.strength < op.floor next := by
  have bound := op.precedence_le
  have nextBound := next.precedence_le
  unfold floor strength
  have loose : op.precedence ≤ other.precedence := Nat.le_of_not_lt fun tighter => keeps (.inl tighter)
  rcases takes with tighter | ⟨level, right⟩
  · split <;> omega
  · have apart : other.precedence ≠ op.precedence := by
      intro same
      have groups := associativity_of_level other next (same.trans level.symm)
      exact keeps (.inr ⟨same, groups.trans right⟩)
    split <;> omega

end BinaryOp

/-- The two loops of a climb: one joins an operand with all operators that are not below a floor, the other collects the
right operand of an operator. -/
inductive ClimbLoop where
  | join (floor : Nat)
  | collect (op : BinaryOp)

structure ClimbState where
  arena : Arena
  operand : ExprId
  /-- The number of operators that were read. -/
  position : Nat

/-- The finished runs of the loops on a chain. At an operator without a right operand the loops break off. No rule
stands for that, so a run here has met no such operator. -/
inductive Climbs (operands : List ExprId) (ops : List BinaryOp) : ClimbLoop → ClimbState → ClimbState → Prop
  | joined {floor : Nat} {state : ClimbState}
      (below : ∀ next, ops[state.position]? = some next → next.strength < floor) :
      Climbs operands ops (.join floor) state state
  | join {floor position behind : Nat} {arena grown : Arena} {left operand right : ExprId} {op : BinaryOp}
      {leftExpr rightExpr : Expr} {last : ClimbState}
      (next : ops[position]? = some op) (strong : floor ≤ op.strength) (found : operands[position + 1]? = some operand)
      (collected : Climbs operands ops (.collect op) ⟨arena, operand, position + 1⟩ ⟨grown, right, behind⟩)
      (leftRead : grown.expr? left = some leftExpr) (rightRead : grown.expr? right = some rightExpr)
      (rest : Climbs operands ops (.join floor)
        ⟨(grown.alloc ⟨.binary op left right, leftExpr.span.merge rightExpr.span⟩).2,
          (grown.alloc ⟨.binary op left right, leftExpr.span.merge rightExpr.span⟩).1, behind⟩ last) :
      Climbs operands ops (.join floor) ⟨arena, left, position⟩ last
  | collected {op : BinaryOp} {state : ClimbState}
      (keeps : ∀ next, ops[state.position]? = some next → ¬ op.GivesWay next) :
      Climbs operands ops (.collect op) state state
  | collect {op next : BinaryOp} {state middle last : ClimbState} (upcoming : ops[state.position]? = some next)
      (yields : op.GivesWay next) (climbed : Climbs operands ops (.join (op.floor next)) state middle)
      (rest : Climbs operands ops (.collect op) middle last) : Climbs operands ops (.collect op) state last

namespace Climbs

variable {operands : List ExprId} {ops : List BinaryOp}

theorem unique {loop : ClimbLoop} {start last other : ClimbState} (run : Climbs operands ops loop start last)
    (also : Climbs operands ops loop start other) : last = other := by
  induction run generalizing other with
  | joined below =>
    cases also with
    | joined => rfl
    | join next strong => exact absurd (below _ next) (Nat.not_lt.mpr strong)
  | join next strong found _ leftRead rightRead _ sameRight sameRest =>
    cases also with
    | joined below => exact absurd (below _ next) (Nat.not_lt.mpr strong)
    | join nextToo _ foundToo collectedToo leftReadToo rightReadToo restToo =>
      obtain rfl := Option.some.inj (next.symm.trans nextToo)
      obtain rfl := Option.some.inj (found.symm.trans foundToo)
      cases sameRight collectedToo
      obtain rfl := Option.some.inj (leftRead.symm.trans leftReadToo)
      obtain rfl := Option.some.inj (rightRead.symm.trans rightReadToo)
      exact sameRest restToo
  | collected keeps =>
    cases also with
    | collected => rfl
    | collect upcoming yields => exact absurd yields (keeps _ upcoming)
  | collect upcoming yields _ _ sameClimb sameRest =>
    cases also with
    | collected keeps => exact absurd yields (keeps _ upcoming)
    | collect upcomingToo _ climbedToo restToo =>
      obtain rfl := Option.some.inj (upcoming.symm.trans upcomingToo)
      obtain rfl := sameClimb climbedToo
      exact sameRest restToo

end Climbs

namespace OpTree

theorem alloc?_node (op : BinaryOp) (left right : OpTree) (arena grown : Arena) (id : ExprId)
    (allocated : (node op left right).alloc? arena = some (id, grown)) :
    ∃ leftId middle rightId last leftExpr rightExpr, left.alloc? arena = some (leftId, middle) ∧
      right.alloc? middle = some (rightId, last) ∧ last.expr? leftId = some leftExpr ∧
      last.expr? rightId = some rightExpr ∧
      last.alloc ⟨.binary op leftId rightId, leftExpr.span.merge rightExpr.span⟩ = (id, grown) := by
  obtain ⟨⟨leftId, middle⟩, leftDone, allocated⟩ := Option.bind_eq_some_iff.mp allocated
  obtain ⟨⟨rightId, last⟩, rightDone, allocated⟩ := Option.bind_eq_some_iff.mp allocated
  obtain ⟨leftExpr, leftRead, allocated⟩ := Option.bind_eq_some_iff.mp allocated
  obtain ⟨rightExpr, rightRead, allocated⟩ := Option.bind_eq_some_iff.mp allocated
  exact ⟨leftId, middle, rightId, last, leftExpr, rightExpr, leftDone, rightDone, leftRead, rightRead,
    Option.some.inj allocated⟩

theorem operator_mem_inOrder (tree : OpTree) (op : BinaryOp) : .operator op ∈ tree.inOrder ↔ op ∈ tree.operators := by
  induction tree with
  | leaf operand => simp [inOrder, operators]
  | node root left right inLeft inRight => simp [inOrder, operators, inLeft, inRight]

theorem chainItems_injective (operands others : List ExprId) (ops more : List BinaryOp)
    (shape : operands.length = ops.length + 1) (also : others.length = more.length + 1)
    (same : chainItems operands ops = chainItems others more) : operands = others ∧ ops = more := by
  induction ops generalizing operands others more with
  | nil =>
    obtain ⟨operand, rfl⟩ := List.length_eq_one_iff.mp shape
    cases more with
    | nil =>
      obtain ⟨other, rfl⟩ := List.length_eq_one_iff.mp also
      simpa [chainItems] using same
    | cons op more =>
      cases others with
      | nil => simp at also
      | cons other others => simp [chainItems] at same
  | cons op ops injective =>
    obtain ⟨operand, operands, rfl⟩ := List.exists_cons_of_length_eq_add_one shape
    obtain ⟨other, others, rfl⟩ := List.exists_cons_of_length_eq_add_one also
    cases more with
    | nil =>
      obtain rfl : others = [] := by simpa using also
      simp [chainItems] at same
    | cons another more =>
      simp only [chainItems, List.cons.injEq, Item.operand.injEq, Item.operator.injEq] at same
      obtain ⟨rfl, rfl, rest⟩ := same
      obtain ⟨rfl, rfl⟩ := injective operands others more (by simpa using shape) (by simpa using also) rest
      exact ⟨rfl, rfl⟩

theorem ofChain_lists (first : ExprId) (rest : List ExprId) (ops : List BinaryOp) (shape : rest.length = ops.length) :
    (ofChain first (ops.zip rest)).operands = first :: rest ∧ (ofChain first (ops.zip rest)).operators = ops := by
  apply chainItems_injective _ _ _ _ (operands_length _) (by simp [shape])
  rw [← inOrder_eq_chainItems, ofChain_inOrder first rest ops shape]

def first : OpTree → ExprId
  | leaf operand => operand
  | node _ left _ => left.first

/-- Whether a tree's operands and operators are those of a chain from a position on. -/
structure Spread (operands : List ExprId) (ops : List BinaryOp) (tree : OpTree) (position : Nat) : Prop where
  operands : tree.operands <+: operands.drop position
  operators : tree.operators <+: ops.drop position

namespace Spread

variable {operands : List ExprId} {ops : List BinaryOp} {op : BinaryOp} {left right : OpTree} {position : Nat}

section Node

variable (spread : (node op left right).Spread operands ops position)
include spread

theorem ofLeft : left.Spread operands ops position :=
  ⟨(List.prefix_append _ _).trans spread.operands, (List.prefix_append _ _).trans spread.operators⟩

theorem operator : ops[position + left.operators.length]? = some op := by
  obtain ⟨rest, listed⟩ := spread.operators
  rw [← List.getElem?_drop, ← listed]
  simp [OpTree.operators]

theorem ofRight : right.Spread operands ops (position + left.operators.length + 1) := by
  obtain ⟨others, standing⟩ := spread.operands
  obtain ⟨rest, listed⟩ := spread.operators
  constructor
  · refine ⟨others, ?_⟩
    rw [Nat.add_assoc, ← left.operands_length, ← List.drop_drop, ← standing]
    simp [OpTree.operands]
  · refine ⟨rest, ?_⟩
    rw [Nat.add_assoc, ← List.drop_drop, ← listed]
    simp [OpTree.operators]

end Node

theorem first {tree : OpTree} (spread : tree.Spread operands ops position) :
    operands[position]? = some tree.first := by
  induction tree with
  | leaf operand =>
    obtain ⟨others, standing⟩ := spread.operands
    rw [← Nat.add_zero position, ← List.getElem?_drop, ← standing]
    rfl
  | node op left right leftFirst _ => exact leftFirst spread.ofLeft

end Spread

end OpTree

namespace Climbs

variable {operands : List ExprId} {ops : List BinaryOp}

/-- An operator collects a tree as its right operand if it gives way to every operator there, but not to the one behind
the tree. -/
theorem collect_tree (op : BinaryOp) (tree : OpTree) (position : Nat) (spread : tree.Spread operands ops position)
    (takes : ∀ inner ∈ tree.operators, op.TakesRight inner)
    (keeps : ∀ next, ops[position + tree.operators.length]? = some next → ¬ op.TakesRight next)
    (arena grown : Arena) (id : ExprId) (allocated : tree.alloc? arena = some (id, grown))
    (climbs : ∀ floor last, (∀ inner ∈ tree.operators, floor ≤ inner.strength) →
      Climbs operands ops (.join floor) ⟨grown, id, position + tree.operators.length⟩ last →
      Climbs operands ops (.join floor) ⟨arena, tree.first, position⟩ last) :
    Climbs operands ops (.collect op) ⟨arena, tree.first, position⟩
      ⟨grown, id, position + tree.operators.length⟩ := by
  have ends : ∀ next, ops[position + tree.operators.length]? = some next → ¬ op.GivesWay next := by
    intro next behind yields
    exact keeps next behind ((op.givesWay_iff next).mp yields)
  cases tree with
  | leaf operand =>
    obtain ⟨rfl, rfl⟩ := Prod.mk.inj (Option.some.inj allocated)
    exact .collected ends
  | node root left right =>
    obtain ⟨next, others, listed⟩ := List.exists_cons_of_ne_nil
      (show (OpTree.node root left right).operators ≠ [] by simp [OpTree.operators])
    have inTree : next ∈ (OpTree.node root left right).operators := by simp [listed]
    have upcoming : ops[position]? = some next := by
      obtain ⟨rest, standing⟩ := spread.operators
      rw [← Nat.add_zero position, ← List.getElem?_drop, ← standing, listed]
      rfl
    -- One climb reads all of the tree, as its floor is not above any operator there.
    refine .collect upcoming ((op.givesWay_iff next).mpr (takes next inTree)) (climbs _ _ ?_ (.joined ?_))
      (.collected ends)
    · intro inner met
      exact op.floor_le next inner (takes inner met)
    · intro other behind
      exact op.strength_lt_floor next other (takes next inTree) (keeps other behind)

/-- A climb that starts at a tree's first operand reads the whole tree: every operator of the tree is above the floor,
and none of them gives way to the operator behind the tree. -/
theorem of_tree (tree : OpTree) (grouped : tree.WellGrouped) (floor position : Nat)
    (spread : tree.Spread operands ops position) (strong : ∀ op ∈ tree.operators, floor ≤ op.strength)
    (closed : ∀ op ∈ tree.operators, ∀ next, ops[position + tree.operators.length]? = some next → ¬ op.TakesRight next)
    (arena grown : Arena) (id : ExprId) (allocated : tree.alloc? arena = some (id, grown)) (last : ClimbState)
    (rest : Climbs operands ops (.join floor) ⟨grown, id, position + tree.operators.length⟩ last) :
    Climbs operands ops (.join floor) ⟨arena, tree.first, position⟩ last := by
  -- The climb that is still to come is handed down: behind the left part it goes on with the root.
  induction tree generalizing floor position arena grown id last with
  | leaf operand =>
    obtain ⟨rfl, rfl⟩ := Prod.mk.inj (Option.some.inj allocated)
    exact rest
  | node op left right leftClimbs rightClimbs =>
    obtain ⟨leftId, middle, rightId, collected, leftExpr, rightExpr, leftDone, rightDone, leftRead, rightRead, made⟩ :=
      OpTree.alloc?_node op left right arena grown id allocated
    have behind : position + (OpTree.node op left right).operators.length =
        position + left.operators.length + 1 + right.operators.length := by
      simp only [OpTree.operators, List.length_append, List.length_cons]
      omega
    rw [behind] at closed rest
    have keepsLeft : ∀ inner ∈ left.operators, ∀ next, ops[position + left.operators.length]? = some next →
        ¬ inner.TakesRight next := by
      intro inner met next upcoming takes
      obtain rfl := Option.some.inj (upcoming.symm.trans spread.operator)
      apply inner.not_takesLeft_of_takesRight next takes
      exact grouped.takesLeft next left right inner ((left.operator_mem_inOrder inner).mpr met)
    have takesRight : ∀ inner ∈ right.operators, op.TakesRight inner := by
      intro inner met
      exact grouped.takesRight op left right inner ((right.operator_mem_inOrder inner).mpr met)
    have rightCollected : Climbs operands ops (.collect op) ⟨middle, right.first, position + left.operators.length + 1⟩
        ⟨collected, rightId, position + left.operators.length + 1 + right.operators.length⟩ := by
      apply collect_tree op right _ spread.ofRight takesRight (closed op (by simp [OpTree.operators])) _ _ _ rightDone
      intro above last strongRight
      exact rightClimbs grouped.2.2.2 above _ spread.ofRight strongRight
        (fun inner met => closed inner (by simp [OpTree.operators, met])) middle collected rightId rightDone last
    refine leftClimbs grouped.2.2.1 floor position spread.ofLeft
      (fun inner met => strong inner (by simp [OpTree.operators, met])) keepsLeft arena middle leftId leftDone last ?_
    refine .join spread.operator (strong op (by simp [OpTree.operators])) spread.ofRight.first rightCollected
      leftRead rightRead ?_
    rw [made]
    exact rest

/-- The climb over a whole chain has one run. It ends behind the last operator, with what the chain's tree allocates. -/
theorem iff_of_chain (first : ExprId) (rest : List ExprId) (shape : rest.length = ops.length) (arena grown : Arena)
    (root : ExprId) (allocated : (OpTree.ofChain first (ops.zip rest)).alloc? arena = some (root, grown))
    (last : ClimbState) :
    Climbs (first :: rest) ops (.join 0) ⟨arena, first, 0⟩ last ↔ last = ⟨grown, root, ops.length⟩ := by
  obtain ⟨operandsListed, operatorsListed⟩ := OpTree.ofChain_lists first rest ops shape
  generalize treeEq : OpTree.ofChain first (ops.zip rest) = tree at *
  have spread : tree.Spread (first :: rest) ops 0 := ⟨by simp [operandsListed], by simp [operatorsListed]⟩
  have starts : first = tree.first := Option.some.inj spread.first
  have run : Climbs (first :: rest) ops (.join 0) ⟨arena, first, 0⟩ ⟨grown, root, ops.length⟩ := by
    rw [starts]
    apply of_tree tree (treeEq ▸ OpTree.ofChain_wellGrouped first _) 0 0 (starts ▸ spread) (by simp)
      (by simp [operatorsListed]) arena grown root allocated
    rw [operatorsListed, Nat.zero_add]
    exact .joined (by simp)
  constructor
  · intro also
    exact also.unique run
  · rintro rfl
    exact run

end Climbs

end TagLang
