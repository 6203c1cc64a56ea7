import TagLang.OperatorChain

/-! The grouping of an operator chain. The tree that a chain is folded into meets the operands and operators
in their order, every operator stands where the operator table lets it, and the arena stores exactly this
tree under the id that is returned. -/

namespace TagLang

namespace BinaryOp

def TakesLeft (op child : BinaryOp) : Prop :=
  child.precedence < op.precedence ∨ child.precedence = op.precedence ∧ child.associativity = .left

def TakesRight (op child : BinaryOp) : Prop :=
  child.precedence < op.precedence ∨ child.precedence = op.precedence ∧ child.associativity = .right

theorem associativity_of_level (a b : BinaryOp) (level : a.precedence = b.precedence) :
    a.associativity = b.associativity := by
  cases a <;> cases b <;> first | rfl | contradiction

theorem takesRight_of_yieldsTo (op next : BinaryOp) (yields : op.yieldsTo next = true) : op.TakesRight next := by
  simpa [yieldsTo, TakesRight] using yields

theorem takesLeft_of_not_yieldsTo (op next : BinaryOp) (keeps : op.yieldsTo next = false) : next.TakesLeft op := by
  simp only [yieldsTo, Bool.or_eq_false_iff, decide_eq_false_iff_not, Bool.and_eq_false_iff,
    beq_eq_false_iff_ne] at keeps
  obtain ⟨notTighter, notRight⟩ := keeps
  rcases Nat.lt_or_eq_of_le (Nat.le_of_not_lt notTighter) with tighter | level
  · exact .inl tighter
  · have left : next.associativity ≠ .right := notRight.resolve_left (fun different => different level.symm)
    refine .inr ⟨level, ?_⟩
    rw [associativity_of_level op next level]
    cases shape : next.associativity with
    | left => rfl
    | right => exact absurd shape left

end BinaryOp

namespace OpTree

inductive Item where
  | operand (id : ExprId)
  | operator (op : BinaryOp)
deriving DecidableEq

def inOrder : OpTree → List Item
  | leaf operand => [.operand operand]
  | node op left right => left.inOrder ++ .operator op :: right.inOrder

def root? : OpTree → Option BinaryOp
  | leaf _ => none
  | node op _ _ => some op

def WellGrouped : OpTree → Prop
  | leaf _ => True
  | node op left right =>
    (∀ child, left.root? = some child → op.TakesLeft child) ∧
      (∀ child, right.root? = some child → op.TakesRight child) ∧ left.WellGrouped ∧ right.WellGrouped

/-- Whether an arena stores a tree under an id. The tree's nodes have indexes from `first` on, and what lies
below that counts as a leaf. -/
def StoredAt (arena : Arena) (first : Nat) : OpTree → ExprId → Prop
  | leaf operand, id => id = operand ∧ id.index < first
  | node op left right, id =>
    first ≤ id.index ∧ ∃ leftId rightId span, arena.expr? id = some ⟨.binary op leftId rightId, span⟩ ∧
      left.StoredAt arena first leftId ∧ right.StoredAt arena first rightId

theorem extend_inOrder (tree : OpTree) (next : BinaryOp) (operand : ExprId) :
    (tree.extend next operand).inOrder = tree.inOrder ++ [.operator next, .operand operand] := by
  induction tree with
  | leaf a => rfl
  | node op left right _ extended =>
    unfold extend
    split
    next => simp [inOrder, extended]
    next => simp [inOrder]

theorem extend_root (tree : OpTree) (next : BinaryOp) (operand : ExprId) :
    (tree.extend next operand).root? = some next ∨ (tree.extend next operand).root? = tree.root? := by
  cases tree with
  | leaf a => exact .inl rfl
  | node op left right =>
    unfold extend
    split
    next => exact .inr rfl
    next => exact .inl rfl

theorem extend_wellGrouped (tree : OpTree) (next : BinaryOp) (operand : ExprId) (grouped : tree.WellGrouped) :
    (tree.extend next operand).WellGrouped := by
  induction tree with
  | leaf a => simp [extend, WellGrouped, root?]
  | node op left right _ extended =>
    obtain ⟨leftFits, rightFits, leftGrouped, rightGrouped⟩ := grouped
    unfold extend
    split
    next yields =>
      refine ⟨leftFits, ?_, leftGrouped, extended rightGrouped⟩
      intro child top
      rcases extend_root right next operand with fresh | old
      · obtain rfl : next = child := Option.some.inj (fresh.symm.trans top)
        exact op.takesRight_of_yieldsTo next yields
      · exact rightFits child (old.symm.trans top)
    next keeps =>
      refine ⟨?_, by simp [root?], ⟨leftFits, rightFits, leftGrouped, rightGrouped⟩, trivial⟩
      intro child top
      obtain rfl : op = child := Option.some.inj top
      exact op.takesLeft_of_not_yieldsTo next (by simpa using keeps)

/-- The items of `operands[0] ops[0] operands[1] …` from left to right. -/
def chainItems : List ExprId → List BinaryOp → List Item
  | operand :: operands, op :: ops => .operand operand :: .operator op :: chainItems operands ops
  | operands, _ => operands.map .operand

def linkItems (link : BinaryOp × ExprId) : List Item := [.operator link.1, .operand link.2]

theorem chainItems_links (first : ExprId) (rest : List ExprId) (ops : List BinaryOp)
    (shape : rest.length = ops.length) :
    chainItems (first :: rest) ops = .operand first :: (ops.zip rest).flatMap linkItems := by
  induction ops generalizing first rest with
  | nil => simpa [chainItems] using shape
  | cons op ops linked =>
    cases rest with
    | nil => simp at shape
    | cons operand rest => simp [chainItems, linkItems, linked operand rest (by simpa using shape)]

theorem foldl_extend (links : List (BinaryOp × ExprId)) (tree : OpTree) (grouped : tree.WellGrouped) :
    (links.foldl (fun tree (op, operand) => tree.extend op operand) tree).WellGrouped ∧
      (links.foldl (fun tree (op, operand) => tree.extend op operand) tree).inOrder =
        tree.inOrder ++ links.flatMap linkItems := by
  induction links generalizing tree with
  | nil => simpa using grouped
  | cons link links extended =>
    obtain ⟨op, operand⟩ := link
    obtain ⟨restGrouped, restOrder⟩ := extended (tree.extend op operand) (extend_wellGrouped tree op operand grouped)
    refine ⟨restGrouped, ?_⟩
    rw [List.foldl_cons, restOrder, extend_inOrder]
    simp [linkItems]

theorem ofChain_wellGrouped (first : ExprId) (links : List (BinaryOp × ExprId)) :
    (ofChain first links).WellGrouped :=
  (foldl_extend links (leaf first) trivial).1

theorem ofChain_inOrder (first : ExprId) (rest : List ExprId) (ops : List BinaryOp)
    (shape : rest.length = ops.length) :
    (ofChain first (ops.zip rest)).inOrder = chainItems (first :: rest) ops := by
  rw [chainItems_links first rest ops shape]
  exact (foldl_extend (ops.zip rest) (leaf first) trivial).2

example : ofChain ⟨0⟩ [(.sub, ⟨1⟩), (.pow, ⟨2⟩), (.pow, ⟨3⟩), (.sub, ⟨4⟩)] =
    node .sub (node .sub (leaf ⟨0⟩) (node .pow (leaf ⟨1⟩) (node .pow (leaf ⟨2⟩) (leaf ⟨3⟩)))) (leaf ⟨4⟩) := by
  decide

theorem operand_mem_chainItems (id : ExprId) (operands : List ExprId) (ops : List BinaryOp)
    (met : .operand id ∈ chainItems operands ops) : id ∈ operands := by
  fun_induction chainItems operands ops with
  | case1 operand operands op ops found =>
    simp only [List.mem_cons, Item.operand.injEq, reduceCtorEq, false_or] at met
    rcases met with rfl | later
    · exact List.mem_cons_self
    · exact List.mem_cons_of_mem _ (found later)
  | case2 operands ops _ => simpa using met

theorem storedAt_unique (arena : Arena) (first : Nat) (tree other : OpTree) (id : ExprId)
    (stored : tree.StoredAt arena first id) (otherStored : other.StoredAt arena first id) : other = tree := by
  induction tree generalizing other id with
  | leaf operand =>
    cases other with
    | leaf _ => rw [← stored.1, ← otherStored.1]
    | node _ _ _ => exact absurd otherStored.1 (Nat.not_le_of_gt stored.2)
  | node op left right leftUnique rightUnique =>
    cases other with
    | leaf _ => exact absurd stored.1 (Nat.not_le_of_gt otherStored.2)
    | node otherOp otherLeft otherRight =>
      obtain ⟨_, leftId, rightId, _, read, leftStored, rightStored⟩ := stored
      obtain ⟨_, otherLeftId, otherRightId, _, otherRead, otherLeftStored, otherRightStored⟩ := otherStored
      rw [read] at otherRead
      simp only [Option.some.injEq, Expr.mk.injEq, ExprKind.binary.injEq] at otherRead
      obtain ⟨⟨rfl, rfl, rfl⟩, _⟩ := otherRead
      rw [leftUnique otherLeft leftId leftStored otherLeftStored,
        rightUnique otherRight rightId rightStored otherRightStored]

end OpTree

namespace Arena

def Keeps (before after : Arena) : Prop := ∀ id expr, before.expr? id = some expr → after.expr? id = some expr

theorem expr?_of_inside (arena : Arena) (id : ExprId) (inside : id.index < arena.size) :
    ∃ expr, arena.expr? id = some expr :=
  ⟨arena.exprs[id.index], Array.getElem?_eq_getElem inside⟩

theorem inside_of_expr? (arena : Arena) (id : ExprId) (expr : Expr) (read : arena.expr? id = some expr) :
    id.index < arena.size :=
  (Array.getElem?_eq_some_iff.mp read).1

theorem Keeps.trans (a b c : Arena) (first : a.Keeps b) (second : b.Keeps c) : a.Keeps c :=
  fun id expr read => second id expr (first id expr read)

theorem Keeps.inside (before after : Arena) (keeps : before.Keeps after) (id : ExprId)
    (inside : id.index < before.size) : id.index < after.size := by
  obtain ⟨expr, read⟩ := before.expr?_of_inside id inside
  exact after.inside_of_expr? id expr (keeps id expr read)

theorem alloc_keeps (arena : Arena) (expr : Expr) : arena.Keeps (arena.alloc expr).2 := by
  intro id found read
  have inside : id.index < arena.exprs.size := arena.inside_of_expr? id found read
  change (arena.exprs.push expr)[id.index]? = some found
  rw [Array.getElem?_push_lt inside, ← Array.getElem?_eq_getElem inside]
  exact read

theorem alloc_read (arena : Arena) (expr : Expr) : (arena.alloc expr).2.expr? (arena.alloc expr).1 = some expr := by
  simp [alloc, expr?]

end Arena

namespace OpTree

theorem StoredAt.later (before after : Arena) (first : Nat) (keeps : before.Keeps after) (tree : OpTree)
    (id : ExprId) (stored : tree.StoredAt before first id) : tree.StoredAt after first id := by
  induction tree generalizing id with
  | leaf operand => exact stored
  | node op left right leftLater rightLater =>
    obtain ⟨fresh, leftId, rightId, span, read, leftStored, rightStored⟩ := stored
    exact ⟨fresh, leftId, rightId, span, keeps id _ read, leftLater leftId leftStored, rightLater rightId rightStored⟩

theorem alloc?_stored (first : Nat) (tree : OpTree) (arena : Arena) (bound : first ≤ arena.size)
    (inside : ∀ id, .operand id ∈ tree.inOrder → id.index < first) :
    ∃ id grown, tree.alloc? arena = some (id, grown) ∧ arena.Keeps grown ∧ first ≤ grown.size ∧
      id.index < grown.size ∧ tree.StoredAt grown first id := by
  induction tree generalizing arena with
  | leaf operand =>
    have below : operand.index < first := inside operand (by simp [inOrder])
    exact ⟨operand, arena, rfl, fun _ _ read => read, bound, Nat.lt_of_lt_of_le below bound, rfl, below⟩
  | node op left right leftAlloc rightAlloc =>
    obtain ⟨leftId, middle, leftDone, leftKeeps, middleBound, leftInside, leftStored⟩ :=
      leftAlloc arena bound (fun id met => inside id (by simp [inOrder, met]))
    obtain ⟨rightId, last, rightDone, rightKeeps, lastBound, rightInside, rightStored⟩ :=
      rightAlloc middle middleBound (fun id met => inside id (by simp [inOrder, met]))
    obtain ⟨leftExpr, leftRead⟩ := last.expr?_of_inside leftId (rightKeeps.inside _ _ leftId leftInside)
    obtain ⟨rightExpr, rightRead⟩ := last.expr?_of_inside rightId rightInside
    let expr : Expr := ⟨.binary op leftId rightId, leftExpr.span.merge rightExpr.span⟩
    have grows := last.alloc_keeps expr
    refine ⟨(last.alloc expr).1, (last.alloc expr).2, ?_, (leftKeeps.trans _ _ _ rightKeeps).trans _ _ _ grows, ?_,
      (last.alloc expr).2.inside_of_expr? _ expr (last.alloc_read expr),
      lastBound, leftId, rightId, _, last.alloc_read expr, ?_, ?_⟩
    · simp [alloc?, leftDone, rightDone, leftRead, rightRead, expr]
    · exact Nat.le_trans lastBound (by simp [Arena.alloc, Arena.size])
    · exact (leftStored.later _ _ _ rightKeeps).later _ _ _ grows
    · exact rightStored.later _ _ _ grows

end OpTree

/-- A chain over operands of an arena is always folded, and the one tree of new nodes under the returned id
lists the chain's items in their order, with every operator where the operator table lets it stand. -/
theorem Arena.foldChain_grouping (arena : Arena) (operands : List ExprId) (ops : List BinaryOp)
    (shape : operands.length = ops.length + 1) (inside : ∀ id ∈ operands, id.index < arena.size) :
    ∃ root grown tree, arena.foldChain operands ops = (.ok root, grown) ∧
      (∀ other : OpTree, other.StoredAt grown arena.size root ↔ other = tree) ∧
      tree.inOrder = OpTree.chainItems operands ops ∧ tree.WellGrouped := by
  cases operands with
  | nil => simp at shape
  | cons first rest =>
    have links : rest.length = ops.length := by simpa using shape
    let tree := OpTree.ofChain first (ops.zip rest)
    have order : tree.inOrder = OpTree.chainItems (first :: rest) ops := OpTree.ofChain_inOrder first rest ops links
    obtain ⟨root, grown, allocated, _, _, _, stored⟩ := tree.alloc?_stored arena.size arena (Nat.le_refl _)
      (fun id met => inside id (OpTree.operand_mem_chainItems id _ _ (order ▸ met)))
    refine ⟨root, grown, tree, ?_, ?_, order, OpTree.ofChain_wellGrouped first _⟩
    · simp only [foldChain, links, if_true]
      rw [show (OpTree.ofChain first (ops.zip rest)).alloc? arena = some (root, grown) from allocated]
    · intro other
      constructor
      · exact OpTree.storedAt_unique grown arena.size tree other root stored
      · rintro rfl
        exact stored

/-- `a - b ** c ** b - d`: the powers group to the right, the differences to the left. -/
theorem Arena.foldChain_grouping_mixed :
    let arena : Arena := { Arena.empty with exprs := Array.replicate 5 ⟨.int .one, .dummy⟩ }
    let operands : List ExprId := [⟨4⟩, ⟨0⟩, ⟨3⟩, ⟨0⟩, ⟨1⟩]
    ∃ root grown tree, arena.foldChain operands [.sub, .pow, .pow, .sub] = (.ok root, grown) ∧
      (∀ other : OpTree, other.StoredAt grown arena.size root ↔ other = tree) ∧
      tree.inOrder = OpTree.chainItems operands [.sub, .pow, .pow, .sub] ∧ tree.WellGrouped :=
  Arena.foldChain_grouping _ _ _ rfl (by decide)

end TagLang
