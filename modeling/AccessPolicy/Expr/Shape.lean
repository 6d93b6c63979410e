import AccessPolicy.Expr

/-!
The shape of expressions: what stands below the root of one, how deep it nests,
which variables and values occur in it, and whether its records name each field
once. None of this looks at a request or a store.
-/

namespace AccessPolicy
namespace Expr

/-- The expressions directly below the root, from left to right. -/
def children : Expr → List Expr
  | .literal _ | .var _ => []
  | .getAttr base _ | .hasAttr base _ | .is base _ | .like base _ => [base]
  | .unary _ arg => [arg]
  | .and left right | .or left right | .binary _ left right => [left, right]
  | .isIn base _ parent => [base, parent]
  | .ite cond thenExpr elseExpr => [cond, thenExpr, elseExpr]
  | .set members => members
  | .record fields => fields.map Prod.snd
  | .call _ args => args

mutual

/-- The number of steps from the root to the deepest leaf. An expression
without children has depth zero. -/
def depth : Expr → Nat
  | .literal _ | .var _ => 0
  | .getAttr base _ | .hasAttr base _ | .is base _ | .like base _ => base.depth + 1
  | .unary _ arg => arg.depth + 1
  | .and left right | .or left right | .binary _ left right => max left.depth right.depth + 1
  | .isIn base _ parent => max base.depth parent.depth + 1
  | .ite cond thenExpr elseExpr => max cond.depth (max thenExpr.depth elseExpr.depth) + 1
  | .set members => listHeight members
  | .record fields => fieldsHeight fields
  | .call _ args => listHeight args

/-- The depth of an expression with these children. -/
def listHeight : List Expr → Nat
  | [] => 0
  | e :: es => max (e.depth + 1) (listHeight es)

/-- The depth of a record with these fields. -/
def fieldsHeight : List (String × Expr) → Nat
  | [] => 0
  | f :: fs => max (f.2.depth + 1) (fieldsHeight fs)

end

/-- The first expression is the second one or stands below its root. -/
inductive Occurs : Expr → Expr → Prop where
  | root (e : Expr) : Occurs e e
  | inside {d c e : Expr} (child : c ∈ e.children) (occurs : Occurs d c) : Occurs d e

/-- The variable occurs in the expression. -/
def Mentions (e : Expr) (x : Var) : Prop := Occurs (.var x) e

/-- Every value that is written in the expression has the property. -/
def EachLiteral (e : Expr) (P : Value → Prop) : Prop :=
  ∀ v, Occurs (.literal v) e → P v

/-- No record in the expression gives a name twice. -/
def DistinctFields (e : Expr) : Prop :=
  ∀ fields, Occurs (.record fields) e → (fields.map Prod.fst).Nodup

theorem Mentions.of_child {e c : Expr} {x : Var} (hc : c ∈ e.children) (h : c.Mentions x) :
    e.Mentions x :=
  .inside hc h

theorem EachLiteral.child {e c : Expr} {P : Value → Prop} (h : e.EachLiteral P)
    (hc : c ∈ e.children) : c.EachLiteral P :=
  fun v hv => h v (.inside hc hv)

theorem EachLiteral.of_children {e : Expr} {P : Value → Prop}
    (hroot : ∀ v, e = .literal v → P v) (h : ∀ c ∈ e.children, c.EachLiteral P) :
    e.EachLiteral P := by
  intro v hv
  cases hv with
  | root => exact hroot v rfl
  | inside hc ho => exact h _ hc v ho

theorem EachLiteral.literal {v : Value} {P : Value → Prop} (h : P v) :
    (Expr.literal v).EachLiteral P :=
  .of_children (fun w hw => by cases hw; exact h) nofun

theorem EachLiteral.var {x : Var} {P : Value → Prop} : (Expr.var x).EachLiteral P :=
  .of_children nofun nofun

theorem EachLiteral.of_children_eq_cons {e c : Expr} {cs : List Expr} {P : Value → Prop}
    (hchildren : e.children = c :: cs) (h : ∀ d ∈ c :: cs, d.EachLiteral P) :
    e.EachLiteral P := by
  refine .of_children (fun v hv => ?_) (hchildren ▸ h)
  rw [hv] at hchildren
  cases hchildren

theorem EachLiteral.occurs {d e : Expr} {P : Value → Prop} (h : e.EachLiteral P)
    (ho : Occurs d e) : d.EachLiteral P := by
  induction ho with
  | root => exact h
  | inside hc _ ih => exact ih (h.child hc)

theorem DistinctFields.child {e c : Expr} (h : e.DistinctFields) (hc : c ∈ e.children) :
    c.DistinctFields :=
  fun fields hf => h fields (.inside hc hf)

theorem depth_lt_listHeight {es : List Expr} {c : Expr} (hc : c ∈ es) :
    c.depth < listHeight es := by
  induction es with
  | nil => cases hc
  | cons e es ih =>
    rw [listHeight]
    rcases List.mem_cons.mp hc with rfl | hc
    · omega
    · have := ih hc
      omega

theorem depth_lt_fieldsHeight {fs : List (String × Expr)} {c : Expr}
    (hc : c ∈ fs.map Prod.snd) : c.depth < fieldsHeight fs := by
  induction fs with
  | nil => cases hc
  | cons f fs ih =>
    rw [fieldsHeight]
    rcases List.mem_cons.mp hc with rfl | hc
    · omega
    · have := ih hc
      omega

theorem depth_child_lt {e c : Expr} (hc : c ∈ e.children) : c.depth < e.depth := by
  cases e with
  | literal | var => cases hc
  | set | call => exact depth_lt_listHeight hc
  | record => exact depth_lt_fieldsHeight hc
  | getAttr | hasAttr | is | like | unary =>
    rw [List.mem_singleton.mp hc, depth]
    omega
  | and | or | binary | isIn =>
    simp only [children, List.mem_cons, List.not_mem_nil, or_false] at hc
    rcases hc with rfl | rfl <;> simp only [depth] <;> omega
  | ite =>
    simp only [children, List.mem_cons, List.not_mem_nil, or_false] at hc
    rcases hc with rfl | rfl | rfl <;> simp only [depth] <;> omega

/-- A property that passes from the children of an expression to the expression
holds of every expression. -/
@[elab_as_elim]
theorem childrenInduction {P : Expr → Prop} (step : ∀ e, (∀ c ∈ e.children, P c) → P e)
    (e : Expr) : P e :=
  step e fun c _ => childrenInduction step c
termination_by e.depth
decreasing_by exact depth_child_lt ‹_›

end Expr
end AccessPolicy
