import AccessPolicy.Proofs.EvaluationPlan

/-!
The depth limit is only a cutoff: an evaluation that does not run into it has
the same result under every larger limit. Results are compared by
`Approximates`, which every way of combining evaluations respects.
-/

namespace AccessPolicy

/-- The evaluation ran into the depth limit. -/
def TooDeep {α : Type} (x : Except EvalError α) : Prop :=
  ∃ max, x = .error (.recursionLimit max)

/-- The results are equal unless the first one ran into the depth limit. -/
def Approximates {α : Type} (x y : Except EvalError α) : Prop := TooDeep x ∨ y = x

namespace TooDeep

variable {α β : Type}

theorem bind {x : Except EvalError α} (h : TooDeep x) (f : α → Except EvalError β) :
    TooDeep (x >>= f) := by
  obtain ⟨max, rfl⟩ := h
  exact ⟨max, rfl⟩

theorem not_ok (a : α) : ¬ TooDeep (.ok a) := nofun

end TooDeep

namespace Approximates

variable {α β γ : Type}

theorem refl (x : Except EvalError α) : Approximates x x := .inr rfl

theorem trans {x y z : Except EvalError α} (hxy : Approximates x y) (hyz : Approximates y z) :
    Approximates x z := by
  rcases hxy with hx | rfl
  · exact .inl hx
  · exact hyz

theorem eq_of_not_tooDeep {x y : Except EvalError α} (h : Approximates x y)
    (hx : ¬ TooDeep x) : y = x :=
  h.resolve_left hx

theorem bind {x y : Except EvalError α} {f g : α → Except EvalError β} (hxy : Approximates x y)
    (hfg : ∀ a, x = .ok a → Approximates (f a) (g a)) : Approximates (x >>= f) (y >>= g) := by
  rcases hxy with hx | rfl
  · exact .inl (hx.bind f)
  · cases y with
    | error z => exact .inr rfl
    | ok a => exact hfg a rfl

theorem map {x y : Except EvalError α} (h : Approximates x y) (f : α → β) :
    Approximates (f <$> x) (f <$> y) := by
  rcases h with ⟨max, rfl⟩ | rfl
  · exact .inl ⟨max, rfl⟩
  · exact refl _

end Approximates

/-- A comparison of results that evaluation respects: it admits that the first
evaluation runs into the depth limit, and sequences of comparable steps compare. -/
structure Comparison (rel : ∀ {α : Type}, Except EvalError α → Except EvalError α → Prop) :
    Prop where
  of_approximates {α : Type} {x y : Except EvalError α} (h : Approximates x y) : rel x y
  trans {α : Type} {x y z : Except EvalError α} (hxy : rel x y) (hyz : rel y z) : rel x z
  bind {α β : Type} {x y : Except EvalError α} {f g : α → Except EvalError β} (hxy : rel x y)
    (hfg : ∀ a, x = .ok a → rel (f a) (g a)) : rel (x >>= f) (y >>= g)

namespace Comparison

variable {rel : ∀ {α : Type}, Except EvalError α → Except EvalError α → Prop}
  (hrel : Comparison rel)
include hrel

theorem refl {α : Type} (x : Except EvalError α) : rel x x :=
  hrel.of_approximates (.refl x)

theorem mapM {α β γ : Type} {f : α → Except EvalError γ} {g : β → Except EvalError γ}
    {as : List α} {bs : List β} (h : List.Forall₂ (fun a b => rel (f a) (g b)) as bs) :
    rel (as.mapM f) (bs.mapM g) := by
  induction h with
  | nil => exact hrel.refl _
  | cons hab _ ih =>
      rw [List.mapM_cons, List.mapM_cons]
      exact hrel.bind hab fun c _ => hrel.bind ih fun cs _ => hrel.refl _

theorem branch {f g : Expr → Except EvalError Value} {change : Expr → Expr} {next : Branch}
    (h : ∀ d ∈ next.children, rel (f d) (g (change d))) (v : Value) :
    rel (next.run f v) ((next.map change).run g v) := by
  cases next with
  | stop w => exact hrel.refl _
  | go d finish => exact hrel.bind (h d List.mem_cons_self) fun w _ => hrel.refl _

end Comparison

theorem Approximates.comparison : Comparison Approximates where
  of_approximates h := h
  trans := .trans
  bind := .bind

namespace Branch

theorem run_approximates {f g : Expr → Except EvalError Value} {next : Branch}
    (h : ∀ d ∈ next.children, Approximates (f d) (g d)) (v : Value) :
    Approximates (next.run f v) (next.run g v) := by
  cases next with
  | stop w => exact .refl _
  | go d finish => exact (h d List.mem_cons_self).bind fun w _ => .refl _

theorem children_subset (guard : Expr) (test : Value → Except EvalError Bool)
    (next : Bool → Branch) (b : Bool) :
    (next b).children ⊆ (Plan.branch guard test next).children := by
  intro d hd
  apply List.mem_cons_of_mem
  rw [List.mem_append]
  cases b with
  | true => exact .inl hd
  | false => exact .inr hd

end Branch

namespace Plan

theorem run_approximates (r : Request) {f g : Expr → Except EvalError Value} {p : Plan}
    (h : ∀ d ∈ p.children, Approximates (f d) (g d)) :
    Approximates (p.run r f) (p.run r g) := by
  cases p with
  | value | slot | fail => exact .refl _
  | strict args op =>
      have hargs : Approximates (args.mapM f) (args.mapM g) :=
        Approximates.comparison.mapM (List.forall₂_same.mpr h)
      exact hargs.bind fun vs _ => .refl _
  | branch guard test next =>
      apply (h guard List.mem_cons_self).bind
      intro v _
      apply (Approximates.refl (test v)).bind
      intro b _
      apply Branch.run_approximates
      intro d hd
      exact h d (Branch.children_subset guard test next b hd)

end Plan

namespace Expr

/-- More budget, under whatever limit, changes an evaluation only if it ran out
of budget. -/
theorem evalWithin_approximates {env env' : Env} (hr : env'.request = env.request)
    (hs : env'.store = env.store) {n m : Nat} (h : n ≤ m) (e : Expr) :
    Approximates (evalWithin env n e) (evalWithin env' m e) := by
  induction n generalizing m e with
  | zero => exact .inl ⟨_, rfl⟩
  | succ n ih =>
      obtain ⟨m, rfl⟩ := Nat.exists_eq_succ_of_ne_zero (Nat.ne_zero_of_lt h)
      rw [evalWithin_succ, Nat.succ_eq_add_one, evalWithin_succ, hr, hs]
      apply Plan.run_approximates
      intro d _
      exact ih (Nat.le_of_succ_le_succ h) d

end Expr
end AccessPolicy
