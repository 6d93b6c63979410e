import AccessPolicy.Evaluate
import AccessPolicy.Expr.Shape
import AccessPolicy.Proofs.Fallible

/-!
Expressions of integer literals, negations, sums, differences and products. Such
an expression has an exact value among all integers. Evaluation gives this value
if the values of all its subexpressions are words, and otherwise reports the
first operation whose exact result is none; a later operation that would lead
back into the range does not help.
-/

namespace AccessPolicy

/-- What an arithmetic operator does to integers without a bound. -/
def BinaryOp.onIntegers? : BinaryOp → Option (Int → Int → Int)
  | .add => some fun m n => m + n
  | .sub => some fun m n => m - n
  | .mul => some fun m n => m * n
  | _ => none

namespace Expr

/-- The expression is made of integer literals by arithmetic, and its exact value
is `n`. -/
inductive Denotes : Expr → Int → Prop where
  | long (a : Long) : Denotes (.long a) a.toInt
  | neg {e : Expr} {n : Int} (arg : Denotes e n) : Denotes (.unary .neg e) (-n)
  | binary {op : BinaryOp} {f : Int → Int → Int} {l r : Expr} {m n : Int}
      (exact : op.onIntegers? = some f) (left : Denotes l m) (right : Denotes r n) :
      Denotes (.binary op l r) (f m n)

/-- The exact values of the expression and of all that stands below it are words. -/
def Fits (e : Expr) : Prop :=
  ∀ d n, Occurs d e → d.Denotes n → Long.InRange n

/-- The operation is the first one, from left to right and with operands before
the operations on them, whose exact result is no word. -/
inductive FirstOverflow : Expr → String → Prop where
  | arg {e : Expr} {operation : String} (first : FirstOverflow e operation) :
      FirstOverflow (.unary .neg e) operation
  | neg {e : Expr} {a : Long} (arg : e.Denotes a.toInt) (fits : e.Fits)
      (outside : ¬ Long.InRange (-a.toInt)) :
      FirstOverflow (.unary .neg e) ("-(" ++ a.text ++ ")")
  | left {op : BinaryOp} {l r : Expr} {operation : String} (first : FirstOverflow l operation) :
      FirstOverflow (.binary op l r) operation
  | right {op : BinaryOp} {l r : Expr} {operation : String} (leftFits : l.Fits)
      (first : FirstOverflow r operation) : FirstOverflow (.binary op l r) operation
  | binary {op : BinaryOp} {f : Int → Int → Int} {l r : Expr} {a b : Long}
      (exact : op.onIntegers? = some f) (left : l.Denotes a.toInt) (right : r.Denotes b.toInt)
      (leftFits : l.Fits) (rightFits : r.Fits) (outside : ¬ Long.InRange (f a.toInt b.toInt)) :
      FirstOverflow (.binary op l r) (a.text ++ " " ++ op.symbol ++ " " ++ b.text)

theorem Denotes.unique {e : Expr} {m n : Int} (hm : e.Denotes m) (hn : e.Denotes n) : m = n := by
  induction hm generalizing n with
  | long a =>
      cases hn
      rfl
  | neg _ ih =>
      cases hn with
      | neg arg => rw [ih arg]
  | binary exact _ _ ihl ihr =>
      cases hn with
      | binary exact' left right =>
          cases Option.some.inj (exact.symm.trans exact')
          rw [ihl left, ihr right]

namespace Fits

variable {e c : Expr} {n : Int}

theorem child (h : e.Fits) (hc : c ∈ e.children) : c.Fits :=
  fun d n ho => h d n (.inside hc ho)

theorem inRange (h : e.Fits) (he : e.Denotes n) : Long.InRange n := h e n (.root e) he

theorem of_children (he : e.Denotes n) (hn : Long.InRange n) (h : ∀ c ∈ e.children, c.Fits) :
    e.Fits := by
  intro d m ho hd
  cases ho with
  | root => exact hd.unique he ▸ hn
  | inside hc ho => exact h _ hc d m ho hd

end Fits

theorem FirstOverflow.not_fits {e : Expr} {operation : String} (h : e.FirstOverflow operation) :
    ¬ e.Fits := by
  intro hfits
  induction h with
  | arg _ ih | left _ ih => exact ih (hfits.child List.mem_cons_self)
  | right _ _ ih => exact ih (hfits.child (List.mem_cons_of_mem _ List.mem_cons_self))
  | neg arg _ outside => exact outside (hfits.inRange (.neg arg))
  | binary exact left right _ _ outside => exact outside (hfits.inRange (.binary exact left right))

/-- The results that an expression with the exact value `n` may have. -/
inductive Computes (e : Expr) (n : Int) : Except EvalError Value → Prop where
  | value {a : Long} (fits : e.Fits) (exact : a.toInt = n) : Computes e n (.ok (.long a))
  | overflow {operation : String} (first : e.FirstOverflow operation) :
      Computes e n (.error (.integerOverflow operation))

namespace Computes

variable {d e : Expr} {m n : Int}

/-- An operand either has its exact value or has the first overflow. -/
theorem bind {x : Except EvalError Value} {f : Value → Except EvalError Value}
    (hx : Computes d m x) (hfirst : ∀ operation, d.FirstOverflow operation →
      e.FirstOverflow operation)
    (hf : ∀ a : Long, d.Fits → a.toInt = m → Computes e n (f (.long a))) :
    Computes e n (x >>= f) := by
  cases hx with
  | value fits exact => exact hf _ fits exact
  | overflow first => exact .overflow (hfirst _ first)

/-- The operation at the root, once its operands have values. -/
theorem checked {operation : String} (he : e.Denotes n) (hchildren : ∀ c ∈ e.children, c.Fits)
    (hfirst : ¬ Long.InRange n → e.FirstOverflow operation) :
    Computes e n (Value.checked operation (Long.ofInt? n)) := by
  by_cases hn : Long.InRange n
  · rw [Long.ofInt?, if_pos hn]
    exact .value (.of_children he hn hchildren) (Long.toInt_ofInt hn)
  · rw [Long.ofInt?, if_neg hn]
    exact .overflow (hfirst hn)

end Computes

theorem applyBinary_long (store : Store) {op : BinaryOp} {f : Int → Int → Int}
    (hop : op.onIntegers? = some f) (a b : Long) :
    Value.applyBinary store op (.long a) (.long b) =
      Value.checked (a.text ++ " " ++ op.symbol ++ " " ++ b.text)
        (Long.ofInt? (f a.toInt b.toInt)) := by
  cases op <;> cases hop <;> rfl

theorem evalWithin_computes (env : Env) {e : Expr} {n : Int} (h : e.Denotes n) {budget : Nat}
    (hdepth : e.depth < budget) : Computes e n (e.evalWithin env budget) := by
  induction h generalizing budget with
  | long a =>
      obtain ⟨k, rfl⟩ := Nat.exists_eq_succ_of_ne_zero (Nat.ne_zero_of_lt hdepth)
      exact .value (.of_children (.long a) (Long.inRange_toInt a) nofun) rfl
  | neg arg ih =>
      obtain ⟨k, rfl⟩ := Nat.exists_eq_succ_of_ne_zero (Nat.ne_zero_of_lt hdepth)
      refine (ih (Nat.lt_of_succ_lt_succ hdepth)).bind (fun _ => .arg) fun a fits ha => ?_
      subst ha
      exact .checked (.neg arg) (List.forall_mem_singleton.mpr fits) (.neg arg fits)
  | binary exact left right ihl ihr =>
      obtain ⟨k, rfl⟩ := Nat.exists_eq_succ_of_ne_zero (Nat.ne_zero_of_lt hdepth)
      have hdepths := Nat.max_lt.mp (Nat.lt_of_succ_lt_succ hdepth)
      refine (ihl hdepths.1).bind (fun _ => .left) fun a leftFits ha => ?_
      refine (ihr hdepths.2).bind (fun _ => .right leftFits) fun b rightFits hb => ?_
      subst ha hb
      rw [applyBinary_long env.store exact]
      have hchildren := List.forall_mem_cons.mpr ⟨leftFits, List.forall_mem_singleton.mpr rightFits⟩
      exact .checked (.binary exact left right) hchildren
        (.binary exact left right leftFits rightFits)

/-- Arithmetic never wraps: an expression within the depth limit has the exact
value if all values in it are words, and else the overflow that comes first. -/
theorem eval_of_denotes (env : Env) {e : Expr} {n : Int} (h : e.Denotes n)
    (hdepth : e.depth ≤ env.limits.maxDepth) :
    (∀ a : Long, e.eval env = .ok (.long a) ↔ e.Fits ∧ a.toInt = n) ∧
    ((∃ a : Long, e.eval env = .ok (.long a)) ↔ e.Fits) ∧
    (¬ e.Fits ↔ ∃ operation, e.FirstOverflow operation ∧
      e.eval env = .error (.integerOverflow operation)) := by
  have hcomputes : Computes e n (e.eval env) :=
    evalWithin_computes env h (Nat.lt_succ_of_le hdepth)
  cases hresult : e.eval env with
  | ok v =>
      rw [hresult] at hcomputes
      cases hcomputes with
      | @value a fits exact =>
          refine ⟨fun b => ?_, ⟨fun _ => fits, fun _ => ⟨a, rfl⟩⟩, ⟨(absurd fits ·), ?_⟩⟩
          · rw [← exact, Int64.toInt_inj]
            constructor
            · intro hb
              cases hb
              exact ⟨fits, rfl⟩
            · rintro ⟨-, rfl⟩
              rfl
          · rintro ⟨operation, first, -⟩
            exact first.not_fits
  | error z =>
      rw [hresult] at hcomputes
      cases hcomputes with
      | @overflow operation first =>
          have hfits := first.not_fits
          refine ⟨fun b => ⟨nofun, fun hb => absurd hb.1 hfits⟩, ⟨nofun, (absurd · hfits)⟩, ?_⟩
          exact ⟨fun _ => ⟨operation, first, rfl⟩, fun _ => hfits⟩

/-- The sum leaves the range, and the difference would lead back into it. -/
theorem eval_of_denotes_sum :
    (Expr.binary .sub (.binary .add (.long 9223372036854775807) (.long 1)) (.long 1)).Denotes
      9223372036854775807 ∧
    (Expr.binary .sub (.binary .add (.long 9223372036854775807) (.long 1)) (.long 1)).depth ≤ 2 ∧
    ¬ (Expr.binary .sub (.binary .add (.long 9223372036854775807) (.long 1)) (.long 1)).Fits ∧
    (Expr.binary .sub (.binary .add (.long 9223372036854775807) (.long 1)) (.long 1)).FirstOverflow
      "9223372036854775807 + 1" := by
  have hsum : (Expr.binary .add (.long 9223372036854775807) (.long 1)).Denotes
      9223372036854775808 :=
    .binary (f := fun m n => m + n) rfl (.long 9223372036854775807) (.long 1)
  have hdenotes : (Expr.binary .sub (.binary .add (.long 9223372036854775807) (.long 1))
      (.long 1)).Denotes 9223372036854775807 :=
    .binary (f := fun m n => m - n) rfl hsum (.long 1)
  have herror : eval ⟨.unknown, .empty, ⟨2⟩⟩
      (.binary .sub (.binary .add (.long 9223372036854775807) (.long 1)) (.long 1)) =
        .error (.integerOverflow "9223372036854775807 + 1") :=
    rfl
  obtain ⟨_, hvalue, hoverflow⟩ := eval_of_denotes ⟨.unknown, .empty, ⟨2⟩⟩ hdenotes (by decide)
  have hfits : ¬ (Expr.binary .sub (.binary .add (.long 9223372036854775807) (.long 1))
      (.long 1)).Fits := by
    intro hfits
    obtain ⟨a, ha⟩ := hvalue.mpr hfits
    rw [herror] at ha
    cases ha
  obtain ⟨operation, first, hoperation⟩ := hoverflow.mp hfits
  rw [herror] at hoperation
  cases hoperation
  exact ⟨hdenotes, by decide, hfits, first⟩

end Expr
end AccessPolicy
