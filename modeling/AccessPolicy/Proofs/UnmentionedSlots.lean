import AccessPolicy.Authorization
import AccessPolicy.Proofs.EvaluationDepth
import AccessPolicy.Proofs.PolicyOutcome

/-!
What an answer reads of a request: the slots whose variables occur in a
condition, and those that a constraint of a scope is about. Evaluation and
reduction ask for nothing else, so requests that differ in a slot that no policy
reads, or leave it unknown, have the same answers.
-/

namespace AccessPolicy

theorem Request.entitySlot_congr {r s : Request} {var : Var} (h : r.get? var = s.get? var) :
    r.entitySlot var = s.entitySlot var := by
  cases var with
  | context => rfl
  | principal | action | resource =>
      exact Option.map_injective (fun _ _ => Value.entity.inj) h

namespace Expr

theorem mentions_of_plan {store : Store} {e : Expr} {x : Var} (h : e.plan store = .slot x) :
    e.Mentions x := by
  cases e with
  | var => cases h; exact .root _
  | call =>
      rw [plan] at h
      split at h <;> cases h
  | _ => cases h

theorem withGuard_congr {e g : Expr} {f f' : Expr → Expr} (h : ∀ d ∈ e.children, f d = f' d) :
    e.withGuard g f = e.withGuard g f' := by
  cases e with
  | and | or | isIn | ite => simp_all [withGuard, children]
  | _ => rfl

end Expr

section

variable {r s : Request}

theorem Branch.run_congr {f g : Expr → Except EvalError Value} {next : Branch}
    (h : ∀ d ∈ next.children, f d = g d) (v : Value) : next.run f v = next.run g v := by
  cases next with
  | stop w => rfl
  | go d finish => rw [run, run, h d List.mem_cons_self]

theorem Branch.reduce_congr {f g : Expr → Except EvalError PartialValue} {next : Branch}
    (h : ∀ d ∈ next.children, f d = g d) (v : Value) (resume : Expr → Expr) :
    next.reduce f v resume = next.reduce g v resume := by
  cases next with
  | stop w => rfl
  | go d finish => rw [reduce, reduce, h d List.mem_cons_self]

namespace Plan

theorem run_congr {f g : Expr → Except EvalError Value} {p : Plan}
    (hslot : ∀ x, p = .slot x → r.get? x = s.get? x) (h : ∀ d ∈ p.children, f d = g d) :
    p.run r f = p.run s g := by
  cases p with
  | value | fail => rfl
  | slot x => rw [run, run, Request.lookup, Request.lookup, hslot x rfl]
  | strict args op =>
      have hargs : args.mapM f = args.mapM g := Fallible.mapM_congr h
      rw [run, run, hargs]
  | branch guard test next =>
      rw [run, run, h guard List.mem_cons_self]
      refine bind_congr fun v => bind_congr fun b => Branch.run_congr (fun d hd => ?_) v
      exact h d (Branch.children_subset guard test next b hd)

theorem reduce_congr {e : Expr} {f g : Expr → Except EvalError PartialValue} {p : Plan}
    (hslot : ∀ x, p = .slot x → r.get? x = s.get? x) (h : ∀ d ∈ p.children, f d = g d)
    (hchild : ∀ d ∈ e.children, f d = g d) : p.reduce r e f = p.reduce s e g := by
  cases p with
  | value | fail => rfl
  | slot x => rw [reduce, reduce, hslot x rfl]
  | strict args op =>
      have hargs : args.mapM f = args.mapM g := Fallible.mapM_congr h
      rw [reduce, reduce, hargs]
  | branch guard test next =>
      rw [reduce, reduce, h guard List.mem_cons_self]
      refine bind_congr fun q => ?_
      cases q with
      | residual g =>
          refine congrArg (fun d => Except.ok (PartialValue.residual d)) ?_
          exact Expr.withGuard_congr fun d hd => by rw [hchild d hd]
      | known v =>
          refine bind_congr fun b => Branch.reduce_congr (fun d hd => ?_) v _
          exact h d (Branch.children_subset guard test next b hd)

end Plan

namespace Expr

variable (store : Store) (limits : Limits)

/-- Evaluation looks at no slot whose variable does not occur. -/
theorem evalWithin_congr {n : Nat} {e : Expr} (h : ∀ x, e.Mentions x → r.get? x = s.get? x) :
    evalWithin ⟨r, store, limits⟩ n e = evalWithin ⟨s, store, limits⟩ n e := by
  induction n generalizing e with
  | zero => rfl
  | succ n ih =>
      rw [evalWithin_succ, evalWithin_succ]
      refine Plan.run_congr (fun x hx => h x (mentions_of_plan hx)) fun d hd => ih fun x hx => ?_
      exact h x (hx.of_child (mem_children_of_plan hd))

theorem reduceWithin_congr {n : Nat} {e : Expr} (h : ∀ x, e.Mentions x → r.get? x = s.get? x) :
    reduceWithin ⟨r, store, limits⟩ n e = reduceWithin ⟨s, store, limits⟩ n e := by
  induction n generalizing e with
  | zero => rfl
  | succ n ih =>
      have hchild : ∀ d ∈ e.children,
          reduceWithin ⟨r, store, limits⟩ n d = reduceWithin ⟨s, store, limits⟩ n d :=
        fun d hd => ih fun x hx => h x (hx.of_child hd)
      rw [reduceWithin_succ, reduceWithin_succ]
      refine Plan.reduce_congr (fun x hx => h x (mentions_of_plan hx)) (fun d hd => ?_) hchild
      exact hchild d (mem_children_of_plan hd)

end Expr

namespace Condition

variable (store : Store) (limits : Limits) {cs : List Condition}
  (h : ∀ c ∈ cs, ∀ x, c.body.Mentions x → r.get? x = s.get? x)
include h

theorem outcome_congr : outcome ⟨r, store, limits⟩ cs = outcome ⟨s, store, limits⟩ cs := by
  induction cs with
  | nil => rfl
  | cons c cs ih =>
      obtain ⟨hc, hcs⟩ := List.forall_mem_cons.mp h
      have hbody : c.body.evalBool ⟨r, store, limits⟩ = c.body.evalBool ⟨s, store, limits⟩ :=
        congrArg (· >>= Value.asBool) (Expr.evalWithin_congr store limits hc)
      rw [outcome, outcome, hbody, ih hcs]

theorem partialOutcome_congr (es : List Expr) :
    partialOutcome ⟨r, store, limits⟩ es cs = partialOutcome ⟨s, store, limits⟩ es cs := by
  induction cs generalizing es with
  | nil => rfl
  | cons c cs ih =>
      obtain ⟨hc, hcs⟩ := List.forall_mem_cons.mp h
      have hbody : c.reduceBody ⟨r, store, limits⟩ = c.reduceBody ⟨s, store, limits⟩ := by
        rw [reduceBody, reduceBody, Expr.reduce, Expr.reduce, Env.budget, Env.budget,
          Expr.reduceWithin_congr store limits hc]
      simp only [partialOutcome, hbody, ih hcs]

end Condition

namespace Scope

variable (store : Store) {scope : Scope}
  (h : ∀ d ∈ scope.constraints, d.2 ≠ .any → r.get? d.1 = s.get? d.1)
include h

theorem admits_congr : scope.admits store r = scope.admits store s := by
  rw [Bool.eq_iff_iff, admits_iff, admits_iff]
  refine forall₂_congr fun d hd => ?_
  by_cases hany : d.2 = .any
  · simp [hany, Constraint.admits]
  · rw [Request.entitySlot_congr (h d hd hany)]

end Scope

theorem Scope.conjuncts?_congr (store : Store) (limits : Limits) {ds : List (Var × Constraint)}
    (h : ∀ d ∈ ds, d.2 ≠ .any → r.get? d.1 = s.get? d.1) :
    conjuncts? ⟨r, store, limits⟩ ds = conjuncts? ⟨s, store, limits⟩ ds := by
  induction ds with
  | nil => rfl
  | cons d ds ih =>
      obtain ⟨var, c⟩ := d
      obtain ⟨hd, hds⟩ := List.forall_mem_cons.mp h
      rw [conjuncts?, conjuncts?, ih hds]
      by_cases hany : c = .any
      -- a constraint that admits everything leaves nothing behind, known or not
      · subst hany
        cases r.entitySlot var <;> cases s.entitySlot var <;>
          simp [Constraint.admits, Constraint.toExpr?]
      · rw [Request.entitySlot_congr (hd hany)]

namespace Policy

/-- A condition or a constraint of the policy depends on the slot. -/
def Reads (p : Policy) (x : Var) : Prop :=
  (∃ c, (x, c) ∈ p.scope.constraints ∧ c ≠ .any) ∨ ∃ c ∈ p.conditions, c.body.Mentions x

variable (store : Store) (limits : Limits) {p : Policy}
  (h : ∀ x, p.Reads x → r.get? x = s.get? x)
include h

theorem outcome_congr : p.outcome ⟨r, store, limits⟩ = p.outcome ⟨s, store, limits⟩ := by
  rw [outcome, outcome, Scope.admits_congr store fun d hd hany => h _ (.inl ⟨d.2, hd, hany⟩),
    Condition.outcome_congr store limits fun c hc x hx => h x (.inr ⟨c, hc, hx⟩)]

theorem partialOutcome_congr :
    p.partialOutcome ⟨r, store, limits⟩ = p.partialOutcome ⟨s, store, limits⟩ := by
  rw [partialOutcome, partialOutcome,
    Scope.conjuncts?_congr store limits fun d hd hany => h _ (.inl ⟨d.2, hd, hany⟩)]
  cases Scope.conjuncts? ⟨s, store, limits⟩ p.scope.constraints with
  | none => rfl
  | some es =>
      exact Condition.partialOutcome_congr store limits (fun c hc x hx => h x (.inr ⟨c, hc, hx⟩)) es

end Policy

/-- Requests that differ in one slot have the same answers if no policy reads
this slot. -/
theorem authorize_noninterference {set : PolicySet} {x : Var}
    (hset : ∀ p ∈ set.policies, ¬ p.Reads x) (hrs : ∀ y, y ≠ x → r.get? y = s.get? y)
    (store : Store) (limits : Limits) :
    authorize ⟨r, store, limits⟩ set = authorize ⟨s, store, limits⟩ set ∧
      authorizePartial ⟨r, store, limits⟩ set = authorizePartial ⟨s, store, limits⟩ set := by
  have hread {p : Policy} (hp : p ∈ set.policies) : ∀ y, p.Reads y → r.get? y = s.get? y := by
    intro y hy
    apply hrs
    rintro rfl
    exact hset p hp hy
  have houtcome : set.judge (Policy.outcome ⟨r, store, limits⟩) =
      set.judge (Policy.outcome ⟨s, store, limits⟩) :=
    List.map_congr_left fun p hp => by rw [Policy.outcome_congr store limits (hread hp)]
  have hpartial : set.judge (Policy.partialOutcome ⟨r, store, limits⟩) =
      set.judge (Policy.partialOutcome ⟨s, store, limits⟩) :=
    List.map_congr_left fun p hp => by rw [Policy.partialOutcome_congr store limits (hread hp)]
  rw [authorize, authorize, houtcome, authorizePartial, authorizePartial, hpartial]
  exact ⟨rfl, rfl⟩

end

/-- A policy on the principal and the resource does not see the action. -/
theorem authorize_noninterference_action :
    (∀ y, y ≠ Var.action →
      Request.get? ⟨some ⟨⟨"User"⟩, "alice"⟩, some ⟨⟨"Action"⟩, "read"⟩, none, none⟩ y =
        Request.get? ⟨some ⟨⟨"User"⟩, "alice"⟩, none, none, none⟩ y) ∧
    authorizePartial
        ⟨⟨some ⟨⟨"User"⟩, "alice"⟩, some ⟨⟨"Action"⟩, "read"⟩, none, none⟩, .empty, ⟨8⟩⟩
        ⟨[{ id := ⟨"own"⟩, effect := .permit, scope := { principal := .eq ⟨⟨"User"⟩, "alice"⟩ }
            conditions := [⟨.whenTrue, .is (.var .resource) ⟨"Doc"⟩⟩] }], by decide⟩ =
      authorizePartial ⟨⟨some ⟨⟨"User"⟩, "alice"⟩, none, none, none⟩, .empty, ⟨8⟩⟩
        ⟨[{ id := ⟨"own"⟩, effect := .permit, scope := { principal := .eq ⟨⟨"User"⟩, "alice"⟩ }
            conditions := [⟨.whenTrue, .is (.var .resource) ⟨"Doc"⟩⟩] }], by decide⟩ := by
  have hrs : ∀ y, y ≠ Var.action →
      Request.get? ⟨some ⟨⟨"User"⟩, "alice"⟩, some ⟨⟨"Action"⟩, "read"⟩, none, none⟩ y =
        Request.get? ⟨some ⟨⟨"User"⟩, "alice"⟩, none, none, none⟩ y := by
    intro y hy
    cases y with
    | action => exact absurd rfl hy
    | principal | resource | context => rfl
  refine ⟨hrs, (authorize_noninterference (List.forall_mem_singleton.mpr ?_) hrs .empty ⟨8⟩).2⟩
  rintro (⟨c, hc, hany⟩ | ⟨c, hc, hmentions⟩)
  · simp only [Scope.constraints, List.mem_cons, Prod.mk.injEq] at hc
    simp_all
  · rw [List.mem_singleton.mp hc] at hmentions
    cases hmentions with
    | inside hchild hvar =>
        rw [List.mem_singleton.mp hchild] at hvar
        cases hvar with
        | inside hchild _ => cases hchild

end AccessPolicy
