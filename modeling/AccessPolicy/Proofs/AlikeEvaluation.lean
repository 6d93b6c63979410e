import AccessPolicy.Proofs.AlikeOperands
import AccessPolicy.Proofs.EvaluationPlan

/-!
Evaluation of alike expressions against alike requests and stores: expressions
of one form whose literals are alike, requests with alike contexts, and stores
with alike attributes. Their plans are alike, and so an evaluation fails as
before or has an alike value.
-/

namespace AccessPolicy

open Fallible (Agree)

/-- The same entities and alike contexts. -/
structure Request.Alike (r s : Request) : Prop where
  principal : r.principal = s.principal
  action : r.action = s.action
  resource : r.resource = s.resource
  context : Option.Rel Record.Alike r.context s.context

namespace Request.Alike

variable {r s : Request} (h : r.Alike s)
include h

theorem entitySlot_eq (x : Var) : r.entitySlot x = s.entitySlot x := by
  cases x with
  | principal => exact h.principal
  | action => exact h.action
  | resource => exact h.resource
  | context => rfl

theorem get?_alike (x : Var) : Option.Rel Value.Alike (r.get? x) (s.get? x) := by
  cases x with
  | context =>
      rw [get?, get?]
      refine h.context.casesOn (fun hc => ?_) ?_
      · exact .some hc.value
      · exact .none
  | principal | action | resource =>
      simp only [get?, h.entitySlot_eq]
      cases s.entitySlot _ with
      | none => exact .none
      | some uid => exact .some (.of_isScalar rfl)

theorem lookup_agree (x : Var) : Agree Value.Alike (r.lookup x) (s.lookup x) := by
  rw [lookup, lookup]
  refine (h.get?_alike x).casesOn ?_ ?_
  · exact .ok
  · exact .error _ _

end Request.Alike

/-- Alike requests and stores under the same limits. -/
structure Env.Alike (env env' : Env) : Prop where
  request : env.request.Alike env'.request
  store : env.store.Alike env'.store
  limits : env.limits = env'.limits

/-- Expressions of the same form with alike literals. -/
inductive Expr.Alike : Expr → Expr → Prop where
  | literal {v w : Value} (value : v.Alike w) : Alike (.literal v) (.literal w)
  | var (x : Var) : Alike (.var x) (.var x)
  | getAttr {b b' : Expr} (base : Alike b b') (attr : String) :
      Alike (.getAttr b attr) (.getAttr b' attr)
  | hasAttr {b b' : Expr} (base : Alike b b') (attr : String) :
      Alike (.hasAttr b attr) (.hasAttr b' attr)
  | and {l l' r r' : Expr} (left : Alike l l') (right : Alike r r') :
      Alike (.and l r) (.and l' r')
  | or {l l' r r' : Expr} (left : Alike l l') (right : Alike r r') : Alike (.or l r) (.or l' r')
  | ite {c c' t t' e e' : Expr} (cond : Alike c c') (thenExpr : Alike t t')
      (elseExpr : Alike e e') : Alike (.ite c t e) (.ite c' t' e')
  | unary (op : UnaryOp) {a a' : Expr} (arg : Alike a a') : Alike (.unary op a) (.unary op a')
  | binary (op : BinaryOp) {l l' r r' : Expr} (left : Alike l l') (right : Alike r r') :
      Alike (.binary op l r) (.binary op l' r')
  | is {b b' : Expr} (base : Alike b b') (type : EntityType) : Alike (.is b type) (.is b' type)
  | isIn {b b' p p' : Expr} (base : Alike b b') (type : EntityType) (parent : Alike p p') :
      Alike (.isIn b type p) (.isIn b' type p')
  | like {b b' : Expr} (base : Alike b b') (pattern : Pattern) :
      Alike (.like b pattern) (.like b' pattern)
  | set {es ds : List Expr} (members : List.Forall₂ Alike es ds) : Alike (.set es) (.set ds)
  | record {fs gs : List (String × Expr)} (names : fs.map Prod.fst = gs.map Prod.fst)
      (values : List.Forall₂ Alike (fs.map Prod.snd) (gs.map Prod.snd)) :
      Alike (.record fs) (.record gs)
  | call (function : String) {es ds : List Expr} (args : List.Forall₂ Alike es ds) :
      Alike (.call function es) (.call function ds)

/-- The same branch up to alike children and results. -/
inductive Branch.Alike : Branch → Branch → Prop where
  | stop {v w : Value} (value : v.Alike w) : Alike (.stop v) (.stop w)
  | go {e d : Expr} {finish finish' : Value → Value → Except EvalError Value}
      (child : e.Alike d)
      (results : ∀ v v' w w', v.Alike v' → w.Alike w' →
        Agree Value.Alike (finish v w) (finish' v' w')) :
      Alike (.go e finish) (.go d finish')

/-- The same plan up to alike children and results. -/
inductive Plan.Alike : Plan → Plan → Prop where
  | value {v w : Value} (value : v.Alike w) : Alike (.value v) (.value w)
  | slot (x : Var) : Alike (.slot x) (.slot x)
  | fail (x : EvalError) : Alike (.fail x) (.fail x)
  | strict {es ds : List Expr} {op op' : List Value → Except EvalError Value}
      (args : List.Forall₂ Expr.Alike es ds)
      (results : ∀ vs ws, List.Forall₂ Value.Alike vs ws → Agree Value.Alike (op vs) (op' ws)) :
      Alike (.strict es op) (.strict ds op')
  | branch {e d : Expr} {test : Value → Except EvalError Bool} {next next' : Bool → Branch}
      (guard : e.Alike d) (tests : ∀ v w, v.Alike w → test v = test w)
      (nexts : ∀ b, (next b).Alike (next' b)) :
      Alike (.branch e test next) (.branch d test next')

namespace Plan

theorem unaryOp_agree {f g : Value → Except EvalError Value}
    (h : ∀ v w, v.Alike w → Agree Value.Alike (f v) (g w)) (vs ws : List Value)
    (hvs : List.Forall₂ Value.Alike vs ws) :
    Agree Value.Alike (unaryOp f vs) (unaryOp g ws) := by
  cases hvs with
  | nil => exact .error _ _
  | cons hv hvs =>
      cases hvs with
      | nil => exact h _ _ hv
      | cons => exact .error _ _

theorem binaryOp_agree {f g : Value → Value → Except EvalError Value}
    (h : ∀ v v' w w', v.Alike v' → w.Alike w' → Agree Value.Alike (f v w) (g v' w'))
    (vs ws : List Value) (hvs : List.Forall₂ Value.Alike vs ws) :
    Agree Value.Alike (binaryOp f vs) (binaryOp g ws) := by
  cases hvs with
  | nil => exact .error _ _
  | cons hv hvs =>
      cases hvs with
      | nil => exact .error _ _
      | cons hw hvs =>
          cases hvs with
          | nil => exact h _ _ _ _ hv hw
          | cons => exact .error _ _

variable {r s : Request} {f g : Expr → Except EvalError Value}
  (hfg : ∀ e d, e.Alike d → Agree Value.Alike (f e) (g d))
include hfg

theorem Alike.run_agree (hr : r.Alike s) {p q : Plan} (h : p.Alike q) :
    Agree Value.Alike (p.run r f) (q.run s g) := by
  cases h with
  | value hv => exact .ok hv
  | slot x => exact hr.lookup_agree x
  | fail x => exact .error x x
  | strict args results => exact (Agree.mapM (args.imp hfg)).bind results
  | @branch e d test next next' guard tests nexts =>
      refine (hfg _ _ guard).bind fun v w hv => ?_
      rw [tests v w hv]
      refine (Agree.of_eq rfl).bind fun b c hbc => ?_
      subst hbc
      refine (nexts b).casesOn ?_ ?_
      · exact .ok
      · intro _ _ _ _ child results
        exact (hfg _ _ child).bind fun _ _ hw => results _ _ _ _ hv hw

end Plan

namespace Expr

theorem Alike.plan {s t : Store} (hs : s.Alike t) {e d : Expr} (h : e.Alike d) :
    (e.plan s).Alike (d.plan t) := by
  cases h with
  | literal hv => exact .value hv
  | var x => exact .slot x
  | getAttr hb attr =>
      exact .strict (.cons hb .nil)
        (Plan.unaryOp_agree fun v w hv => Value.getAttr_agree hs hv attr)
  | hasAttr hb attr =>
      exact .strict (.cons hb .nil)
        (Plan.unaryOp_agree fun v w hv => Value.bool_agree (Value.hasAttr_agree hs hv attr))
  | is hb type =>
      exact .strict (.cons hb .nil)
        (Plan.unaryOp_agree fun v w hv => Value.bool_agree (.of_eq (hv.isType_eq type)))
  | like hb pattern =>
      exact .strict (.cons hb .nil)
        (Plan.unaryOp_agree fun v w hv => Value.bool_agree (.of_eq (hv.like_eq pattern)))
  | unary op ha =>
      exact .strict (.cons ha .nil)
        (Plan.unaryOp_agree fun v w hv => Value.applyUnary_agree hv op)
  | binary op hl hr =>
      exact .strict (.cons hl (.cons hr .nil))
        (Plan.binaryOp_agree fun v v' w w' hv hw => Value.applyBinary_agree hs hv hw op)
  | and hl hr =>
      refine .branch hl (fun v w hv => hv.asBool_eq) fun b => ?_
      cases b with
      | true => exact .go hr fun v v' w w' _ hw => Value.bool_agree (.of_eq hw.asBool_eq)
      | false => exact .stop (.of_isScalar rfl)
  | or hl hr =>
      refine .branch hl (fun v w hv => hv.asBool_eq) fun b => ?_
      cases b with
      | true => exact .stop (.of_isScalar rfl)
      | false => exact .go hr fun v v' w w' _ hw => Value.bool_agree (.of_eq hw.asBool_eq)
  | ite hc ht he =>
      refine .branch hc (fun v w hv => hv.asBool_eq) fun b => ?_
      cases b with
      | true => exact .go ht fun v v' w w' _ hw => .ok hw
      | false => exact .go he fun v v' w w' _ hw => .ok hw
  | isIn hb type hp =>
      refine .branch hb (fun v w hv => hv.isType_eq type) fun b => ?_
      cases b with
      | true =>
          exact .go hp fun v v' w w' hv hw => Value.bool_agree (Value.entityIn_agree hs hv hw)
      | false => exact .stop (.of_isScalar rfl)
  | set hms => exact .strict hms fun vs ws hvs => .ok (Value.setOf_alike hvs)
  | record names values =>
      refine .strict values fun vs ws hvs => .ok (Record.Alike.value (Record.ofList_alike ?_))
      rw [names]
      exact Record.zip_alike _ hvs
  | call function hargs =>
      rw [Expr.plan, Expr.plan]
      cases ExtensionFunction.lookup function with
      | error x => exact .fail x
      | ok f => exact .strict hargs fun vs ws hvs => f.call_agree hvs

section

variable {env env' : Env} (h : env.Alike env')
include h

theorem evalWithin_agree (n : Nat) {e d : Expr} (he : e.Alike d) :
    Agree Value.Alike (evalWithin env n e) (evalWithin env' n d) := by
  induction n generalizing e d with
  | zero => exact .error _ _
  | succ n ih =>
      rw [evalWithin_succ, evalWithin_succ]
      exact Plan.Alike.run_agree (fun c c' hc => ih hc) h.request (he.plan h.store)

theorem eval_agree {e d : Expr} (he : e.Alike d) :
    Agree Value.Alike (e.eval env) (d.eval env') := by
  have hbudget : env'.budget = env.budget := by rw [Env.budget, Env.budget, h.limits]
  rw [eval, eval, hbudget]
  exact evalWithin_agree h env.budget he

theorem evalBool_agree {e d : Expr} (he : e.Alike d) :
    Agree Eq (e.evalBool env) (d.evalBool env') :=
  (eval_agree h he).bind fun _ _ hv => .of_eq hv.asBool_eq

end
end Expr

end AccessPolicy
