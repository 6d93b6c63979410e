import AccessPolicy.Proofs.AlikeOperands
import AccessPolicy.Proofs.PolicyOutcome
import AccessPolicy.Proofs.RangeArithmetic
import AccessPolicy.Proofs.ResidualSoundness
import AccessPolicy.Proofs.ValueFormation

/-!
Well-formed values in, well-formed values out. Every plan of an expression whose
literals are well-formed keeps values well-formed, and so do evaluation and
reduction; what reduction leaves has no other values than those of the
expression and of its folded parts. The calls of an evaluation are then made
with well-formed arguments, on which the tests of ranges stay within the machine
words.
-/

namespace AccessPolicy

/-- The context is well-formed, if it is known. -/
def Request.WellFormed (r : Request) : Prop :=
  ∀ context, r.context = some context → context.WellFormed

/-- The attributes of every entity are well-formed. -/
def Store.WellFormed (s : Store) : Prop :=
  ∀ e ∈ s.entities, e.attrs.WellFormed

structure Env.WellFormed (env : Env) : Prop where
  request : env.request.WellFormed
  store : env.store.WellFormed

/-- The bodies of the conditions have well-formed values. -/
def Policy.WellFormed (p : Policy) : Prop :=
  ∀ c ∈ p.conditions, c.body.EachLiteral Value.WellFormed

open Fallible (Gives)

namespace Branch

/-- From values with the property the branch goes on to values with the
property. -/
def Keeps (P : Value → Prop) : Branch → Prop
  | .stop w => P w
  | .go _ finish => ∀ v w, P v → P w → Gives P (finish v w)

theorem run_gives {P : Value → Prop} {f : Expr → Except EvalError Value} {next : Branch}
    (hnext : next.Keeps P) (h : ∀ d ∈ next.children, Gives P (f d)) {v : Value} (hv : P v) :
    Gives P (next.run f v) := by
  cases next with
  | stop w => exact .ok hnext
  | go d finish => exact .bind (h d List.mem_cons_self) fun w hw => hnext v w hv hw

end Branch

namespace Plan

/-- From values with the property the plan combines values with the property. -/
def Keeps (P : Value → Prop) : Plan → Prop
  | .value v => P v
  | .slot _ | .fail _ => True
  | .strict _ op => ∀ vs, (∀ v ∈ vs, P v) → Gives P (op vs)
  | .branch _ _ next => ∀ b, (next b).Keeps P

theorem run_gives {P : Value → Prop} {r : Request} {f : Expr → Except EvalError Value} {p : Plan}
    (hp : p.Keeps P) (hr : ∀ x v, r.get? x = some v → P v)
    (h : ∀ d ∈ p.children, Gives P (f d)) : Gives P (p.run r f) := by
  cases p with
  | value v => exact .ok hp
  | fail x => exact .error x
  | slot x =>
      rw [run, Request.lookup]
      cases hx : r.get? x with
      | some v => exact .ok (hr x v hx)
      | none => exact .error _
  | strict args op => exact .bind (.mapM h) hp
  | branch guard test next =>
      refine .bind (h guard List.mem_cons_self) fun v hv => .bind_any _ fun b => ?_
      exact Branch.run_gives (hp b)
        (fun d hd => h d (Branch.children_subset guard test next b hd)) hv

theorem unaryOp_gives {P : Value → Prop} {f : Value → Except EvalError Value}
    (h : ∀ v, P v → Gives P (f v)) (vs : List Value) (hvs : ∀ v ∈ vs, P v) :
    Gives P (unaryOp f vs) := by
  match vs with
  | [v] => exact h v (hvs v List.mem_cons_self)
  | [] | _ :: _ :: _ => exact .error _

theorem binaryOp_gives {P : Value → Prop} {f : Value → Value → Except EvalError Value}
    (h : ∀ v w, Gives P (f v w)) (vs : List Value) : Gives P (binaryOp f vs) := by
  match vs with
  | [v, w] => exact h v w
  | [] | [_] | _ :: _ :: _ :: _ => exact .error _

end Plan

namespace Value

variable {store : Store}

theorem getAttr_wellFormed (hs : store.WellFormed) {v : Value} (hv : v.WellFormed)
    (attr : String) : Gives WellFormed (v.getAttr store attr) := by
  cases v with
  | record fields =>
      rw [getAttr]
      cases h : Record.find? fields attr with
      | some w => exact .ok (Record.WellFormed.find? hv h)
      | none => exact .error _
  | entity uid =>
      rw [getAttr]
      cases he : store.find? uid with
      | none => exact .error _
      | some e =>
          dsimp only
          cases h : e.attr? attr with
          | some w => exact .ok ((hs e (List.mem_of_find?_eq_some he)).find? h)
          | none => exact .error _
  | _ => exact .error _

theorem bool_gives (x : Except EvalError Bool) : Gives WellFormed (.bool <$> x) := by
  cases x with
  | ok b => exact .ok trivial
  | error x => exact .error x

theorem checked_wellFormed (operation : String) (n : Option Long) :
    Gives WellFormed (checked operation n) := by
  cases n with
  | some n => exact .ok trivial
  | none => exact .error _

theorem applyUnary_wellFormed (op : UnaryOp) (v : Value) : Gives WellFormed (v.applyUnary op) := by
  cases op with
  | not | isEmpty => exact .bind_any _ fun _ => .ok trivial
  | neg => exact .bind_any _ fun _ => checked_wellFormed _ _

theorem applyBinary_wellFormed (store : Store) (op : BinaryOp) (v w : Value) :
    Gives WellFormed (applyBinary store op v w) := by
  cases op with
  | eq | notEq => exact .ok trivial
  | less | lessEq | greater | greaterEq | isIn | contains => exact .bind_any _ fun _ => .ok trivial
  | add | sub | mul => exact .bind_any _ fun _ => .bind_any _ fun _ => checked_wellFormed _ _
  | containsAll | containsAny => exact .bind_any _ fun _ => .bind_any _ fun _ => .ok trivial

end Value

theorem ExtensionFunction.call_wellFormed (f : ExtensionFunction) (vs : List Value) :
    Gives Value.WellFormed (f.call vs) := by
  refine f.call_gives (fun v hv hip => ?_) (fun text r hr => ?_) vs
  · cases v with
    | set | record => cases hv
    | ip => exact absurd rfl hip
    | _ => trivial
  · rw [Value.WellFormed]
    exact IpRange.ofText_wellFormed hr

namespace Request

theorem WellFormed.get? {r : Request} (h : r.WellFormed) (x : Var) {v : Value}
    (hv : r.get? x = some v) : v.WellFormed := by
  cases x with
  | context =>
      obtain ⟨context, hc, rfl⟩ := Option.map_eq_some_iff.mp hv
      exact h context hc
  | principal | action | resource =>
      obtain ⟨uid, -, rfl⟩ := Option.map_eq_some_iff.mp hv
      trivial

end Request

namespace Expr

open Value (WellFormed)

theorem zip_wellFormed {names : List String} {vs : List Value} (h : ∀ v ∈ vs, v.WellFormed) :
    ∀ f ∈ names.zip vs, f.2.WellFormed :=
  fun _ hf => h _ (List.of_mem_zip hf).2

theorem plan_keeps {store : Store} (hs : store.WellFormed) {e : Expr}
    (he : e.EachLiteral WellFormed) : (e.plan store).Keeps WellFormed := by
  cases e with
  | literal v => exact he v (.root _)
  | var => trivial
  | getAttr => exact Plan.unaryOp_gives fun v hv => v.getAttr_wellFormed hs hv _
  | hasAttr | is | like => exact Plan.unaryOp_gives fun v _ => Value.bool_gives _
  | unary op => exact Plan.unaryOp_gives fun v _ => v.applyUnary_wellFormed op
  | binary op => exact fun vs _ => Plan.binaryOp_gives (Value.applyBinary_wellFormed store op) vs
  | and | or | isIn =>
      intro b
      cases b with
      | true => first | trivial | exact fun v w _ _ => Value.bool_gives _
      | false => first | trivial | exact fun v w _ _ => Value.bool_gives _
  | ite =>
      intro b
      cases b with
      | true | false => exact fun v w _ hw => .ok hw
  | set => exact fun vs hvs => .ok (Value.setOf_wellFormed hvs)
  | record => exact fun vs hvs => .ok (Record.ofList_wellFormed (zip_wellFormed hvs))
  | call function args =>
      rw [plan]
      cases ExtensionFunction.lookup function with
      | ok f => exact fun vs _ => f.call_wellFormed vs
      | error x => trivial

theorem evalWithin_wellFormed {env : Env} (henv : env.WellFormed) (n : Nat) {e : Expr}
    (he : e.EachLiteral WellFormed) : Gives WellFormed (evalWithin env n e) := by
  induction n generalizing e with
  | zero => exact .error _
  | succ n ih =>
      rw [evalWithin_succ]
      refine Plan.run_gives (plan_keeps henv.store he) (fun x v => henv.request.get? x)
        fun d hd => ih ?_
      exact he.child (mem_children_of_plan hd)

section

variable {P : Value → Prop} {e : Expr} (he : e.EachLiteral P)

theorem eachLiteral_setField {name : String} {fields : List (String × Expr)}
    (he : e.EachLiteral P) (h : ∀ f ∈ fields, f.2.EachLiteral P) :
    ∀ f ∈ setField name e fields, f.2.EachLiteral P := by
  induction fields with
  | nil => exact List.forall_mem_singleton.mpr he
  | cons f fields ih =>
      obtain ⟨hf, hfields⟩ := List.forall_mem_cons.mp h
      rw [setField]
      split
      · exact List.forall_mem_cons.mpr ⟨he, hfields⟩
      · exact List.forall_mem_cons.mpr ⟨hf, ih hfields⟩

theorem eachLiteral_ofFields {fields : List (String × Expr)}
    (h : ∀ f ∈ fields, f.2.EachLiteral P) : (ofFields fields).EachLiteral P := by
  suffices step : ∀ kept : List (String × Expr), (∀ f ∈ kept, f.2.EachLiteral P) →
      ∀ f ∈ fields.foldl (fun fs f => setField f.1 f.2 fs) kept, f.2.EachLiteral P by
    refine .of_children nofun fun c hc => ?_
    obtain ⟨f, hf, rfl⟩ := List.mem_map.mp hc
    exact step [] nofun f hf
  induction fields with
  | nil => exact fun kept hkept => hkept
  | cons f fields ih =>
      obtain ⟨hf, hfields⟩ := List.forall_mem_cons.mp h
      exact fun kept hkept => ih hfields _ (eachLiteral_setField hf hkept)

include he

theorem eachLiteral_withArgs {cs : List Expr} (hcs : ∀ c ∈ cs, c.EachLiteral P) :
    (e.withArgs cs).EachLiteral P := by
  fun_cases withArgs e cs with
  | case8 => exact eachLiteral_ofFields fun f hf => hcs _ (List.of_mem_zip hf).2
  | case10 => exact he
  | _ => exact .of_children nofun hcs

theorem eachLiteral_withGuard {g : Expr} {f : Expr → Expr} (hg : g.EachLiteral P)
    (hf : ∀ d ∈ e.children, (f d).EachLiteral P) : (e.withGuard g f).EachLiteral P := by
  cases e with
  | and | or | isIn =>
      refine .of_children_eq_cons rfl
        (List.forall_mem_cons.mpr ⟨hg, List.forall_mem_singleton.mpr ?_⟩)
      exact hf _ (by simp [children])
  | ite =>
      refine .of_children_eq_cons rfl (List.forall_mem_cons.mpr ⟨hg, List.forall_mem_cons.mpr
        ⟨?_, List.forall_mem_singleton.mpr ?_⟩⟩)
      · exact hf _ (by simp [children])
      · exact hf _ (by simp [children])
  | _ => exact he

omit he in
theorem eachLiteral_resume (hbool : ∀ b, P (.bool b)) {v : Value} (hv : P v) {d : Expr}
    (hd : d.EachLiteral P) : (e.resume v d).EachLiteral P := by
  cases e with
  | and | or | isIn =>
      refine .of_children_eq_cons rfl
        (List.forall_mem_cons.mpr ⟨.literal ?_, List.forall_mem_singleton.mpr hd⟩)
      first | exact hv | exact hbool _
  | _ => exact hd

/-- The values in what is left are those of the expression, those of its folded
parts, and Boolean ones. -/
theorem reduceWithin_eachLiteral {env : Env} (hbool : ∀ b, P (.bool b))
    (heval : ∀ (n : Nat) (e : Expr), e.EachLiteral P → Gives P (evalWithin env n e)) (n : Nat) :
    Gives (fun p => p.toExpr.EachLiteral P) (reduceWithin env n e) := by
  induction n generalizing e with
  | zero => exact .error _
  | succ n ih =>
      intro p h
      cases p with
      | known v => exact .literal (heval _ e he v (reduceWithin_eq_known_iff.mp h))
      | residual d =>
          rw [reduceWithin_succ] at h
          have hleaves := Plan.leaves_of_reduce h
          dsimp only [PartialValue.toExpr]
          generalize hp : e.plan env.store = p at hleaves
          have hchild : ∀ c ∈ p.children, c.EachLiteral P := fun c hc =>
            he.child (mem_children_of_plan (hp ▸ hc))
          cases hleaves with
          | slot => exact .var
          | strict hps =>
              refine eachLiteral_withArgs he fun c hc => ?_
              obtain ⟨q, hq, rfl⟩ := List.mem_map.mp hc
              exact Gives.mapM (fun a ha => ih (hchild a ha)) _ hps q hq
          | guard hg =>
              refine eachLiteral_withGuard he (ih (hchild _ List.mem_cons_self) _ hg) fun d hd => ?_
              cases hq : reduceWithin env n d with
              | error x => exact he.child hd
              | ok q => exact ih (he.child hd) q hq
          | @child guard d d' test next v b finish hg _ hb hd =>
              have hv : P v := heval n guard (hchild _ List.mem_cons_self) v
                (reduceWithin_eq_known_iff.mp hg)
              have hmem : d ∈ (next b).children := by rw [hb]; exact List.mem_cons_self
              exact eachLiteral_resume hbool hv
                (ih (hchild d (Branch.children_subset _ _ _ b hmem)) _ hd)

end

/-- A call in the expression whose arguments have these values under some
budget, or are reduced to them, whether or not evaluation gets there. -/
inductive MayCall (env : Env) (e : Expr) (f : ExtensionFunction) (vs : List Value) : Prop where
  | evaluated {n : Nat} {function : String} {args : List Expr}
      (occurs : Occurs (.call function args) e)
      (found : ExtensionFunction.lookup function = .ok f)
      (values : args.mapM (evalWithin env n) = .ok vs)
  | reduced {n : Nat} {function : String} {args : List Expr}
      (occurs : Occurs (.call function args) e)
      (found : ExtensionFunction.lookup function = .ok f) {ps : List PartialValue}
      (reduced : args.mapM (reduceWithin env n) = .ok ps)
      (values : PartialValue.values? ps = some vs)

section

variable {env : Env} (henv : env.WellFormed) {e : Expr} (he : e.EachLiteral WellFormed)
include henv he

theorem reduceWithin_wellFormed (n : Nat) :
    Gives (fun p => p.toExpr.EachLiteral WellFormed) (reduceWithin env n e) :=
  reduceWithin_eachLiteral he (fun _ => trivial) (fun n _ => evalWithin_wellFormed henv n) n

theorem MayCall.wellFormed {f : ExtensionFunction} {vs : List Value} (h : e.MayCall env f vs) :
    ∀ v ∈ vs, v.WellFormed := by
  cases h with
  | evaluated occurs _ values =>
      have hcall := he.occurs occurs
      exact Gives.mapM (fun a ha => evalWithin_wellFormed henv _ (hcall.child ha)) vs values
  | reduced occurs _ reduced values =>
      have hcall := he.occurs occurs
      intro v hv
      rw [PartialValue.values?_eq_some_iff] at values
      subst values
      exact Gives.mapM (fun a ha => reduceWithin_wellFormed henv (hcall.child ha) _) _ reduced _
        (List.mem_map_of_mem hv) v (.root _)

end

theorem eachLiteral_conjunction {P : Value → Prop} (hbool : ∀ b, P (.bool b)) {es : List Expr}
    (h : ∀ e ∈ es, e.EachLiteral P) : (conjunction es).EachLiteral P := by
  cases es with
  | nil => exact .literal (hbool true)
  | cons e es =>
      obtain ⟨he, hes⟩ := List.forall_mem_cons.mp h
      rw [conjunction]
      clear h
      induction es generalizing e with
      | nil => exact he
      | cons d es ih =>
          obtain ⟨hd, hes⟩ := List.forall_mem_cons.mp hes
          have hand : (Expr.and e d).EachLiteral P :=
            .of_children_eq_cons rfl
              (List.forall_mem_cons.mpr ⟨he, List.forall_mem_singleton.mpr hd⟩)
          exact ih _ hand hes

end Expr

open Value (WellFormed)

theorem Constraint.toExpr?_wellFormed {c : Constraint} {var : Var} {e : Expr}
    (h : c.toExpr? var = some e) : e.EachLiteral WellFormed := by
  have hvar : (Expr.var var).EachLiteral WellFormed := .var
  have hentity (uid : EntityUid) : (Expr.entity uid).EachLiteral WellFormed := .literal trivial
  cases c with
  | any => cases h
  | eq | isIn | isTypeIn =>
      cases h
      exact .of_children_eq_cons rfl
        (List.forall_mem_cons.mpr ⟨hvar, List.forall_mem_singleton.mpr (hentity _)⟩)
  | is =>
      cases h
      exact .of_children_eq_cons rfl (List.forall_mem_singleton.mpr hvar)
  | inSet uids =>
      cases h
      refine .of_children_eq_cons rfl (List.forall_mem_cons.mpr
        ⟨hvar, List.forall_mem_singleton.mpr (.literal (Value.setOf_wellFormed fun v hv => ?_))⟩)
      obtain ⟨uid, -, rfl⟩ := List.mem_map.mp hv
      trivial

theorem Condition.clause_wellFormed (c : Condition) {e : Expr} (he : e.EachLiteral WellFormed) :
    (c.clause e).EachLiteral WellFormed := by
  rw [clause]
  split
  · exact he
  · exact .of_children_eq_cons rfl (List.forall_mem_singleton.mpr he)

section

variable {env : Env} (henv : env.WellFormed)
include henv

theorem Condition.partialOutcome_wellFormed {cs : List Condition}
    (hcs : ∀ c ∈ cs, c.body.EachLiteral WellFormed) {es : List Expr}
    (hes : ∀ e ∈ es, e.EachLiteral WellFormed) {d : Expr}
    (h : partialOutcome env es cs = .residual d) : d.EachLiteral WellFormed := by
  induction cs generalizing es with
  | nil =>
      rw [partialOutcome] at h
      split at h
      · cases h
      · cases h
        exact Expr.eachLiteral_conjunction (fun _ => trivial) hes
  | cons c cs ih =>
      obtain ⟨hc, hcs⟩ := List.forall_mem_cons.mp hcs
      have hadd {e : Expr} (he : e.EachLiteral WellFormed) :
          ∀ e' ∈ es ++ [c.clause e], e'.EachLiteral WellFormed :=
        List.forall_mem_append.mpr
          ⟨hes, List.forall_mem_singleton.mpr (c.clause_wellFormed he)⟩
      rw [partialOutcome] at h
      split at h
      · split at h
        · exact ih hcs hes h
        · cases h
      · next e he =>
        rw [reduceBody_eq_inr_iff] at he
        exact ih hcs (hadd (Expr.reduceWithin_wellFormed henv hc _ _ he)) h
      · split at h
        · cases h
        · exact ih hcs (hadd hc) h

theorem Policy.partialOutcome_wellFormed {p : Policy} (hp : p.WellFormed) {d : Expr}
    (h : p.partialOutcome env = .residual d) : d.EachLiteral Value.WellFormed := by
  rw [partialOutcome] at h
  split at h
  · cases h
  · next es hes =>
    refine Condition.partialOutcome_wellFormed henv hp (fun e he => ?_) h
    obtain ⟨-, rfl⟩ := Scope.conjuncts?_eq_some_iff.mp hes
    obtain ⟨c, -, hc⟩ := List.mem_flatMap.mp he
    split at hc
    · cases hc
    · exact Constraint.toExpr?_wellFormed (Option.mem_toList.mp hc)

/-- Evaluation and reduction take well-formed values to well-formed values, and
no call that they may make leaves the machine words. -/
theorem evaluation_keeps_wellFormed :
    (∀ e : Expr, e.EachLiteral WellFormed →
      (∀ v, e.eval env = .ok v → v.WellFormed) ∧
      (∀ v, e.reduce env = .ok (.known v) → v.WellFormed) ∧
      (∀ d, e.reduce env = .ok (.residual d) → d.EachLiteral WellFormed) ∧
      ∀ f vs, e.MayCall env f vs → f.callWord? vs = some (f.call vs)) ∧
    ∀ p : Policy, p.WellFormed →
      ∀ d, p.partialOutcome env = .residual d → d.EachLiteral WellFormed := by
  refine ⟨fun e he => ?_, fun p hp d hd => Policy.partialOutcome_wellFormed henv hp hd⟩
  have hreduce := Expr.reduceWithin_wellFormed henv he env.budget
  refine ⟨Expr.evalWithin_wellFormed henv _ he, fun v hv => ?_, fun d hd => ?_, fun f vs h => ?_⟩
  · exact hreduce (.known v) hv v (.root _)
  · exact hreduce (.residual d) hd
  · exact f.callWord?_eq (h.wellFormed henv he)

end

/-- A call with a range that is read from a text and one that stands in the
context. -/
theorem evaluation_keeps_wellFormed_isInRange :
    Env.WellFormed
      ⟨⟨none, none, none, some [("net", .ip ⟨.v4 0x0a000000, 8⟩)]⟩, .empty, ⟨2⟩⟩ ∧
    Expr.EachLiteral (.call "isInRange" [.call "ip" [.string "10.0.0.1/24"],
      .getAttr (.var .context) "net"]) WellFormed ∧
    WellFormed (.bool true) ∧
    ExtensionFunction.isInRange.callWord?
        [.ip ⟨.v4 0x0a000001, 24⟩, .ip ⟨.v4 0x0a000000, 8⟩] = some (.ok (.bool true)) := by
  have henv : Env.WellFormed
      ⟨⟨none, none, none, some [("net", .ip ⟨.v4 0x0a000000, 8⟩)]⟩, .empty, ⟨2⟩⟩ := by
    refine ⟨fun context hcontext => ?_, nofun⟩
    cases hcontext
    exact Value.wellFormed_record_iff.mpr ⟨List.pairwise_singleton _ _,
      List.forall_mem_singleton.mpr (by rw [WellFormed]; decide)⟩
  have he : Expr.EachLiteral (.call "isInRange" [.call "ip" [.string "10.0.0.1/24"],
      .getAttr (.var .context) "net"]) WellFormed :=
    .of_children_eq_cons rfl (List.forall_mem_cons.mpr
      ⟨.of_children_eq_cons rfl (List.forall_mem_singleton.mpr (.literal trivial)),
        List.forall_mem_singleton.mpr
          (.of_children_eq_cons rfl (List.forall_mem_singleton.mpr (.var)))⟩)
  obtain ⟨heval, -, -, hcalls⟩ := (evaluation_keeps_wellFormed henv).1 _ he
  exact ⟨henv, he, heval _ rfl,
    hcalls .isInRange _ (.evaluated (n := 2) (.root _) rfl rfl)⟩

end AccessPolicy
