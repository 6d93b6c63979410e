import AccessPolicy.Proofs.EvaluationDepth
import AccessPolicy.Proofs.RequestExtension

/-!
Residual expressions mean what the expressions meant that they were reduced
from. A residual is evaluated on a request that extends the one of the
reduction; it then gives the value or the failure of the original expression,
and it gives this also where the original exceeds the depth limit and it does
not. How a residual compares is said for any kind of comparison; expressions are
the same up to the depth limit where no record gives a name twice, since
reduction keeps only the last of such fields.
-/

namespace AccessPolicy

namespace Plan

/-- The ways in which the reduction of an expression `e` with the plan leaves a
residual. -/
inductive Leaves (r : Request) (e : Expr) (f : Expr → Except EvalError PartialValue) :
    Plan → Expr → Prop where
  | slot {x : Var} (hx : r.get? x = none) : Leaves r e f (.slot x) (.var x)
  | strict {args : List Expr} {op : List Value → Except EvalError Value}
      {ps : List PartialValue} (hps : args.mapM f = .ok ps)
      (hopen : PartialValue.values? ps = none) :
      Leaves r e f (.strict args op) (e.withArgs (ps.map PartialValue.toExpr))
  | guard {guard g : Expr} {test : Value → Except EvalError Bool} {next : Bool → Branch}
      (hg : f guard = .ok (.residual g)) :
      Leaves r e f (.branch guard test next) (e.withGuard g fun d => d.simplifiedOr (f d))
  | child {guard d d' : Expr} {test : Value → Except EvalError Bool} {next : Bool → Branch}
      {v : Value} {b : Bool} {finish : Value → Value → Except EvalError Value}
      (hg : f guard = .ok (.known v)) (ht : test v = .ok b) (hb : next b = .go d finish)
      (hd : f d = .ok (.residual d')) :
      Leaves r e f (.branch guard test next) (e.resume v d')

theorem leaves_of_reduce {r : Request} {e d : Expr}
    {f : Expr → Except EvalError PartialValue} {p : Plan}
    (h : p.reduce r e f = .ok (.residual d)) : p.Leaves r e f d := by
  cases p with
  | value | fail => cases h
  | slot x =>
      rw [reduce] at h
      cases hx : r.get? x with
      | some v => rw [hx] at h; cases h
      | none => rw [hx] at h; cases h; exact .slot hx
  | strict args op =>
      obtain ⟨ps, hps, h⟩ := Fallible.eq_ok_of_bind h
      cases hvs : PartialValue.values? ps with
      | some vs =>
          rw [hvs] at h
          obtain ⟨w, -, h⟩ := Fallible.eq_ok_of_bind h
          cases h
      | none => rw [hvs] at h; cases h; exact .strict hps hvs
  | branch guard test next =>
      obtain ⟨p, hg, h⟩ := Fallible.eq_ok_of_bind h
      cases p with
      | residual g => cases h; exact .guard hg
      | known v =>
          obtain ⟨b, ht, h⟩ := Fallible.eq_ok_of_bind h
          cases hb : next b with
          | stop w => rw [hb] at h; cases h
          | go c finish =>
              rw [hb] at h
              obtain ⟨q, hc, h⟩ := Fallible.eq_ok_of_bind h
              cases q with
              | known w =>
                  obtain ⟨u, -, h⟩ := Fallible.eq_ok_of_bind h
                  cases h
              | residual c' => cases h; exact .child hg ht hb hc

end Plan

namespace Expr

variable {r s : Request} (hrs : r.Extends s) (store : Store) (limits : Limits)

theorem evalWithin_literal (env : Env) {n : Nat} (h : n ≠ 0) (v : Value) :
    evalWithin env n (.literal v) = .ok v := by
  obtain ⟨n, rfl⟩ := Nat.exists_eq_succ_of_ne_zero h
  rfl

include hrs

/-- What reduction leaves compares with the original, if rebuilt nodes do that
evaluate all their arguments. -/
theorem evalWithin_rel_toExpr
    {rel : ∀ {α : Type}, Except EvalError α → Except EvalError α → Prop}
    (hrel : Comparison rel) {P : Expr → Prop} (hP : ∀ {e c}, P e → c ∈ e.children → P c)
    (hargs : ∀ {n e args op cs}, P e → e.plan store = .strict args op →
      List.Forall₂ (fun c d => rel (evalWithin ⟨s, store, limits⟩ n c)
        (evalWithin ⟨s, store, limits⟩ n d)) args cs →
      rel (evalWithin ⟨s, store, limits⟩ (n + 1) e)
        (evalWithin ⟨s, store, limits⟩ (n + 1) (e.withArgs cs)))
    {n : Nat} {e : Expr} {p : PartialValue} (he : P e)
    (h : reduceWithin ⟨r, store, limits⟩ n e = .ok p) :
    rel (evalWithin ⟨s, store, limits⟩ n e) (evalWithin ⟨s, store, limits⟩ n p.toExpr) := by
  induction n generalizing e p with
  | zero => cases h
  | succ n ih =>
      cases p with
      | known v =>
          rw [evalWithin_of_reduce_known hrs store limits h]
          exact hrel.refl _
      | residual d =>
          rw [reduceWithin_succ] at h
          have hleaves := Plan.leaves_of_reduce h
          rw [PartialValue.toExpr]
          dsimp only at hleaves ⊢
          generalize hp : e.plan store = p at hleaves
          have hchild : ∀ c ∈ p.children, P c := fun c hc =>
            hP he (mem_children_of_plan (hp ▸ hc))
          cases hleaves with
          | slot hx =>
              rw [evalWithin_succ, hp]
              exact hrel.refl _
          | strict hps hopen =>
              apply hargs he hp
              rw [List.forall₂_map_right_iff]
              apply ((List.forall₂_and_left _ _).mpr
                ⟨hchild, Fallible.mapM_eq_ok_iff.mp hps⟩).imp
              intro c q hc
              exact ih hc.1 hc.2
          | guard hg =>
              rw [evalWithin_succ, hp, evalWithin_succ, plan_withGuard hp]
              apply hrel.bind (ih (hchild _ List.mem_cons_self) hg)
              intro v _
              apply hrel.bind (hrel.refl _)
              intro b _
              apply hrel.branch
              intro c hc
              cases hq : reduceWithin ⟨r, store, limits⟩ n c with
              | error x => exact hrel.refl _
              | ok q => exact ih (hchild c (Branch.children_subset _ _ _ b hc)) hq
          | @child guard c c' test next v b finish hg ht hb hc =>
              have hn : n ≠ 0 := by
                intro hzero
                subst hzero
                cases hg
              have hv := evalWithin_of_reduce_known hrs store limits hg
              have hrun : (Plan.branch guard test next).run s (evalWithin ⟨s, store, limits⟩ n) =
                  evalWithin ⟨s, store, limits⟩ n c >>= finish v := by
                rw [Plan.run, hv, Fallible.ok_bind, ht, Fallible.ok_bind, hb, Branch.run]
              have hmem : c ∈ (next b).children := by rw [hb]; exact List.mem_cons_self
              have hih := ih (hchild c (Branch.children_subset _ _ _ b hmem)) hc
              rw [evalWithin_succ, hp, hrun]
              rcases plan_resume hp ht hb c' with ⟨next', hplan, hnext⟩ | ⟨hres, hfin⟩
              · rw [evalWithin_succ, hplan, Plan.run, evalWithin_literal _ hn, Fallible.ok_bind,
                  ht, Fallible.ok_bind, hnext, Branch.run]
                exact hrel.bind hih fun w _ => hrel.refl _
              -- a conditional is replaced by its branch, which so has more budget
              · rw [hres, hfin, Fallible.bind_ok_self]
                exact hrel.trans hih
                  (hrel.of_approximates (evalWithin_approximates rfl rfl n.le_succ c'))

theorem evalWithin_toExpr {n : Nat} {e : Expr} {p : PartialValue} (hd : e.DistinctFields)
    (h : reduceWithin ⟨r, store, limits⟩ n e = .ok p) :
    Approximates (evalWithin ⟨s, store, limits⟩ n e)
      (evalWithin ⟨s, store, limits⟩ n p.toExpr) := by
  refine evalWithin_rel_toExpr hrs store limits Approximates.comparison DistinctFields.child ?_ hd h
  intro n e args op cs hd he hcs
  rw [evalWithin_succ, he, evalWithin_succ,
    plan_withArgs he (fun fields hf => hd fields (hf ▸ .root _)) hcs.length_eq.symm]
  exact (Approximates.comparison.mapM hcs).bind fun vs _ => .refl _

/-- Reducing an expression on one request is sound for evaluating it on every
request that extends this one. -/
theorem reduce_sound {e : Expr} (hd : e.DistinctFields) :
    (∀ v, e.reduce ⟨r, store, limits⟩ = .ok (.known v) → e.eval ⟨s, store, limits⟩ = .ok v) ∧
    (∀ d, e.reduce ⟨r, store, limits⟩ = .ok (.residual d) →
      TooDeep (e.eval ⟨s, store, limits⟩) ∨
        d.eval ⟨s, store, limits⟩ = e.eval ⟨s, store, limits⟩) ∧
    (∀ x, e.reduce ⟨r, store, limits⟩ = .error x →
      ∃ y, e.eval ⟨s, store, limits⟩ = .error y) :=
  ⟨fun _ => evalWithin_of_reduce_known hrs store limits,
    fun _ => evalWithin_toExpr hrs store limits hd,
    fun _ => evalWithin_of_reduce_error hrs store limits⟩

omit hrs

theorem DistinctFields.of_children {e : Expr}
    (hroot : ∀ fields, e = .record fields → (fields.map Prod.fst).Nodup)
    (h : ∀ c ∈ e.children, c.DistinctFields) : e.DistinctFields := by
  intro fields hf
  cases hf with
  | root => exact hroot fields rfl
  | inside hc ho => exact h _ hc fields ho

theorem DistinctFields.of_leaf {e : Expr} (h : e.children = []) : e.DistinctFields := by
  refine of_children (fun fields he => ?_) (by simp [h])
  subst he
  rw [List.map_eq_nil_iff.mp h]
  exact .nil

theorem reduce_sound_getAttr_record :
    Request.unknown.Extends ⟨some ⟨⟨"User"⟩, "alice"⟩, none, none, none⟩ ∧
    DistinctFields (.getAttr
      (.record [("who", .var .principal), ("two", .binary .add (.long 1) (.long 1))]) "who") ∧
    eval ⟨⟨some ⟨⟨"User"⟩, "alice"⟩, none, none, none⟩, .empty, ⟨3⟩⟩
        (.getAttr (.record [("who", .var .principal), ("two", .long 2)]) "who") =
      eval ⟨⟨some ⟨⟨"User"⟩, "alice"⟩, none, none, none⟩, .empty, ⟨3⟩⟩ (.getAttr
        (.record [("who", .var .principal), ("two", .binary .add (.long 1) (.long 1))]) "who") := by
  have hext : Request.unknown.Extends ⟨some ⟨⟨"User"⟩, "alice"⟩, none, none, none⟩ := by
    intro var v h
    cases var <;> cases h
  have hadd : DistinctFields (.binary .add (.long 1) (.long 1)) :=
    .of_children nofun (List.forall_mem_cons.mpr
      ⟨.of_leaf rfl, List.forall_mem_singleton.mpr (.of_leaf rfl)⟩)
  have hrecord : DistinctFields
      (.record [("who", .var .principal), ("two", .binary .add (.long 1) (.long 1))]) := by
    refine .of_children ?_ (List.forall_mem_cons.mpr
      ⟨.of_leaf rfl, List.forall_mem_singleton.mpr hadd⟩)
    intro fields hfields
    cases hfields
    decide
  have hd : DistinctFields (.getAttr _ "who") :=
    .of_children nofun (List.forall_mem_singleton.mpr hrecord)
  refine ⟨hext, hd, ((reduce_sound hext .empty ⟨3⟩ hd).2.1 _ rfl).resolve_left ?_⟩
  exact TooDeep.not_ok (Value.entity ⟨⟨"User"⟩, "alice"⟩)

end Expr
end AccessPolicy
