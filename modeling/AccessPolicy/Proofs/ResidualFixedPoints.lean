import AccessPolicy.Proofs.ResidualSoundness
import AccessPolicy.Proofs.UnmentionedSlots

/-!
Reducing once is enough. A residual has nothing left in it to fold, so reducing
it again on the same request leaves the same residual. What one node does is said
for any two ways of reducing the children, of which the second gives back what the
first has made of them; the depth limit only comes in when the nodes are put together.
-/

namespace AccessPolicy

namespace Expr

/-- Reducing with `g` what `f` has made of the expression gives it back, and an
expression on which `f` fails, and which may therefore be kept, fails with `g` too. -/
structure GivesBack (f g : Expr → Except EvalError PartialValue) (c : Expr) : Prop where
  ok {p : PartialValue} (h : f c = .ok p) : g p.toExpr = .ok p
  error {x : EvalError} (h : f c = .error x) : ∃ y, g c = .error y

theorem GivesBack.simplifiedOr {f g : Expr → Except EvalError PartialValue} {c : Expr}
    (h : GivesBack f g c) :
    (c.simplifiedOr (f c)).simplifiedOr (g (c.simplifiedOr (f c))) = c.simplifiedOr (f c) := by
  cases hc : f c with
  | ok p => rw [Expr.simplifiedOr, h.ok hc, Expr.simplifiedOr]
  | error x =>
      obtain ⟨y, hy⟩ := h.error hc
      rw [Expr.simplifiedOr, hy, Expr.simplifiedOr]

theorem withArgs_withArgs {store : Store} {e : Expr} {args cs : List Expr}
    {op : List Value → Except EvalError Value} (he : e.plan store = .strict args op)
    (hd : ∀ fields, e = .record fields → (fields.map Prod.fst).Nodup)
    (hlen : cs.length = args.length) : (e.withArgs cs).withArgs cs = e.withArgs cs := by
  cases e with
  | literal | var | and | or | ite | isIn => simp [plan] at he
  | getAttr | hasAttr | is | like | unary =>
      obtain ⟨rfl, rfl⟩ := Plan.strict.inj he
      obtain ⟨c, rfl⟩ := List.length_eq_one_iff.mp hlen
      rfl
  | binary =>
      obtain ⟨rfl, rfl⟩ := Plan.strict.inj he
      obtain ⟨c, d, rfl⟩ := List.length_eq_two.mp hlen
      rfl
  | set | call => rfl
  | record fields =>
      obtain ⟨rfl, rfl⟩ := Plan.strict.inj he
      have hlen : (fields.map Prod.fst).length = cs.length := by simpa using hlen.symm
      rw [withArgs_record (hd _ rfl) hlen, withArgs, List.map_fst_zip (Nat.le_of_eq hlen)]
      exact withArgs_record (hd _ rfl) hlen

theorem withGuard_withGuard (e g : Expr) (f f' : Expr → Expr) :
    (e.withGuard g f).withGuard g f' = e.withGuard g fun d => f' (f d) := by
  cases e <;> rfl

/-- An expression that does not give way to its child keeps its form. -/
theorem resume_resume {e d : Expr} {v : Value} (h : e.resume v d ≠ d) :
    (e.resume v d).resume v d = e.resume v d := by
  cases e with
  | and | or | isIn => rfl
  | _ => exact absurd rfl h

end Expr

/-- What a node leaves is left by the node that it leaves, unless it is what one
of the children leaves. -/
theorem Plan.reduce_of_leaves {store : Store} {r : Request} {e d : Expr}
    {f g : Expr → Except EvalError PartialValue}
    (hd : ∀ fields, e = .record fields → (fields.map Prod.fst).Nodup)
    (hchild : ∀ c ∈ e.children, Expr.GivesBack f g c) (h : (e.plan store).Leaves r e f d) :
    (d.plan store).reduce r d g = .ok (.residual d) ∨
      ∃ c ∈ e.children, f c = .ok (.residual d) := by
  generalize hp : e.plan store = p at h
  have hmem {c : Expr} (hc : c ∈ p.children) : c ∈ e.children :=
    Expr.mem_children_of_plan (hp ▸ hc)
  cases h with
  | slot hx => exact .inl (by rw [Expr.plan, reduce, hx])
  | @strict args op ps hps hopen =>
      have hlen : (ps.map PartialValue.toExpr).length = args.length := by
        rw [List.length_map, (Fallible.mapM_eq_ok_iff.mp hps).length_eq]
      have hagain : (ps.map PartialValue.toExpr).mapM g = .ok ps := by
        rw [Fallible.mapM_eq_ok_iff, List.forall₂_map_left_iff, List.forall₂_same]
        exact Fallible.Gives.mapM (fun c hc q => (hchild c (hmem hc)).ok) ps hps
      rw [Expr.plan_withArgs hp hd hlen, reduce, hagain, Fallible.ok_bind, hopen,
        Expr.withArgs_withArgs hp hd hlen]
      exact .inl rfl
  | @guard guard g' test next hg =>
      have hagain : g g' = .ok (.residual g') := (hchild guard (hmem List.mem_cons_self)).ok hg
      rw [Expr.plan_withGuard hp, reduce, hagain, Fallible.ok_bind]
      dsimp only
      rw [Expr.withGuard_withGuard,
        Expr.withGuard_congr fun c hc => (hchild c hc).simplifiedOr]
      exact .inl rfl
  | @child guard c c' test next v b finish hg ht hb hc =>
      have hmemc : c ∈ e.children :=
        hmem (Branch.children_subset guard test next b (by rw [hb]; exact List.mem_cons_self))
      by_cases hres : e.resume v c' = c'
      · rw [hres]
        exact .inr ⟨c, hmemc, hc⟩
      · obtain ⟨next', hplan, hnext⟩ | hgone := Expr.plan_resume hp ht hb c'
        · have hvalue : g (.literal v) = .ok (.known v) :=
            (hchild guard (hmem List.mem_cons_self)).ok hg
          have hagain : g c' = .ok (.residual c') := (hchild c hmemc).ok hc
          rw [hplan, reduce, hvalue, Fallible.ok_bind]
          dsimp only
          rw [ht, Fallible.ok_bind, hnext, Branch.reduce, hagain, Fallible.ok_bind]
          dsimp only
          rw [Expr.resume_resume hres]
          exact .inl rfl
        · exact absurd hgone.1 hres

namespace Expr

theorem reduceWithin_eq_of_depth {env : Env} {n m : Nat} {e : Expr} (hn : e.depth < n)
    (hm : e.depth < m) : reduceWithin env n e = reduceWithin env m e := by
  induction e using childrenInduction generalizing n m with
  | step e ih =>
      obtain ⟨n, rfl⟩ := Nat.exists_eq_succ_of_ne_zero (Nat.ne_zero_of_lt hn)
      obtain ⟨m, rfl⟩ := Nat.exists_eq_succ_of_ne_zero (Nat.ne_zero_of_lt hm)
      have hchild : ∀ c ∈ e.children, reduceWithin env n c = reduceWithin env m c := by
        intro c hc
        have := depth_child_lt hc
        exact ih c hc (by omega) (by omega)
      rw [Nat.succ_eq_add_one, reduceWithin_succ, Nat.succ_eq_add_one, reduceWithin_succ]
      exact Plan.reduce_congr (fun _ _ => rfl) (fun c hc => hchild c (mem_children_of_plan hc))
        hchild

/-- A conditional may leave a branch that was reduced under a smaller budget, so
the budget of the second reduction has to be left open. -/
theorem reduceWithin_toExpr {env : Env} {n m : Nat} {e : Expr} {p : PartialValue}
    (hd : e.DistinctFields) (hdepth : e.depth < n) (hnm : n ≤ m)
    (h : reduceWithin env n e = .ok p) : reduceWithin env m p.toExpr = .ok p := by
  induction n generalizing m e p with
  | zero => cases h
  | succ n ih =>
      obtain ⟨m, rfl⟩ := Nat.exists_eq_succ_of_ne_zero (Nat.ne_zero_of_lt hnm)
      cases p with
      | known v => rfl
      | residual d =>
          have hchild : ∀ c ∈ e.children,
              GivesBack (reduceWithin env n) (reduceWithin env m) c := by
            intro c hc
            have hlt : c.depth < n := by
              have := depth_child_lt hc
              omega
            refine ⟨ih (hd.child hc) hlt (Nat.le_of_succ_le_succ hnm), fun {x} hx => ⟨x, ?_⟩⟩
            rw [← hx]
            exact reduceWithin_eq_of_depth (by omega) hlt
          rw [reduceWithin_succ] at h
          obtain hnode | ⟨c, hc, hcd⟩ := Plan.reduce_of_leaves
            (fun fields hf => hd fields (hf ▸ .root _)) hchild (Plan.leaves_of_reduce h)
          · rw [Nat.succ_eq_add_one, reduceWithin_succ]
            exact hnode
          · have hlt := depth_child_lt hc
            exact ih (hd.child hc) (by omega) (by omega) hcd

/-- Reducing a residual again on the same request changes nothing. -/
theorem reduce_residual_fixed {env : Env} {e d : Expr} (hd : e.DistinctFields)
    (hdepth : e.depth ≤ env.limits.maxDepth) (h : e.reduce env = .ok (.residual d)) :
    d.reduce env = .ok (.residual d) :=
  reduceWithin_toExpr hd (Nat.lt_succ_of_le hdepth) (Nat.le_refl _) h

/-- A conditional gives way to its first branch, which keeps a comparison that fails. -/
theorem reduce_residual_fixed_ite :
    reduce ⟨.unknown, .empty, ⟨3⟩⟩ (.ite (.bool true)
        (.and (.getAttr (.var .context) "open") (.binary .less (.long 1) (.bool true)))
        (.bool false)) =
      .ok (.residual
        (.and (.getAttr (.var .context) "open") (.binary .less (.long 1) (.bool true)))) ∧
    reduce ⟨.unknown, .empty, ⟨3⟩⟩
        (.and (.getAttr (.var .context) "open") (.binary .less (.long 1) (.bool true))) =
      .ok (.residual
        (.and (.getAttr (.var .context) "open") (.binary .less (.long 1) (.bool true)))) := by
  have hopen : DistinctFields (.getAttr (.var .context) "open") :=
    .of_children nofun (List.forall_mem_singleton.mpr (.of_leaf rfl))
  have hless : DistinctFields (.binary .less (.long 1) (.bool true)) :=
    .of_children nofun (List.forall_mem_cons.mpr
      ⟨.of_leaf rfl, List.forall_mem_singleton.mpr (.of_leaf rfl)⟩)
  have hand : DistinctFields (.and _ _) :=
    .of_children nofun (List.forall_mem_cons.mpr ⟨hopen, List.forall_mem_singleton.mpr hless⟩)
  have hite : DistinctFields (.ite (.bool true) _ (.bool false)) :=
    .of_children nofun (List.forall_mem_cons.mpr ⟨.of_leaf rfl, List.forall_mem_cons.mpr
      ⟨hand, List.forall_mem_singleton.mpr (.of_leaf rfl)⟩⟩)
  exact ⟨rfl, reduce_residual_fixed hite (by decide) rfl⟩

end Expr
end AccessPolicy
