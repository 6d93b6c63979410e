import AccessPolicy.Proofs.ResidualConditions

/-!
How deep the residual condition of a policy is. The conditions of a policy are
evaluated each from the root, but the residual joins its conjuncts from the left
and negates the bodies that have to be false, so that it may run into a depth
limit that the policy keeps. One level for each conjunct makes up for this.
-/

namespace AccessPolicy

namespace Expr

/-- Two members of a list of tests may be joined if one level is added. -/
theorem allHold_approximates_and (env : Env) (n : Nat) (d e : Expr) (es : List Expr) :
    Approximates (allHold (evalBoolWithin env n) (d :: e :: es))
      (allHold (evalBoolWithin env (n + 1)) (.and d e :: es)) := by
  have hrest : Approximates (allHold (evalBoolWithin env n) es)
      (allHold (evalBoolWithin env (n + 1)) es) :=
    .allHold fun c _ => evalBoolWithin_approximates rfl rfl n.le_succ c
  have hjoined : allHold (evalBoolWithin env (n + 1)) (.and d e :: es) = do
      if ← allHold (evalBoolWithin env n) [d, e] then allHold (evalBoolWithin env (n + 1)) es
      else return false := by
    rw [allHold, evalBoolWithin_and]
  have hlist : d :: e :: es = [d, e] ++ es := rfl
  rw [hjoined, hlist, allHold_append]
  apply (Approximates.refl _).bind
  intro b _
  cases b with
  | true => exact hrest
  | false => exact .refl _

/-- A conjunction needs one level for each member but the last, besides what its
members need. -/
theorem allHold_approximates_conjunction (env env' : Env) (hr : env'.request = env.request)
    (hs : env'.store = env.store) {n m : Nat} (hm : m ≠ 0) (es : List Expr)
    (h : n + es.length ≤ m + 1) :
    Approximates (allHold (evalBoolWithin env n) es) (evalBoolWithin env' m (conjunction es)) := by
  cases es with
  | nil =>
      obtain ⟨m, rfl⟩ := Nat.exists_eq_succ_of_ne_zero hm
      exact .refl _
  | cons e es =>
      rw [conjunction]
      induction es generalizing e n with
      | nil =>
          rw [List.foldl_nil, allHold_singleton]
          exact evalBoolWithin_approximates hr hs (Nat.le_of_succ_le_succ h) e
      | cons d es ih =>
          rw [List.foldl_cons]
          apply (allHold_approximates_and env n e d es).trans
          apply ih
          simp only [List.length_cons] at h ⊢
          omega

end Expr

section

variable {r s : Request} (hrs : r.Extends s) (store : Store) (limits : Limits)
include hrs

/-- Where a policy keeps the depth limit, its residual condition keeps every
limit that has room for its conjuncts besides, and then has the outcome of the
policy. -/
theorem Policy.residual_within_added_depth (hs : ∀ var, s.isKnown var) {p : Policy}
    (hd : p.DistinctFields) {d : Expr} (h : p.partialOutcome ⟨r, store, limits⟩ = .residual d)
    (hp : ¬ (p.outcome ⟨s, store, limits⟩).TooDeep) :
    ∃ es, d = .conjunction es ∧
      es.length ≤ (Scope.openConjuncts r p.scope.constraints).length + p.conditions.length ∧
      ∀ limits' : Limits, limits.maxDepth + es.length ≤ limits'.maxDepth →
        ¬ TooDeep (d.eval ⟨s, store, limits'⟩) ∧
        p.outcome ⟨s, store, limits⟩ = .ofHolds (d.evalBool ⟨s, store, limits'⟩) := by
  obtain ⟨es, rfl, hlen, hpolicy⟩ :=
    p.conjuncts_of_residual hrs store limits hs hd h (Nat.le_refl _)
  refine ⟨es, rfl, hlen, fun limits' hlimits => ?_⟩
  have hdepth : limits.maxDepth + 2 + es.length ≤ limits'.maxDepth + 1 + 1 := by omega
  have hconjunction : Approximates
      (allHold (Expr.evalBoolWithin ⟨s, store, limits⟩ (limits.maxDepth + 2)) es)
      (Expr.evalBool ⟨s, store, limits'⟩ (.conjunction es)) :=
    Expr.allHold_approximates_conjunction ⟨s, store, limits⟩ ⟨s, store, limits'⟩ rfl rfl
      (Nat.succ_ne_zero _) es hdepth
  rw [outcome_eq_ofHolds] at hp ⊢
  rw [Outcome.ofHolds_tooDeep_iff] at hp
  have heq := (hpolicy.trans hconjunction).eq_of_not_tooDeep hp
  refine ⟨fun hdeep => hp ?_, by rw [heq]⟩
  rw [← heq]
  exact hdeep.bind _

end

/-- A policy with two conditions, of which the first has to be false. -/
theorem Policy.residual_within_added_depth_unlocked :
    Request.unknown.Extends
      ⟨some ⟨⟨"User"⟩, "alice"⟩, some ⟨⟨"Action"⟩, "read"⟩, some ⟨⟨"Doc"⟩, "plan"⟩,
        some [("locked", .bool false), ("open", .bool true)]⟩ ∧
    ¬ TooDeep (Expr.eval
      ⟨⟨some ⟨⟨"User"⟩, "alice"⟩, some ⟨⟨"Action"⟩, "read"⟩, some ⟨⟨"Doc"⟩, "plan"⟩,
        some [("locked", .bool false), ("open", .bool true)]⟩, .empty, ⟨3⟩⟩
      (.and (.not (.getAttr (.var .context) "locked")) (.getAttr (.var .context) "open"))) := by
  have hext := Request.unknown_extends
    ⟨some ⟨⟨"User"⟩, "alice"⟩, some ⟨⟨"Action"⟩, "read"⟩, some ⟨⟨"Doc"⟩, "plan"⟩,
      some [("locked", .bool false), ("open", .bool true)]⟩
  have hbody (attr : String) : Expr.DistinctFields (.getAttr (.var .context) attr) :=
    .of_children nofun (List.forall_mem_singleton.mpr (.of_leaf rfl))
  have hd : Policy.DistinctFields
      { id := ⟨"p"⟩, effect := .permit
        conditions := [⟨.whenFalse, .getAttr (.var .context) "locked"⟩,
          ⟨.whenTrue, .getAttr (.var .context) "open"⟩] } :=
    List.forall_mem_cons.mpr ⟨hbody "locked", List.forall_mem_singleton.mpr (hbody "open")⟩
  obtain ⟨es, -, hlen, hes⟩ := residual_within_added_depth hext .empty ⟨1⟩
    (Request.isKnown_of_slots _ _ _ _) hd rfl (by rintro ⟨max, h⟩; cases h)
  exact ⟨hext, (hes ⟨3⟩ (Nat.add_le_add_left hlen 1)).1⟩

/-- Residual conditions do not fit into the depth limits of their policies. -/
theorem Policy.residual_beyond_depth :
    ¬ ∀ (p : Policy) (store : Store) (limits : Limits) (r s : Request) (d : Expr),
      r.Extends s → (∀ var, s.isKnown var) → p.partialOutcome ⟨r, store, limits⟩ = .residual d →
      ¬ (p.outcome ⟨s, store, limits⟩).TooDeep → ¬ TooDeep (d.eval ⟨s, store, limits⟩) := by
  intro h
  refine h
    { id := ⟨"p"⟩, effect := .permit
      conditions := [⟨.whenFalse, .getAttr (.var .context) "locked"⟩,
        ⟨.whenTrue, .getAttr (.var .context) "open"⟩] }
    .empty ⟨1⟩ .unknown
    ⟨some ⟨⟨"User"⟩, "alice"⟩, some ⟨⟨"Action"⟩, "read"⟩, some ⟨⟨"Doc"⟩, "plan"⟩,
      some [("locked", .bool false), ("open", .bool true)]⟩
    _ (Request.unknown_extends _) (Request.isKnown_of_slots _ _ _ _) rfl ?_ ⟨1, rfl⟩
  rintro ⟨max, h⟩
  cases h

end AccessPolicy
