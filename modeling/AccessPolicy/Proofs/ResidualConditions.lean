import AccessPolicy.Proofs.ConditionClauses
import AccessPolicy.Proofs.PolicyOutcome
import AccessPolicy.Proofs.ResidualSoundness

/-!
Residual conditions of policies mean what the policies mean. The outcome of a
policy and its residual condition both come down to one list of tests: the
conditions in turn after the scope, and the conjuncts in turn. Both are cut off
by a depth limit of their own, and where neither is, they agree.
-/

namespace AccessPolicy

namespace Outcome

/-- The outcome of a policy that is satisfied where a test passes. -/
def ofHolds : Except EvalError Bool → Outcome
  | .ok true => .satisfied
  | .ok false => .notSatisfied
  | .error x => .errored x

/-- Some condition ran into the depth limit. -/
def TooDeep (o : Outcome) : Prop := ∃ max, o = .errored (.recursionLimit max)

theorem ofHolds_inj (x y : Except EvalError Bool) : ofHolds x = ofHolds y ↔ x = y := by
  constructor
  · intro h
    cases x with
    | error e =>
        cases y with
        | error e' => exact congrArg Except.error (errored.inj h)
        | ok b => cases b <;> cases h
    | ok b =>
        cases y with
        | error e => cases b <;> cases h
        | ok b' => cases b <;> cases b' <;> first | rfl | cases h
  · intro h
    rw [h]

theorem ofHolds_tooDeep_iff {x : Except EvalError Bool} :
    (ofHolds x).TooDeep ↔ AccessPolicy.TooDeep x :=
  exists_congr fun max => ofHolds_inj x (.error (.recursionLimit max))

end Outcome

namespace Condition

/-- Does the body have the value that the condition asks for? -/
def isMet (env : Env) (c : Condition) : Except EvalError Bool :=
  (· == c.kind.required) <$> c.body.evalBool env

theorem outcome_eq_ofHolds (env : Env) (cs : List Condition) :
    outcome env cs = .ofHolds (allHold (isMet env) cs) := by
  induction cs with
  | nil => rfl
  | cons c cs ih =>
      rw [outcome, allHold, isMet]
      cases c.body.evalBool env with
      | error x => rfl
      | ok b =>
          by_cases hb : b = c.kind.required
          · simp [hb, ih]
          · simp [hb, Outcome.ofHolds]

end Condition

namespace Policy

/-- No record expression in a condition gives a name twice. -/
def DistinctFields (p : Policy) : Prop := ∀ c ∈ p.conditions, c.body.DistinctFields

theorem outcome_eq_ofHolds (env : Env) (p : Policy) :
    p.outcome env = .ofHolds (if p.scope.admits env.store env.request then
      allHold (Condition.isMet env) p.conditions else .ok false) := by
  rw [outcome]
  cases p.scope.admits env.store env.request with
  | true => exact Condition.outcome_eq_ofHolds env p.conditions
  | false => rfl

end Policy

theorem Condition.isMet_approximates {env : Env} {c : Condition} {e : Expr}
    (h : Approximates (c.body.eval env) (e.eval env)) {n : Nat} (hn : env.budget < n) :
    Approximates (c.isMet env) ((c.clause e).evalBoolWithin env n) := by
  have hbody : Approximates (c.isMet env)
      ((· == c.kind.required) <$> e.evalBoolWithin env env.budget) :=
    (h.bind fun v _ => .refl _).map _
  have hclause := hbody.trans (c.clause_approximates env env.budget e)
  exact hclause.trans (Expr.evalBoolWithin_approximates rfl rfl hn _)

section

variable {r s : Request} (hrs : r.Extends s) (store : Store) (limits : Limits)
include hrs

theorem Scope.allHold_openConjunct {var : Var} {c : Constraint} {uid : EntityUid}
    (hs : s.entitySlot var = some uid)
    (hr : ∀ uid, r.entitySlot var = some uid → c.admits store (some uid)) (n : Nat) :
    allHold (Expr.evalBoolWithin ⟨s, store, limits⟩ (n + 2)) (openConjuncts r [(var, c)]) =
      .ok (c.admits store (some uid)) := by
  rw [openConjuncts, List.flatMap_singleton]
  cases hopen : r.entitySlot var with
  | some uid' =>
      have heq := hrs.entitySlot hopen
      rw [hs] at heq
      cases heq
      rw [hr uid hopen]
      rfl
  | none =>
      cases he : c.toExpr? var with
      | none =>
          rw [Constraint.toExpr?_eq_none_iff.mp he]
          rfl
      | some e =>
          change allHold (Expr.evalBoolWithin ⟨s, store, limits⟩ (n + 2)) [e] = _
          rw [allHold_singleton]
          exact Constraint.evalBoolWithin_toExpr? hs he n

theorem Scope.allHold_openConjuncts {ds : List (Var × Constraint)}
    (hs : ∀ d ∈ ds, ∃ uid, s.entitySlot d.1 = some uid)
    (hr : ∀ d ∈ ds, ∀ uid, r.entitySlot d.1 = some uid → d.2.admits store (some uid)) (n : Nat) :
    allHold (Expr.evalBoolWithin ⟨s, store, limits⟩ (n + 2)) (openConjuncts r ds) =
      .ok (ds.all fun d => d.2.admits store (s.entitySlot d.1)) := by
  induction ds with
  | nil => rfl
  | cons d ds ih =>
      obtain ⟨⟨uid, hslot⟩, hs⟩ := List.forall_mem_cons.mp hs
      obtain ⟨hd, hr⟩ := List.forall_mem_cons.mp hr
      have happend : openConjuncts r (d :: ds) = openConjuncts r [d] ++ openConjuncts r ds := by
        rw [openConjuncts, openConjuncts, openConjuncts, List.flatMap_cons, List.flatMap_singleton]
      rw [happend, allHold_append, allHold_openConjunct hrs store limits hslot hd, ih hs hr,
        List.all_cons, hslot, Fallible.ok_bind]
      cases d.2.admits store (some uid) <;> rfl

/-- A conjunction of the conditions that are left tests what all of them test. -/
theorem Condition.conjunction_of_residual {es : List Expr} {cs : List Condition} {d : Expr}
    (hd : ∀ c ∈ cs, c.body.DistinctFields)
    (h : partialOutcome ⟨r, store, limits⟩ es cs = .residual d)
    {n : Nat} (hn : limits.maxDepth + 1 < n) :
    ∃ fs, d = .conjunction (es ++ fs) ∧ fs.length ≤ cs.length ∧
      Approximates (allHold (isMet ⟨s, store, limits⟩) cs)
        (allHold (Expr.evalBoolWithin ⟨s, store, limits⟩ n) fs) := by
  induction cs generalizing es with
  | nil =>
      rw [partialOutcome] at h
      cases es with
      | nil => cases h
      | cons e es => cases h; exact ⟨[], by rw [List.append_nil], Nat.le_refl _, .refl _⟩
  | cons c cs ih =>
      obtain ⟨hc, hcs⟩ := List.forall_mem_cons.mp hd
      have hpersists := c.reduceBody_persists hrs store limits
      -- the clause of a body that comes to the same as the body of the condition
      have hkept {e : Expr} (he : Approximates (c.isMet ⟨s, store, limits⟩)
          ((c.clause e).evalBoolWithin ⟨s, store, limits⟩ n))
          (h : partialOutcome ⟨r, store, limits⟩ (es ++ [c.clause e]) cs = .residual d) :
          ∃ fs, d = .conjunction (es ++ fs) ∧ fs.length ≤ (c :: cs).length ∧
            Approximates (allHold (isMet ⟨s, store, limits⟩) (c :: cs))
              (allHold (Expr.evalBoolWithin ⟨s, store, limits⟩ n) fs) := by
        obtain ⟨fs, rfl, hlen, hfs⟩ := ih hcs h
        exact ⟨c.clause e :: fs, by rw [List.append_assoc, List.singleton_append],
          Nat.succ_le_succ hlen, he.allHold_cons hfs⟩
      rw [partialOutcome] at h
      cases hr : c.reduceBody ⟨r, store, limits⟩ with
      | error x =>
          rw [hr] at h
          cases es with
          | nil => cases h
          | cons e es => exact hkept (isMet_approximates (.refl _) hn) h
      | ok t =>
          rw [hr] at h hpersists
          cases t with
          | inr e =>
              have he := Expr.evalWithin_toExpr hrs store limits hc (reduceBody_eq_inr_iff.mp hr)
              exact hkept (isMet_approximates he hn) h
          | inl b =>
              have hbody := reduceBody_eq_inl_iff.mp (hpersists b rfl)
              dsimp only at h
              split at h
              · next hb =>
                  obtain ⟨fs, rfl, hlen, hfs⟩ := ih hcs h
                  refine ⟨fs, rfl, Nat.le_succ_of_le hlen, ?_⟩
                  have hmet : c.isMet ⟨s, store, limits⟩ = .ok true := by
                    rw [isMet, hbody, hb, Fallible.map_ok, beq_self_eq_true]
                  rw [allHold, hmet]
                  exact hfs
              · cases h

/-- The residual condition joins at most one conjunct for each unknown slot and
each condition, and the conjuncts test what the policy asks for. -/
theorem Policy.conjuncts_of_residual (hs : ∀ var, s.isKnown var) {p : Policy}
    (hd : p.DistinctFields) {d : Expr} (h : p.partialOutcome ⟨r, store, limits⟩ = .residual d)
    {n : Nat} (hn : limits.maxDepth ≤ n) :
    ∃ es, d = .conjunction es ∧
      es.length ≤ (Scope.openConjuncts r p.scope.constraints).length + p.conditions.length ∧
      Approximates
        (if p.scope.admits store s then
          allHold (Condition.isMet ⟨s, store, limits⟩) p.conditions else .ok false)
        (allHold (Expr.evalBoolWithin ⟨s, store, limits⟩ (n + 2)) es) := by
  rw [partialOutcome] at h
  cases hes : Scope.conjuncts? ⟨r, store, limits⟩ p.scope.constraints with
  | none => rw [hes] at h; cases h
  | some es =>
      rw [hes] at h
      obtain ⟨hr, rfl⟩ := Scope.conjuncts?_eq_some_iff.mp hes
      have hslots := p.scope.entitySlot_of_isKnown hs
      have hscope := Scope.allHold_openConjuncts hrs store limits hslots hr n
      obtain ⟨fs, rfl, hlen, hfs⟩ :=
        Condition.conjunction_of_residual hrs store limits hd h (n := n + 2) (by omega)
      refine ⟨_, rfl, by rw [List.length_append]; exact Nat.add_le_add_left hlen _, ?_⟩
      rw [allHold_append, hscope, ← Scope.admits_eq, Fallible.ok_bind]
      cases p.scope.admits store s with
      | true => exact hfs
      | false => exact .refl _

/-- The residual condition of a policy has the outcome of the policy, on every
request that leaves nothing unknown and under every depth limit that neither
runs into. -/
theorem Policy.outcome_of_residual (hs : ∀ var, s.isKnown var) {p : Policy}
    (hd : p.DistinctFields) {d : Expr} (h : p.partialOutcome ⟨r, store, limits⟩ = .residual d)
    {limits' : Limits} (hp : ¬ (p.outcome ⟨s, store, limits⟩).TooDeep)
    (he : ¬ TooDeep (d.evalBool ⟨s, store, limits'⟩)) :
    p.outcome ⟨s, store, limits⟩ = .ofHolds (d.evalBool ⟨s, store, limits'⟩) := by
  rw [outcome_eq_ofHolds] at hp ⊢
  rw [Outcome.ofHolds_tooDeep_iff] at hp
  -- a budget that is enough for both sides
  obtain ⟨n, hn, hn'⟩ : ∃ n, limits.maxDepth ≤ n ∧ limits'.maxDepth + 1 ≤ n + 2 :=
    ⟨max limits.maxDepth limits'.maxDepth, by omega, by omega⟩
  obtain ⟨es, rfl, -, hpolicy⟩ := p.conjuncts_of_residual hrs store limits hs hd h hn
  have hresidual : Approximates (Expr.evalBool ⟨s, store, limits'⟩ (.conjunction es))
      (allHold (Expr.evalBoolWithin ⟨s, store, limits⟩ (n + 2)) es) :=
    Expr.conjunction_approximates ⟨s, store, limits'⟩ ⟨s, store, limits⟩ rfl rfl hn' es
  rw [← hpolicy.eq_of_not_tooDeep hp, hresidual.eq_of_not_tooDeep he]

end
end AccessPolicy
