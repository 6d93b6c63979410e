import AccessPolicy.Proofs.EvaluationPlan

/-!
Reduction and evaluation on one and the same request. Reduction finds a value
exactly when evaluation does, and both report the same failure unless evaluation
asked for an unknown slot first. On a request without unknown slots they
therefore coincide.
-/

namespace AccessPolicy

/-- The evaluation asked for an unknown slot of the request. -/
def Unbound {α : Type} (r : Request) (x : Except EvalError α) : Prop :=
  ∃ var, r.get? var = none ∧ x = .error (.unboundVariable var)

theorem Unbound.bind {α β : Type} {r : Request} {x : Except EvalError α} (h : Unbound r x)
    (f : α → Except EvalError β) : Unbound r (x >>= f) := by
  obtain ⟨var, hvar, rfl⟩ := h
  exact ⟨var, hvar, rfl⟩

/-- The first result is the second one as far as the slots are known, where
`value?` tells what is known of it. -/
def Folds {π α : Type} (r : Request) (value? : π → Option α) :
    Except EvalError π → Except EvalError α → Prop
  | .ok p, y =>
    match value? p with
    | some a => y = .ok a
    | none => Unbound r y
  | .error x, y => y = .error x ∨ Unbound r y

namespace PartialValue

theorem value?_eq_some_iff {p : PartialValue} {v : Value} : p.value? = some v ↔ p = known v := by
  cases p <;> simp [value?]

theorem values?_cons (p : PartialValue) (ps : List PartialValue) :
    values? (p :: ps) = p.value?.bind fun v => (values? ps).map (v :: ·) := by
  rw [values?, List.mapM_cons]
  cases p.value? <;> cases h : ps.mapM value? <;> simp [values?, h]

theorem values?_eq_some_iff {ps : List PartialValue} {vs : List Value} :
    values? ps = some vs ↔ ps = vs.map known := by
  induction ps generalizing vs with
  | nil => cases vs <;> simp [values?]
  | cons p ps ih =>
      rw [values?_cons]
      cases p with
      | residual => cases vs <;> simp [value?]
      | known v => cases vs <;> simp [value?, ih, and_comm]

end PartialValue

namespace Folds

variable {π ρ α β : Type} {r : Request}

theorem of_known {value? : π → Option α} {p : π} {a : α} (h : value? p = some a) :
    Folds r value? (.ok p) (.ok a) := by
  simp [Folds, h]

theorem of_unbound {value? : π → Option α} {x : Except EvalError π} {y : Except EvalError α}
    (hy : Unbound r y) (hx : ∀ p, x = .ok p → value? p = none) : Folds r value? x y := by
  cases x with
  | error z => exact .inr hy
  | ok p => simpa [Folds, hx p rfl] using hy

theorem known (y : Except EvalError Value) :
    Folds r PartialValue.value? (PartialValue.known <$> y) y := by
  cases y with
  | error z => exact .inl rfl
  | ok v => exact .of_known rfl

theorem bind {value? : π → Option α} {other? : ρ → Option β} {x : Except EvalError π}
    {y : Except EvalError α} {f : π → Except EvalError ρ} {g : α → Except EvalError β}
    (h : Folds r value? x y)
    (hknown : ∀ p a, value? p = some a → Folds r other? (f p) (g a))
    (hopen : ∀ p, value? p = none → ∀ q, f p = .ok q → other? q = none) :
    Folds r other? (x >>= f) (y >>= g) := by
  cases x with
  | error z =>
      rcases h with rfl | hy
      · exact .inl rfl
      · exact .inr (hy.bind g)
  | ok p =>
      cases hp : value? p with
      | some a =>
          rw [Folds, hp] at h
          subst h
          exact hknown p a hp
      | none =>
          rw [Folds, hp] at h
          exact .of_unbound (h.bind g) (hopen p hp)

theorem bind_value {other? : ρ → Option β} {x : Except EvalError PartialValue}
    {y : Except EvalError Value} {f : PartialValue → Except EvalError ρ}
    {g : Value → Except EvalError β} (h : Folds r PartialValue.value? x y)
    (hknown : ∀ v, Folds r other? (f (.known v)) (g v))
    (hopen : ∀ e q, f (.residual e) = .ok q → other? q = none) :
    Folds r other? (x >>= f) (y >>= g) := by
  refine h.bind (fun p v hp => ?_) fun p hp => ?_
  · cases PartialValue.value?_eq_some_iff.mp hp
    exact hknown v
  · cases p with
    | known v => cases hp
    | residual e => exact hopen e

/-- Both results have the same value, where `embed` makes a known result of one. -/
theorem eq_ok_iff {value? : π → Option α} {embed : α → π} {x : Except EvalError π}
    {y : Except EvalError α} (h : Folds r value? x y)
    (hembed : ∀ p a, value? p = some a ↔ p = embed a) {a : α} :
    x = .ok (embed a) ↔ y = .ok a := by
  have ha := (hembed (embed a) a).mpr rfl
  constructor
  · intro hx
    rw [hx, Folds, ha] at h
    exact h
  · intro hy
    subst hy
    cases x with
    | error z => rcases h with h | ⟨_, _, h⟩ <;> cases h
    | ok p =>
        rw [Folds] at h
        cases hp : value? p with
        | none =>
            rw [hp] at h
            obtain ⟨_, _, h⟩ := h
            cases h
        | some b =>
            rw [hp] at h
            cases h
            rw [(hembed p _).mp hp]

/-- A failure that is not about an unknown slot is the same on both sides. -/
theorem eq_error {value? : π → Option α} {x : Except EvalError π} {z : EvalError}
    (h : Folds r value? x (.error z)) (bound : ¬ Unbound r (.error z : Except EvalError α)) :
    x = .error z := by
  cases x with
  | error x => cases h.resolve_right bound; rfl
  | ok p =>
      rw [Folds] at h
      cases hp : value? p with
      | none => rw [hp] at h; exact absurd h bound
      | some a => rw [hp] at h; cases h

theorem eq_map {value? : π → Option α} {embed : α → π} {x : Except EvalError π}
    {y : Except EvalError α} (h : Folds r value? x y) (hr : ∀ var, r.isKnown var)
    (hembed : ∀ p a, value? p = some a ↔ p = embed a) : x = embed <$> y := by
  have bound : ¬ Unbound r y := by
    intro hy
    obtain ⟨var, hvar, _⟩ := hy
    have hknown := hr var
    rw [Request.isKnown, hvar] at hknown
    cases hknown
  cases y with
  | ok a => exact (h.eq_ok_iff hembed).mpr rfl
  | error z => exact h.eq_error bound

theorem mapM {f : Expr → Except EvalError PartialValue} {g : Expr → Except EvalError Value}
    (h : ∀ d, Folds r PartialValue.value? (f d) (g d)) (args : List Expr) :
    Folds r PartialValue.values? (args.mapM f) (args.mapM g) := by
  induction args with
  | nil => exact .of_known rfl
  | cons d args ih =>
      rw [List.mapM_cons, List.mapM_cons]
      refine (h d).bind (fun p v hp => ih.bind (fun ps vs hps => ?_) ?_) ?_
      · exact .of_known (by rw [PartialValue.values?_cons, hp, hps]; rfl)
      · intro ps hps qs hqs
        cases hqs
        rw [PartialValue.values?_cons, hp, hps]
        rfl
      · intro p hp qs hqs
        cases hs : args.mapM f with
        | error z => rw [hs] at hqs; cases hqs
        | ok ps =>
            rw [hs] at hqs
            cases hqs
            rw [PartialValue.values?_cons, hp]
            rfl

end Folds

theorem Branch.reduce_folds {r : Request} {f : Expr → Except EvalError PartialValue}
    {g : Expr → Except EvalError Value} (h : ∀ d, Folds r PartialValue.value? (f d) (g d))
    (v : Value) (resume : Expr → Expr) (next : Branch) :
    Folds r PartialValue.value? (next.reduce f v resume) (next.run g v) := by
  cases next with
  | stop w => exact .of_known rfl
  | go d finish =>
      refine (h d).bind_value (fun w => .known (finish v w)) ?_
      intro d q hq
      cases hq
      rfl

theorem Plan.reduce_folds {r : Request} {f : Expr → Except EvalError PartialValue}
    {g : Expr → Except EvalError Value} (h : ∀ d, Folds r PartialValue.value? (f d) (g d))
    (e : Expr) (p : Plan) :
    Folds r PartialValue.value? (p.reduce r e f) (p.run r g) := by
  cases p with
  | value v => exact .of_known rfl
  | fail x => exact .inl rfl
  | slot x =>
      rw [Plan.reduce, Plan.run, Request.lookup]
      cases hx : r.get? x with
      | some v => exact .of_known rfl
      | none => exact .of_unbound ⟨x, hx, rfl⟩ fun p hp => by cases hp; rfl
  | strict args op =>
      refine (Folds.mapM h args).bind (fun ps vs hps => ?_) fun ps hps => ?_
      · rw [hps]
        exact .known (op vs)
      · rw [hps]
        intro q hq
        cases hq
        rfl
  | branch guard test next =>
      refine (h guard).bind_value (fun v => ?_) ?_
      · dsimp only
        cases test v with
        | error x => exact .inl rfl
        | ok b => exact Branch.reduce_folds h v (e.resume v) (next b)
      · intro g q hq
        cases hq
        rfl

namespace Expr

theorem reduceWithin_folds (env : Env) (n : Nat) (e : Expr) :
    Folds env.request PartialValue.value? (reduceWithin env n e) (evalWithin env n e) := by
  induction n generalizing e with
  | zero => exact .inl rfl
  | succ n ih =>
      rw [evalWithin_succ, reduceWithin_succ]
      exact Plan.reduce_folds ih e (e.plan env.store)

theorem reduceWithin_eq_known_iff {env : Env} {n : Nat} {e : Expr} {v : Value} :
    reduceWithin env n e = .ok (.known v) ↔ evalWithin env n e = .ok v :=
  (reduceWithin_folds env n e).eq_ok_iff fun _ _ => PartialValue.value?_eq_some_iff

/-- Where nothing is unknown, reduction is evaluation. -/
theorem reduceWithin_of_isKnown {env : Env} (h : ∀ var, env.request.isKnown var) (n : Nat)
    (e : Expr) : reduceWithin env n e = .known <$> evalWithin env n e :=
  (reduceWithin_folds env n e).eq_map h fun _ _ => PartialValue.value?_eq_some_iff

/-- Reduction gives a value exactly where evaluation on the same request does,
and it reports every failure of evaluation except that a slot is unknown. -/
theorem reduce_folds_eval (env : Env) (e : Expr) :
    (∀ v, e.reduce env = .ok (.known v) ↔ e.eval env = .ok v) ∧
      ∀ x, e.eval env = .error x → (∀ var, x ≠ .unboundVariable var) →
        e.reduce env = .error x := by
  refine ⟨fun v => reduceWithin_eq_known_iff, fun x hx hbound => ?_⟩
  have hfolds := reduceWithin_folds env env.budget e
  have heval : evalWithin env env.budget e = .error x := hx
  rw [heval] at hfolds
  refine hfolds.eq_error fun hunbound => ?_
  obtain ⟨var, _, hvar⟩ := hunbound
  exact hbound var (Except.error.inj hvar)

theorem reduce_folds_eval_record :
    eval ⟨⟨some ⟨⟨"User"⟩, "alice"⟩, none, none, none⟩, .empty, ⟨2⟩⟩
        (.record [("who", .var .principal), ("who", .getAttr (.bool true) "team"),
          ("where", .var .resource)]) =
      .error (.attributeAccess "team" "expected a record or entity, got bool") ∧
    reduce ⟨⟨some ⟨⟨"User"⟩, "alice"⟩, none, none, none⟩, .empty, ⟨2⟩⟩
        (.record [("who", .var .principal), ("who", .getAttr (.bool true) "team"),
          ("where", .var .resource)]) =
      .error (.attributeAccess "team" "expected a record or entity, got bool") :=
  ⟨rfl, (reduce_folds_eval _ _).2 _ rfl nofun⟩

end Expr
end AccessPolicy
