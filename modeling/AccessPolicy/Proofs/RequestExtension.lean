import AccessPolicy.Proofs.PartialFolding

/-!
Reduction when more slots become known. A value that reduction has found and a
failure that it has met stay what they are on every request that extends the
first one; only residuals change.
-/

namespace AccessPolicy

namespace Request

theorem unknown_extends (r : Request) : unknown.Extends r := by
  intro var v h
  cases var <;> cases h

theorem isKnown_of_slots (principal action resource : EntityUid) (context : Record) (var : Var) :
    isKnown ⟨some principal, some action, some resource, some context⟩ var := by
  cases var <;> rfl

theorem get?_of_entitySlot {r : Request} {var : Var} {uid : EntityUid}
    (h : r.entitySlot var = some uid) : r.get? var = some (.entity uid) := by
  cases var with
  | context => cases h
  | principal | action | resource =>
      exact congrArg (Option.map Value.entity) h

theorem Extends.entitySlot {r s : Request} (h : r.Extends s) {var : Var} {uid : EntityUid}
    (hr : r.entitySlot var = some uid) : s.entitySlot var = some uid := by
  have hs := h var _ (get?_of_entitySlot hr)
  cases var with
  | context => cases hr
  | principal | action | resource => simpa [get?, Request.entitySlot] using hs

end Request

/-- A value of the first result is that of the second, and a failure of the
first, whichever it is, makes the second fail. -/
def Persists {π α : Type} (value? : π → Option α) (x y : Except EvalError π) : Prop :=
  match x with
  | .ok p => ∀ a, value? p = some a → y = .ok p
  | .error _ => ∃ z, y = .error z

namespace Persists

variable {π ρ α β : Type}

theorem refl {value? : π → Option α} (x : Except EvalError π) : Persists value? x x := by
  cases x with
  | error z => exact ⟨z, rfl⟩
  | ok p => exact fun _ _ => rfl

theorem of_open {value? : π → Option α} {p : π} (hp : value? p = none)
    (y : Except EvalError π) : Persists value? (.ok p) y := by
  intro a ha
  rw [hp] at ha
  cases ha

theorem bind {value? : π → Option α} {other? : ρ → Option β} {x y : Except EvalError π}
    {f g : π → Except EvalError ρ} (h : Persists value? x y)
    (hknown : ∀ p a, value? p = some a → Persists other? (f p) (g p))
    (hopen : ∀ p, value? p = none → ∃ q, f p = .ok q ∧ other? q = none) :
    Persists other? (x >>= f) (y >>= g) := by
  cases x with
  | error z =>
      obtain ⟨z', rfl⟩ := h
      exact ⟨z', rfl⟩
  | ok p =>
      cases hp : value? p with
      | some a =>
          cases h a hp
          exact hknown p a hp
      | none =>
          obtain ⟨q, hq, hnone⟩ := hopen p hp
          rw [Fallible.ok_bind, hq]
          exact of_open hnone _

theorem bind_value {other? : ρ → Option β} {x y : Except EvalError PartialValue}
    {f g : PartialValue → Except EvalError ρ} (h : Persists PartialValue.value? x y)
    (hknown : ∀ v, Persists other? (f (.known v)) (g (.known v)))
    (hopen : ∀ e, ∃ q, f (.residual e) = .ok q ∧ other? q = none) :
    Persists other? (x >>= f) (y >>= g) := by
  refine h.bind (fun p v hp => ?_) fun p hp => ?_
  · cases PartialValue.value?_eq_some_iff.mp hp
    exact hknown v
  · cases p with
    | known v => cases hp
    | residual e => exact hopen e

theorem mapM {f g : Expr → Except EvalError PartialValue} {args : List Expr}
    (h : ∀ d, Persists PartialValue.value? (f d) (g d)) :
    Persists PartialValue.values? (args.mapM f) (args.mapM g) := by
  cases hf : args.mapM f with
  | error z =>
      obtain ⟨d, hd, x, hx⟩ := Fallible.mapM_eq_error_iff.mp ⟨z, hf⟩
      have hg := h d
      rw [hx] at hg
      exact Fallible.mapM_eq_error_iff.mpr ⟨d, hd, hg⟩
  | ok ps =>
      intro vs hvs
      cases PartialValue.values?_eq_some_iff.mp hvs
      rw [Fallible.mapM_eq_ok_iff, List.forall₂_map_right_iff] at hf ⊢
      apply hf.imp
      intro d v hd
      have hg := h d
      rw [hd] at hg
      exact hg v rfl

end Persists

theorem Branch.reduce_persists {f g : Expr → Except EvalError PartialValue}
    (h : ∀ d, Persists PartialValue.value? (f d) (g d)) (v : Value) (resume : Expr → Expr)
    (next : Branch) :
    Persists PartialValue.value? (next.reduce f v resume) (next.reduce g v resume) := by
  cases next with
  | stop w => exact .refl _
  | go d finish => exact (h d).bind_value (fun w => .refl _) fun d => ⟨_, rfl, rfl⟩

theorem Plan.reduce_persists {r s : Request} (hrs : r.Extends s)
    {f g : Expr → Except EvalError PartialValue}
    (h : ∀ d, Persists PartialValue.value? (f d) (g d)) (e : Expr) (p : Plan) :
    Persists PartialValue.value? (p.reduce r e f) (p.reduce s e g) := by
  cases p with
  | value | fail => exact .refl _
  | slot x =>
      rw [Plan.reduce, Plan.reduce]
      cases hx : r.get? x with
      | some v =>
          rw [hrs x v hx]
          exact .refl _
      | none => exact .of_open rfl _
  | strict args op =>
      refine (Persists.mapM h).bind (fun ps vs hps => ?_) fun ps hps => ?_
      · rw [hps]
        exact .refl _
      · rw [hps]
        exact ⟨_, rfl, rfl⟩
  | branch guard test next =>
      refine (h guard).bind_value (fun v => ?_) fun g => ⟨_, rfl, rfl⟩
      dsimp only
      cases test v with
      | error x => exact .refl _
      | ok b => exact Branch.reduce_persists h v (e.resume v) (next b)

namespace Expr

variable {r s : Request} (hrs : r.Extends s) (store : Store) (limits : Limits)
include hrs

theorem reduceWithin_persists (n : Nat) (e : Expr) :
    Persists PartialValue.value? (reduceWithin ⟨r, store, limits⟩ n e)
      (reduceWithin ⟨s, store, limits⟩ n e) := by
  induction n generalizing e with
  | zero => exact .refl _
  | succ n ih =>
      rw [reduceWithin_succ, reduceWithin_succ]
      exact Plan.reduce_persists hrs ih e (e.plan store)

variable {n : Nat} {e : Expr}

theorem evalWithin_of_reduce_known {v : Value}
    (h : reduceWithin ⟨r, store, limits⟩ n e = .ok (.known v)) :
    evalWithin ⟨s, store, limits⟩ n e = .ok v := by
  have hs := reduceWithin_persists hrs store limits n e
  rw [h] at hs
  exact reduceWithin_eq_known_iff.mp (hs v rfl)

theorem evalWithin_of_reduce_error {x : EvalError}
    (h : reduceWithin ⟨r, store, limits⟩ n e = .error x) :
    ∃ y, evalWithin ⟨s, store, limits⟩ n e = .error y := by
  have hs := reduceWithin_persists hrs store limits n e
  rw [h] at hs
  obtain ⟨z, hz⟩ := hs
  cases he : evalWithin ⟨s, store, limits⟩ n e with
  | error y => exact ⟨y, rfl⟩
  | ok v =>
      rw [← reduceWithin_eq_known_iff, hz] at he
      cases he

end Expr
end AccessPolicy
