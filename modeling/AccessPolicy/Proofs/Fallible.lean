import Mathlib.Data.List.Forall2

/-!
Computations that may fail: how a failure or a result passes through a sequence
of steps and through the traversal of a list, and how two computations go side
by side.
-/

namespace AccessPolicy
namespace Fallible

variable {ε α β γ : Type}

@[simp] theorem pure_eq_ok (a : α) : (pure a : Except ε α) = .ok a := rfl

@[simp] theorem ok_bind (a : α) (f : α → Except ε β) : (Except.ok a >>= f) = f a := rfl

@[simp] theorem error_bind (x : ε) (f : α → Except ε β) :
    ((Except.error x : Except ε α) >>= f) = .error x := rfl

@[simp] theorem map_ok (f : α → β) (a : α) : f <$> (Except.ok a : Except ε α) = .ok (f a) := rfl

@[simp] theorem map_error (f : α → β) (x : ε) :
    f <$> (Except.error x : Except ε α) = .error x := rfl

@[simp] theorem bind_ok (x : Except ε α) (f : α → β) : (x >>= fun a => .ok (f a)) = f <$> x :=
  bind_pure_comp f x

@[simp] theorem bind_ok_self (x : Except ε α) : (x >>= fun a => .ok a) = x := bind_pure x

theorem eq_ok_of_bind {x : Except ε α} {f : α → Except ε β} {b : β} (h : x >>= f = .ok b) :
    ∃ a, x = .ok a ∧ f a = .ok b := by
  cases x with
  | error y => cases h
  | ok a => exact ⟨a, rfl, h⟩

/-- A traversal succeeds when every member does. -/
theorem mapM_eq_ok_iff {f : α → Except ε β} {as : List α} {bs : List β} :
    as.mapM f = .ok bs ↔ List.Forall₂ (fun a b => f a = .ok b) as bs := by
  induction as generalizing bs with
  | nil => cases bs <;> simp
  | cons a as ih =>
      rw [List.mapM_cons]
      cases ha : f a with
      | error x => cases bs <;> simp [ha]
      | ok b =>
          cases hs : as.mapM f with
          | error x => cases bs <;> simp [ha, ← ih, hs]
          | ok cs => cases bs <;> simp [ha, ← ih, hs]

/-- A traversal fails when some member does. -/
theorem mapM_eq_error_iff {f : α → Except ε β} {as : List α} :
    (∃ x, as.mapM f = .error x) ↔ ∃ a ∈ as, ∃ x, f a = .error x := by
  induction as with
  | nil => simp
  | cons a as ih =>
      rw [List.mapM_cons]
      cases ha : f a with
      | error x => simp [ha]
      | ok b =>
          cases hs : as.mapM f with
          | error x => simpa [ha, hs] using ih
          | ok cs => simpa [ha, hs] using ih

theorem mapM_congr {f g : α → Except ε β} {as : List α} (h : ∀ a ∈ as, f a = g a) :
    as.mapM f = as.mapM g := by
  induction as with
  | nil => rfl
  | cons a as ih =>
      obtain ⟨ha, has⟩ := List.forall_mem_cons.mp h
      rw [List.mapM_cons, List.mapM_cons, ha, ih has]

theorem exists_eq_ok_iff {x : Except ε α} : (∃ a, x = .ok a) ↔ ¬ ∃ y, x = .error y := by
  cases x <;> simp

theorem exists_mapM_eq_ok_iff {f : α → Except ε β} {as : List α} :
    (∃ bs, as.mapM f = .ok bs) ↔ ∀ a ∈ as, ∃ b, f a = .ok b := by
  simp only [exists_eq_ok_iff, mapM_eq_error_iff, not_exists, not_and]

/-- The traversal of fields keeps their names beside the results. -/
theorem mapM_fields (f : α → Except ε β) (fields : List (γ × α)) :
    (fields.mapM fun d => return (d.1, ← f d.2)) =
      (fields.map Prod.snd).mapM f >>= fun bs => pure ((fields.map Prod.fst).zip bs) := by
  induction fields with
  | nil => rfl
  | cons d fields ih =>
      simp only [List.mapM_cons, List.map_cons, ih, bind_assoc, pure_bind, List.zip_cons_cons]

/-- The result has the property, if there is one. -/
def Gives (P : α → Prop) (x : Except ε α) : Prop := ∀ a, x = .ok a → P a

namespace Gives

variable {P : α → Prop} {Q : β → Prop}

theorem ok {a : α} (h : P a) : Gives P (.ok a : Except ε α) := by
  intro b hb
  cases hb
  exact h

theorem error (x : ε) : Gives P (.error x : Except ε α) := nofun

theorem bind {x : Except ε α} {f : α → Except ε β} (hx : Gives P x)
    (hf : ∀ a, P a → Gives Q (f a)) : Gives Q (x >>= f) := by
  intro b hb
  obtain ⟨a, ha, hfa⟩ := eq_ok_of_bind hb
  exact hf a (hx a ha) b hfa

theorem bind_any (x : Except ε α) {f : α → Except ε β} (hf : ∀ a, Gives Q (f a)) :
    Gives Q (x >>= f) :=
  bind (P := fun _ => True) (fun _ _ => trivial) fun a _ => hf a

theorem mapM {f : α → Except ε β} {as : List α} (h : ∀ a ∈ as, Gives Q (f a)) :
    Gives (fun bs => ∀ b ∈ bs, Q b) (as.mapM f) := by
  intro bs hbs
  have hall := List.forall₂_and_left _ _ |>.mpr ⟨h, mapM_eq_ok_iff.mp hbs⟩
  clear h hbs
  induction hall with
  | nil => exact nofun
  | cons hab _ ih => exact List.forall_mem_cons.mpr ⟨hab.1 _ hab.2, ih⟩

end Gives

/-- The failure has the property, if there is one. -/
def Raises (P : ε → Prop) (x : Except ε α) : Prop := ∀ z, x = .error z → P z

namespace Raises

variable {P Q : ε → Prop}

theorem ok (a : α) : Raises P (.ok a : Except ε α) := nofun

theorem error {z : ε} (h : P z) : Raises P (.error z : Except ε α) := by
  intro w hw
  cases hw
  exact h

theorem imp {x : Except ε α} (h : Raises P x) (hPQ : ∀ z, P z → Q z) : Raises Q x :=
  fun z hz => hPQ z (h z hz)

theorem bind {x : Except ε α} {f : α → Except ε β} (hx : Raises P x)
    (hf : ∀ a, Raises P (f a)) : Raises P (x >>= f) := by
  cases x with
  | error z => exact error (hx z rfl)
  | ok a => exact hf a

theorem map {x : Except ε α} (f : α → β) (hx : Raises P x) : Raises P (f <$> x) := by
  cases x with
  | error z => exact error (hx z rfl)
  | ok a => exact ok (f a)

theorem mapM {f : α → Except ε β} {as : List α} (h : ∀ a ∈ as, Raises P (f a)) :
    Raises P (as.mapM f) := by
  induction as with
  | nil => exact ok []
  | cons a as ih =>
      obtain ⟨ha, has⟩ := List.forall_mem_cons.mp h
      rw [List.mapM_cons]
      exact ha.bind fun b => (ih has).bind fun bs => ok (b :: bs)

end Raises

/-- Both computations fail, or both have results and these are related. -/
inductive Agree (rel : α → β → Prop) : Except ε α → Except ε β → Prop where
  | ok {a : α} {b : β} (h : rel a b) : Agree rel (.ok a) (.ok b)
  | error (x y : ε) : Agree rel (.error x) (.error y)

namespace Agree

variable {δ : Type} {rel : α → β → Prop} {rel' : γ → δ → Prop}

theorem of_eq {x y : Except ε α} (h : x = y) : Agree Eq x y := by
  subst h
  cases x with
  | ok a => exact .ok rfl
  | error x => exact .error x x

theorem of_error_iff {x : Except ε α} {y : Except ε β}
    (herror : (∃ z, x = .error z) ↔ ∃ z, y = .error z)
    (hok : ∀ a b, x = .ok a → y = .ok b → rel a b) : Agree rel x y := by
  cases x with
  | error z =>
      obtain ⟨z', rfl⟩ := herror.mp ⟨z, rfl⟩
      exact .error z z'
  | ok a =>
      cases y with
      | error z' => cases (herror.mpr ⟨z', rfl⟩).choose_spec
      | ok b => exact .ok (hok a b rfl rfl)

theorem imp {rel' : α → β → Prop} {x : Except ε α} {y : Except ε β} (h : Agree rel x y)
    (hrel : ∀ a b, rel a b → rel' a b) : Agree rel' x y := by
  cases h with
  | ok h => exact .ok (hrel _ _ h)
  | error x y => exact .error x y

theorem bind {x : Except ε α} {y : Except ε β} {f : α → Except ε γ} {g : β → Except ε δ}
    (h : Agree rel x y) (hfg : ∀ a b, rel a b → Agree rel' (f a) (g b)) :
    Agree rel' (x >>= f) (y >>= g) := by
  cases h with
  | ok h => exact hfg _ _ h
  | error x y => exact .error x y

theorem map {x : Except ε α} {y : Except ε β} {f : α → γ} {g : β → δ} (h : Agree rel x y)
    (hfg : ∀ a b, rel a b → rel' (f a) (g b)) : Agree rel' (f <$> x) (g <$> y) := by
  cases h with
  | ok h => exact .ok (hfg _ _ h)
  | error x y => exact .error x y

theorem mapM {f : α → Except ε γ} {g : β → Except ε δ} {as : List α} {bs : List β}
    (h : List.Forall₂ (fun a b => Agree rel' (f a) (g b)) as bs) :
    Agree (List.Forall₂ rel') (as.mapM f) (bs.mapM g) := by
  induction h with
  | nil => exact .ok .nil
  | cons hab _ ih =>
      rw [List.mapM_cons, List.mapM_cons]
      exact hab.bind fun c d hcd => ih.bind fun cs ds hs => .ok (.cons hcd hs)

end Agree
end Fallible
end AccessPolicy
