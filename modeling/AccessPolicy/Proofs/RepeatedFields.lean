import Mathlib.Data.String.Basic
import AccessPolicy.Proofs.ResidualSoundness

/-!
Reduction of records that give a name twice. The value of such a record has the
last value of the name, and what is left of it keeps the last field only. So a
value of the original is also the value of the residual; but a failure of the
field that was dropped is gone, and the residual of a record has the value of
the record exactly where every field has one.
-/

namespace AccessPolicy

namespace Record

theorem insert_insert_self (name : String) (v w : Value) (r : Record) :
    insert name v (insert name w r) = insert name v r := by
  induction r with
  | nil => simp [insert]
  | cons f r ih =>
      rw [insert]
      split
      · simp_all [insert]
      · split <;> simp_all [insert]

theorem insert_comm {k l : String} (h : k ≠ l) (v w : Value) (r : Record) :
    insert k v (insert l w r) = insert l w (insert k v r) := by
  induction r with
  | nil => grind [insert]
  | cons f r ih => grind [insert]

/-- Sets the names of a list of fields in turn. -/
def insertAll (fields : List (String × Value)) (r : Record) : Record :=
  fields.foldl (fun r f => insert f.1 f.2 r) r

theorem insertAll_cons (f : String × Value) (fields : List (String × Value)) (r : Record) :
    insertAll (f :: fields) r = insertAll fields (insert f.1 f.2 r) := rfl

/-- A name that no field has can as well be set at the end. -/
theorem insertAll_insert {name : String} {fields : List (String × Value)}
    (h : name ∉ fields.map Prod.fst) (v : Value) (r : Record) :
    insertAll fields (insert name v r) = insert name v (insertAll fields r) := by
  induction fields generalizing r with
  | nil => rfl
  | cons f fields ih =>
      rw [List.map_cons, List.mem_cons, not_or] at h
      rw [insertAll_cons, insertAll_cons, insert_comm (Ne.symm h.1), ih h.2]

end Record

namespace Expr

/-- The field has the name and the expression has the value. -/
def FieldGives (f : Expr → Except EvalError Value) (field : String × Expr)
    (value : String × Value) : Prop :=
  field.1 = value.1 ∧ f field.2 = .ok value.2

section

variable {f : Expr → Except EvalError Value}

theorem FieldGives.map_fst {fields : List (String × Expr)} {values : List (String × Value)}
    (h : List.Forall₂ (FieldGives f) fields values) :
    fields.map Prod.fst = values.map Prod.fst := by
  induction h with
  | nil => rfl
  | cons hf _ ih => rw [List.map_cons, List.map_cons, hf.1, ih]

theorem mem_map_fst_setField {name k : String} {e : Expr} {fields : List (String × Expr)} :
    k ∈ (setField name e fields).map Prod.fst ↔ k = name ∨ k ∈ fields.map Prod.fst := by
  induction fields with
  | nil => simp [setField]
  | cons d fields ih =>
      rw [setField]
      split
      · next heq =>
        subst heq
        simp
      · simp only [List.map_cons, List.mem_cons, ih]
        exact or_left_comm

theorem nodup_setField (name : String) (e : Expr) {fields : List (String × Expr)}
    (h : (fields.map Prod.fst).Nodup) : ((setField name e fields).map Prod.fst).Nodup := by
  induction fields with
  | nil => exact List.pairwise_singleton _ name
  | cons d fields ih =>
      obtain ⟨hd, hs⟩ := List.nodup_cons.mp h
      rw [setField]
      split
      · exact h
      · next hne =>
        rw [List.map_cons, List.nodup_cons, mem_map_fst_setField, not_or]
        exact ⟨⟨hne, hd⟩, ih hs⟩

theorem FieldGives.zip {names : List String} {cs : List Expr} {vs : List Value}
    (h : List.Forall₂ (fun c v => f c = .ok v) cs vs) :
    List.Forall₂ (FieldGives f) (names.zip cs) (names.zip vs) := by
  induction h generalizing names with
  | nil => rw [List.zip_nil_right, List.zip_nil_right]; exact .nil
  | cons hc _ ih =>
      cases names with
      | nil => exact .nil
      | cons name names => exact .cons ⟨rfl, hc⟩ ih

/-- Replacing a field changes the value of the record as setting the name does. -/
theorem FieldGives.setField (name : String) {e : Expr} {v : Value} (he : f e = .ok v)
    {fields : List (String × Expr)} {values : List (String × Value)}
    (h : List.Forall₂ (FieldGives f) fields values) (hnodup : (fields.map Prod.fst).Nodup) :
    ∃ values', List.Forall₂ (FieldGives f) (setField name e fields) values' ∧
      ∀ r, Record.insertAll values' r = Record.insert name v (Record.insertAll values r) := by
  induction h with
  | nil => exact ⟨[(name, v)], .cons ⟨rfl, he⟩ .nil, fun r => rfl⟩
  | @cons d w fields values hd hs ih =>
      obtain ⟨hname, hnodup⟩ := List.nodup_cons.mp hnodup
      rw [Expr.setField]
      split
      · next heq =>
        refine ⟨(name, v) :: values, .cons ⟨heq, he⟩ hs, fun r => ?_⟩
        rw [map_fst hs, heq] at hname
        rw [Record.insertAll_cons, Record.insertAll_cons, ← hd.1, heq,
          Record.insertAll_insert hname, Record.insertAll_insert hname,
          Record.insert_insert_self]
      · obtain ⟨values', hs', hvalues⟩ := ih hnodup
        exact ⟨w :: values', .cons hd hs', fun r => hvalues _⟩

/-- Dropping the fields that are given again leaves the value of a record. -/
theorem FieldGives.foldl_setField {fields kept : List (String × Expr)}
    {values values' : List (String × Value)} (h : List.Forall₂ (FieldGives f) fields values)
    (hkept : List.Forall₂ (FieldGives f) kept values') (hnodup : (kept.map Prod.fst).Nodup) :
    ∃ ws, List.Forall₂ (FieldGives f)
        (fields.foldl (fun fs d => Expr.setField d.1 d.2 fs) kept) ws ∧
      Record.ofList ws = Record.insertAll values (Record.ofList values') := by
  induction h generalizing kept values' with
  | nil => exact ⟨values', hkept, rfl⟩
  | @cons d w fields values hd _ ih =>
      obtain ⟨vs, hvs, hset⟩ := setField d.1 hd.2 hkept hnodup
      obtain ⟨ws, hws, hvalue⟩ := ih hvs (nodup_setField d.1 d.2 hnodup)
      refine ⟨ws, hws, hvalue.trans ?_⟩
      rw [Record.insertAll_cons, ← hd.1]
      exact congrArg _ (hset [])

end

theorem evalWithin_record {env : Env} {n : Nat} {fields : List (String × Expr)}
    {values : List (String × Value)}
    (h : List.Forall₂ (FieldGives (evalWithin env n)) fields values) :
    evalWithin env (n + 1) (.record fields) = .ok (.record (Record.ofList values)) := by
  have hvalues : (fields.mapM fun d => return (d.1, ← evalWithin env n d.2)) = .ok values := by
    rw [Fallible.mapM_eq_ok_iff]
    refine h.imp fun d w hd => ?_
    rw [hd.2, hd.1]
    rfl
  rw [evalWithin, hvalues]
  rfl

theorem exists_evalWithin_record_iff {env : Env} {n : Nat} {fields : List (String × Expr)} :
    (∃ v, evalWithin env (n + 1) (.record fields) = .ok v) ↔
      ∀ f ∈ fields, ∃ w, f.2.evalWithin env n = .ok w := by
  have hfields : (∃ vs, (fields.map Prod.snd).mapM (evalWithin env n) = .ok vs) ↔
      ∀ f ∈ fields, ∃ w, f.2.evalWithin env n = .ok w := by
    rw [Fallible.exists_mapM_eq_ok_iff, List.forall_mem_map]
  rw [← hfields, evalWithin_succ, plan, Plan.run]
  cases (fields.map Prod.snd).mapM (evalWithin env n) <;> simp

/-- A record in which no name occurs twice any more has the value of all fields. -/
theorem evalWithin_ofFields {env : Env} {n : Nat} {fields : List (String × Expr)}
    {values : List (String × Value)}
    (h : List.Forall₂ (FieldGives (evalWithin env n)) fields values) :
    evalWithin env (n + 1) (.ofFields fields) = .ok (.record (Record.ofList values)) := by
  obtain ⟨ws, hws, hvalue⟩ := FieldGives.foldl_setField h .nil .nil
  rw [ofFields, evalWithin_record hws, hvalue]
  rfl

end Expr

/-- The value of the first result, if it has one, is that of the second. -/
def ValueCarries {α : Type} (x y : Except EvalError α) : Prop := ∀ a, x = .ok a → y = .ok a

theorem ValueCarries.comparison : Comparison ValueCarries where
  of_approximates := by
    intro α x y h a hx
    subst hx
    exact h.eq_of_not_tooDeep (TooDeep.not_ok a)
  trans := by
    intro α x y z hxy hyz a hx
    exact hyz a (hxy a hx)
  bind := by
    intro α β x y f g hxy hfg b hb
    obtain ⟨a, hx, hf⟩ := Fallible.eq_ok_of_bind hb
    rw [hxy a hx]
    exact hfg a hx b hf

namespace Expr

/-- Arguments that keep their values keep the value of the node, also where they
are the fields of a record that gives a name twice. -/
theorem valueCarries_withArgs {env : Env} {n : Nat} {e : Expr} {args cs : List Expr}
    {op : List Value → Except EvalError Value} (he : e.plan env.store = .strict args op)
    (h : List.Forall₂ (fun c d => ValueCarries (evalWithin env n c) (evalWithin env n d)) args cs) :
    ValueCarries (evalWithin env (n + 1) e) (evalWithin env (n + 1) (e.withArgs cs)) := by
  by_cases hd : ∃ fields, e = .record fields
  · obtain ⟨fields, rfl⟩ := hd
    obtain ⟨rfl, rfl⟩ := Plan.strict.inj he
    intro v hv
    rw [evalWithin_succ, he] at hv
    obtain ⟨vs, hvs, hv⟩ := Fallible.eq_ok_of_bind hv
    cases hv
    have hvs := ValueCarries.comparison.mapM h vs hvs
    exact evalWithin_ofFields (FieldGives.zip (Fallible.mapM_eq_ok_iff.mp hvs))
  · rw [evalWithin_succ, he, evalWithin_succ,
      plan_withArgs he (fun fields hf => absurd ⟨fields, hf⟩ hd) h.length_eq.symm]
    exact ValueCarries.comparison.bind (ValueCarries.comparison.mapM h) fun vs _ =>
      ValueCarries.comparison.refl _

section

variable {r s : Request} (hrs : r.Extends s) (store : Store) (limits : Limits)
include hrs

/-- Reduction loses no value, whatever names the records give twice. -/
theorem evalWithin_toExpr_of_ok {n : Nat} {e : Expr} {p : PartialValue}
    (h : reduceWithin ⟨r, store, limits⟩ n e = .ok p) :
    ValueCarries (evalWithin ⟨s, store, limits⟩ n e)
      (evalWithin ⟨s, store, limits⟩ n p.toExpr) :=
  evalWithin_rel_toExpr hrs store limits ValueCarries.comparison (P := fun _ => True)
    (fun _ _ => trivial) (fun _ he hcs => valueCarries_withArgs he hcs) trivial h

/-- A record has a value exactly where its residual has that value and no field
of the record fails, be it a field that the residual has dropped. -/
theorem reduce_record_eval_iff {fields : List (String × Expr)} {d : Expr}
    (h : (record fields).reduce ⟨r, store, limits⟩ = .ok (.residual d)) {v : Value} :
    (record fields).eval ⟨s, store, limits⟩ = .ok v ↔ d.eval ⟨s, store, limits⟩ = .ok v ∧
      ∀ f ∈ fields, ∃ w, f.2.evalWithin ⟨s, store, limits⟩ limits.maxDepth = .ok w := by
  have hcarries := evalWithin_toExpr_of_ok hrs store limits h
  rw [← exists_evalWithin_record_iff]
  constructor
  · intro hv
    exact ⟨hcarries v hv, v, hv⟩
  · intro hd
    obtain ⟨hd, w, hw⟩ := hd
    -- all fields have values, so the record has one, and it is that of the residual
    have heq := (hcarries w hw).symm.trans hd
    rw [← heq]
    exact hw

end

theorem reduce_record_eval_iff_repeated :
    Request.unknown.Extends
      ⟨some ⟨⟨"User"⟩, "alice"⟩, some ⟨⟨"Action"⟩, "read"⟩, some ⟨⟨"Doc"⟩, "plan"⟩, some []⟩ ∧
    reduce ⟨.unknown, .empty, ⟨8⟩⟩
        (.record [("who", .var .context), ("who", .var .principal), ("who", .long 1)]) =
      .ok (.residual (.record [("who", .long 1)])) ∧
    eval
        ⟨⟨some ⟨⟨"User"⟩, "alice"⟩, some ⟨⟨"Action"⟩, "read"⟩, some ⟨⟨"Doc"⟩, "plan"⟩, some []⟩,
          .empty, ⟨8⟩⟩
        (.record [("who", .var .context), ("who", .var .principal), ("who", .long 1)]) =
      .ok (.record [("who", .long 1)]) := by
  have hext := Request.unknown_extends
    ⟨some ⟨⟨"User"⟩, "alice"⟩, some ⟨⟨"Action"⟩, "read"⟩, some ⟨⟨"Doc"⟩, "plan"⟩, some []⟩
  refine ⟨hext, rfl, (reduce_record_eval_iff hext .empty ⟨8⟩ rfl).mpr ⟨rfl, ?_⟩⟩
  intro f hf
  simp only [List.mem_cons, List.not_mem_nil, or_false] at hf
  rcases hf with rfl | rfl | rfl <;> exact ⟨_, rfl⟩

/-- Dropping a field that fails makes a record succeed. -/
theorem reduce_record_loses_failure :
    ¬ ∀ (fields : List (String × Expr)) (r s : Request) (store : Store) (limits : Limits)
      (d : Expr), ¬ (fields.map Prod.fst).Nodup → r.Extends s → (∀ var, s.isKnown var) →
      (record fields).reduce ⟨r, store, limits⟩ = .ok (.residual d) →
      ¬ TooDeep ((record fields).eval ⟨s, store, limits⟩) →
      ¬ TooDeep (d.eval ⟨s, store, limits⟩) →
      ∀ v, d.eval ⟨s, store, limits⟩ = .ok v ↔ (record fields).eval ⟨s, store, limits⟩ = .ok v := by
  intro h
  have hrecord := h [("a", .getAttr (.var .principal) "team"), ("a", .long 1)] .unknown
    ⟨some ⟨⟨"User"⟩, "alice"⟩, some ⟨⟨"Action"⟩, "read"⟩, some ⟨⟨"Doc"⟩, "plan"⟩, some []⟩
    .empty ⟨8⟩ _ (by decide) (Request.unknown_extends _) (Request.isKnown_of_slots _ _ _ _) rfl
    (fun hdeep => ?_) (TooDeep.not_ok _) (.record [("a", .long 1)])
  · cases hrecord.mp rfl
  · obtain ⟨max, hdeep⟩ := hdeep
    cases hdeep

end Expr
end AccessPolicy
