import AccessPolicy.Codec.Policy
import AccessPolicy.Codec.Request
import AccessPolicy.Expr.Shape
import AccessPolicy.Proofs.ValueEncoding

/-!
The JSON encoding of what holds values: patterns, expressions, policies and
requests. Every alternative is read back under its own name, and every structure
field by field, so decoding undoes encoding where it does so for the values.
-/

namespace AccessPolicy

/-- Every value that is written in a condition is canonical. -/
def Policy.Canonical (p : Policy) : Prop :=
  ∀ c ∈ p.conditions, c.body.EachLiteral Value.Canonical

/-- The context is a canonical record, if it is known. -/
def Request.Canonical (r : Request) : Prop :=
  ∀ context, r.context = some context → (Value.record context).Canonical

@[simp] theorem Var.ofJson?_toJson (x : Var) : Var.ofJson? x.toJson = some x := by
  cases x <;> rfl

@[simp] theorem UnaryOp.ofJson?_toJson (op : UnaryOp) : UnaryOp.ofJson? op.toJson = some op := by
  cases op <;> rfl

@[simp] theorem BinaryOp.ofJson?_toJson (op : BinaryOp) :
    BinaryOp.ofJson? op.toJson = some op := by
  cases op <;> rfl

@[simp] theorem PatternElem.ofJson?_toJson (e : PatternElem) :
    PatternElem.ofJson? e.toJson = some e := by
  cases e with
  | wildcard => rfl
  | literal c => simp [ofJson?, toJson, Json.variant, Json.variant?]

@[simp] theorem Pattern.ofJson?_toJson (p : Pattern) : Pattern.ofJson? p.toJson = some p := by
  rw [ofJson?, toJson, Json.list?_ofList fun e _ => e.ofJson?_toJson, Option.map_some]

namespace Expr

theorem ofJsons?_toJsons {es : List Expr} (h : ∀ e ∈ es, ofJson? e.toJson = some e) :
    ofJsons? (toJsons es) = some es := by
  induction es with
  | nil => rfl
  | cons e es ih =>
      obtain ⟨he, hes⟩ := List.forall_mem_cons.mp h
      rw [toJsons, ofJsons?, he, ih hes]
      rfl

theorem fieldsOfJsons?_fieldsToJson {fs : List (String × Expr)}
    (h : ∀ f ∈ fs, ofJson? f.2.toJson = some f.2) :
    fieldsOfJsons? (fieldsToJson fs) = some fs := by
  induction fs with
  | nil => rfl
  | cons f fs ih =>
      obtain ⟨hf, hfs⟩ := List.forall_mem_cons.mp h
      rw [fieldsToJson, fieldsOfJsons?, hf, ih hfs]
      rfl

/-- An alternative with fields of its own is read member by member. -/
theorem ofJson?_variant {name : String} {fields : List (String × Json)}
    (hliteral : name ≠ "Literal") (hvar : name ≠ "Var") :
    ofJson? (.variant name (.object fields)) = node? name (membersOfFields fields) := by
  rw [Json.variant, ofJson?, if_neg hliteral, if_neg hvar]

theorem ofJson?_toJson {e : Expr} (h : e.EachLiteral Value.Canonical) :
    ofJson? e.toJson = some e := by
  induction e using childrenInduction with
  | step e ih =>
      have hchild (c : Expr) (hc : c ∈ e.children) : ofJson? c.toJson = some c :=
        ih c hc (h.child hc)
      cases e with
      | literal v =>
          have hv := Value.ofJson?_toJson (h v (.root _))
          obtain ⟨fields, hfields⟩ := v.exists_toJson_eq_object
          rw [hfields] at hv
          rw [toJson, Json.variant, hfields, ofJson?, if_pos rfl, hv, Option.map_some]
      | var x => cases x <;> rfl
      | getAttr | hasAttr | is | like | unary =>
          rw [toJson, ofJson?_variant (by decide) (by decide)]
          simp [node?, Members.expr?, Members.read?, membersOfFields, Json.string?,
            hchild _ List.mem_cons_self]
      | and | or | binary | isIn | ite =>
          simp only [children, List.forall_mem_cons] at hchild
          rw [toJson, ofJson?_variant (by decide) (by decide)]
          simp [node?, Members.expr?, Members.read?, membersOfFields, hchild]
      | set members =>
          have hmembers : ofJsons? (toJsons members) = some members := ofJsons?_toJsons hchild
          rw [toJson, Json.variant, ofJson?, if_pos rfl, hmembers, Option.map_some]
      | record fields =>
          have hfields : fieldsOfJsons? (fieldsToJson fields) = some fields :=
            fieldsOfJsons?_fieldsToJson fun f hf => hchild f.2 (List.mem_map_of_mem hf)
          rw [toJson, Json.variant, ofJson?, if_neg (by decide), if_pos rfl, hfields,
            Option.map_some]
      | call function args =>
          have hargs : ofJsons? (toJsons args) = some args := ofJsons?_toJsons hchild
          rw [toJson, ofJson?_variant (by decide) (by decide)]
          simp [node?, Members.exprs?, Members.read?, membersOfFields, Json.string?,
            listOfJson?, hargs]

end Expr

@[simp] theorem PolicyId.ofJson?_toJson (id : PolicyId) : PolicyId.ofJson? id.toJson = some id :=
  rfl

@[simp] theorem Effect.ofJson?_toJson (e : Effect) : Effect.ofJson? e.toJson = some e := by
  cases e <;> rfl

@[simp] theorem ConditionKind.ofJson?_toJson (k : ConditionKind) :
    ConditionKind.ofJson? k.toJson = some k := by
  cases k <;> rfl

@[simp] theorem Constraint.ofJson?_toJson (c : Constraint) :
    Constraint.ofJson? c.toJson = some c := by
  have huids (uids : List EntityUid) :
      Json.list? EntityUid.ofJson? (.ofList EntityUid.toJson uids) = some uids :=
    Json.list?_ofList fun uid _ => uid.ofJson?_toJson
  cases c with
  | _ => simp [ofJson?, toJson, ofMembers?, Json.string?, huids]

@[simp] theorem Scope.ofJson?_toJson (s : Scope) : Scope.ofJson? s.toJson = some s := by
  simp [ofJson?, toJson, Json.structure?]

theorem Condition.ofJson?_toJson {c : Condition} (h : c.body.EachLiteral Value.Canonical) :
    Condition.ofJson? c.toJson = some c := by
  simp [ofJson?, toJson, Json.structure?, Expr.ofJson?_toJson h]

theorem Policy.ofJson?_toJson {p : Policy} (h : p.Canonical) :
    Policy.ofJson? p.toJson = some p := by
  have hconditions : Json.list? Condition.ofJson? (.ofList Condition.toJson p.conditions) =
      some p.conditions :=
    Json.list?_ofList fun c hc => Condition.ofJson?_toJson (h c hc)
  simp [ofJson?, toJson, Json.structure?, hconditions]

theorem Request.ofJson?_toJson {r : Request} (h : r.Canonical) :
    Request.ofJson? r.toJson = some r := by
  have huid (uid : Option EntityUid) :
      Json.option? EntityUid.ofJson? (.ofOption EntityUid.toJson uid) = some uid :=
    Json.option?_ofOption nofun fun u _ => u.ofJson?_toJson
  have hcontext : Json.option? Record.ofJson? (.ofOption Record.toJson r.context) =
      some r.context :=
    Json.option?_ofOption nofun fun c hc => Record.ofJson?_toJson (h c hc)
  simp [ofJson?, toJson, Json.structure?, huid, hcontext]

/-- Decoding undoes encoding for all data that policies and requests are made of,
and what is decoded has no equal members in its sets. -/
theorem decoding_undoes_encoding :
    (∀ v : Value, v.Canonical → Value.ofJson? v.toJson = some v) ∧
    (∀ p : Pattern, Pattern.ofJson? p.toJson = some p) ∧
    (∀ e : Expr, e.EachLiteral Value.Canonical → Expr.ofJson? e.toJson = some e) ∧
    (∀ c : Constraint, Constraint.ofJson? c.toJson = some c) ∧
    (∀ p : Policy, p.Canonical → Policy.ofJson? p.toJson = some p) ∧
    (∀ r : Request, r.Canonical → Request.ofJson? r.toJson = some r) ∧
    ∀ j v, Value.ofJson? j = some v → v.Canonical :=
  ⟨fun _ => Value.ofJson?_toJson, Pattern.ofJson?_toJson, fun _ => Expr.ofJson?_toJson,
    Constraint.ofJson?_toJson, fun _ => Policy.ofJson?_toJson, fun _ => Request.ofJson?_toJson,
    fun _ _ => Value.canonical_of_ofJson?⟩

/-- A set of sets, in a condition and in a context, and a set that is written with
a member twice. -/
theorem decoding_undoes_encoding_nested :
    Value.Canonical (.set [.set [.long 2, .long 1], .set []]) ∧
    Value.ofJson? (Value.toJson (.set [.set [.long 2, .long 1], .set []])) =
      some (.set [.set [.long 2, .long 1], .set []]) ∧
    Policy.ofJson? (Policy.toJson { id := ⟨"p"⟩, effect := .permit, conditions := [⟨.whenFalse,
        .unary .isEmpty (.literal (.set [.set [.long 2, .long 1], .set []]))⟩] }) =
      some { id := ⟨"p"⟩, effect := .permit, conditions := [⟨.whenFalse,
        .unary .isEmpty (.literal (.set [.set [.long 2, .long 1], .set []]))⟩] } ∧
    Request.ofJson? (Request.toJson
        ⟨none, none, none, some [("tags", .set [.set [.long 2, .long 1], .set []])]⟩) =
      some ⟨none, none, none, some [("tags", .set [.set [.long 2, .long 1], .set []])]⟩ ∧
    Value.Canonical (.set [.long 1]) := by
  have hlong (n : Long) : Value.Canonical (.long n) := .of_isScalar rfl
  have hset : Value.Canonical (.set [.set [.long 2, .long 1], .set []]) := by
    refine .of_parts (fun xs hxs => by cases hxs; decide) nofun
      (List.forall_mem_cons.mpr ⟨?_, List.forall_mem_singleton.mpr ?_⟩)
    · exact .of_parts (fun xs hxs => by cases hxs; decide) nofun
        (List.forall_mem_cons.mpr ⟨hlong 2, List.forall_mem_singleton.mpr (hlong 1)⟩)
    · exact .of_parts (fun xs hxs => by cases hxs; decide) nofun nofun
  have hliteral : Expr.EachLiteral (.unary .isEmpty
      (.literal (.set [.set [.long 2, .long 1], .set []]))) Value.Canonical :=
    .of_children nofun (List.forall_mem_singleton.mpr (.literal hset))
  have hrecord : Value.Canonical (.record [("tags", .set [.set [.long 2, .long 1], .set []])]) :=
    .of_parts nofun (fun fs hfs => by cases hfs; decide) (List.forall_mem_singleton.mpr hset)
  obtain ⟨hvalue, -, -, -, hpolicy, hrequest, hdecoded⟩ := decoding_undoes_encoding
  refine ⟨hset, hvalue _ hset, hpolicy _ (List.forall_mem_singleton.mpr hliteral),
    hrequest _ (fun context hcontext => ?_),
    hdecoded (.variant "Set" (.array [.variant "Long" (.int 1), .variant "Long" (.int 1)])) _ rfl⟩
  cases hcontext
  exact hrecord

end AccessPolicy
