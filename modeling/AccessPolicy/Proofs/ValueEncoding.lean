import AccessPolicy.Codec.Value
import AccessPolicy.Proofs.AddressNotation
import AccessPolicy.Proofs.ValueFormation

/-!
The JSON encoding of values. Decoding undoes encoding for every canonical value,
since its sets and records are rebuilt from their own members; and whatever is
decoded is canonical, since no other sets and records are built.
-/

namespace AccessPolicy

namespace Json

variable {α : Type}

theorem list?_ofList {read : Json → Option α} {write : α → Json} {as : List α}
    (h : ∀ a ∈ as, read (write a) = some a) : list? read (ofList write as) = some as := by
  change (as.map write).mapM read = some as
  induction as with
  | nil => rfl
  | cons a as ih =>
      obtain ⟨ha, has⟩ := List.forall_mem_cons.mp h
      rw [List.map_cons, List.mapM_cons, ha, ih has]
      rfl

@[simp] theorem lookup_cons_of_ne {name k : String} (h : name ≠ k) (a : α)
    (fields : List (String × α)) :
    ((k, a) :: fields).lookup name = fields.lookup name := by
  rw [List.lookup_cons, beq_false_of_ne h]

@[simp] theorem field?_cons_self (name : String) (j : Json)
    (fields : List (String × Json)) (read : Json → Option α) :
    field? ((name, j) :: fields) name read = read j := by
  rw [field?, List.lookup_cons_self]
  rfl

@[simp] theorem field?_cons_of_ne {name k : String} (h : name ≠ k) (j : Json)
    (fields : List (String × Json)) (read : Json → Option α) :
    field? ((k, j) :: fields) name read = field? fields name read := by
  rw [field?, field?, lookup_cons_of_ne h]

@[simp] theorem optional?_cons_self (name : String) (j : Json) (fields : List (String × Json))
    (read : Json → Option α) : optional? ((name, j) :: fields) name read = option? read j := by
  rw [optional?, List.lookup_cons_self]

@[simp] theorem optional?_cons_of_ne {name k : String} (h : name ≠ k) (j : Json)
    (fields : List (String × Json)) (read : Json → Option α) :
    optional? ((k, j) :: fields) name read = optional? fields name read := by
  rw [optional?, optional?, lookup_cons_of_ne h]

/-- What is not written as null is told apart from what is missing. -/
theorem option?_ofOption {read : Json → Option α} {write : α → Json} {a : Option α}
    (hnull : ∀ b, write b ≠ .null) (h : ∀ b, a = some b → read (write b) = some b) :
    option? read (ofOption write a) = some a := by
  cases a with
  | none => rfl
  | some b =>
      rw [ofOption, option?, h b rfl, Option.map_some]
      exact hnull b

theorem natBelow?_ofNat {n bound : Nat} (h : n < bound) : natBelow? bound (ofNat n) = some n :=
  if_pos ⟨Int.natCast_nonneg n, Int.ofNat_lt.mpr h⟩

end Json

@[simp] theorem Long.ofJson?_toJson (n : Long) : Long.ofJson? n.toJson = some n :=
  Long.ofInt?_eq_some_iff.mpr rfl

@[simp] theorem EntityType.ofJson?_toJson (t : EntityType) :
    EntityType.ofJson? t.toJson = some t := rfl

@[simp] theorem EntityUid.ofJson?_toJson (u : EntityUid) :
    EntityUid.ofJson? u.toJson = some u := rfl

@[simp] theorem IpRange.ofJson?_toJson (r : IpRange) : IpRange.ofJson? r.toJson = some r := by
  have hlength := Json.natBelow?_ofNat r.prefixLength.toNat_lt
  simp [ofJson?, toJson, Json.structure?, Json.string?, Address.ofText?_text, hlength]

namespace Value

theorem ofJsons?_toJsons {vs : List Value} (h : ∀ v ∈ vs, ofJson? v.toJson = some v) :
    ofJsons? (toJsons vs) = some vs := by
  induction vs with
  | nil => rfl
  | cons v vs ih =>
      obtain ⟨hv, hvs⟩ := List.forall_mem_cons.mp h
      rw [toJsons, ofJsons?, hv, ih hvs]
      rfl

theorem fieldsOfJson?_fieldsToJson {fs : List (String × Value)}
    (h : ∀ f ∈ fs, ofJson? f.2.toJson = some f.2) :
    fieldsOfJson? (fieldsToJson fs) = some fs := by
  induction fs with
  | nil => rfl
  | cons f fs ih =>
      obtain ⟨hf, hfs⟩ := List.forall_mem_cons.mp h
      rw [fieldsToJson, fieldsOfJson?, hf, ih hfs]
      rfl

theorem ofJson?_toJson {v : Value} (h : v.Canonical) : ofJson? v.toJson = some v := by
  induction v using partsInduction with
  | step v ih =>
      cases v with
      | bool | string => rfl
      | long n => exact congrArg (Option.map Value.long) n.ofJson?_toJson
      | decimal d => exact congrArg (Option.map _) d.raw.ofJson?_toJson
      | datetime t => exact congrArg (Option.map _) t.millis.ofJson?_toJson
      | duration d => exact congrArg (Option.map _) d.millis.ofJson?_toJson
      | entity uid => exact congrArg (Option.map Value.entity) uid.ofJson?_toJson
      | ip range => exact congrArg (Option.map Value.ip) range.ofJson?_toJson
      | set members =>
          have hmembers : ofJsons? (toJsons members) = some members :=
            ofJsons?_toJsons fun v hv => ih v hv (h.part hv)
          rw [toJson, Json.variant, ofJson?, if_pos rfl, hmembers, Option.map_some,
            setOf_of_setsDistinct h.sets]
      | record fields =>
          have hfields : fieldsOfJson? (fieldsToJson fields) = some fields := by
            refine fieldsOfJson?_fieldsToJson fun f hf => ?_
            have hpart : f.2 ∈ (record fields).parts := List.mem_map_of_mem hf
            exact ih f.2 hpart (h.part hpart)
          rw [toJson, Json.variant, ofJson?, if_pos rfl, hfields, Option.map_some,
            Record.ofList_of_increasing (h.fields fields (.root _))]

/-- Every value is an alternative with content. -/
theorem exists_toJson_eq_object (v : Value) : ∃ fields, v.toJson = .object fields := by
  cases v with
  | _ => exact ⟨_, rfl⟩

theorem scalarOfJson?_isScalar {name : String} {j : Json} {v : Value}
    (h : scalarOfJson? name j = some v) : v.isScalar := by
  rw [scalarOfJson?.eq_def] at h
  split at h
  all_goals first
    | cases h
    | obtain ⟨_, -, rfl⟩ := Option.map_eq_some_iff.mp h
      rfl

mutual

/-- Whatever is decoded is canonical. -/
theorem canonical_of_ofJson? {j : Json} {v : Value} (h : ofJson? j = some v) : v.Canonical := by
  match j with
  | .object [(name, .array items)] =>
      rw [ofJson?] at h
      split at h
      · obtain ⟨vs, hvs, rfl⟩ := Option.map_eq_some_iff.mp h
        exact .setOf (canonical_of_ofJsons? hvs)
      · exact .of_isScalar (scalarOfJson?_isScalar h)
  | .object [(name, .object fields)] =>
      rw [ofJson?] at h
      split at h
      · obtain ⟨fs, hfs, rfl⟩ := Option.map_eq_some_iff.mp h
        exact .record (canonical_of_fieldsOfJson? hfs)
      · exact .of_isScalar (scalarOfJson?_isScalar h)
  | .object [(name, .null)] | .object [(name, .bool _)] | .object [(name, .int _)]
  | .object [(name, .real _ _ _)] | .object [(name, .string _)] =>
      exact .of_isScalar (scalarOfJson?_isScalar h)
  | .null | .bool _ | .int _ | .real _ _ _ | .string _ | .array _ | .object [] => cases h
  | .object (_ :: _ :: _) =>
      rw [ofJson?] at h
      · cases h
      all_goals nofun

theorem canonical_of_ofJsons? {js : List Json} {vs : List Value} (h : ofJsons? js = some vs) :
    ∀ v ∈ vs, v.Canonical := by
  match js with
  | [] =>
      cases h
      exact nofun
  | j :: js =>
      rw [ofJsons?] at h
      obtain ⟨v, hv, h⟩ := Option.bind_eq_some_iff.mp h
      obtain ⟨ws, hws, h⟩ := Option.bind_eq_some_iff.mp h
      cases h
      exact List.forall_mem_cons.mpr ⟨canonical_of_ofJson? hv, canonical_of_ofJsons? hws⟩

theorem canonical_of_fieldsOfJson? {fs : List (String × Json)} {gs : List (String × Value)}
    (h : fieldsOfJson? fs = some gs) : ∀ g ∈ gs, g.2.Canonical := by
  match fs with
  | [] =>
      cases h
      exact nofun
  | f :: fs =>
      rw [fieldsOfJson?] at h
      obtain ⟨v, hv, h⟩ := Option.bind_eq_some_iff.mp h
      obtain ⟨ws, hws, h⟩ := Option.bind_eq_some_iff.mp h
      cases h
      exact List.forall_mem_cons.mpr ⟨canonical_of_ofJson? hv, canonical_of_fieldsOfJson? hws⟩

end

end Value

theorem Record.ofJson?_toJson {r : Record} (h : (Value.record r).Canonical) :
    Record.ofJson? r.toJson = some r := by
  have hfields : Value.fieldsOfJson? (Value.fieldsToJson r) = some r :=
    Value.fieldsOfJson?_fieldsToJson fun f hf =>
      Value.ofJson?_toJson (h.part (List.mem_map_of_mem hf))
  rw [toJson, ofJson?, hfields, Option.map_some, ofList_of_increasing (h.fields r (.root _))]

end AccessPolicy
