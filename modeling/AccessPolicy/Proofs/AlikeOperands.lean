import AccessPolicy.ExtensionFunction
import AccessPolicy.Operation
import AccessPolicy.Proofs.AlikeValues
import AccessPolicy.Proofs.Fallible

/-!
Operations on alike values. With operands and attributes replaced by alike
values, an operation fails as before, or has an alike result. The failure may
be another one, since the first member of a set that is no entity is reported.
-/

namespace AccessPolicy

open Fallible (Agree Gives)

/-- The same ancestors and alike attributes. -/
structure Entity.Alike (e f : Entity) : Prop where
  parents : e.parents = f.parents
  attrs : e.attrs.Alike f.attrs

/-- The stores have alike entities for the same uids. -/
def Store.Alike (s t : Store) : Prop :=
  ∀ uid, Option.Rel Entity.Alike (s.find? uid) (t.find? uid)

theorem Store.Alike.isWithin_eq {s t : Store} (h : s.Alike t) (uid parent : EntityUid) :
    s.isWithin uid parent = t.isWithin uid parent := by
  have hancestors : s.ancestors? uid = t.ancestors? uid := by
    rw [ancestors?, ancestors?]
    refine (h uid).casesOn (fun he => ?_) rfl
    exact congrArg some he.parents
  rw [isWithin, isWithin, hancestors]

/-- The result, if there is one, is neither a set nor a record. -/
def GivesScalar (x : Except EvalError Value) : Prop := ∀ v, x = .ok v → v.isScalar

namespace GivesScalar

theorem ok {v : Value} (h : v.isScalar) : GivesScalar (.ok v) := Gives.ok h

theorem bind {α : Type} (x : Except EvalError α) {f : α → Except EvalError Value}
    (h : ∀ a, GivesScalar (f a)) : GivesScalar (x >>= f) := Gives.bind_any x h

theorem agree {x y : Except EvalError Value} (hx : GivesScalar x) (h : x = y) :
    Agree Value.Alike x y := by
  subst h
  cases x with
  | error x => exact .error x x
  | ok v => exact .ok (.of_isScalar (hx v rfl))

end GivesScalar

namespace Value

section

variable {v w : Value} (h : v.Alike w)
include h

theorem Alike.asBool_eq : v.asBool = w.asBool :=
  h.apply_eq (fun _ _ => rfl) fun _ _ => rfl

theorem Alike.asLong_eq : v.asLong = w.asLong :=
  h.apply_eq (fun _ _ => rfl) fun _ _ => rfl

theorem Alike.asEntity_eq : v.asEntity = w.asEntity :=
  h.apply_eq (fun _ _ => rfl) fun _ _ => rfl

theorem Alike.type_eq : v.type = w.type :=
  h.apply_eq (fun _ _ => rfl) fun _ _ => rfl

theorem Alike.orderKey?_eq : v.orderKey? = w.orderKey? :=
  h.apply_eq (fun _ _ => rfl) fun _ _ => rfl

theorem Alike.isType_eq (type : EntityType) : v.isType type = w.isType type := by
  rw [isType, isType, h.asEntity_eq]

theorem Alike.like_eq (pattern : Pattern) : v.like pattern = w.like pattern :=
  h.apply_eq (f := (like · pattern)) (fun _ _ => rfl) fun _ _ => rfl

end

theorem bool_agree {x y : Except EvalError Bool} (h : Agree Eq x y) :
    Agree Alike (.bool <$> x) (.bool <$> y) :=
  h.map fun _ _ => .bool

theorem asEntity_eq_ok_iff {v : Value} {uid : EntityUid} :
    v.asEntity = .ok uid ↔ v = .entity uid := by
  cases v <;> simp [asEntity, mismatch]

theorem mem_of_mapM_asEntity {xs : List Value} {uids : List EntityUid}
    (h : xs.mapM asEntity = .ok uids) (uid : EntityUid) : uid ∈ uids ↔ .entity uid ∈ xs := by
  rw [Fallible.mapM_eq_ok_iff] at h
  induction h with
  | nil => simp
  | cons hv _ ih => simp [ih, asEntity_eq_ok_iff.mp hv]

/-- Sets of entities that are alike have the same entities. -/
theorem SameMembers.asEntities_agree {xs ys : List Value} (h : SameMembers xs ys) :
    Agree (fun us us' => ∀ u, u ∈ us ↔ u ∈ us') (xs.mapM asEntity) (ys.mapM asEntity) := by
  have fails {xs ys : List Value} (h : SameMembers xs ys)
      (hx : ∃ z, xs.mapM asEntity = .error z) : ∃ z, ys.mapM asEntity = .error z := by
    rw [Fallible.mapM_eq_error_iff] at hx ⊢
    obtain ⟨x, hx, z, hz⟩ := hx
    obtain ⟨y, hy, hxy⟩ := h.forth x hx
    exact ⟨y, hy, z, hxy.asEntity_eq ▸ hz⟩
  refine .of_error_iff ⟨fails h, fails h.symm⟩ fun us us' hus hus' u => ?_
  rw [mem_of_mapM_asEntity hus, mem_of_mapM_asEntity hus']
  exact ⟨h.mem_of_isScalar rfl, h.symm.mem_of_isScalar rfl⟩

section

variable {s t : Store} (hs : s.Alike t) {v v' w w' : Value}
include hs

theorem getAttr_agree (hv : v.Alike v') (attr : String) :
    Agree Alike (v.getAttr s attr) (v'.getAttr t attr) := by
  cases beq_iff_equal.mp hv.equal with
  | set => exact .error _ _
  | record =>
      rw [getAttr, getAttr]
      refine (Record.find?_alike (Record.alike_of_value hv) attr).casesOn ?_ ?_
      · exact .ok
      · exact .error _ _
  | scalar h =>
      cases v with
      | set | record => cases h
      | entity uid =>
          rw [getAttr, getAttr]
          refine (hs uid).casesOn (fun he => ?_) ?_
          · simp only [Entity.attr?]
            refine (Record.find?_alike he.attrs attr).casesOn ?_ ?_
            · exact .ok
            · exact .error _ _
          · exact .error _ _
      | _ => exact .error _ _

theorem hasAttr_agree (hv : v.Alike v') (attr : String) :
    Agree Eq (v.hasAttr s attr) (v'.hasAttr t attr) := by
  have found {r r' : Record} (h : r.Alike r') :
      (r.find? attr).isSome = (r'.find? attr).isSome :=
    (Record.find?_alike h attr).casesOn (fun _ => rfl) rfl
  cases beq_iff_equal.mp hv.equal with
  | set => exact .error _ _
  | record => exact .ok (found (Record.alike_of_value hv))
  | scalar h =>
      cases v with
      | set | record => cases h
      | entity uid =>
          rw [hasAttr, hasAttr]
          refine (hs uid).casesOn (fun he => ?_) ?_
          · exact .ok (found he.attrs)
          · exact .ok rfl
      | _ => exact .error _ _

theorem entityIn_agree (hv : v.Alike v') (hw : w.Alike w') :
    Agree Eq (entityIn s v w) (entityIn t v' w') := by
  rw [entityIn, entityIn, hv.asEntity_eq]
  refine (Agree.of_eq rfl).bind fun uid _ heq => ?_
  subst heq
  cases beq_iff_equal.mp hw.equal with
  | record => exact .error _ _
  | set =>
      refine hw.members.asEntities_agree.bind fun us us' hmem => .ok ?_
      rw [Bool.eq_iff_iff]
      simp only [List.any_eq_true, hmem, hs.isWithin_eq]
  | scalar h =>
      cases w with
      | set | record => cases h
      | entity target => exact .ok (hs.isWithin_eq uid target)
      | _ => exact .error _ _

end

section

variable {v v' w w' : Value}

theorem asSet_agree (hv : v.Alike v') : Agree SameMembers v.asSet v'.asSet := by
  cases beq_iff_equal.mp hv.equal with
  | set => exact .ok hv.members
  | record => exact .error _ _
  | scalar h =>
      cases v with
      | set => cases h
      | _ => exact .error _ _

theorem checked_givesScalar (operation : String) (n : Option Long) :
    GivesScalar (checked operation n) := by
  cases n with
  | none => exact nofun
  | some n => exact .ok rfl

theorem applyUnary_agree (hv : v.Alike v') (op : UnaryOp) :
    Agree Alike (v.applyUnary op) (v'.applyUnary op) := by
  cases op with
  | not =>
      refine GivesScalar.agree (.bind _ fun b => .ok rfl) ?_
      rw [applyUnary, applyUnary, hv.asBool_eq]
  | neg =>
      refine GivesScalar.agree (.bind _ fun n => checked_givesScalar _ _) ?_
      rw [applyUnary, applyUnary, hv.asLong_eq]
  | isEmpty => exact (asSet_agree hv).bind fun xs ys hxs => .ok (.bool hxs.isEmpty_eq)

theorem compareBy_agree (hv : v.Alike v') (hw : w.Alike w') (test : Long → Long → Bool) :
    Agree Alike (compareBy test v w) (compareBy test v' w') := by
  refine GivesScalar.agree (.bind _ fun keys => .ok rfl) ?_
  simp only [compareBy, orderKeys, hv.orderKey?_eq, hw.orderKey?_eq, hv.type_eq, hw.type_eq]

theorem arithmetic_agree (hv : v.Alike v') (hw : w.Alike w') (op : BinaryOp)
    (compute : Long → Long → Option Long) :
    Agree Alike (arithmetic op compute v w) (arithmetic op compute v' w') := by
  refine GivesScalar.agree (.bind _ fun a => .bind _ fun b => checked_givesScalar _ _) ?_
  rw [arithmetic, arithmetic, hv.asLong_eq, hw.asLong_eq]

theorem applyBinary_agree {s t : Store} (hs : s.Alike t) (hv : v.Alike v') (hw : w.Alike w')
    (op : BinaryOp) : Agree Alike (applyBinary s op v w) (applyBinary t op v' w') := by
  cases op with
  | eq => exact .ok (.bool (hv.beq_congr hw))
  | notEq => exact .ok (.bool (congrArg (!·) (hv.beq_congr hw)))
  | less | lessEq | greater | greaterEq =>
      rw [applyBinary, applyBinary]
      exact compareBy_agree hv hw _
  | add | sub | mul =>
      rw [applyBinary, applyBinary]
      exact arithmetic_agree hv hw _ _
  | isIn => exact (entityIn_agree hs hv hw).bind fun b c hbc => .ok (.bool hbc)
  | contains => exact (asSet_agree hv).bind fun xs ys hxs => .ok (.bool (hxs.contains_eq hw))
  | containsAll =>
      refine (asSet_agree hv).bind fun xs xs' hxs => (asSet_agree hw).bind fun ys ys' hys => ?_
      exact .ok (.bool (hys.allIn_eq hxs))
  | containsAny =>
      refine (asSet_agree hv).bind fun xs xs' hxs => (asSet_agree hw).bind fun ys ys' hys => ?_
      exact .ok (.bool (hxs.meets_eq hys))

end
end Value

namespace ExtensionFunction

open Value (Alike)

variable (f : ExtensionFunction) {v v' w w' : Value}

/-- The functions do not look into sets and records. -/
theorem call₁_eq (hv : v.Alike v') : f.call₁ v = f.call₁ v' := by
  refine hv.apply_eq (f := f.call₁) ?_ ?_
  all_goals
    intros
    cases f <;> rfl

theorem call₂_eq (hv : v.Alike v') (hw : w.Alike w') : f.call₂ v w = f.call₂ v' w' := by
  have hleft : f.call₂ v w = f.call₂ v' w := by
    refine hv.apply_eq (f := (f.call₂ · w)) ?_ ?_
    all_goals
      intros
      cases f <;> rfl
  rw [hleft]
  refine hw.apply_eq (f := f.call₂ v') ?_ ?_
  all_goals
    intros
    cases f <;> rfl

theorem call_eq {vs ws : List Value} (h : List.Forall₂ Alike vs ws) : f.call vs = f.call ws := by
  cases h with
  | nil => rfl
  | cons hv h =>
      cases h with
      | nil => exact f.call₁_eq hv
      | cons hw h =>
          cases h with
          | nil => exact f.call₂_eq hv hw
          | cons _ h => simp only [call, List.length_cons, h.length_eq]

theorem readLiteral_gives {α φ : Type} {P : α → Prop} {read : String → Except φ α}
    (h : ∀ text a, read text = .ok a → P a) (message : String → φ → String) (arg : Value) :
    Gives P (f.readLiteral read message arg) := by
  refine .bind_any _ fun text => ?_
  cases ha : read text with
  | ok a => exact .ok (h text a ha)
  | error fault => exact .error _

section

variable {P : Value → Prop} (hscalar : ∀ v : Value, v.isScalar → v.type ≠ .ipaddr → P v)
  (hip : ∀ text r, IpRange.ofText text = .ok r → P (.ip r))
include hscalar

theorem call₂_gives (v w : Value) : Gives P (f.call₂ v w) := by
  cases f with
  | isInRange | lessThan | lessThanOrEqual | greaterThan | greaterThanOrEqual =>
      exact .bind_any _ fun _ => .bind_any _ fun _ => .ok (hscalar _ rfl nofun)
  | offset | durationSince =>
      exact .bind_any _ fun _ => .bind_any _ fun _ => .bind_any _ fun _ =>
        .ok (hscalar _ rfl nofun)
  | _ => exact .error _

include hip

theorem call₁_gives (v : Value) : Gives P (f.call₁ v) := by
  cases f with
  | ip =>
      have hread : Gives (fun r => P (.ip r))
          (ExtensionFunction.ip.readLiteral IpRange.ofText IpRange.Fault.message v) :=
        readLiteral_gives .ip hip _ v
      exact hread.bind fun _ => .ok
  | isIpv4 | isIpv6 | isLoopback | isMulticast | decimal | datetime | duration | toTime
  | toMilliseconds | toSeconds | toMinutes | toHours | toDays =>
      exact .bind_any _ fun _ => .ok (hscalar _ rfl nofun)
  | toDate => exact .bind_any _ fun _ => .bind_any _ fun _ => .ok (hscalar _ rfl nofun)
  | _ => exact .error _

/-- The functions return scalars, and a range only if it was read from a text. -/
theorem call_gives (vs : List Value) : Gives P (f.call vs) := by
  match vs with
  | [v] => exact f.call₁_gives hscalar hip v
  | [v, w] => exact f.call₂_gives hscalar v w
  | [] | _ :: _ :: _ :: _ => exact .error _

end

theorem call_givesScalar (vs : List Value) : GivesScalar (f.call vs) :=
  f.call_gives (fun _ h _ => h) (fun _ _ _ => rfl) vs

theorem call_agree {vs ws : List Value} (h : List.Forall₂ Alike vs ws) :
    Agree Alike (f.call vs) (f.call ws) :=
  (f.call_givesScalar vs).agree (f.call_eq h)

end ExtensionFunction
end AccessPolicy
