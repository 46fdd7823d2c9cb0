import SkillAtlas.Proofs.Decimal.Order
import SkillAtlas.Value.Mapping

/-!
# Keys that are one key

Each key has a form by which it is known: a number by its value, whatever its kind, a moment by its instant, a
tuple by the forms of its items. Two values are one key exactly if they have one form. So being one key is an
equivalence of keys, and a value that is one key with another can be a key itself.
-/

namespace SkillAtlas

open Decimal (ratOf? valueOf?)
open Float.Model (UnpackedFloat)
open Float.Model.UnpackedFloat (Sign)

/-- What a number is known by. -/
inductive Amount where
  | value (r : ℚ)
  | infinite (s : Sign)
  | notANumber

/-- What a key is known by. -/
inductive KeyForm where
  | null
  | number (a : Amount)
  | text (s : String)
  | bytes (bs : List UInt8)
  | date (d : Date)
  | moment (aware : Bool) (instant : Int)
  | tuple (items : List KeyForm)

namespace Amount

/-- The amount that the parts of a float make. -/
def ofParts : UnpackedFloat → Amount
  | .notANumber => notANumber
  | .infinity s => infinite s
  | u => value ((valueOf? u).getD 0)

/-- The amount of a float. -/
def ofFloat (x : Float) : Amount :=
  ofParts x.toModel.unpack

lemma ofFloat_eq_value {x : Float} {r : ℚ} : ofFloat x = value r ↔ ratOf? x = some r := by
  rw [Decimal.ratOf?_eq, ofFloat]
  cases x.toModel.unpack <;> simp [ofParts, valueOf?]

end Amount

namespace Value

open Amount (ofFloat ofParts)

/-- Floats with a value are equal if their values are, infinities if their signs are, and all that is no number
counts as one. -/
lemma sameFloat_iff {x y : Float} : sameFloat x y = true ↔ ofFloat x = ofFloat y := by
  have hvalues : ∀ r s, valueOf? x.toModel.unpack = some r → valueOf? y.toModel.unpack = some s →
      (UnpackedFloat.beq x.toModel.unpack y.toModel.unpack = true ↔ r = s) := by
    intro r s hr hs
    rw [← Decimal.ratOf?_eq] at hr hs
    exact Decimal.beq_iff_of_ratOf? hr hs
  show (UnpackedFloat.beq x.toModel.unpack y.toModel.unpack ||
    x.toModel.unpack.isNaN && y.toModel.unpack.isNaN) = true ↔ ofParts x.toModel.unpack = ofParts y.toModel.unpack
  generalize x.toModel.unpack = u at hvalues
  generalize y.toModel.unpack = w at hvalues
  cases u with
  | notANumber => cases w <;> simp [UnpackedFloat.beq, UnpackedFloat.compare, UnpackedFloat.isNaN, ofParts]
  | infinity s =>
    cases w with
    | infinity t => cases s <;> cases t <;> simp [UnpackedFloat.beq, UnpackedFloat.compare, ofParts] <;> decide
    | _ => cases s <;> simp [UnpackedFloat.beq, UnpackedFloat.compare, UnpackedFloat.isNaN, ofParts]
  | zero s =>
    cases w with
    | notANumber => simp [UnpackedFloat.beq, UnpackedFloat.compare, UnpackedFloat.isNaN, ofParts]
    | infinity t => cases t <;> simp [UnpackedFloat.beq, UnpackedFloat.compare, UnpackedFloat.isNaN, ofParts]
    | _ => simpa [UnpackedFloat.isNaN, ofParts, valueOf?] using hvalues _ _ rfl rfl
  | finite s m e h =>
    cases w with
    | notANumber => simp [UnpackedFloat.beq, UnpackedFloat.compare, UnpackedFloat.isNaN, ofParts]
    | infinity t => cases t <;> simp [UnpackedFloat.beq, UnpackedFloat.compare, UnpackedFloat.isNaN, ofParts]
    | _ => simpa [UnpackedFloat.isNaN, ofParts, valueOf?] using hvalues _ _ rfl rfl

lemma floatIs_iff {x : Float} {n : Int} : floatIs x n = true ↔ ofFloat x = .value n := by
  rw [floatIs, beq_iff_eq, Amount.ofFloat_eq_value]

mutual
/-- The form of a key. -/
def form : Value → KeyForm
  | null | list _ | set _ | map _ | again _ => .null
  | bool b => .number (.value (if b then 1 else 0 : Int))
  | int n => .number (.value n)
  | float x => .number (.ofFloat x)
  | str s => .text s
  | bytes bs => .bytes bs
  | date d => .date d
  | moment m => .moment m.offset.isSome m.instant
  | tuple items => .tuple (forms items)

/-- The forms of keys. -/
def forms : List Value → List KeyForm
  | [] => []
  | v :: rest => form v :: forms rest
end

mutual
/-- What is one key with a key is a key of the same form. -/
theorem same_iff : ∀ {a b : Value}, a.isKey = true → (same a b = true ↔ b.isKey = true ∧ form a = form b)
  | null, b, _ => by cases b <;> simp [same, form, isKey]
  | bool p, b, _ => by
    rw [eq_comm (a := form (bool p))]
    cases b <;> simp [same, form, isKey, integer?, floatIs_iff, -Int.cast_ite]
  | int n, b, _ => by
    rw [eq_comm (a := form (int n))]
    cases b <;> simp [same, form, isKey, integer?, floatIs_iff, -Int.cast_ite]
  | float x, b, _ => by cases b <;> simp [same, form, isKey, integer?, floatIs_iff, sameFloat_iff]
  | str s, b, _ => by cases b <;> simp [same, form, isKey]
  | bytes s, b, _ => by cases b <;> simp [same, form, isKey]
  | date d, b, _ => by cases b <;> simp [same, form, isKey]
  | moment m, b, _ => by cases b <;> simp [same, form, isKey, Moment.same]
  | tuple xs, b, h => by
    have hxs : areKeys xs = true := by simpa [isKey] using h
    cases b with
    | tuple ys =>
      have hitems : sameItems xs ys = true ↔ areKeys ys = true ∧ forms xs = forms ys := sameItems_iff hxs
      simpa [same, form, isKey] using hitems
    | _ => simp [same, form, isKey]
  | list _, _, h | set _, _, h | map _, _, h | again _, _, h => by simp [isKey] at h

theorem sameItems_iff : ∀ {xs ys : List Value}, areKeys xs = true →
    (sameItems xs ys = true ↔ areKeys ys = true ∧ forms xs = forms ys)
  | [], ys, _ => by cases ys <;> simp [sameItems, forms, areKeys]
  | x :: xs, ys, h => by
    obtain ⟨hx, hxs⟩ : x.isKey = true ∧ areKeys xs = true := by simpa [areKeys] using h
    cases ys with
    | nil => simp [sameItems, forms]
    | cons y ys =>
      rw [sameItems, Bool.and_eq_true, same_iff hx, sameItems_iff hxs, areKeys, Bool.and_eq_true, forms, forms,
        List.cons.injEq, and_and_and_comm]
end

variable {a b c : Value}

lemma isKey_of_same (ha : a.isKey = true) (h : same a b = true) : b.isKey = true :=
  ((same_iff ha).mp h).1

lemma form_eq_of_same (ha : a.isKey = true) (h : same a b = true) : form a = form b :=
  ((same_iff ha).mp h).2

/-- One key is one with the same keys in all its spellings. -/
lemma same_congr_left (ha : a.isKey = true) (h : same a b = true) (c : Value) : same a c = same b c := by
  rw [Bool.eq_iff_iff, same_iff ha, same_iff (isKey_of_same ha h), form_eq_of_same ha h]

lemma same_comm (ha : a.isKey = true) (hb : b.isKey = true) : same a b = same b a := by
  rw [Bool.eq_iff_iff, same_iff ha, same_iff hb, eq_comm (a := form a)]
  simp only [ha, hb]

lemma same_congr_right (ha : a.isKey = true) (h : same a b = true) (hc : c.isKey = true) :
    same c a = same c b := by
  rw [same_comm hc ha, same_comm hc (isKey_of_same ha h), same_congr_left ha h]

end Value

namespace Entries

variable {es : Entries} {k v a : Value}

/-- Every key can be one. -/
def Keyed (es : Entries) : Prop :=
  ∀ e ∈ es, e.1.isKey = true

lemma Keyed.put (h : es.Keyed) (hk : k.isKey = true) : (put k v es).Keyed := by
  induction es with
  | nil => exact List.forall_mem_singleton.mpr hk
  | cons e rest ih =>
    obtain ⟨he, hrest⟩ := List.forall_mem_cons.mp h
    unfold Entries.put
    split
    · exact List.forall_mem_cons.mpr ⟨he, hrest⟩
    · exact List.forall_mem_cons.mpr ⟨he, ih hrest⟩

/-- A key has one value in all its spellings. -/
lemma Keyed.get?_congr (h : es.Keyed) (hk : k.isKey = true) (hs : k.same a = true) : es.get? k = es.get? a := by
  induction es with
  | nil => rfl
  | cons e rest ih =>
    obtain ⟨he, hrest⟩ := List.forall_mem_cons.mp h
    have htail := ih hrest
    unfold get? at htail ⊢
    rw [List.find?_cons, List.find?_cons, Value.same_congr_right hk hs he]
    cases e.1.same a with
    | true => rfl
    | false => exact htail

/-- A value is found under the key to which it was given. -/
lemma Keyed.get?_put_self (h : es.Keyed) (hk : k.isKey = true) (hs : k.same a = true) (v : Value) :
    (Entries.put k v es).get? a = some v := by
  induction es with
  | nil => simp [Entries.put, get?, hs]
  | cons e rest ih =>
    obtain ⟨he, hrest⟩ := List.forall_mem_cons.mp h
    have hea : e.1.same k = e.1.same a := Value.same_congr_right hk hs he
    have htail := ih hrest
    unfold get? at htail ⊢
    unfold Entries.put
    cases hek : e.1.same k with
    | true => simp [← hea, hek]
    | false => simpa [← hea, hek] using htail

/-- What stands under another key is not changed. -/
lemma Keyed.get?_put_of_ne (h : es.Keyed) (hs : k.same a = false) (v : Value) :
    (Entries.put k v es).get? a = es.get? a := by
  induction es with
  | nil => simp [Entries.put, get?, hs]
  | cons e rest ih =>
    obtain ⟨he, hrest⟩ := List.forall_mem_cons.mp h
    have htail := ih hrest
    unfold get? at htail ⊢
    unfold Entries.put
    cases hek : e.1.same k with
    | true =>
      have hea : e.1.same a = false := by rw [Value.same_congr_left he hek, hs]
      simp [hea]
    | false =>
      simp only [Bool.false_eq_true, if_false, List.find?_cons]
      cases e.1.same a with
      | true => rfl
      | false => exact htail

end Entries

end SkillAtlas
