import SkillAtlas.Proofs.Value.Overlay
import SkillAtlas.Proofs.Value.Shape

/-!
# What can be told of values that are made of others

What is laid over a value, and what is found wrong in one, has no numbers but those of the values that it comes
from. So it can be told if they can.
-/

namespace SkillAtlas

open Fault (bind_eq_ok map_eq_ok)

namespace Value

variable {base top v w : Value} {bs os es : Entries} {vs out seen : List Value}

lemma isTold_of_get? {k : Value} (h : (map es).isTold = true) (hv : es.get? k = some v) : v.isTold = true := by
  obtain ⟨e, he, rfl⟩ := Option.map_eq_some_iff.mp hv
  exact (isTold_map.mp h e (List.mem_of_find?_eq_some he)).2

lemma mem_of_distinctItems (h : distinctItems seen vs = .ok out) : ∀ v ∈ out, v ∈ vs := by
  induction vs generalizing seen out with
  | nil =>
    obtain rfl := Except.ok.inj h
    simp
  | cons first rest ih =>
    have hkeep : ∀ {seen' more}, distinctItems seen' rest = .ok more → first :: more = out →
        ∀ v ∈ out, v ∈ first :: rest := by
      rintro seen' more hmore rfl
      exact List.forall_mem_cons.mpr ⟨List.mem_cons_self, fun v hv => List.mem_cons_of_mem _ (ih hmore v hv)⟩
    unfold distinctItems at h
    split at h
    · obtain ⟨more, hmore, h⟩ := map_eq_ok.mp h
      exact hkeep hmore h
    · split at h
      · cases h
      · split at h
        · exact fun v hv => List.mem_cons_of_mem _ (ih h v hv)
        · obtain ⟨more, hmore, h⟩ := map_eq_ok.mp h
          exact hkeep hmore h

lemma isTold_list : (list vs).isTold = true ↔ ∀ v ∈ vs, v.isTold = true :=
  areTold_iff

-- The recursion is that of `overlaid`: over the value on top and its entries.
mutual
/-- A value that is laid over another one adds its own numbers only. -/
theorem isTold_overlaid (base : Value) : (top v : Value) → base.isTold = true → top.isTold = true →
    overlaid base top = .ok v → v.isTold = true
  | .map os, v, hb, ht, h => by
    cases base with
    | map bs =>
      rw [overlaid_maps] at h
      obtain ⟨es, hes, rfl⟩ := map_eq_ok.mp h
      exact isTold_overlaidEntries bs os es hb ht hes
    | _ =>
      obtain rfl := Except.ok.inj h
      exact ht
  | .list ys, v, hb, ht, h => by
    cases base with
    | list xs =>
      rw [overlaid_lists] at h
      obtain ⟨out, hout, rfl⟩ := map_eq_ok.mp h
      refine isTold_list.mpr fun w hw => ?_
      rcases List.mem_append.mp (mem_of_distinctItems hout w hw) with hw | hw
      · exact isTold_list.mp hb w hw
      · exact isTold_list.mp ht w hw
    | _ =>
      obtain rfl := Except.ok.inj h
      exact ht
  | .null, _, _, ht, h | .bool _, _, _, ht, h | .int _, _, _, ht, h | .float _, _, _, ht, h
  | .str _, _, _, ht, h | .bytes _, _, _, ht, h | .date _, _, _, ht, h | .moment _, _, _, ht, h
  | .tuple _, _, _, ht, h | .set _, _, _, ht, h | .again _, _, _, ht, h => by
    cases base <;> (obtain rfl := Except.ok.inj h; exact ht)

theorem isTold_overlaidEntries : (bs os es : Entries) → (map bs).isTold = true → (map os).isTold = true →
    overlaidEntries bs os = .ok es → (map es).isTold = true
  | bs, [], es, hb, _, h => Except.ok.inj h ▸ hb
  | bs, (k, v) :: rest, es, hb, ht, h => by
    obtain ⟨⟨hk, hv⟩, hrest⟩ := List.forall_mem_cons.mp (isTold_map.mp ht)
    have hgo : ∀ w, w.isTold = true → overlaidEntries (Entries.put k w bs) rest = .ok es →
        (map es).isTold = true := by
      intro w hw hes
      have hput := Entries.forall_put (P := fun v => v.isTold = true) (Q := fun v => v.isTold = true)
        (isTold_map.mp hb) hk hw
      exact isTold_overlaidEntries _ rest es (isTold_map.mpr hput) (isTold_map.mpr hrest) hes
    unfold overlaidEntries at h
    split at h
    · rename_i below hbelow
      obtain ⟨w, hw, h⟩ := bind_eq_ok.mp h
      exact hgo w (isTold_overlaid below v w (isTold_of_get? hb hbelow) hv hw) h
    · exact hgo v hv h
end

end Value

namespace Shape

open Value (isTold_list isTold_map isTold_of_get?)

lemma forall_flatten_above {α : Type} {P : α → Prop} {here : List α} {below : List (List (List α))}
    (hhere : ∀ a ∈ here, P a) (hbelow : ∀ levels ∈ below, ∀ a ∈ levels.flatten, P a) :
    ∀ a ∈ (Depth.above here below).flatten, P a := by
  intro a ha
  rcases Depth.mem_flatten_above.mp ha with ha | ⟨levels, hl, ha⟩
  · exact hhere a ha
  · exact hbelow levels hl a ha

-- The recursion is that of `violations`: over the parts of the shape.
mutual
/-- An account of what is wrong in a value shows values that are in it. -/
theorem isTold_of_violations : (shape : Shape) → (v : Value) → v.isTold = true →
    ∀ violation ∈ (shape.violations v).flatten, violation.isTold = true
  | .oneOf kinds, v, hv => by
    unfold violations
    split
    · simp
    · simpa [kindFault, Violation.isTold] using hv
  | .someText, v, hv => by
    unfold violations
    split
    · split <;> simp [Violation.isTold]
    · simpa [kindFault, Violation.isTold] using hv
  | .listOf item, v, hv => by
    unfold violations
    split
    · refine forall_flatten_above (by simp) (List.forall_mem_map.mpr fun w hw => ?_)
      exact isTold_of_violations item w (isTold_list.mp hv w hw)
    · simpa [kindFault, Violation.isTold] using hv
  | .mapTo value, v, hv => by
    unfold violations
    split
    · refine forall_flatten_above (by simp) (List.forall_mem_map.mpr fun e he => ?_)
      exact isTold_of_violations value e.2 (isTold_map.mp hv e he).2
    · simpa [kindFault, Violation.isTold] using hv
  | .record required fields, v, hv => by
    unfold violations
    split
    · refine forall_flatten_above (List.forall_mem_map.mpr fun k _ => rfl) ?_
      exact isTold_of_fieldViolations fields _ hv
    · simpa [kindFault, Violation.isTold] using hv

theorem isTold_of_fieldViolations : (fields : List (String × Shape)) → (es : Entries) →
    (Value.map es).isTold = true →
    ∀ levels ∈ fieldViolations fields es, ∀ violation ∈ levels.flatten, violation.isTold = true
  | [], es, _ => by simp [fieldViolations]
  | (k, shape) :: rest, es, hv => by
    rw [fieldViolations]
    refine List.forall_mem_cons.mpr ⟨?_, isTold_of_fieldViolations rest es hv⟩
    split
    · rename_i w hw
      exact isTold_of_violations shape w (isTold_of_get? hv hw)
    · simp
end

end Shape

end SkillAtlas
