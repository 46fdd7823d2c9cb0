import SkillAtlas.Note

/-!
# Computations that report on the way

A journal holds the notes of a computation and its outcome. The notes are kept when the computation
fails, and the outcome does not depend on them: `outcome_bind` says that it is the outcome of the parts.
-/

namespace SkillAtlas

structure Journal (α : Type) where
  notes : List Note
  outcome : Except Fault α

namespace Journal

variable {α β : Type}

def of (r : Except Fault α) : Journal α :=
  ⟨[], r⟩

/-- A computation that goes on with the result of another. -/
def andThen (j : Journal α) (f : α → Journal β) : Journal β :=
  match j.outcome with
  | .ok a => ⟨j.notes ++ (f a).notes, (f a).outcome⟩
  | .error e => ⟨j.notes, .error e⟩

instance : Monad Journal where
  pure a := ⟨[], .ok a⟩
  bind := andThen

instance : MonadLift (Except Fault) Journal where
  monadLift := of

def note (n : Note) : Journal Unit :=
  ⟨[n], .ok ()⟩

def noteAll (ns : List Note) : Journal Unit :=
  ⟨ns, .ok ()⟩

def fail (f : Fault) : Journal α :=
  ⟨[], .error f⟩

@[simp] theorem outcome_pure (a : α) : (pure a : Journal α).outcome = .ok a := rfl

@[simp] theorem outcome_of (r : Except Fault α) : (of r).outcome = r := rfl

@[simp] theorem outcome_note (n : Note) : (note n).outcome = .ok () := rfl

@[simp] theorem outcome_noteAll (ns : List Note) : (noteAll ns).outcome = .ok () := rfl

@[simp] theorem outcome_bind (j : Journal α) (f : α → Journal β) :
    (j >>= f).outcome = j.outcome >>= fun a => (f a).outcome := by
  show (andThen j f).outcome = _
  unfold andThen
  cases j.outcome <;> rfl

end Journal

end SkillAtlas
