import SkillAtlas.Value.Written

/-!
# What can go wrong

A document holds definitions of mobs or definitions of skills, and its entries are read accordingly. Each way
in which a computation of this library fails is a cause of its own. The texts of those causes that users read
are given in one place, `Fault.message?`.
-/

namespace SkillAtlas

inductive ContextKind where
  | mob
  | skillFile
deriving DecidableEq, Repr, Inhabited

def ContextKind.name : ContextKind → String
  | mob => "mob"
  | skillFile => "skillFile"

/-- A value does not have the shape that a table or a record asks for. -/
inductive Violation where
  | wrongKind (value : Value) (kinds : List String)
  | missing (key : String)
  | emptyText

/-- Why a text is not a document. -/
inductive StructureFault where
  | unreadable
  | empty
  | notMapping (kind : String)
  | unknownContext (given : String)

/-- Why a vocabulary, the settings or a file of template records are refused. -/
inductive SettingsFault where
  | invalidVocabulary (v : Violation)
  | emptyVocabulary (path : String)
  | noTemplateFile (path : String)
  | unreadableTemplate (path : String)
  | notTemplates (path : String)
  | invalidRecord (path : String) (index : Nat) (v : Violation)
  | emptyKey
  | sectionNotMapping (name : String)

/-- Why a computation fails. -/
inductive Fault where
  /-- a text does not follow the document format -/
  | malformed
  /-- an operation does not apply to values of this kind -/
  | wrongKind
  /-- a value of this kind lacks the operation -/
  | noMember
  /-- a mapping lacks a key -/
  | missingKey
  /-- a value of the right kind has no meaning here -/
  | badValue
  /-- there is nothing at this position -/
  | outOfRange
  | divisionByZero
  /-- a number is too large for a float -/
  | tooLarge
  | noFile
  | isFolder
  /-- the bytes of a file are no text -/
  | notUtf8
  /-- a context was asked for that there is not -/
  | unknownContext (given : String)
  | structural (f : StructureFault)
  /-- no entry of the document is a unit -/
  | noUnits (context : ContextKind)
  | settings (f : SettingsFault)

/-- The text of a value, if it can be told. -/
def Value.told (v : Value) : Except Fault String :=
  if v.isTold then .ok v.text else .error .badValue

/-- The account of a violation shows the value. -/
def Violation.isTold : Violation → Bool
  | wrongKind v _ => v.isTold
  | missing _ | emptyText => true

def Violation.message : Violation → String
  | wrongKind v kinds => v.shown ++ " is not of type " ++ Value.commas (kinds.map Text.quoted)
  | missing key => Text.quoted key ++ " is a required property"
  | emptyText => "'' should be non-empty"

/-- What stands in messages for the account that the reader of documents gives of a malformed text. -/
def malformedNote : String :=
  "<yaml>"

def unknownContextMessage (given : String) : String :=
  "Unknown context: " ++ given ++ ". Valid contexts: mob, skillFile"

def StructureFault.message : StructureFault → String
  | unreadable => "YAML parsing failed: " ++ malformedNote
  | empty => "Document is empty"
  | notMapping kind =>
    "Invalid YAML structure: expected a mapping of named entries, got " ++ kind
  | unknownContext given => unknownContextMessage given

def noUnitsMessage : ContextKind → String
  | .mob =>
    "No valid mobs found in file. Make sure mobs have a Type field or " ++
      "mob-specific fields like Health, Damage, etc."
  | .skillFile =>
    "No skills found in file. Make sure skills have a \"Skills:\" list with valid mechanics."

def SettingsFault.message : SettingsFault → String
  | invalidVocabulary v => "Invalid vocabulary: " ++ v.message
  | emptyVocabulary path => "Vocabulary file missing or empty: " ++ path
  | noTemplateFile path => "Template file not found: " ++ path
  | unreadableTemplate path => "Could not parse " ++ path ++ ": " ++ malformedNote
  | notTemplates path => path ++ " does not contain template records"
  | invalidRecord path index v => path ++ ": record " ++ toString index ++ ": " ++ v.message
  | emptyKey => "Empty config key"
  | sectionNotMapping name => "'" ++ name ++ "' section must be a mapping"

def Fault.message? : Fault → Option String
  | unknownContext given => some (unknownContextMessage given)
  | structural f => some f.message
  | noUnits context => some (noUnitsMessage context)
  | settings f => some f.message
  | _ => none

namespace Fault

variable {α β : Type} {x : Except Fault α} {b : β}

theorem bind_eq_ok {f : α → Except Fault β} : x.bind f = .ok b ↔ ∃ a, x = .ok a ∧ f a = .ok b := by
  cases x <;> simp [Except.bind]

theorem map_eq_ok {f : α → β} : x.map f = .ok b ↔ ∃ a, x = .ok a ∧ f a = b := by
  cases x <;> simp [Except.map]

/-- Items that are all answered are answered together. -/
theorem exists_mapM {f : α → Except Fault β} {xs : List α} (h : ∀ a ∈ xs, ∃ b, f a = .ok b) :
    ∃ bs, xs.mapM f = .ok bs := by
  induction xs with
  | nil => exact ⟨[], rfl⟩
  | cons a rest ih =>
    obtain ⟨b, hb⟩ := h a List.mem_cons_self
    obtain ⟨bs, hbs⟩ := ih fun c hc => h c (List.mem_cons_of_mem a hc)
    exact ⟨b :: bs, by rw [List.mapM_cons, hb, hbs]; rfl⟩

end Fault

namespace Value

variable {v : Value} {s : String}

@[simp] theorem told_str (s : String) : (str s).told = .ok s := rfl

theorem told_of_isTold (h : v.isTold = true) : v.told = .ok v.text :=
  if_pos h

theorem told_of_not_isTold (h : v.isTold = false) : v.told = .error .badValue :=
  if_neg (ne_true_of_eq_false h)

theorem told_eq_ok : v.told = .ok s ↔ v.isTold = true ∧ v.text = s := by
  cases h : v.isTold with
  | true => simp [told_of_isTold h]
  | false => simp [told_of_not_isTold h]

end Value

end SkillAtlas

/-! ### Findings level by level -/

namespace SkillAtlas.Depth

variable {α β : Type}

/-- The findings in two parts of a value, level by level. -/
def join : List (List α) → List (List α) → List (List α)
  | [], ys => ys
  | xs, [] => xs
  | x :: xs, y :: ys => (x ++ y) :: join xs ys

/-- The findings of one level, and those in the parts below it. -/
def above (here : List α) (below : List (List (List α))) : List (List α) :=
  here :: below.foldr join []

/-- The finding nearest to the top; of several on one level, the first. -/
def first? (levels : List (List α)) : Option α :=
  levels.flatten.head?

end SkillAtlas.Depth
