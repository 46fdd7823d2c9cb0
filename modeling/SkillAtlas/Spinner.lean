import SkillAtlas.Text.Basic

/-!
# The spinner

While an analysis runs on a terminal, one line shows a message, the current stage and moving points. Each
frame is written over the one before; at the end the line is cleared.
-/

namespace SkillAtlas

structure SpinnerStage where
  name : String
  index : Int
  total : Int
deriving DecidableEq, Repr, Inhabited

structure Spinner where
  message : String := "Analyzing"
  stage : Option SpinnerStage := none
  enabled : Bool := true
deriving Repr, Inhabited

namespace Spinner

/-- A spinner that is wanted shows itself only on a terminal. -/
def forStream (message : String) (wanted terminal : Bool) : Spinner :=
  { message, enabled := wanted && terminal }

def frames : List String :=
  [".", "..", "...", "   "]

def stageText (s : Spinner) : String :=
  match s.stage with
  | some g => s!"[{g.index}/{g.total} {g.name}]"
  | none => ""

/-- The message with the current stage, without blanks at its end. -/
def label (s : Spinner) : String :=
  .ofList (((s.message ++ " " ++ s.stageText).toList.reverse.dropWhile Text.isBlank).reverse)

def frameText (s : Spinner) (n : Nat) : String :=
  "\r  " ++ s.label ++ (frames[n % frames.length]?).getD "" ++ "   "

/-- What clears a line of a width. -/
def clearing (width : Nat) : String :=
  "\r" ++ "".pushn ' ' width ++ "\r"

/-- The frames from a number on and then the clearing of the line, whose width so far is given. After each
frame the spinner hears of a new stage, if there is one. -/
def chunksFrom (news : Nat → Spinner → Spinner) (s : Spinner) (n width : Nat) : Nat → List String × Spinner
  | 0 => ([clearing width], s)
  | left + 1 =>
    let text := s.frameText n
    let (rest, s) := chunksFrom news (news (n + 1) s) (n + 1) (max width text.length) left
    (text :: rest, s)

/-- All that a spinner writes over a number of frames, and the spinner then. -/
def chunks (news : Nat → Spinner → Spinner) (s : Spinner) (count : Nat) : List String × Spinner :=
  if s.enabled then chunksFrom news s 0 0 count else ([], s)

end Spinner

end SkillAtlas
