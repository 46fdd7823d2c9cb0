import SkillAtlas.Text.Word

/-!
# Grammars of command lines

A command line is read against a grammar: options, which start with dashes and may be cut short, and words,
which fill places in order. A grammar with subcommands hands the words from the first one on to the grammar
of that subcommand. Reading stops at a request for help and at the first thing that does not fit.
-/

namespace SkillAtlas.Command

inductive Takes where
  /-- nothing; the option asks for help -/
  | help
  /-- nothing; it may be given several times -/
  | nothing
  /-- one word, which has to pass a test -/
  | one (fits : String → Bool)
  /-- one word or more -/
  | many

structure OptionRule where
  key : String
  spellings : List String
  takes : Takes

structure Place where
  key : String
  /-- the place takes all words that are left, and at least one -/
  many : Bool := false

/-- A grammar of command lines. -/
inductive Grammar where
  | mk (options : List OptionRule) (places : List Place) (subcommands : List (String × Grammar))

namespace Grammar

def options : Grammar → List OptionRule
  | mk o .. => o

def places : Grammar → List Place
  | mk _ p _ => p

def subcommands : Grammar → List (String × Grammar)
  | mk _ _ s => s

end Grammar

/-- Something that a command line sets, with the words that it is set to. -/
structure Setting where
  key : String
  words : List String
deriving DecidableEq, Repr, Inhabited

structure Given where
  rule : OptionRule
  spelling : String
  /-- the word that was joined to the option -/
  joined : Option String := none
  byEquals : Bool := false

inductive Part where
  | word
  /-- two dashes, after which all is words -/
  | dashes
  | option (g : Given)
  | unknown
  | ambiguous

def spellings (options : List OptionRule) : List (String × OptionRule) :=
  options.flatMap fun o => o.spellings.map fun s => (s, o)

/-- A word, cut at its first equals sign. -/
def cutAtEquals (s : String) : String × Option String :=
  let cs := s.toList
  let name := cs.takeWhile (· != '=')
  (.ofList name, match cs.drop name.length with
    | [] => none
    | _ :: rest => some (.ofList rest))

/-- The options that a word may be short for. -/
def candidates (options : List OptionRule) (s : String) : List Given :=
  match s.toList with
  | '-' :: '-' :: _ =>
    let (name, joined) := cutAtEquals s
    ((spellings options).filter fun o => o.1.startsWith name).map fun o =>
      ⟨o.2, o.1, joined, joined.isSome⟩
  | '-' :: c :: rest =>
    (spellings options).filterMap fun o =>
      if o.1 == String.ofList ['-', c] then some ⟨o.2, o.1, some (.ofList rest), false⟩
      else if o.1.startsWith s then some ⟨o.2, o.1, none, false⟩
      else none
  | _ => []

def areDigits (cs : List Char) : Bool :=
  !cs.isEmpty && cs.all Text.isDigit

def isNegativeNumber (s : String) : Bool :=
  match s.toList with
  | '-' :: cs =>
    areDigits cs || (match cs.dropWhile Text.isDigit with
      | '.' :: places => areDigits places
      | _ => false)
  | _ => false

/-- What a word of a command line is. -/
def partOf (options : List OptionRule) (s : String) : Part :=
  if !s.startsWith "-" || s == "-" then .word
  else match (spellings options).lookup s with
    | some o => .option ⟨o, s, none, false⟩
    | none =>
      let (name, joined) := cutAtEquals s
      match joined, (spellings options).lookup name with
      | some word, some o => .option ⟨o, name, some word, true⟩
      | _, _ =>
        match candidates options s with
        | [g] => .option g
        | _ :: _ :: _ => .ambiguous
        | [] => if isNegativeNumber s || s.toList.contains ' ' then .word else .unknown

def partsOf (options : List OptionRule) : List String → List (String × Part)
  | [] => []
  | s :: rest =>
    if s == "--" then (s, .dashes) :: rest.map fun w => (w, .word)
    else (s, partOf options s) :: partsOf options rest

/-- How a command line ends that is not carried out as it stands. -/
inductive Refusal where
  | help
  | usage
deriving DecidableEq, Repr, Inhabited

/-- What a command line sets, and whether something in it was left over. -/
structure Reading where
  settings : List Setting := []
  leftOver : Bool := false

def leadingWords (parts : List (String × Part)) : List String :=
  (parts.takeWhile fun p => p.2 matches .word).map Prod.fst

/-- What an option sets with the word that is joined to it. -/
def takeJoined (rule : OptionRule) (word : String) : Except Refusal (List Setting × Nat) :=
  match rule.takes with
  | .one fits => if fits word then .ok ([⟨rule.key, [word]⟩], 0) else .error .usage
  | .many => .ok ([⟨rule.key, [word]⟩], 0)
  | .help | .nothing => .error .usage

/-- What an option sets with the words after it, and how many of them it takes. -/
def takeAfter (rule : OptionRule) (words : List String) : Except Refusal (List Setting × Nat) :=
  match rule.takes, words with
  | .help, _ => .error .help
  | .nothing, _ => .ok ([⟨rule.key, []⟩], 0)
  | .one fits, w :: _ => if fits w then .ok ([⟨rule.key, [w]⟩], 1) else .error .usage
  | .many, w :: words => .ok ([⟨rule.key, w :: words⟩], words.length + 1)
  | _, [] => .error .usage

/-- What an option sets with the characters that are joined to it after one dash. After an option that
takes nothing they are more options, and these have to fit before any of them has an effect. -/
def takeCluster (options : List OptionRule) (rule : OptionRule) (words : List String) :
    List Char → Except Refusal (List Setting × Nat)
  | [] => takeAfter rule words
  | c :: rest =>
    match rule.takes, (spellings options).lookup (.ofList ['-', c]) with
    | .help, some next => do
      let _ ← takeCluster options next words rest
      .error .help
    | .nothing, some next => do
      let (settings, count) ← takeCluster options next words rest
      return (⟨rule.key, []⟩ :: settings, count)
    | _, _ => takeJoined rule (.ofList (c :: rest))

/-- An option with the parts after it: what it sets, and how many of those parts it takes. -/
def takeOption (options : List OptionRule) (g : Given) (after : List (String × Part)) :
    Except Refusal (List Setting × Nat) :=
  match g.joined with
  | none => takeAfter g.rule (leadingWords after)
  | some word =>
    if g.byEquals || word.isEmpty then takeJoined g.rule word
    else takeCluster options g.rule (leadingWords after) word.toList

/-- Fills places with words, each place with one word and a last place for many with all that are left. -/
def fillPlaces : List Place → List String → List Setting × List Place
  | [], _ => ([], [])
  | places, [] => ([], places)
  | p :: places, w :: words =>
    if p.many then ([⟨p.key, w :: words⟩], places)
    else
      let (settings, left) := fillPlaces places words
      (⟨p.key, [w]⟩ :: settings, left)

/-- The part can fill a place, or stands before one that can. -/
def isPlain : Part → Bool
  | .word | .dashes => true
  | _ => false

/-- How many of some parts places take: those that hold the given number of words, and dashes next to
them. -/
def taken (words : Nat) : List (String × Part) → Nat
  | [] => 0
  | p :: rest =>
    match p.2, words with
    | .dashes, _ => taken words rest + 1
    | .word, n + 1 => taken n rest + 1
    | _, _ => 0

def wordCount (settings : List Setting) : Nat :=
  (settings.flatMap Setting.words).length

/-- Fills places from the parts at the front: what is set, the places that are left, and the number of
parts that were taken. -/
def takeWords (places : List Place) (parts : List (String × Part)) : List Setting × List Place × Nat :=
  let run := parts.takeWhile fun p => isPlain p.2
  let words := (run.filter fun p => p.2 matches .word).map Prod.fst
  let (settings, left) := fillPlaces places words
  (settings, left, if settings.isEmpty then 0 else taken (wordCount settings) run)

/-- Reads the parts of a command line that has no subcommand. -/
def readParts (options : List OptionRule) (places : List Place) :
    List (String × Part) → Except Refusal Reading
  | [] => if places.isEmpty then .ok {} else .error .usage
  | p :: rest =>
    match p.2 with
    | .ambiguous => .error .usage
    | .unknown => do
      let r ← readParts options places rest
      return { r with leftOver := true }
    | .option g => do
      let (settings, count) ← takeOption options g rest
      let r ← readParts options places (rest.drop count)
      return { r with settings := settings ++ r.settings }
    | .word | .dashes =>
      let (settings, left, count) := takeWords places (p :: rest)
      match count with
      | 0 => do
        let r ← readParts options places rest
        return { r with leftOver := true }
      | more + 1 => do
        let r ← readParts options left (rest.drop more)
        return { r with settings := settings ++ r.settings }
termination_by parts => parts.length
decreasing_by all_goals simp only [List.length_cons, List.length_drop]; omega

/-- The key under which the name of a subcommand is set. -/
def commandKey : String :=
  "command"

/-- Reads the options in front of a subcommand: what they set, and the words from the subcommand on. -/
def readFront (options : List OptionRule) :
    List (String × Part) → Except Refusal (Reading × List String)
  | [] => .ok ({}, [])
  | p :: rest =>
    match p.2 with
    | .ambiguous => .error .usage
    | .unknown => do
      let (r, words) ← readFront options rest
      return ({ r with leftOver := true }, words)
    | .option g => do
      let (settings, count) ← takeOption options g rest
      let (r, words) ← readFront options (rest.drop count)
      return ({ r with settings := settings ++ r.settings }, words)
    | .dashes => .ok ({ leftOver := rest.isEmpty }, rest.map Prod.fst)
    | .word => .ok ({}, (p :: rest).map Prod.fst)
termination_by parts => parts.length
decreasing_by all_goals simp only [List.length_cons, List.length_drop]; omega

/-- Reads a command line. A subcommand reads the words after it by its own grammar. -/
def Grammar.read : Grammar → List String → Except Refusal Reading
  | .mk options places subcommands, args =>
    let parts := partsOf options args
    if subcommands.isEmpty then readParts options places parts
    else do
      let (front, words) ← readFront options parts
      match words with
      | [] => return front
      | name :: after =>
        let inner ← readNamed name after subcommands
        return ⟨front.settings ++ ⟨commandKey, [name]⟩ :: inner.settings, front.leftOver || inner.leftOver⟩
where
  /-- Reads words by the grammar of a subcommand. -/
  readNamed (name : String) (words : List String) : List (String × Grammar) → Except Refusal Reading
    | [] => .error .usage
    | (n, g) :: rest => if n == name then g.read words else readNamed name words rest

/-- What a command line sets; one in which something is left over does not fit. -/
def Grammar.settings (g : Grammar) (args : List String) : Except Refusal (List Setting) := do
  let r ← g.read args
  if r.leftOver then .error .usage else return r.settings

end SkillAtlas.Command
