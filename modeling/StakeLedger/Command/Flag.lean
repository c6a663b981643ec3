import StakeLedger.Text.Classes
import StakeLedger.Text.Pieces
import StakeLedger.Text.Printable

/-!
# Flags of a command line

A word of a command line is an argument or a flag.  Long flags may be shortened
as long as only one of them is meant; an argument is attached to its flag by an
equals sign or is the next word.  All words are told apart before any of them
takes effect.

Main definitions:

- {lit}`Command.Flag`: a flag and what it does.
- {lit}`Command.Word`: what a word is, with {lit}`Command.classify`.
- {lit}`Command.UsageFault`: why a command line is refused.
- {lit}`Command.readFlags`: the effect of flags on what they describe.
-/

namespace StakeLedger.Command

/-- What a flag does to what is described: it asks for help, it stands alone, or it
takes an argument, which it may refuse. -/
inductive Effect (σ : Type) where
  | help
  | alone (f : σ → σ)
  | taking (f : String → σ → Option σ)

/-- A flag by its names, and what it does. -/
structure Flag (σ : Type) where
  names : List String
  effect : Effect σ

/-- The flag that asks for help, the only one with a letter. -/
def Flag.help {σ : Type} : Flag σ :=
  ⟨["-h", "--help"], .help⟩

/-- All names of a flag, as they are shown together. -/
def Flag.title {σ : Type} (f : Flag σ) : String :=
  "/".intercalate f.names

/-- What is attached to a flag in the same word: a text behind an equals sign, or
the characters behind a letter. -/
inductive Attachment where
  | none
  | text (s : String)
  | letters (cs : List Char)

/-- What a word of a command line is. -/
inductive Word (σ : Type) where
  | argument
  /-- The mark behind which all words are arguments. -/
  | mark
  | flag (f : Flag σ) (attached : Attachment)
  /-- A word that looks like a flag but is none. -/
  | unknown

/-- Why a command line is refused. -/
inductive UsageFault where
  | ambiguous (word : String) (names : List String)
  | argumentMissing (flag : String)
  | argumentIgnored (flag text : String)
  | notInt (flag text : String)
  | unknownCommand (name : String)
  | commandMissing
  | unrecognized (words : List String)
deriving DecidableEq, Repr

/-- The names of the commands. -/
def commandNames : List String :=
  ["init", "run"]

/-- What is said of a command line that is refused. -/
def UsageFault.message : UsageFault → String
  | .ambiguous word names =>
      let names := ", ".intercalate names
      s!"ambiguous option: {word} could match {names}"
  | .argumentMissing flag => s!"argument {flag}: expected one argument"
  | .argumentIgnored flag text =>
      s!"argument {flag}: ignored explicit argument {Printable.quoted text}"
  | .notInt flag text => s!"argument {flag}: invalid int value: {Printable.quoted text}"
  | .unknownCommand name =>
      let choices := ", ".intercalate (commandNames.map Printable.quoted)
      s!"argument command: invalid choice: {Printable.quoted name} (choose from {choices})"
  | .commandMissing => "the following arguments are required: command"
  | .unrecognized words => "unrecognized arguments: " ++ " ".intercalate words

/-! ## Telling words apart -/

section

variable {σ : Type} (flags : List (Flag σ))

/-- The names of all flags with their flags. -/
def named : List (String × Flag σ) :=
  flags.flatMap fun f => f.names.map fun name => (name, f)

/-- The flag of a name. -/
def find? (name : String) : Option (Flag σ) :=
  (named flags).lookup name

/-- A text taken apart at its first equals sign. -/
def atEquals (text : List Char) : List Char × Attachment :=
  match text.dropWhile (· ≠ '=') with
  | [] => (text, .none)
  | _ :: rest => (text.takeWhile (· ≠ '='), .text (String.ofList rest))

/-- Whether a text is a number with a minus sign; a break may follow it. -/
def isNegativeNumber (text : List Char) : Bool :=
  let isDigit := fun c => (Digit.value? c).isSome
  let body := if text.getLast? = some '\n' then text.dropLast else text
  match body with
  | '-' :: digits =>
      match pieces '.' digits with
      | [whole] => !whole.isEmpty && whole.all isDigit
      | [whole, fraction] =>
          whole.all isDigit && !fraction.isEmpty && fraction.all isDigit
      | _ => false
  | _ => false

/-- A word with a hyphen that names no flag: a negative number and a text with a
blank are arguments. -/
def otherWord (text : String) : Word σ :=
  if isNegativeNumber text.toList || text.toList.contains ' ' then .argument else .unknown

/-- The flag that a word with two hyphens is short for. -/
def shortened (text : String) : Except UsageFault (Word σ) :=
  let (start, attached) := atEquals text.toList
  match (named flags).filter fun pair => start.isPrefixOf pair.1.toList with
  | [] => .ok (otherWord text)
  | [(_, f)] => .ok (.flag f attached)
  | several => .error (.ambiguous text (several.map Prod.fst))

/-- The flag whose letter a word with a single hyphen begins with. -/
def lettered (text : String) (letter : Char) (rest : List Char) : Word σ :=
  match find? flags (String.ofList ['-', letter]) with
  | some f => .flag f (.letters rest)
  | none => otherWord text

/-- What a word is. -/
def wordOf (text : String) : Except UsageFault (Word σ) :=
  match find? flags text with
  | some f => .ok (.flag f .none)
  | none =>
      let (start, attached) := atEquals text.toList
      match text.toList, attached, find? flags (String.ofList start) with
      | '-' :: _ :: _, .text s, some f => .ok (.flag f (.text s))
      | '-' :: '-' :: _, _, _ => shortened flags text
      | '-' :: letter :: rest, _, _ => .ok (lettered flags text letter rest)
      | _, _, _ => .ok .argument

/-- What the words of a command line are. -/
def classify : List String → Except UsageFault (List (String × Word σ))
  | [] => .ok []
  | text :: rest =>
      if text = "--" then .ok ((text, .mark) :: rest.map fun text => (text, .argument))
      else
        match wordOf flags text with
        | .error fault => .error fault
        | .ok word => (classify rest).map ((text, word) :: ·)

end

/-! ## Taking effect -/

/-- Why a command line describes nothing: help was asked for, or it is refused. -/
inductive Stop where
  | help
  | refused (program : String) (fault : UsageFault)
deriving DecidableEq, Repr

/-- What is described so far, and the words that nobody understood. -/
structure Reading (σ : Type) where
  state : σ
  extras : List String := []

/-- What cannot stand behind the letter for help: anything that looks like its
argument. -/
def argumentOfHelp? (flags : List String) : List Char → Option String
  | [] => none
  | '-' :: rest => some (String.ofList ('-' :: rest))
  | c :: rest =>
      if flags.contains (String.ofList ['-', c]) then
        match rest with
        | '=' :: rest => some (String.ofList rest)
        | rest => argumentOfHelp? flags rest
      else none

/-- The effect of a flag with what is attached to it in its word. -/
def attachedEffect {σ : Type} (program : String) (f : Flag σ) (attached : Attachment) (s : σ) :
    Except Stop σ :=
  let refuse := fun fault => Except.error (Stop.refused program fault)
  match f.effect, attached with
  | .help, .none => .error .help
  | .help, .text t => refuse (.argumentIgnored f.title t)
  | .help, .letters cs =>
      match argumentOfHelp? f.names cs with
      | some t => refuse (.argumentIgnored f.title t)
      | none => .error .help
  | .alone g, .none => .ok (g s)
  | .alone _, .text t => refuse (.argumentIgnored f.title t)
  | .alone _, .letters cs => refuse (.argumentIgnored f.title (String.ofList cs))
  | .taking _, .none => refuse (.argumentMissing f.title)
  | .taking g, .text t =>
      match g t s with
      | some s => .ok s
      | none => refuse (.notInt f.title t)
  | .taking g, .letters cs =>
      let t := String.ofList cs
      match g t s with
      | some s => .ok s
      | none => refuse (.notInt f.title t)

/-- The effect of the flags among some words.  Arguments that no flag takes are kept
as not understood, or the first one ends the flags and is left with what follows
it. -/
def readFlags {σ : Type} (program : String) (skips : Bool) :
    List (String × Word σ) → Reading σ → Except Stop (Reading σ × List String)
  | [], r => .ok (r, [])
  | (text, .unknown) :: rest, r =>
      readFlags program skips rest { r with extras := r.extras ++ [text] }
  | (text, .argument) :: rest, r =>
      if skips then readFlags program skips rest { r with extras := r.extras ++ [text] }
      else .ok (r, text :: rest.map Prod.fst)
  | (text, .mark) :: rest, r =>
      if skips || rest.isEmpty then
        readFlags program skips rest { r with extras := r.extras ++ [text] }
      else .ok (r, text :: rest.map Prod.fst)
  | (_, .flag f attached) :: rest, r =>
      match f.effect, attached, rest with
      | .taking g, .none, (argument, .argument) :: rest =>
          match g argument r.state with
          | some s => readFlags program skips rest { r with state := s }
          | none => .error (.refused program (.notInt f.title argument))
      | _, attached, rest =>
          match attachedEffect program f attached r.state with
          | .error stop => .error stop
          | .ok s => readFlags program skips rest { r with state := s }

end StakeLedger.Command
