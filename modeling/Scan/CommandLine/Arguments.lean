import Scan.Decimal.Literal

/-!
# Arguments

A command line names one command, its operands, and options. An option may come with its value in
one word, after an equals sign, or have it in the next word. The first word that does not fit
decides what is wrong, and what is missing is found out at the end.
-/

namespace Scan.CommandLine

/-- What the program is asked to do. -/
inductive Request where
  | simulate (file : String) (json : Bool) (out : Option String)
  | run (file : String) (json yes : Bool) (artifacts : Option String)
  | read (channel socket : String) (json : Bool)
  | write (channel : String) (value : Float) (socket : String) (json : Bool)
  | serve (socket : String)
  deriving BEq, Repr

/-- A request, and the configuration file to use. -/
structure Arguments where
  config : Option String
  request : Request
  deriving BEq, Repr

/-- Why there is nothing to do. -/
inductive Stop where
  /-- A help text is asked for. -/
  | help
  /-- The version is asked for. -/
  | version
  /-- The command line cannot be understood. -/
  | misuse
  deriving BEq, DecidableEq, Repr

/-- A command by its name. -/
inductive Verb where
  | simulate
  | run
  | read
  | write
  | serve
  deriving BEq, DecidableEq, Repr

namespace Verb

/-- The commands by name. -/
def variants : List (String × Verb) :=
  [("simulate", simulate), ("run", run), ("read", read), ("write", write), ("serve", serve)]

/-- The command of a name. -/
def ofName? (name : String) : Option Verb :=
  (variants.find? fun variant => variant.1 == name).map Prod.snd

/-- How many operands a command takes. -/
def operands : Verb → Nat
  | simulate | run | read => 1
  | write => 2
  | serve => 0

/-- The options without a value. -/
def switches : Verb → List String
  | simulate | read | write => ["json"]
  | run => ["json", "yes"]
  | serve => []

/-- The options with a value, which is a path. -/
def pathOptions : Verb → List String
  | simulate => ["config", "out"]
  | run => ["config", "artifacts"]
  | read | write | serve => ["config", "socket"]

/-- Whether an operand can be what it stands for: a path is not empty, a value is a number. -/
def accepts (verb : Verb) (position : Nat) (operand : String) : Bool :=
  match verb, position with
  | simulate, _ | run, _ => !operand.isEmpty
  | write, 1 => (Decimal.readLiteral operand).isSome
  | _, _ => true

end Verb

/-- What has been read of a command and its arguments. -/
structure Draft where
  operands : List String := []
  switches : List String := []
  options : List (String × String) := []
  deriving Repr

namespace Draft

/-- The value of an option. -/
def option? (draft : Draft) (name : String) : Option String :=
  (draft.options.find? fun entry => entry.1 == name).map Prod.snd

/-- Whether a switch is on. -/
def has (draft : Draft) (name : String) : Bool :=
  draft.switches.contains name

/-- The draft with an option, which may be given once and not be empty. -/
def withOption (draft : Draft) (name value : String) : Except Stop Draft :=
  if value.isEmpty || (draft.option? name).isSome then .error .misuse
  else .ok { draft with options := draft.options ++ [(name, value)] }

/-- The draft with a switch, which may be given once. -/
def withSwitch (draft : Draft) (name : String) : Except Stop Draft :=
  if draft.has name then .error .misuse
  else .ok { draft with switches := draft.switches ++ [name] }

/-- The draft with an operand of a command. -/
def withOperand (draft : Draft) (verb : Verb) (operand : String) : Except Stop Draft :=
  let position := draft.operands.length
  if position < verb.operands && verb.accepts position operand then
    .ok { draft with operands := draft.operands ++ [operand] }
  else .error .misuse

/-- The request of a command, once all its arguments have been read. -/
def request (draft : Draft) (verb : Verb) : Except Stop Request :=
  match verb, draft.operands, draft.option? "socket" with
  | .simulate, [file], _ => .ok (.simulate file (draft.has "json") (draft.option? "out"))
  | .run, [file], _ =>
      .ok (.run file (draft.has "json") (draft.has "yes") (draft.option? "artifacts"))
  | .read, [channel], some socket => .ok (.read channel socket (draft.has "json"))
  | .write, [channel, operand], some socket =>
      match Decimal.readLiteral operand with
      | some value => .ok (.write channel value socket (draft.has "json"))
      | none => .error .misuse
  | .serve, [], some socket => .ok (.serve socket)
  | _, _, _ => .error .misuse

end Draft

/-- A word of a command line by its form. -/
inductive Word where
  /-- Two dashes: after them there are only operands. -/
  | separator
  /-- An option with a long name and perhaps a value. -/
  | long (name : String) (value : Option String)
  /-- Options of one letter. -/
  | short (letters : List Char)
  | plain

/-- The form of a word. A single dash is an operand. -/
def Word.ofString (word : String) : Word :=
  match word.toList with
  | ['-', '-'] => .separator
  | '-' :: '-' :: rest =>
      let value := (rest.dropWhile (· != '=')).tail
      .long (String.ofList (rest.takeWhile (· != '=')))
        (if rest.contains '=' then some (String.ofList value) else none)
  | '-' :: letter :: rest => .short (letter :: rest)
  | _ => .plain

/-- Whether a word can be the value of an option before it. -/
def Word.isValue : Word → Bool
  | .plain => true
  | _ => false

/-- Reads the words after a command. -/
def readCommand (verb : Verb) (draft : Draft) : List String → Except Stop Draft
  | [] => .ok draft
  | word :: rest =>
      match Word.ofString word with
      | .plain => do readCommand verb (← draft.withOperand verb word) rest
      | .separator => rest.foldlM (fun draft operand => draft.withOperand verb operand) draft
      | .short letters => .error (if letters.head? == some 'h' then .help else .misuse)
      | .long "help" none => .error .help
      | .long name value =>
          if verb.switches.contains name then
            if value.isSome then .error .misuse
            else do readCommand verb (← draft.withSwitch name) rest
          else if verb.pathOptions.contains name then
            match value with
            | some value => do readCommand verb (← draft.withOption name value) rest
            | none =>
                match rest with
                | next :: rest =>
                    if (Word.ofString next).isValue then do
                      readCommand verb (← draft.withOption name next) rest
                    else .error .misuse
                | [] => .error .misuse
          else .error .misuse

/-- What stops a program that is asked for help on the words after `help`. -/
def readHelp : List String → Stop
  | [] => .help
  | [name] => if (Verb.ofName? name).isSome || name == "help" then .help else .misuse
  | _ => .misuse

/-- The configuration file that counts once a value has been settled: there is one at most, and its
path is not empty. -/
def settle (config : Option String) : Option String → Except Stop (Option String)
  | none => .ok config
  | some value =>
      if value.isEmpty || config.isSome then .error .misuse else .ok (some value)

/-- Reads the words in front of a command, and then the command. A configuration file that is named
after the command counts rather than one that is named before it. A value in a word of its own is
`pending`: it is settled by the next option, or else only after the command has been read. -/
def readWords (config pending : Option String) : List String → Except Stop Arguments
  | [] => .error .misuse
  | word :: rest =>
      match Word.ofString word with
      | .plain =>
          if word == "help" then .error (readHelp rest)
          else
            match Verb.ofName? word with
            | some verb => do
                let draft ← readCommand verb {} rest
                let request ← draft.request verb
                return ⟨(draft.option? "config").or (← settle config pending), request⟩
            | none => .error .misuse
      | .separator => .error .misuse
      | .short letters => do
          discard (settle config pending)
          throw (match letters.head? with
            | some 'h' => .help
            | some 'V' => .version
            | _ => .misuse)
      | .long "help" none => do
          discard (settle config pending)
          throw .help
      | .long "version" none => do
          discard (settle config pending)
          throw .version
      | .long "config" (some value) => do
          let config ← settle config pending
          readWords (← settle config (some value)) none rest
      | .long "config" none =>
          match rest with
          | next :: rest =>
              if (Word.ofString next).isValue then do
                readWords (← settle config pending) (some next) rest
              else .error .misuse
          | [] => .error .misuse
      | .long _ _ => .error .misuse

/-- Reads a command line without the name of the program. -/
def Arguments.ofWords (words : List String) : Except Stop Arguments :=
  readWords none none words

end Scan.CommandLine
