/-!
# Words of a command line

A command line is a list of words: options, which begin with a dash, and arguments. An option is long, with two
dashes and a name, or short, with one dash and a letter. Its value is the next word, or follows the name after
an equals sign, or follows the letter at once. Short options without values can share one dash. After two
dashes on their own all words are arguments, whatever they begin with.
-/

namespace PathAccess

/-- An option that a command knows. -/
structure CommandOption where
  /-- What it can be called; the first name stands for it. -/
  names : List String
  /-- Whether it has a value. -/
  hasValue : Bool := true

/-- What is wrong with a command line. -/
inductive UsageError where
  /-- There is no such option. -/
  | unknownOption (name : String)
  /-- The value of an option is missing. -/
  | missingValue (option : String)
  /-- An option has a value but takes none. -/
  | unexpectedValue (option : String)
  /-- An option has to be given. -/
  | missingOption (option : String)
  /-- An argument has to be given. -/
  | missingArgument (argument : String)
  /-- There are more arguments than the command takes. -/
  | extraArguments (arguments : List String)
  /-- The value of an option or an argument is refused, for the given reason. -/
  | badValue (parameter reason : String)
  /-- There is no command. -/
  | missingCommand
  /-- There is no such command. -/
  | unknownCommand (name : String)

/-- The message of a mistake. -/
def UsageError.message : UsageError → String
  | unknownOption name => "No such option: " ++ name
  | missingValue option => "Option '" ++ option ++ "' requires an argument."
  | unexpectedValue option => "Option '" ++ option ++ "' does not take a value."
  | missingOption option => "Missing option '" ++ option ++ "'."
  | missingArgument argument => "Missing argument '" ++ argument ++ "'."
  | extraArguments arguments =>
    "Got unexpected extra argument" ++ (if arguments.length == 1 then "" else "s") ++ " ("
      ++ " ".intercalate arguments ++ ")"
  | badValue parameter reason => "Invalid value for '" ++ parameter ++ "': " ++ reason
  | missingCommand => "Missing command."
  | unknownCommand name => "No such command '" ++ name ++ "'."

/-- Why a command line names no command to run. -/
inductive Stop where
  /-- Help is asked for. -/
  | help
  /-- The version is asked for. -/
  | version
  /-- There is a mistake. -/
  | mistake (e : UsageError)

/-- The options and arguments of a command. -/
structure Words where
  /-- The options with their values, in the order of the words. -/
  options : List (String × String) := []
  /-- The arguments. -/
  arguments : List String := []

namespace Words

variable (known : List CommandOption)

/-- The known option of a name. -/
def option? (name : String) : Option CommandOption :=
  known.find? (·.names.contains name)

/-- Whether a word is one or more options. -/
def isOption (word : String) : Bool :=
  match word.toList with
  | '-' :: _ :: _ => true
  | _ => false

/-- What one word sets, and the option whose value is the next word, if there is one. -/
structure Reading where
  /-- The options with their values. -/
  settings : List (String × String) := []
  /-- The option that still lacks its value. -/
  awaits : Option String := none

/-- Reads the letters after a single dash. -/
def readLetters : List Char → Except UsageError Reading
  | [] => .ok {}
  | c :: cs =>
    let name := String.ofList ['-', c]
    match option? known name with
    | none => .error (.unknownOption name)
    | some o =>
      let key := o.names.headD name
      if !o.hasValue then
        (readLetters cs).map fun r => { r with settings := (key, "") :: r.settings }
      else if cs.isEmpty then .ok { awaits := some key }
      else .ok { settings := [(key, String.ofList cs)] }

/-- Reads a word that begins with two dashes, given what stands in front of the first equals sign, and what
follows that sign, if there is one. -/
def readLong (name : String) (value : Option String) : Except UsageError Reading :=
  match option? known name with
  | none => .error (.unknownOption name)
  | some o =>
    let key := o.names.headD name
    match o.hasValue, value with
    | true, some v => .ok { settings := [(key, v)] }
    | true, none => .ok { awaits := some key }
    | false, some _ => .error (.unexpectedValue name)
    | false, none => .ok { settings := [(key, "")] }

/-- Reads a word of options. -/
def readOption (word : String) : Except UsageError Reading :=
  match word.toList with
  | '-' :: '-' :: cs =>
    let name := String.ofList ('-' :: '-' :: cs.takeWhile (· != '='))
    let value := match cs.dropWhile (· != '=') with
      | [] => none
      | _ :: v => some (String.ofList v)
    readLong known name value
  | cs => readLetters known (cs.drop 1)

/-- Reads words, after those that are read already. If the first argument ends the options, it and all words
after it are arguments. -/
def read (firstEnds : Bool) (ws : Words) : List String → Except UsageError Words
  | [] => .ok ws
  | word :: rest =>
    if word == "--" then .ok { ws with arguments := ws.arguments ++ rest }
    else if isOption word then
      match readOption known word, rest with
      | .error e, _ => .error e
      | .ok ⟨settings, none⟩, rest => read firstEnds { ws with options := ws.options ++ settings } rest
      | .ok ⟨_, some key⟩, [] => .error (.missingValue key)
      | .ok ⟨settings, some key⟩, value :: rest =>
        read firstEnds { ws with options := ws.options ++ settings ++ [(key, value)] } rest
    else if firstEnds then .ok { ws with arguments := ws.arguments ++ word :: rest }
    else read firstEnds { ws with arguments := ws.arguments ++ [word] } rest

/-- The value of an option; of several the last one. -/
def value? (ws : Words) (option : String) : Option String :=
  (ws.options.reverse.find? (·.1 == option)).map (·.2)

/-- Whether an option is given. -/
def has (ws : Words) (option : String) : Bool :=
  (ws.value? option).isSome

/-- The value of an option that has to be given. -/
def required (ws : Words) (option : String) : Except UsageError String :=
  match ws.value? option with
  | some v => .ok v
  | none => .error (.missingOption option)

/-- What is wrong with the arguments where others are expected. -/
def mismatch (ws : Words) (expected : List String) : UsageError :=
  match expected.drop ws.arguments.length with
  | missing :: _ => .missingArgument missing
  | [] => .extraArguments (ws.arguments.drop expected.length)

end Words

end PathAccess
