/-!
# Command line options

Arguments are read from left to right. The output option takes a value, which is attached to it or
is the next argument; an argument that looks like an option is never a value. The first mistake
ends the reading, and so does a request for help or for the version.
-/

namespace ThreeAddress.Command

set_option autoImplicit false

inductive Flag where
  | dumpTokens
  | dumpTree
  | dumpSymbols
  | dumpCode
deriving DecidableEq

structure Options where
  input : String
  output : Option String
  flags : List Flag
  /-- How often more words were asked for. -/
  verbosity : Nat
deriving DecidableEq

def Options.has (options : Options) (flag : Flag) : Bool :=
  options.flags.contains flag

inductive Request where
  | help
  | version
  | compile (options : Options)
deriving DecidableEq

inductive UsageError where
  | unknownOption (name : String)
  | repeatedOption (name : String)
  | unneededValue (name : String)
  | missingValue (name : String)
  | emptyValue (name : String)
  | extraInput (text : String)
  | missingInput
deriving DecidableEq

def UsageError.message : UsageError → String
  | .unknownOption name => s!"unexpected argument '{name}' found"
  | .repeatedOption name => s!"the argument '{name}' cannot be used multiple times"
  | .unneededValue name => s!"unexpected value for '{name}' found; no more were expected"
  | .missingValue name | .emptyValue name =>
    s!"a value is required for '{name}' but none was supplied"
  | .extraInput text => s!"unexpected argument '{text}' found"
  | .missingInput => "the following required arguments were not provided: <INPUT>"

structure Partial where
  input : Option String
  output : Option String
  flags : List Flag
  verbosity : Nat
deriving DecidableEq

def Partial.empty : Partial := ⟨none, none, [], 0⟩

inductive Halt where
  | mistake (error : UsageError)
  | answer (request : Request)
deriving DecidableEq

inductive Meaning where
  | output
  | flag (flag : Flag)
  | verbose
  | help
  | version
deriving DecidableEq

def Meaning.ofLong? : String → Option Meaning
  | "output" => some .output
  | "dump-tokens" => some (.flag .dumpTokens)
  | "dump-ast" => some (.flag .dumpTree)
  | "dump-symbols" => some (.flag .dumpSymbols)
  | "dump-ir" => some (.flag .dumpCode)
  | "verbose" => some .verbose
  | "help" => some .help
  | "version" => some .version
  | _ => none

def Meaning.ofShort? : Char → Option Meaning
  | 'o' => some .output
  | 'v' => some .verbose
  | 'h' => some .help
  | 'V' => some .version
  | _ => none

def outputName : String := "--output <OUTPUT>"

namespace Partial

def setOutput (state : Partial) (value : String) : Except Halt Partial :=
  if value = "" then .error (.mistake (.emptyValue outputName))
  else if state.output.isSome then .error (.mistake (.repeatedOption outputName))
  else .ok { state with output := some value }

def setInput (state : Partial) (value : String) : Except Halt Partial :=
  if state.input.isSome then .error (.mistake (.extraInput value))
  else if value = "" then .error (.mistake (.emptyValue "<INPUT>"))
  else .ok { state with input := some value }

def apply (state : Partial) (name : String) : Meaning → Except Halt Partial
  | .output => .error (.mistake (.missingValue outputName))
  | .flag flag =>
      if state.flags.contains flag then .error (.mistake (.repeatedOption name))
      else .ok { state with flags := flag :: state.flags }
  | .verbose => .ok { state with verbosity := state.verbosity + 1 }
  | .help => .error (.answer .help)
  | .version => .error (.answer .version)

def finish (state : Partial) : Except Halt Request :=
  match state.input with
  | none => .error (.mistake .missingInput)
  | some input => .ok (.compile ⟨input, state.output, state.flags, state.verbosity⟩)

end Partial

inductive Argument where
  /-- Two dashes: all that follows is input. -/
  | divider
  | long (name : String) (value : Option String)
  /-- A dash and letters, the last of which may bring its value along. -/
  | short (letters : List Char)
  | plain (text : String)
deriving DecidableEq

def splitValue (text : List Char) : String × Option String :=
  let name := String.ofList (text.takeWhile (· ≠ '='))
  match text.dropWhile (· ≠ '=') with
  | [] => (name, none)
  | _ :: value => (name, some (String.ofList value))

/-- A single dash is plain text. -/
def Argument.ofText (text : String) : Argument :=
  match text.toList with
  | ['-', '-'] => .divider
  | '-' :: '-' :: rest =>
      let (name, value) := splitValue rest
      .long name value
  | '-' :: letter :: rest => .short (letter :: rest)
  | _ => .plain text

/-- Reads the letters of a short argument; the result tells whether the output option still waits
for its value. -/
def readShort (state : Partial) : List Char → Except Halt (Partial × Bool)
  | [] => .ok (state, false)
  | letter :: rest =>
      let name := String.ofList ['-', letter]
      match Meaning.ofShort? letter with
      | none => .error (.mistake (.unknownOption name))
      | some .output =>
          match rest with
          | [] => .ok (state, true)
          | '=' :: value => (state.setOutput (String.ofList value)).map (·, false)
          | value => (state.setOutput (String.ofList value)).map (·, false)
      | some meaning =>
          match state.apply name meaning with
          | .error halt => .error halt
          | .ok after => readShort after rest

/-- Reads a long argument; the result tells whether the output option still waits for its value. -/
def readLong (state : Partial) (name : String) (value : Option String) :
    Except Halt (Partial × Bool) :=
  let full := "--" ++ name
  match Meaning.ofLong? name, value with
  | none, _ => .error (.mistake (.unknownOption full))
  | some .output, none => .ok (state, true)
  | some .output, some value => (state.setOutput value).map (·, false)
  | some _, some _ => .error (.mistake (.unneededValue full))
  | some meaning, none => (state.apply full meaning).map (·, false)

def readPlain (state : Partial) : List String → Except Halt Partial
  | [] => .ok state
  | text :: rest =>
      match state.setInput text with
      | .error halt => .error halt
      | .ok after => readPlain after rest

/-- Reads arguments; `waiting` tells that the output option is without its value so far. -/
def readAll (state : Partial) (waiting : Bool) : List String → Except Halt Partial
  | [] => if waiting then .error (.mistake (.missingValue outputName)) else .ok state
  | text :: rest =>
      match Argument.ofText text, waiting with
      | .plain value, true =>
          match state.setOutput value with
          | .error halt => .error halt
          | .ok after => readAll after false rest
      | _, true => .error (.mistake (.missingValue outputName))
      | .plain value, false =>
          match state.setInput value with
          | .error halt => .error halt
          | .ok after => readAll after false rest
      | .divider, false => readPlain state rest
      | .long name value, false =>
          match readLong state name value with
          | .error halt => .error halt
          | .ok (after, waits) => readAll after waits rest
      | .short letters, false =>
          match readShort state letters with
          | .error halt => .error halt
          | .ok (after, waits) => readAll after waits rest

def Request.ofArguments (arguments : List String) : Except UsageError Request :=
  match (readAll .empty false arguments).bind Partial.finish with
  | .ok request => .ok request
  | .error (.answer request) => .ok request
  | .error (.mistake error) => .error error

end ThreeAddress.Command
