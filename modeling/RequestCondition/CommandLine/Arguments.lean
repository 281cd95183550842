import RequestCondition.Check

/-!
# Reading the arguments

`Command.ofArguments` reads the arguments of the program as a command.  There is one that does
work, `check`; the other commands show a help text or the version.

Options may stand on either side of the expression, and behind the argument `--` there are none.
A switch of one letter may share its dash with others, and the last letter of such a group may be
the one that takes a value: that value is the rest of the group, with or without an equals sign, or
the next argument, which must not look like an option itself.  No option may be given twice.

Arguments are read from left to right, and a fault or a request for help ends the reading at once.
-/

set_option autoImplicit false

namespace RequestCondition

/-- What a help text is about. -/
inductive HelpTopic where
  | program
  | check
  | help
deriving DecidableEq

/-- Why arguments make no command. -/
inductive UsageError where
  | missingCommand
  | unknownCommand (name : String)
  | unexpected (argument : String)
  | missingValue (option : String)
  | unexpectedValue (option : String)
  | repeated (option : String)
  | missingExpression
deriving DecidableEq

namespace UsageError

def message : UsageError → String
  | missingCommand => "a command is required"
  | unknownCommand name => "unrecognized command '" ++ name ++ "'"
  | unexpected argument => "unexpected argument '" ++ argument ++ "'"
  | missingValue option => "a value is required for '" ++ option ++ "'"
  | unexpectedValue option => "no value is allowed for '" ++ option ++ "'"
  | repeated option => "'" ++ option ++ "' cannot be used multiple times"
  | missingExpression => "an expression is required"

end UsageError

/-- An option that is either given or not. -/
inductive Switch where
  | template
  | ignoreCase
  | strict
  | pretty
  | syntaxOnly
deriving DecidableEq

namespace Switch

def name : Switch → String
  | template => "template"
  | ignoreCase => "icase"
  | strict => "strict"
  | pretty => "pretty"
  | syntaxOnly => "syntax-only"

def all : List Switch := [template, ignoreCase, strict, pretty, syntaxOnly]

/-- The switch of a letter. -/
def ofLetter? : Char → Option Switch
  | 't' => some template
  | 'i' => some ignoreCase
  | 'p' => some pretty
  | _ => none

def ofName? (name : String) : Option Switch := all.find? (·.name == name)

end Switch

/-- The arguments of a check as far as they have been read. -/
structure CheckArguments where
  expression : Option String := none
  vars : Option String := none
  switches : List Switch := []
deriving DecidableEq

/-- How reading the arguments of a check may end early. -/
inductive Interruption where
  | help
  | fault (error : UsageError)
deriving DecidableEq

namespace CheckArguments

def setExpression (a : CheckArguments) (s : String) : Except Interruption CheckArguments :=
  if a.expression.isSome then .error (.fault (.unexpected s))
  else .ok { a with expression := some s }

def setVariables (a : CheckArguments) (s : String) : Except Interruption CheckArguments :=
  if a.vars.isSome then .error (.fault (.repeated "--vars"))
  else .ok { a with vars := some s }

def set (a : CheckArguments) (s : Switch) : Except Interruption CheckArguments :=
  if a.switches.contains s then .error (.fault (.repeated ("--" ++ s.name)))
  else .ok { a with switches := a.switches ++ [s] }

/-- What a group of letters behind a dash leaves to be done. -/
inductive Group where
  | done (arguments : CheckArguments)
  /-- The next argument is the value of the last letter. -/
  | awaitsVariables (arguments : CheckArguments)

/-- Reads a group of letters behind a dash. -/
def letters (a : CheckArguments) : List Char → Except Interruption Group
  | [] => .ok (.done a)
  | 'h' :: _ => .error .help
  | ['v'] => .ok (.awaitsVariables a)
  | 'v' :: '=' :: value => do
    let a ← a.setVariables (String.ofList value)
    pure (.done a)
  | 'v' :: value => do
    let a ← a.setVariables (String.ofList value)
    pure (.done a)
  | c :: cs =>
    match Switch.ofLetter? c with
    | none => .error (.fault (.unexpected (String.ofList ['-', c])))
    | some s => do
      let a ← a.set s
      letters a cs

/-- Reads what stands behind two dashes: a name, and a value if there is an equals sign. -/
def long (a : CheckArguments) (name : String) (value : Option String) :
    Except Interruption Group :=
  if name = "vars" then
    match value with
    | none => .ok (.awaitsVariables a)
    | some v => do
      let a ← a.setVariables v
      pure (.done a)
  else if name = "help" then
    if value.isSome then .error (.fault (.unexpectedValue "--help")) else .error .help
  else
    match Switch.ofName? name with
    | none => .error (.fault (.unexpected ("--" ++ name)))
    | some s =>
      if value.isSome then .error (.fault (.unexpectedValue ("--" ++ name)))
      else do
        let a ← a.set s
        pure (.done a)

/-- The two sides of the first equals sign. -/
def splitValue (cs : List Char) : String × Option String :=
  let name := String.ofList (cs.takeWhile (· != '='))
  match cs.dropWhile (· != '=') with
  | [] => (name, none)
  | _ :: value => (name, some (String.ofList value))

/-- Reads an option, or gives none if the argument is not one. -/
def option? (a : CheckArguments) (argument : List Char) : Option (Except Interruption Group) :=
  match argument with
  | '-' :: '-' :: c :: cs => some (a.long (splitValue (c :: cs)).1 (splitValue (c :: cs)).2)
  | '-' :: c :: cs => some (a.letters (c :: cs))
  | _ => none

/-- Whether an argument is an option or the end of the options. -/
def looksLikeOption (argument : String) : Bool :=
  match argument.toList with
  | '-' :: _ :: _ => true
  | _ => false

/-- Reads the arguments behind the options. -/
def expressions (a : CheckArguments) : List String → Except Interruption CheckArguments
  | [] => .ok a
  | s :: rest => do
    let a ← a.setExpression s
    expressions a rest

/-- Reads all arguments. -/
def read (a : CheckArguments) : List String → Except Interruption CheckArguments
  | [] => .ok a
  | "--" :: rest => a.expressions rest
  | s :: rest => do
    match a.option? s.toList with
    | none => do
      let a ← a.setExpression s
      read a rest
    | some group =>
      match ← group, rest with
      | .done a, rest => read a rest
      | .awaitsVariables _, [] => .error (.fault (.missingValue "--vars"))
      | .awaitsVariables a, value :: rest =>
        if looksLikeOption value then .error (.fault (.missingValue "--vars"))
        else do
          let a ← a.setVariables value
          read a rest

/-- What is to be checked. -/
def options? (a : CheckArguments) : Option CheckOptions :=
  a.expression.map fun source ↦
    { source, vars := a.vars
      template := a.switches.contains .template
      ignoreCase := a.switches.contains .ignoreCase
      strict := a.switches.contains .strict
      syntaxOnly := a.switches.contains .syntaxOnly }

end CheckArguments

/-- What the program is asked to do. -/
inductive Command where
  | check (options : CheckOptions) (pretty : Bool)
  | help (topic : HelpTopic)
  | version

namespace Command

/-- The command of a check. -/
def ofCheckArguments (arguments : List String) : Except UsageError Command :=
  match CheckArguments.read {} arguments with
  | .error .help => .ok (.help .check)
  | .error (.fault e) => .error e
  | .ok a =>
    match a.options? with
    | none => .error .missingExpression
    | some options => .ok (.check options (a.switches.contains .pretty))

/-- The topic that the arguments of the help command name. -/
def ofHelpArguments : List String → Except UsageError Command
  | [] => .ok (.help .program)
  | ["check"] => .ok (.help .check)
  | ["help"] => .ok (.help .help)
  | "check" :: name :: _ => .error (.unknownCommand name)
  | "help" :: name :: _ => .error (.unknownCommand name)
  | name :: _ => .error (.unknownCommand name)

/-- The command that arguments make. -/
def ofArguments : List String → Except UsageError Command
  | [] => .error .missingCommand
  | "check" :: rest => ofCheckArguments rest
  | "help" :: rest => ofHelpArguments rest
  | "--help" :: _ => .ok (.help .program)
  | "--version" :: _ => .ok .version
  | s :: _ =>
    match s.toList with
    | '-' :: 'h' :: _ => .ok (.help .program)
    | '-' :: 'V' :: _ => .ok .version
    | '-' :: _ :: _ => .error (.unexpected s)
    | _ => .error (.unknownCommand s)

end Command

end RequestCondition
