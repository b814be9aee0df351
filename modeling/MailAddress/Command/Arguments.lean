import MailAddress.Command.Run

/-!
# Arguments of a command

The standard console takes the words of a command as its name and its arguments, and shows texts with
their escape sequences on streams with colours only.

The arguments of a command are options and positional ones, in any order.  An argument is an option
if it starts with a hyphen and is longer than that.  An option has a name that starts with two
hyphens.  A *flag* takes no value.  Any other option takes one, behind an equals sign or as the next
argument, whatever that is.  Two hyphens alone end the options.

In front of the name of a command, options end at the first positional argument.
-/

namespace MailAddress.Command

/-- The arguments of a command, in order. -/
structure Arguments where
  /-- The options, with their values if they take one. -/
  options : List (Text × Option Text) := []
  /-- The positional arguments. -/
  positional : List Text := []

namespace Arguments

/-- The arguments with an option in front. -/
def withOption (arguments : Arguments) (name : Text) (value : Option Text) : Arguments :=
  { arguments with options := (name, value) :: arguments.options }

/-- The arguments with a positional one in front. -/
def withPositional (arguments : Arguments) (argument : Text) : Arguments :=
  { arguments with positional := argument :: arguments.positional }

end Arguments

/-- Whether an argument is written as an option. -/
def isOption (argument : Text) : Bool :=
  argument.head? == some '-' && decide (1 < argument.length)

/-- The name of an option as it is written, and the value behind its equals sign. -/
def splitOption (argument : Text) : Text × Option Text :=
  let name := argument.takeWhile (· != '=')
  (name, if name.length < argument.length then some (argument.drop (name.length + 1)) else none)

/-- The arguments in a list of words, or nothing if an option is unknown, lacks its value, or has
one it does not take.  If `mixed`, options may stand behind positional arguments. -/
def readArguments (specs : List OptionSpec) (mixed : Bool) : List Text → Option Arguments
  | [] => some {}
  | argument :: rest =>
      if argument = ['-', '-'] then some { positional := rest }
      else if isOption argument then
        let (name, value) := splitOption argument
        match specs.find? (fun spec => spec.name == name), value with
        | none, _ => none
        | some spec, some value =>
            if spec.takesValue then
              (readArguments specs mixed rest).map (·.withOption name (some value))
            else none
        | some spec, none =>
            if spec.takesValue then
              match rest with
              | [] => none
              | value :: rest =>
                  (readArguments specs mixed rest).map (·.withOption name (some value))
            else (readArguments specs mixed rest).map (·.withOption name none)
      else if mixed then (readArguments specs mixed rest).map (·.withPositional argument)
      else some { positional := argument :: rest }

example : ((readArguments [⟨"--host".toList, true⟩] true
    (["--host", "--", "x"].map String.toList)).map Arguments.positional) = some [['x']] := by
  decide

/-! ## Requests -/

/-- The arguments in front of the name of a command, with that name and all behind it as positional
ones. -/
def readGeneral (words : List Text) : Option Arguments :=
  readArguments [⟨"--version".toList, false⟩] false words

/-- The request that the arguments of `parse` make.  There is at most one field, and a configuration
that is named must exist. -/
def ParseRequest.ofArguments? (leads : Text → Bool) (arguments : Arguments) :
    Option ParseRequest :=
  let request := ofOptions arguments.options arguments.positional.head?
  if arguments.positional.length ≤ 1 && request.config.all leads then some request else none

/-- The argument of a command that takes just one. -/
def onlyArgument? (words : List Text) : Option Text := do
  match (← readArguments [] true words).positional with
  | [argument] => some argument
  | _ => none

/-- The request that a list of words makes. -/
def Request.ofWords? (leads : Text → Bool) (words : List Text) : Option Request := do
  let general ← readGeneral words
  if general.options.isEmpty then
    match general.positional with
    | [] => none
    | name :: rest =>
        if name = "parse".toList then
          let arguments ← readArguments parseOptions true rest
          return .parse (← ParseRequest.ofArguments? leads arguments)
        else if name = "tokens".toList then return .tokens (← onlyArgument? rest)
        else if name = "quote".toList then return .quote (← onlyArgument? rest)
        else if name = "unquote".toList then return .unquote (← onlyArgument? rest)
        else none
  else some .version

/-- The console that reads words and shows texts in this way. -/
def Console.standard : Console := ⟨Request.ofWords?, Terminal.shown⟩

theorem Console.standard_echoes : Console.standard.Echoes := ⟨fun _ => rfl, fun _ => rfl⟩

end MailAddress.Command
