import MailAddress.Diagnostic.Rendering
import MailAddress.Field
import MailAddress.FileTree
import MailAddress.Settings

/-!
# The commands

* `parse` reads a field, from its argument or from the standard input, and writes its display form
  and its canonical form.
* `tokens` lists the tokens of a field.
* `quote` and `unquote` write a text as a word, and a word as a text.

The option `--version` in front of a command asks for the version instead.

A command either is misused, or cannot load its settings, or finishes with an exit code, an output
and a text for the error stream.

Between the commands and the world stands a *console*.  It reads the words of a command as a request,
and hands each piece of text to a stream, all but the lines of a trace.  The commands are the same for
every console.  One that *echoes* takes the escape sequences out of a text on a stream without colours
and changes nothing else.

The settings come from the file that is named, or else from the nearest configuration, or else they
are the defaults.
-/

namespace MailAddress.Command

/-- What a command sees of the world. -/
structure Environment where
  /-- The files. -/
  files : FileTree := {}
  /-- The current directory. -/
  current : List Text := []
  /-- The text of the standard input. -/
  input : Text := []
  /-- Whether the standard output takes colours. -/
  outputColored : Bool := false
  /-- Whether the error stream takes colours. -/
  errorColored : Bool := false

/-- What becomes of a command. -/
inductive Response where
  /-- The words are not those of any request. -/
  | misused
  /-- The settings cannot be loaded. -/
  | unsettled (error : SettingsError)
  /-- The command is through. -/
  | finished (exitCode : Nat) (output errors : Text)

/-! ## Input and output -/

/-- A text with a line feed behind it. -/
def asLine (text : Text) : Text := text ++ ['\n']

/-- The line ends of all kinds as line feeds. -/
def unifyLineEnds : Text → Text
  | '\r' :: '\n' :: rest => '\n' :: unifyLineEnds rest
  | '\r' :: rest => '\n' :: unifyLineEnds rest
  | c :: rest => c :: unifyLineEnds rest
  | [] => []

/-- A text without the line feeds at its end. -/
def dropFinalLineFeeds (text : Text) : Text := (text.reverse.dropWhile (· == '\n')).reverse

/-- A field given as an argument, or else the standard input.  A hyphen stands for the latter. -/
def fieldOf (environment : Environment) : Option Text → Text
  | some field =>
      if field = ['-'] then dropFinalLineFeeds (unifyLineEnds environment.input) else field
  | none => dropFinalLineFeeds (unifyLineEnds environment.input)

/-! ## Settings -/

/-- Whether a path leads to anything. -/
def Environment.leads (environment : Environment) (path : Text) : Bool :=
  (environment.files.walk environment.current path).isSome

/-- The settings in the file at a place. -/
def settingsAt (files : FileTree) (place : List Text) : Except SettingsError Settings :=
  match files.entry? place with
  | some (.file text) => Settings.ofText text
  | some .directory => .error .isDirectory
  | none => .error .missing

/-- The settings in the file that is named, or else in the nearest configuration.  Without either,
they are the defaults. -/
def loadSettings (environment : Environment) (named : Option Text) :
    Except SettingsError Settings :=
  match named with
  | some path =>
      match environment.files.walk environment.current path with
      | some place => settingsAt environment.files place
      | none => .error .missing
  | none =>
      match environment.files.findConfig environment.current with
      | some place => settingsAt environment.files place
      | none => .ok {}

/-! ## Requests -/

/-- What `parse` is asked to do. -/
structure ParseRequest where
  /-- The field, if it is given as an argument. -/
  field : Option Text := none
  /-- Whether only the canonical form is written. -/
  canonicalOnly : Bool := false
  /-- Whether only the display form is written. -/
  displayOnly : Bool := false
  /-- The host that stands in for missing domains, whatever the settings say. -/
  defaultHost : Option Text := none
  /-- Whether rules are traced, even if the settings do not ask for it. -/
  trace : Bool := false
  /-- The path of the configuration, if it is named. -/
  config : Option Text := none

/-- A command with its arguments. -/
inductive Request where
  /-- The version. -/
  | version
  /-- The forms of a field. -/
  | parse (request : ParseRequest)
  /-- The tokens of a field. -/
  | tokens (field : Text)
  /-- A text as a word. -/
  | quote (text : Text)
  /-- A word as a text. -/
  | unquote (text : Text)

/-- Whether a request reads the standard input. -/
def Request.readsInput : Request → Bool
  | .parse request => request.field.isNone || request.field == some ['-']
  | _ => false

/-! ## Consoles -/

/-- What stands between the commands and the world. -/
structure Console where
  /-- The request that some words make, if they make one.  All that is asked of the files is which
  paths lead to anything. -/
  read : (leads : Text → Bool) → List Text → Option Request
  /-- What a stream gets of a text, depending on whether it takes colours. -/
  echo : (colored : Bool) → Text → Text

/-- Streams with colours get every text as it is, and others get it without escape sequences. -/
structure Console.Echoes (console : Console) : Prop where
  colored : ∀ text, console.echo true text = text
  plain : ∀ text, console.echo false text = Terminal.strip text

/-! ## Commands -/

section Commands

variable (console : Console) (environment : Environment)

/-- The canonicalization of a request under some settings. -/
def ParseRequest.canonicalization (request : ParseRequest) (settings : Settings) :
    Canonicalization :=
  match request.defaultHost with
  | some host => .defaultHost host
  | none => settings.canonicalization

/-- The lines of a fault on the error stream. -/
def faultText (settings : Settings) (field : Text) (fault : Fault) : Text :=
  console.echo environment.errorColored
    (asLine ((Diagnostic.ofFault fault).render settings.color.isSet field))

/-- The forms of a field, or its fault. -/
def parse (request : ParseRequest) : Response :=
  match loadSettings environment request.config with
  | .error error => .unsettled error
  | .ok settings =>
      let tracing := request.trace || settings.trace.isSet
      let f := (request.canonicalization settings).apply
      let field := fieldOf environment request.field
      let reading := readField tracing field
      let log := if tracing then (reading.log f field).flatMap asLine else []
      let shown := console.echo environment.outputColored
      match Parse.ofReading f reading with
      | .accepted display canonical =>
          .finished 0
            ((if request.canonicalOnly then [] else shown (asLine display)) ++
              if request.displayOnly then [] else shown canonical) log
      | .rejected fault =>
          .finished 1 [] (log ++ faultText console environment settings field fault)

/-- The tokens of a field, one on each line, or its fault.  The settings are only needed for the
fault. -/
def tokens (field : Text) : Response :=
  match tokenize field with
  | .ok tokens =>
      let line (token : Token) : Text :=
        console.echo environment.outputColored (asLine token.line)
      .finished 0 (tokens.flatMap line) []
  | .error stuck =>
      match loadSettings environment none with
      | .error error => .unsettled error
      | .ok settings => .finished 1 [] (faultText console environment settings field stuck.fault)

/-- A text on a line. -/
def echo (text : Text) : Response :=
  .finished 0 (console.echo environment.outputColored (asLine text)) []

/-- The version of the program. -/
def versionLine : Text := "rfc822addr, version 0.1.0".toList

/-- What becomes of a request. -/
def respond : Request → Response
  | .version => echo console environment versionLine
  | .parse request => parse console environment request
  | .tokens field => tokens console environment field
  | .quote text => echo console environment (MailAddress.quote text)
  | .unquote text => echo console environment (MailAddress.unquote text)

/-- What becomes of a list of words. -/
def run (words : List Text) : Response :=
  match console.read environment.leads words with
  | some request => respond console environment request
  | none => .misused

end Commands

/-! ## Options -/

/-- An option of a command. -/
structure OptionSpec where
  /-- Its name, with the hyphens. -/
  name : Text
  /-- Whether it takes a value. -/
  takesValue : Bool

/-- The options of `parse`. -/
def parseOptions : List OptionSpec :=
  [⟨"--canonical-only".toList, false⟩, ⟨"--display-only".toList, false⟩,
    ⟨"--default-host".toList, true⟩, ⟨"--trace".toList, false⟩, ⟨"--config".toList, true⟩]

/-- The request of some options, with their values if they have one, and of a field.  The last value
of a repeated option counts. -/
def ParseRequest.ofOptions (options : List (Text × Option Text)) (field : Option Text) :
    ParseRequest :=
  let isGiven (name : String) : Bool := options.any fun option => option.1 == name.toList
  let value? (name : String) : Option Text := (options.reverse.lookup name.toList).join
  { field
    canonicalOnly := isGiven "--canonical-only"
    displayOnly := isGiven "--display-only"
    defaultHost := value? "--default-host"
    trace := isGiven "--trace"
    config := value? "--config" }

end MailAddress.Command
