import MailAddress.Command.Arguments
import MailAddress.Proofs.Showing.Diagnostics

/-!
# Configurations that ask for colours

Whether a configuration asks for colours is seen in the diagnostics and nowhere else.  On an error
stream that takes none it is not seen there either.  So if one configuration is replaced by another
that differs in this only, every command does the same as before, on any console that echoes.
-/

namespace MailAddress

/-! ## The same but for colours -/

/-- What two configurations give, if they differ in colours at most. -/
inductive Settings.SameButColor :
    Except SettingsError Settings → Except SettingsError Settings → Prop
  /-- Both are refused for the same reason. -/
  | error (reason : SettingsError) : SameButColor (.error reason) (.error reason)
  /-- All other settings are the same. -/
  | ok (settings : Settings) (color : Toml.Value) :
      SameButColor (.ok settings) (.ok { settings with color })

theorem Settings.SameButColor.refl (loaded : Except SettingsError Settings) :
    SameButColor loaded loaded := by
  cases loaded with
  | error reason => exact .error reason
  | ok settings => exact .ok settings settings.color

namespace FileTree

/-- What stands at a place in two trees. -/
inductive Entry.SameButColor : Option Entry → Option Entry → Prop
  /-- There is nothing. -/
  | none : SameButColor .none .none
  /-- There is a directory. -/
  | directory : SameButColor (some .directory) (some .directory)
  /-- There is a file, and as a configuration it gives the same but for colours. -/
  | file {first second : Text} :
      Settings.SameButColor (Settings.ofText first) (Settings.ofText second) →
      SameButColor (some (.file first)) (some (.file second))

theorem Entry.SameButColor.refl (entry : Option Entry) : SameButColor entry entry := by
  cases entry with
  | none => exact .none
  | some entry =>
      cases entry with
      | directory => exact .directory
      | file text => exact .file (.refl _)

/-- Two trees, if the configurations in them differ in colours at most. -/
def SameButColor (first second : FileTree) : Prop :=
  ∀ place, Entry.SameButColor (first.entry? place) (second.entry? place)

/-- A file is replaced. -/
theorem sameButColor_replace (tree : FileTree) (place : List Text) {text other : Text}
    (same : Settings.SameButColor (Settings.ofText text) (Settings.ofText other)) :
    SameButColor { tree with files := (place, text) :: tree.files }
      { tree with files := (place, other) :: tree.files } := by
  intro at_place
  unfold entry?
  by_cases here : at_place = place
  · subst here
    simp only [List.lookup_cons, beq_self_eq_true]
    exact .file same
  · have elsewhere : (at_place == place) = false := beq_eq_false_iff_ne.2 here
    simp only [List.lookup_cons, elsewhere, List.any_cons]
    exact .refl _

namespace SameButColor

variable {first second : FileTree}

theorem isSome_entry? (same : first.SameButColor second) (place : List Text) :
    (first.entry? place).isSome = (second.entry? place).isSome := by
  have here := same place
  generalize first.entry? place = entry, second.entry? place = other at here
  cases here <;> rfl

theorem walkFrom_eq (same : first.SameButColor second) (place : List Text) (names : List Text) :
    walkFrom first place names = walkFrom second place names := by
  induction names generalizing place with
  | nil => rfl
  | cons name names ih =>
      have here := same place
      have next := same (step place name)
      rw [walkFrom, walkFrom]
      generalize first.entry? place = entry, second.entry? place = other at here
      generalize first.entry? (step place name) = next_entry,
        second.entry? (step place name) = next_other at next
      cases here with
      | directory =>
          cases next with
          | none => rfl
          | _ => exact ih (step place name)
      | _ => rfl

theorem walk_eq (same : first.SameButColor second) (current : List Text) (path : Text) :
    first.walk current path = second.walk current path := by
  rw [walk, walk, same.walkFrom_eq]

theorem findConfig_eq (same : first.SameButColor second) (place : List Text) :
    first.findConfig place = second.findConfig place := by
  have here := same place
  unfold findConfig
  generalize first.entry? place = entry, second.entry? place = other at here
  cases here <;> simp only [same.isSome_entry?]

end SameButColor

end FileTree

namespace Command

/-! ## Loading -/

theorem settingsAt_sameButColor {first second : FileTree} (same : first.SameButColor second)
    (place : List Text) :
    Settings.SameButColor (settingsAt first place) (settingsAt second place) := by
  have here := same place
  unfold settingsAt
  generalize first.entry? place = entry, second.entry? place = other at here
  cases here with
  | none => exact .refl _
  | directory => exact .error _
  | file settings => exact settings

/-- Two environments, if a command sees the same of them but for the colours that configurations ask
for, and no error stream takes any. -/
structure Environment.SameButColor (first second : Environment) : Prop where
  files : first.files.SameButColor second.files
  current : first.current = second.current
  input : first.input = second.input
  outputColored : first.outputColored = second.outputColored
  first_plain : first.errorColored = false
  second_plain : second.errorColored = false

section Commands

variable {console : Console} {environment first second : Environment} {settings : Settings}
  {field : Text} {fault : Fault}

theorem leads_eq (same : first.SameButColor second) : first.leads = second.leads := by
  funext path
  rw [Environment.leads, Environment.leads, same.current, same.files.walk_eq]

theorem loadSettings_sameButColor (same : first.SameButColor second) (named : Option Text) :
    Settings.SameButColor (loadSettings first named) (loadSettings second named) := by
  cases named with
  | none =>
      rw [loadSettings, loadSettings, same.current, same.files.findConfig_eq]
      cases second.files.findConfig second.current with
      | none => exact .refl _
      | some place => exact settingsAt_sameButColor same.files place
  | some path =>
      rw [loadSettings, loadSettings, same.current, same.files.walk_eq]
      cases second.files.walk second.current path with
      | none => exact .error _
      | some place => exact settingsAt_sameButColor same.files place

/-! ## Commands -/

/-- On a stream without colours, a fault is shown as without any colours asked for. -/
theorem faultText_eq_strip (echoes : console.Echoes) (plain : environment.errorColored = false) :
    faultText console environment settings field fault =
      Terminal.strip (asLine ((Diagnostic.ofFault fault).render false field)) := by
  have feed : ∀ text, Terminal.strip (asLine text) = Terminal.strip text ++ ['\n'] :=
    fun _ => Terminal.strip_append_cons (by decide)
  rw [faultText, plain, echoes.plain, feed, Diagnostic.strip_render settings.color.isSet, ← feed]

theorem fieldOf_eq (same : first.input = second.input) (argument : Option Text) :
    fieldOf first argument = fieldOf second argument := by
  unfold fieldOf
  rw [same]

theorem parse_eq (echoes : console.Echoes) (same : first.SameButColor second)
    (request : ParseRequest) : parse console first request = parse console second request := by
  have loaded := loadSettings_sameButColor same request.config
  unfold parse
  generalize loadSettings first request.config = settings,
    loadSettings second request.config = others at loaded
  cases loaded with
  | error reason => rfl
  | ok settings color =>
      simp only [fieldOf_eq same.input, same.outputColored,
        faultText_eq_strip echoes same.first_plain, faultText_eq_strip echoes same.second_plain]
      rfl

theorem tokens_eq (echoes : console.Echoes) (same : first.SameButColor second) (field : Text) :
    tokens console first field = tokens console second field := by
  have loaded := loadSettings_sameButColor same none
  unfold tokens
  generalize loadSettings first none = settings, loadSettings second none = others at loaded
  cases loaded with
  | error reason => rw [same.outputColored]
  | ok settings color =>
      simp only [same.outputColored, faultText_eq_strip echoes same.first_plain,
        faultText_eq_strip echoes same.second_plain]

/-- Every command does the same, whatever colours the configurations ask for. -/
theorem run_eq (echoes : console.Echoes) (same : first.SameButColor second) (words : List Text) :
    run console first words = run console second words := by
  rw [run, run, leads_eq same]
  cases console.read second.leads words with
  | none => rfl
  | some request =>
      cases request with
      | parse request => exact parse_eq echoes same request
      | tokens field => exact tokens_eq echoes same field
      | _ => simp only [respond, echo, same.outputColored]

end Commands

/-- On a stream that takes no colours, a diagnostic about a field is shown alike with colours and
without, whatever sequences its parts and the field hold or begin.  So on a console that echoes, the
commands whose error stream is such a one do not depend on the colours that configurations ask for. -/
theorem render_and_run_sameButColor :
    (∀ (diagnostic : Diagnostic) (field : Text),
      Terminal.strip (diagnostic.render true field) =
        Terminal.strip (diagnostic.render false field)) ∧
    ∀ console : Console, console.Echoes →
      ∀ first second : Environment, first.SameButColor second →
        (∀ request, parse console first request = parse console second request) ∧
        (∀ field, tokens console first field = tokens console second field) ∧
        ∀ words, run console first words = run console second words :=
  ⟨fun diagnostic field => diagnostic.strip_render true field, fun _ echoes _ _ same =>
    ⟨parse_eq echoes same, tokens_eq echoes same, run_eq echoes same⟩⟩

section Replacing

/-- Whether a configuration loads and sets nothing, except maybe colours. -/
def setsColorOnly : Except SettingsError Settings → Bool
  | .ok ⟨.string [], _, .boolean false⟩ => true
  | _ => false

theorem exists_color_of_setsColorOnly {loaded : Except SettingsError Settings}
    (sets : setsColorOnly loaded = true) : ∃ color, loaded = .ok { color } := by
  unfold setsColorOnly at sets
  split at sets
  next color => exact ⟨color, rfl⟩
  next => cases sets

theorem sameButColor_of_setsColorOnly {first second : Except SettingsError Settings}
    (first_sets : setsColorOnly first = true) (second_sets : setsColorOnly second = true) :
    Settings.SameButColor first second := by
  obtain ⟨color, rfl⟩ := exists_color_of_setsColorOnly first_sets
  obtain ⟨other, rfl⟩ := exists_color_of_setsColorOnly second_sets
  exact .ok { color } other

/-- Colours are asked for by what is no number. -/
def coloredText : Text := "[output]\ncolor = nan".toList

/-- Colours are refused by a zero, and a date stands beside it. -/
def plainText : Text := "[output]\ncolor = -0.0e5\nsince = 1982-08-13".toList

/-- The environment with a configuration in the current directory. -/
def configured (text : Text) : Environment :=
  { files := { files := [([FileTree.configName], text)] } }

theorem sameButColor_configured {text other : Text}
    (same : Settings.SameButColor (Settings.ofText text) (Settings.ofText other)) :
    (configured text).SameButColor (configured other) :=
  ⟨FileTree.sameButColor_replace {} [FileTree.configName] same, rfl, rfl, rfl, rfl, rfl⟩

/-- A configuration that asks for colours is replaced by one that refuses them. -/
theorem render_and_run_of_replaced :
    Terminal.strip (Diagnostic.render true ⟨"E\x1b[".toList, "1m".toList, 3, -2⟩ "\x1b[4".toList) =
        Terminal.strip (Diagnostic.render false ⟨"E\x1b[".toList, "1m".toList, 3, -2⟩ "\x1b[4".toList) ∧
      run .standard (configured coloredText) (["parse", "--", "\x1b[1 >"].map String.toList) =
        run .standard (configured plainText) (["parse", "--", "\x1b[1 >"].map String.toList) := by
  obtain ⟨shown, same_commands⟩ := render_and_run_sameButColor
  have same : Settings.SameButColor (Settings.ofText coloredText) (Settings.ofText plainText) :=
    sameButColor_of_setsColorOnly (by decide +kernel) (by decide +kernel)
  obtain ⟨-, -, same_run⟩ := same_commands .standard Console.standard_echoes _ _
    (sameButColor_configured same)
  exact ⟨shown _ _, same_run _⟩

end Replacing

end Command

end MailAddress
