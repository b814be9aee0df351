import MailAddress.Command.Arguments
import MailAddress.Proofs.Showing.Canonical

/-!
# Commands as they are written

What `parse` is asked to do is written as its options, two hyphens and a field.  A console reads this
back if it follows the conventions of a command line, as the standard console does.  So what is known
of requests holds of commands.

A command that is asked for the canonical addresses of a field writes them unaltered on any console
that echoes, but for those with an escape sequence on a stream that takes no colours.
-/

namespace MailAddress

open Terminal

namespace Command

/-! ## Options as words -/

/-- An option that a command takes, with a value if it has one. -/
structure OptionSpec.Admits (spec : OptionSpec) (option : Text × Option Text) : Prop where
  name : spec.name = option.1
  value : spec.takesValue = option.2.isSome

/-- Options as words, each with its value as the next word. -/
def optionWords (options : List (Text × Option Text)) : List Text :=
  options.flatMap fun option => option.1 :: option.2.toList

/-- The words of `parse` with options and a field behind two hyphens. -/
def parseWords (options : List (Text × Option Text)) (field : Text) : List Text :=
  "parse".toList :: (optionWords options ++ [['-', '-'], field])

/-- The words of `parse` are read as the request of their options and their field, if it takes all the
options and the configuration they name is there, if they name one. -/
def Console.ReadsParse (console : Console) : Prop :=
  ∀ (leads : Text → Bool) (options : List (Text × Option Text)) (field : Text),
    (∀ option ∈ options, ∃ spec ∈ parseOptions, spec.Admits option) →
    (ParseRequest.ofOptions options (some field)).config.all leads = true →
    console.read leads (parseWords options field) =
      some (.parse (.ofOptions options (some field)))

/-! ## The standard console -/

/-- A name that is read as that of an option, with no value in it. -/
structure IsOptionName (name : Text) : Prop where
  hyphen : isOption name = true
  no_end : name ≠ ['-', '-']
  no_value : splitOption name = (name, none)

/-- The options of a command are found by their names. -/
structure AreSpecs (specs : List OptionSpec) : Prop where
  named : ∀ spec ∈ specs, IsOptionName spec.name
  found : ∀ spec ∈ specs, specs.find? (fun other => other.name == spec.name) = some spec

theorem areSpecs_parseOptions : AreSpecs parseOptions := by
  constructor
  · intro spec member
    simp only [parseOptions, List.mem_cons, List.not_mem_nil, or_false] at member
    rcases member with rfl | rfl | rfl | rfl | rfl <;> exact ⟨by decide, by decide, by decide⟩
  · intro spec member
    simp only [parseOptions, List.mem_cons, List.not_mem_nil, or_false] at member
    rcases member with rfl | rfl | rfl | rfl | rfl <;> rfl

section Words

variable {specs : List OptionSpec} {options : List (Text × Option Text)}

/-- An option is read with its value, and then what follows. -/
theorem readArguments_option (are_specs : AreSpecs specs) (mixed : Bool) {spec : OptionSpec}
    (member : spec ∈ specs) {value : Option Text} (takes : spec.takesValue = value.isSome)
    (rest : List Text) :
    readArguments specs mixed (spec.name :: (value.toList ++ rest)) =
      (readArguments specs mixed rest).map (·.withOption spec.name value) := by
  have option_name := are_specs.named spec member
  rw [readArguments, if_neg option_name.no_end, if_pos option_name.hyphen, option_name.no_value]
  cases value with
  | none => simp [are_specs.found spec member, takes]
  | some value => simp [are_specs.found spec member, takes]

/-- Options are read back from their words, and so is what follows two hyphens. -/
theorem readArguments_optionWords (are_specs : AreSpecs specs) (mixed : Bool)
    (admitted : ∀ option ∈ options, ∃ spec ∈ specs, spec.Admits option) (positional : List Text) :
    readArguments specs mixed (optionWords options ++ ['-', '-'] :: positional) =
      some ⟨options, positional⟩ := by
  induction options with
  | nil => simp [optionWords, readArguments]
  | cons option options ih =>
      obtain ⟨⟨spec, member, admits⟩, others⟩ := List.forall_mem_cons.1 admitted
      obtain ⟨name, value⟩ := option
      obtain ⟨rfl, takes⟩ := admits
      rw [optionWords, List.flatMap_cons, List.append_assoc, List.cons_append,
        readArguments_option are_specs mixed member takes]
      exact congrArg (Option.map _) (ih others)

end Words

/-- The standard console reads the words of `parse`. -/
theorem Console.standard_readsParse : Console.standard.ReadsParse := by
  intro leads options field admitted named
  have general : readGeneral (parseWords options field) = some ⟨[], parseWords options field⟩ := by
    rw [parseWords, readGeneral, readArguments, if_neg (by decide), if_neg (by decide),
      if_neg (by decide)]
  have words := readArguments_optionWords areSpecs_parseOptions true admitted [field]
  have request : ParseRequest.ofArguments? leads ⟨options, [field]⟩ =
      some (.ofOptions options (some field)) := by
    simp [ParseRequest.ofArguments?, named]
  change Request.ofWords? leads (parseWords options field) = _
  rw [Request.ofWords?, general, parseWords]
  simp only [Option.bind_eq_bind, Option.bind_some, List.isEmpty_nil, if_true, words, request,
    Option.pure_def]

/-! ## Printing -/

section Printing

variable {console : Console} {environment : Environment} {options : List (Text × Option Text)}
  {field : Text} {request : ParseRequest} {settings : Settings} {list : AddressList}

/-- A configuration that is named and loads is there. -/
theorem all_leads_of_loads {named : Option Text}
    (loads : loadSettings environment named = .ok settings) :
    named.all environment.leads = true := by
  cases named with
  | none => rfl
  | some path =>
      rw [loadSettings] at loads
      split at loads
      next place found => simp [Environment.leads, found]
      next => cases loads

/-- A console that reads the words of `parse` runs the request they make. -/
theorem run_parseWords (reads : console.ReadsParse)
    (admitted : ∀ option ∈ options, ∃ spec ∈ parseOptions, spec.Admits option)
    (asked : ParseRequest.ofOptions options (some field) = request)
    (loads : loadSettings environment request.config = .ok settings) :
    run console environment (parseWords options field) = parse console environment request := by
  subst asked
  rw [run, reads environment.leads options field admitted (all_leads_of_loads loads)]
  rfl

/-- What is logged of a field when rules are traced. -/
def logText (tracing : Bool) (f : Text → Text) (field : Text) : Text :=
  if tracing then ((readField tracing field).log f field).flatMap asLine else []

/-- The canonical form is handed to the output stream, whether rules are traced or not. -/
theorem parse_of_accepted (argument : request.field = some field)
    (canonical_only : request.canonicalOnly = true) (not_display : request.displayOnly = false)
    (no_hyphen : field ≠ ['-'])
    (loads : loadSettings environment request.config = .ok settings)
    (accepted : (parseField (request.canonicalization settings).apply field).isAccepted = true) :
    parse console environment request = .finished 0
      (console.echo environment.outputColored
        (parseField (request.canonicalization settings).apply field).canonical)
      (logText (request.trace || settings.trace.isSet) (request.canonicalization settings).apply
        field) := by
  obtain ⟨list, verdict⟩ := exists_verdict_of_isAccepted accepted
  have traced : (readField (request.trace || settings.trace.isSet) field).verdict = .ok list :=
    verdict_eq_ok_iff.2 (verdict_eq_ok_iff.1 verdict)
  have read : fieldOf environment request.field = field := by
    rw [argument, fieldOf, if_neg no_hyphen]
  rw [parseField_eq_accepted verdict]
  unfold parse Parse.ofReading
  simp only [loads, read, traced, canonical_only, not_display]
  rfl

/-- Escape sequences can only come from the field or from the default host. -/
theorem showsWhole_of_not_mem {canonicalization : Canonicalization}
    (verdict : (readField false field).verdict = .ok list) (free : escape ∉ field)
    (host_free : escape ∉ canonicalization.apply []) :
    ∀ mailbox ∈ list.mailboxes, mailbox.ShowsWhole canonicalization := by
  obtain ⟨tokens, lexed, derived⟩ := verdict_eq_ok_iff.1 verdict
  have formed := isFormed_of_isAddressList lexed derived (isAllowed_of_not_mem lexed free)
  intro mailbox member
  refine ⟨fun content inside => ?_, fun _ => isUncolored_of_not_mem host_free⟩
  exact isUncolored_of_not_mem ((formed.mailboxes mailbox member).spec.words.2 _ inside)

/-- A stream shows the canonical form unaltered if and only if it takes colours or no escape sequence
gets into any address. -/
theorem echo_canonical_eq_self_iff (echoes : console.Echoes) (colored : Bool)
    (canonicalization : Canonicalization) (verdict : (readField false field).verdict = .ok list) :
    console.echo colored (list.canonical canonicalization.apply) =
        list.canonical canonicalization.apply ↔
      colored = true ∨ ∀ mailbox ∈ list.mailboxes, mailbox.ShowsWhole canonicalization := by
  obtain ⟨tokens, lexed, derived⟩ := verdict_eq_ok_iff.1 verdict
  have formed : list.IsFormed fun _ => True :=
    isFormed_of_isAddressList lexed derived fun _ _ => ⟨fun _ => trivial, fun _ => trivial⟩
  rw [← formed.isUncolored_canonical_iff]
  cases colored with
  | true => exact iff_of_true (echoes.colored _) (.inl rfl)
  | false => rw [echoes.plain, strip_eq_self_iff, or_iff_right Bool.false_ne_true]

/-- A command that is asked for the canonical addresses only, of a field that is accepted, is through
without an error and writes them.  They are unaltered if and only if the output stream takes colours
or no escape sequence gets into any address by a quoted word or the default host.  Without an escape
character in the field and in the default host, they are unaltered. -/
theorem run_parse_canonicalOnly (echoes : console.Echoes) (reads : console.ReadsParse)
    (admitted : ∀ option ∈ options, ∃ spec ∈ parseOptions, spec.Admits option)
    (asked : ParseRequest.ofOptions options (some field) = request)
    (canonical_only : request.canonicalOnly = true) (not_display : request.displayOnly = false)
    (no_hyphen : field ≠ ['-'])
    (loads : loadSettings environment request.config = .ok settings)
    (accepted : (parseField (request.canonicalization settings).apply field).isAccepted = true) :
    ∃ list log, (readField false field).verdict = .ok list ∧
      run console environment (parseWords options field) = parse console environment request ∧
      parse console environment request = .finished 0
        (console.echo environment.outputColored
          (parseField (request.canonicalization settings).apply field).canonical) log ∧
      (console.echo environment.outputColored
            (parseField (request.canonicalization settings).apply field).canonical =
          (parseField (request.canonicalization settings).apply field).canonical ↔
        environment.outputColored = true ∨
          ∀ mailbox ∈ list.mailboxes, mailbox.ShowsWhole (request.canonicalization settings)) ∧
      (escape ∉ field → escape ∉ (request.canonicalization settings).apply [] →
        console.echo environment.outputColored
            (parseField (request.canonicalization settings).apply field).canonical =
          (parseField (request.canonicalization settings).apply field).canonical) := by
  obtain ⟨list, verdict⟩ := exists_verdict_of_isAccepted accepted
  have canonical : (parseField (request.canonicalization settings).apply field).canonical =
      list.canonical (request.canonicalization settings).apply := by
    rw [parseField_eq_accepted verdict]
    rfl
  have unaltered := echo_canonical_eq_self_iff echoes environment.outputColored
    (request.canonicalization settings) verdict
  rw [← canonical] at unaltered
  have argument : request.field = some field := by rw [← asked]; rfl
  refine ⟨list, _, verdict, run_parseWords reads admitted asked loads,
    parse_of_accepted argument canonical_only not_display no_hyphen loads accepted, unaltered,
    fun free host_free => unaltered.2 (.inr ?_)⟩
  exact showsWhole_of_not_mem verdict free host_free

end Printing

section Bold

/-- A quoted word holds a sequence that switches to bold. -/
def boldField : Text := "\"\x1b[1ma\"@b".toList

/-- Nothing but the canonical form is asked for. -/
def plainOptions : List (Text × Option Text) := [("--canonical-only".toList, none)]

theorem admits_plainOptions : ∀ option ∈ plainOptions, ∃ spec ∈ parseOptions, spec.Admits option :=
  List.forall_mem_singleton.2 ⟨_, List.mem_cons_self, rfl, rfl⟩

/-- The request for the canonical form of that field. -/
def boldRequest : ParseRequest := { field := some boldField, canonicalOnly := true }

theorem asked_boldField : ParseRequest.ofOptions plainOptions (some boldField) = boldRequest :=
  rfl

theorem loads_boldRequest (colored : Bool) :
    loadSettings { outputColored := colored } boldRequest.config = .ok {} :=
  rfl

theorem isAccepted_boldField :
    (parseField (boldRequest.canonicalization {}).apply boldField).isAccepted = true := by
  decide +kernel

theorem canonical_boldField :
    (parseField (boldRequest.canonicalization {}).apply boldField).canonical =
      "\x1b[1ma@b\n".toList := by
  decide +kernel

/-- A stream without colours gets another address than the one that was parsed. -/
theorem run_parse_of_boldField :
    run .standard {} (["parse", "--canonical-only", "--", "\"\x1b[1ma\"@b"].map String.toList) =
        .finished 0 "a@b\n".toList [] ∧
      (parseField id "\"\x1b[1ma\"@b".toList).canonical = "\x1b[1ma@b\n".toList := by
  have runs := run_parseWords Console.standard_readsParse admits_plainOptions asked_boldField
    (loads_boldRequest false)
  have finished : parse .standard {} boldRequest = _ :=
    parse_of_accepted rfl rfl rfl (by decide) (loads_boldRequest false) isAccepted_boldField
  have written : strip "\x1b[1ma@b\n".toList = "a@b\n".toList := by decide
  rw [canonical_boldField, Console.standard_echoes.plain, written] at finished
  exact ⟨runs.trans finished, canonical_boldField⟩

/-- A stream with colours gets the address that was parsed. -/
theorem run_parse_canonicalOnly_of_boldField :
    ∃ log, run .standard { outputColored := true }
        (["parse", "--canonical-only", "--", "\"\x1b[1ma\"@b"].map String.toList) =
      .finished 0 "\x1b[1ma@b\n".toList log := by
  obtain ⟨list, log, -, runs, finished, unaltered, -⟩ :=
    run_parse_canonicalOnly Console.standard_echoes Console.standard_readsParse admits_plainOptions
      asked_boldField rfl rfl (by decide) (loads_boldRequest true) isAccepted_boldField
  rw [unaltered.2 (.inl rfl), canonical_boldField] at finished
  exact ⟨log, runs.trans finished⟩

end Bold

end Command

end MailAddress
