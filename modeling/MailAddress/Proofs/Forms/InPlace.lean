import MailAddress.Field
import MailAddress.Proofs.Forms.Settled
import MailAddress.Proofs.Matching.Abandonment

/-!
# Forms made in place

A rule gives a part of a field, and the forms are written when the whole field is accepted.  The
rules of this module write the forms themselves, from address specifications on.  They call the
function for the final domains as soon as a specification is matched, also in an alternative that is
given up later, and pass on what it returns.

What the function returns is only ever put into the forms.  So these rules run as the others do, and
they match the forms of what the others match.
-/

namespace MailAddress

variable {α β γ δ : Type}

/-! ## Runs with other values -/

/-- An outcome with another value. -/
def Outcome.map (view : α → β) : Outcome α → Outcome β
  | .beyond => .beyond
  | .failed => .failed
  | .matched value rest => .matched (view value) rest

/-- A run with another value. -/
def Run.map (view : α → β) (run : Run α) : Run β := ⟨run.outcome.map view, run.events⟩

namespace Parser

/-! ## Rules that write forms -/

/-- The final domain as a function makes it, called here. -/
def makeDomain (f : Text → Text) (domain : Text) : Parser Text := do
  noteFinalDomain domain
  return f domain

/-- The forms of an address specification, with the final domain as it is made. -/
def addrSpecForms (f : Text → Text) : Parser Forms := do
  let first ← localPart
  let domains ← followers .atSign domain
  let relays := routeText domains.body.dropLast
  let made ← makeDomain f ((domains.body.getLast?.map Domain.text).getD [])
  return ⟨['.'].intercalate (first.body.map Word.display) ++ relays ++ '@' :: made,
    commentText first.comments ++ commentText domains.comments,
    ['.'].intercalate (first.body.map Word.content) ++ relays ++ '@' :: made ++ ['\n']⟩

/-- The forms of an address specification in angle brackets. -/
def routeAddrForms (f : Text → Text) : Parser Forms := do
  let before ← skipComments
  expect .lessThan
  let inside ← skipComments
  let relays ← attempt route
  let spec ← addrSpecForms f
  let after ← skipComments
  expect .greaterThan
  let relayComments := (relays.map Commented.comments).getD []
  return ⟨'<' :: spec.display ++ '>' :: (commentText (before ++ inside ++ relayComments) ++
    spec.deferred ++ commentText after), [], spec.canonical⟩

/-- The forms of a target with a name in front if there is one. -/
def namedForms (name : Option (Commented (List Word))) (target : Forms) : Forms :=
  match name with
  | none => target
  | some name =>
      ⟨name.display displayPhrase ++ ' ' :: (target.display ++ target.deferred), [], target.canonical⟩

/-- The forms of angle brackets with a name in front if there is one. -/
def routeSpecForms (f : Text → Text) : Parser Forms := do
  let name ← attempt phrase
  let target ← routeAddrForms f
  return namedForms name target

/-- The forms of a mailbox. -/
def mailboxForms (f : Text → Text) : Parser Forms := (routeSpecForms f).orElse (addrSpecForms f)

/-- The forms of members, each with the comments behind it. -/
def listForms (list : List (Commented Forms)) : Forms :=
  ⟨[',', ' '].intercalate (list.map fun member =>
    member.body.display ++ member.body.deferred ++ commentText member.comments), [],
    list.flatMap fun member => member.body.canonical⟩

/-- The forms of a list of members. -/
def membersForms (member : Parser Forms) : Parser Forms := do
  return listForms (← members member)

/-- The forms of a group. -/
def groupForms (f : Text → Text) : Parser Forms := do
  let name ← phrase
  expect .colon
  let list ← attempt (membersForms (mailboxForms f))
  let comments ← skipComments
  expect .semicolon
  let inside := list.getD ⟨[], [], []⟩
  return ⟨displayPhrase name.body ++ ':' :: ' ' :: inside.display ++ commentText comments ++ [';'], [],
    inside.canonical⟩

/-- The forms of a member of a field. -/
def addressForms (f : Text → Text) : Parser Forms := (groupForms f).orElse (mailboxForms f)

/-- The forms of a whole field. -/
def addressesForms (f : Text → Text) : Parser Forms := do
  match ← attempt (membersForms (addressForms f)) with
  | none => stop
  | some forms => if ← nextIs .endOfText then return forms else stop

/-! ## The rules agree -/

/-- One parser runs as the other, and what it matches is a view of what the other matches. -/
def Shows (shown : Parser β) (parser : Parser α) (view : α → β) : Prop :=
  ∀ tokens, shown false tokens = (parser false tokens).map view

namespace Shows

variable {shown : Parser β} {parser : Parser α} {view : α → β}

theorem pure {value : α} {result : β} (same : result = view value) :
    (Pure.pure result : Parser β).Shows (Pure.pure value) view := by
  subst same
  exact fun _ => rfl

theorem stop : (Parser.stop : Parser β).Shows Parser.stop view := fun _ => rfl

theorem bind {onward_shown : β → Parser δ} {onward : α → Parser γ} {onward_view : γ → δ}
    (first : shown.Shows parser view)
    (second : ∀ value, (onward_shown (view value)).Shows (onward value) onward_view) :
    (shown >>= onward_shown).Shows (parser >>= onward) onward_view := by
  intro tokens
  change (shown false tokens).andThen _ = ((parser false tokens).andThen _).map onward_view
  rw [first tokens]
  unfold Run.andThen Run.map
  cases (parser false tokens).outcome with
  | beyond => rfl
  | failed => rfl
  | matched value rest =>
      dsimp only [Outcome.map]
      rw [second value rest]
      rfl

theorem refl (parser : Parser α) : parser.Shows parser id := by
  intro tokens
  obtain ⟨outcome, events⟩ := parser false tokens
  cases outcome <;> rfl

/-- The same parser comes first. -/
theorem behind {onward_shown : α → Parser δ} {onward : α → Parser γ} {onward_view : γ → δ}
    (second : ∀ value, (onward_shown value).Shows (onward value) onward_view) :
    (parser >>= onward_shown).Shows (parser >>= onward) onward_view :=
  (refl parser).bind second

theorem attempt (first : shown.Shows parser view) :
    shown.attempt.Shows parser.attempt (Option.map view) := by
  intro tokens
  unfold Parser.attempt
  rw [first tokens]
  generalize parser false tokens = run
  obtain ⟨outcome, events⟩ := run
  cases outcome <;> rfl

theorem orElse {other_shown : Parser β} {other : Parser α} (first : shown.Shows parser view)
    (second : other_shown.Shows other view) :
    (shown.orElse other_shown).Shows (parser.orElse other) view := by
  refine first.attempt.bind fun found => ?_
  cases found with
  | none => exact second
  | some value => exact .pure rfl

/-- What is shown of a value is shown as well of what is made of the value. -/
theorem made {make : α → γ} {make_view : γ → β} (first : shown.Shows parser view)
    (same : ∀ value, make_view (make value) = view value) :
    shown.Shows (parser >>= fun value => Pure.pure (make value)) make_view := by
  intro tokens
  change shown false tokens = ((parser false tokens).andThen _).map make_view
  rw [first tokens]
  generalize parser false tokens = run
  obtain ⟨outcome, events⟩ := run
  cases outcome with
  | beyond => rfl
  | failed => rfl
  | matched value rest =>
      simp [Run.map, Run.andThen, Outcome.map, same, Pure.pure]

/-- What is made of what is shown is another view. -/
theorem remade (make : β → γ) (first : shown.Shows parser view) :
    (shown >>= fun value => Pure.pure (make value)).Shows parser (make ∘ view) := by
  intro tokens
  change (shown false tokens).andThen _ = (parser false tokens).map (make ∘ view)
  rw [first tokens]
  generalize parser false tokens = run
  obtain ⟨outcome, events⟩ := run
  cases outcome with
  | beyond => rfl
  | failed => rfl
  | matched value rest => simp [Run.map, Run.andThen, Outcome.map, Pure.pure]

/-- The members of a list with another view of each. -/
def viewMembers (view : α → β) (list : List (Commented α)) : List (Commented β) :=
  list.map fun member => ⟨view member.body, member.comments⟩

theorem membersWithin (member : shown.Shows parser view) (bound : Nat) (first : α) :
    (Parser.membersWithin shown bound (view first)).Shows (Parser.membersWithin parser bound first)
      (viewMembers view) := by
  induction bound generalizing first with
  | zero => exact fun _ => rfl
  | succ bound ih =>
      refine behind fun after => behind fun finish => ?_
      cases finish with
      | true => exact .pure rfl
      | false =>
          refine member.attempt.bind fun found => ?_
          cases found with
          | none => exact .pure rfl
          | some second => exact (ih second).bind fun others => .pure rfl

theorem members (member : shown.Shows parser view) :
    (Parser.members shown).Shows (Parser.members parser) (viewMembers view) :=
  member.bind fun first tokens => membersWithin member tokens.length first tokens

end Shows

/-! ## Rules -/

variable (f : Text → Text)

theorem addrSpecForms_shows : (addrSpecForms f).Shows addrSpec (Rule.addrSpec.forms f) := by
  refine .behind fun first => .behind fun domains tokens => ?_
  simp [makeDomain, noteFinalDomain, Run.map, Outcome.map, Rule.forms, AddrSpec.display,
    AddrSpec.line, AddrSpec.write, AddrSpec.finalDomain, commentText_append]

theorem routeAddrForms_shows : (routeAddrForms f).Shows routeAddr (Rule.routeAddr.forms f) := by
  refine .behind fun before => .behind fun _ => .behind fun inside => .behind fun relays => ?_
  refine (addrSpecForms_shows f).bind fun spec => .behind fun after => .behind fun _ => .pure ?_
  simp [Rule.forms, Commented.display, AddrSpec.displayAngle, commentText_append]

theorem routeSpecForms_shows : (routeSpecForms f).Shows routeSpec (Rule.routeSpec.forms f) := by
  refine .behind fun name => (routeAddrForms_shows f).bind fun target => .pure ?_
  cases name with
  | none => rfl
  | some name =>
      simp [namedForms, Rule.forms, Mailbox.display, Mailbox.deferred, commentText,
        Mailbox.canonical, Mailbox.spec]

theorem mailboxForms_shows : (mailboxForms f).Shows mailbox (Rule.mailbox.forms f) :=
  .orElse (routeSpecForms_shows f) ((addrSpecForms_shows f).made fun _ => rfl)

/-- The forms of members are made of the display and the lines of each. -/
theorem listForms_viewMembers {view : α → Forms} {write : α → Text}
    (written : ∀ body, write body = (view body).display ++ (view body).deferred)
    (list : List (Commented α)) :
    listForms (Shows.viewMembers view list) =
      ⟨displayMembers write list, [], list.flatMap fun member => (view member.body).canonical⟩ := by
  have shown : Commented.display write = fun member =>
      (view member.body).display ++ (view member.body).deferred ++ commentText member.comments := by
    funext member
    rw [Commented.display, written]
  simp [listForms, Shows.viewMembers, displayMembers, shown, Function.comp_def, List.flatMap_map]

theorem mailboxesForms_shows :
    (membersForms (mailboxForms f)).Shows mailboxes (Rule.mailboxes.forms f) := by
  have same : listForms ∘ Shows.viewMembers (Rule.mailbox.forms f) = Rule.mailboxes.forms f :=
    funext fun list => listForms_viewMembers (fun _ => rfl) list
  rw [← same]
  exact (mailboxForms_shows f).members.remade listForms

theorem groupForms_shows : (groupForms f).Shows group (Rule.group.forms f) := by
  refine .behind fun name => .behind fun _ => (mailboxesForms_shows f).attempt.bind fun list =>
    .behind fun comments => .behind fun _ => .pure ?_
  cases list with
  | none => simp [Rule.forms, Group.display, Group.canonical, displayMembers]
  | some list => simp [Rule.forms, Group.display, Group.canonical]

theorem addressForms_shows : (addressForms f).Shows address (Rule.address.forms f) :=
  .orElse ((groupForms_shows f).made fun _ => rfl) ((mailboxForms_shows f).made fun _ => rfl)

/-- The rules that write the forms in place run as the rules that give the parts of a field. -/
theorem addressesForms_shows : (addressesForms f).Shows addresses (Rule.addresses.forms f) := by
  have shows_list : (membersForms (addressForms f)).Shows (members address)
      (Rule.addresses.forms f) := by
    have same : listForms ∘ Shows.viewMembers (Rule.address.forms f) = Rule.addresses.forms f :=
      funext fun list => listForms_viewMembers (fun _ => rfl) list
    rw [← same]
    exact (addressForms_shows f).members.remade listForms
  refine shows_list.attempt.bind fun list => ?_
  cases list with
  | none => exact .stop
  | some list =>
      refine .behind fun finish => ?_
      cases finish with
      | true => exact .pure rfl
      | false => exact .stop

end Parser

/-! ## Fields -/

/-- The parse of a field by the rules that write the forms in place. -/
def parseInPlace (f : Text → Text) (field : Text) : Parse :=
  match tokenize field with
  | .error stuck => .rejected stuck.fault
  | .ok tokens =>
      let run := Parser.addressesForms f false tokens
      match run.outcome with
      | .matched forms _ => .accepted forms.display forms.canonical
      | .failed | .beyond =>
          .rejected (faultAt field tokens ((Trace.stopIndex? tokens.length run.events).getD 0))

/-- What the function is called with while a field is parsed in place, kept or not. -/
def callsInPlace (f : Text → Text) (field : Text) : List Text :=
  match tokenize field with
  | .error _ => []
  | .ok tokens => Trace.finalDomains (Parser.addressesForms f false tokens).events

/-- Forms that are made in place are the forms of what is read. -/
theorem parseInPlace_eq (f : Text → Text) (field : Text) :
    parseInPlace f field = parseField f field := by
  unfold parseInPlace parseField readField
  cases tokenize field with
  | error stuck => rfl
  | ok tokens =>
      dsimp only
      rw [Parser.addressesForms_shows f tokens]
      generalize Parser.addresses false tokens = run
      obtain ⟨outcome, events⟩ := run
      cases outcome <;> rfl

/-- The calls are the final domains that are noted while the field is read. -/
theorem callsInPlace_eq (f : Text → Text) (field : Text) :
    callsInPlace f field = Trace.finalDomains (readField false field).events := by
  unfold callsInPlace
  cases lexed : tokenize field with
  | error stuck => simp [readField, lexed]
  | ok tokens =>
      show Trace.finalDomains (Parser.addressesForms f false tokens).events = _
      rw [events_readField lexed, Parser.addressesForms_shows f tokens]
      rfl

end MailAddress
