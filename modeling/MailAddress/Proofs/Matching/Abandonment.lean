import Mathlib.Data.List.Forall2
import MailAddress.Proofs.Matching.Fields

/-!
# Final domains are asked for once

An alternative may be tried, match an address specification and fail behind it.  Its final domain
has been noted by then, and a canonicalizer has been called for it.  The next alternative reads the
same tokens, and notes it again.

In a field that is accepted this never happens.  The final domains that are noted there are those of
the mailboxes, each once and in order.  What the rules that matched have noted comes to the same, so
there is nothing left for a rule that failed.
-/

namespace MailAddress

open MailAddress.Derivation

/-! ## What is retained of some events -/

namespace Trace

variable {events others inside behind : List Event} {kept more : List Text}

@[simp] theorem finalDomains_nil : finalDomains [] = [] := rfl

@[simp] theorem finalDomains_append :
    finalDomains (events ++ others) = finalDomains events ++ finalDomains others :=
  List.filterMap_append

@[simp] theorem finalDomains_finalDomain (domain : Text) :
    finalDomains (.finalDomain domain :: events) = domain :: finalDomains events := rfl

@[simp] theorem finalDomains_stopped (rest : List Token) :
    finalDomains (.stopped rest :: events) = finalDomains events := rfl

@[simp] theorem finalDomains_entered (rule : Rule) (token : Token) :
    finalDomains (.entered rule token :: events) = finalDomains events := rfl

@[simp] theorem finalDomains_left (rule : Rule) (outcome : Outcome rule.Result) :
    finalDomains (.left rule outcome :: events) = finalDomains events := rfl

/-- Events in which all that happens in a rule stands between its beginning and its end, and the
final domains that are retained of them.  A rule that does not match retains none. -/
inductive Retains : List Event → List Text → Prop
  /-- Nothing happens. -/
  | nil : Retains [] []
  /-- A final domain is noted. -/
  | noted {behind : List Event} {kept : List Text} {domain : Text} :
      Retains behind kept → Retains (.finalDomain domain :: behind) (domain :: kept)
  /-- A field stops to be a list of addresses. -/
  | stopped {behind : List Event} {kept : List Text} {rest : List Token} :
      Retains behind kept → Retains (.stopped rest :: behind) kept
  /-- A rule matches. -/
  | matched {inside behind : List Event} {kept more : List Text} {rule : Rule} {token : Token}
      {value : rule.Result} {rest : List Token} :
      Retains inside kept → Retains behind more →
      Retains (.entered rule token :: (inside ++ .left rule (.matched value rest) :: behind))
        (kept ++ more)
  /-- A rule does not match. -/
  | dropped {inside behind : List Event} {kept more : List Text} {rule : Rule} {token : Token}
      {outcome : Outcome rule.Result} :
      (∀ value rest, outcome ≠ .matched value rest) → Retains inside kept → Retains behind more →
      Retains (.entered rule token :: (inside ++ .left rule outcome :: behind)) more

/-- Events in which all that happens in a rule stands between its beginning and its end, and no
final domain is noted in a rule that does not match. -/
inductive NothingAbandoned : List Event → Prop
  /-- Nothing happens. -/
  | nil : NothingAbandoned []
  /-- Something happens that is neither the beginning nor the end of a rule. -/
  | note {behind : List Event} {event : Event} :
      event.isNote = true → NothingAbandoned behind → NothingAbandoned (event :: behind)
  /-- A rule begins and ends, and either it matches or it notes no final domain. -/
  | rule {inside behind : List Event} {rule : Rule} {token : Token}
      {outcome : Outcome rule.Result} :
      NothingAbandoned inside → NothingAbandoned behind →
      (∃ value rest, outcome = .matched value rest) ∨ finalDomains inside = [] →
      NothingAbandoned (.entered rule token :: (inside ++ .left rule outcome :: behind))

namespace Retains

theorem append (first : Retains events kept) (second : Retains others more) :
    Retains (events ++ others) (kept ++ more) := by
  induction first with
  | nil => exact second
  | noted _ ih => exact .noted ih
  | stopped _ ih => exact .stopped ih
  | matched inside _ _ ih =>
      rw [List.cons_append, List.append_assoc, List.append_assoc]
      exact .matched inside ih
  | dropped other inside _ _ ih =>
      rw [List.cons_append, List.append_assoc]
      exact .dropped other inside ih

/-- What is retained is not more than what is noted. -/
theorem length_le (retains : Retains events kept) :
    kept.length ≤ (finalDomains events).length := by
  induction retains with
  | nil => exact le_rfl
  | noted _ ih => simpa using ih
  | stopped _ ih => simpa using ih
  | matched _ _ inside behind =>
      simp only [finalDomains_entered, finalDomains_append, finalDomains_left, List.length_append]
      omega
  | dropped _ _ _ _ behind =>
      simp only [finalDomains_entered, finalDomains_append, finalDomains_left, List.length_append]
      omega

/-- If as much is retained as is noted, no rule that failed has noted anything. -/
theorem nothingAbandoned (retains : Retains events kept)
    (all : kept.length = (finalDomains events).length) : NothingAbandoned events := by
  induction retains with
  | nil => exact .nil
  | noted _ ih => exact .note rfl (ih (by simpa using all))
  | stopped _ ih => exact .note rfl (ih all)
  | matched inside behind inside_ih behind_ih =>
      have inside_le := inside.length_le
      have behind_le := behind.length_le
      simp only [finalDomains_entered, finalDomains_append, finalDomains_left,
        List.length_append] at all
      exact .rule (inside_ih (by omega)) (behind_ih (by omega)) (.inl ⟨_, _, rfl⟩)
  | dropped other inside behind inside_ih behind_ih =>
      have inside_le := inside.length_le
      have behind_le := behind.length_le
      simp only [finalDomains_entered, finalDomains_append, finalDomains_left,
        List.length_append] at all
      exact .rule (inside_ih (by omega)) (behind_ih (by omega))
        (.inr (List.length_eq_zero_iff.1 (by omega)))

end Retains

end Trace

/-- What a view shows of the value that was read, and nothing if there is none. -/
def Outcome.shown {α : Type} (view : α → List Text) : Outcome α → List Text
  | .matched value _ => view value
  | .failed | .beyond => []

namespace Parser

open Trace

variable {α β : Type} {parser : Parser α} {before more : List Text} {view : α → List Text}

/-! ## Parsers that note nothing -/

/-- Nothing is retained of the runs of this parser. -/
def Silent (parser : Parser α) : Prop := ∀ tokens, Retains (parser true tokens).events []

namespace Silent

theorem bind {onward : α → Parser β} (first : parser.Silent)
    (second : ∀ value, (onward value).Silent) : (parser >>= onward).Silent := by
  intro tokens
  change Retains ((parser true tokens).andThen fun value rest => onward value true rest).events []
  have retains := first tokens
  unfold Run.andThen
  split
  next => exact retains
  next => exact retains
  next value rest _ => exact retains.append (second value rest)

theorem attempt (silent : parser.Silent) : parser.attempt.Silent := by
  intro tokens
  have retains := silent tokens
  unfold Parser.attempt
  dsimp only
  split <;> exact retains

theorem traced {rule : Rule} {body : Parser rule.Result} (silent : body.Silent) :
    (Parser.traced rule body).Silent := by
  intro tokens
  cases tokens with
  | nil => exact .nil
  | cons token tokens =>
      have retains := silent (token :: tokens)
      rw [Parser.traced]
      cases outcome : (body true (token :: tokens)).outcome with
      | beyond => exact .dropped (by simp) retains .nil
      | failed => exact .dropped (by simp) retains .nil
      | matched value rest => exact .matched retains .nil

theorem closed : Compositional Silent where
  pure _ _ := .nil
  bind := bind
  attempt := attempt
  fail _ := .nil
  beyond _ := .nil
  stop _ := .stopped .nil
  advance tokens := by cases tokens <;> exact .nil
  peekThen _ silent tokens := by
    cases tokens with
    | nil => exact .nil
    | cons token tokens => exact silent token (token :: tokens)
  skipComments _ := .nil
  skipSeparators _ := .nil
  bounded silent tokens := silent tokens.length tokens
  traced _ := traced

end Silent

/-! ## Parsers that note what they return -/

/-- What is retained of a run that matches, behind what was retained before it, is what a view shows
of its value. -/
def Accounts (parser : Parser α) (before : List Text) (view : α → List Text) : Prop :=
  ∀ tokens, ∃ kept, Retains (parser true tokens).events kept ∧
    ∀ value rest, (parser true tokens).outcome = .matched value rest → view value = before ++ kept

/-- What is retained of a run is what a view shows of its value, and nothing if there is none. -/
def Settles (parser : Parser α) (view : α → List Text) : Prop :=
  ∀ tokens, Retains (parser true tokens).events ((parser true tokens).outcome.shown view)

theorem Silent.accounts (silent : parser.Silent) : parser.Accounts before fun _ => before :=
  fun tokens => ⟨[], silent tokens, fun _ _ _ => (List.append_nil before).symm⟩

namespace Settles

theorem accounts (settles : parser.Settles view) (before : List Text) :
    parser.Accounts before fun value => before ++ view value := by
  intro tokens
  refine ⟨_, settles tokens, fun value rest matched => ?_⟩
  rw [matched, Outcome.shown]

theorem map {onward : α → β} {result : β → List Text} (settles : parser.Settles view)
    (same : ∀ value, result (onward value) = view value) :
    (parser >>= fun value => Pure.pure (onward value)).Settles result := by
  intro tokens
  have retains := settles tokens
  rw [run_bind]
  rcases run : parser true tokens with ⟨_ | _ | ⟨value, rest⟩, events⟩ <;> rw [run] at retains
  · exact retains
  · exact retains
  · simpa [Outcome.shown, same] using retains

/-- A parser that is tried shows nothing if it fails. -/
theorem attempt (settles : parser.Settles view) :
    parser.attempt.Settles fun found => found.elim [] view := by
  intro tokens
  have retains := settles tokens
  rw [Parser.attempt]
  rcases run : parser true tokens with ⟨_ | _ | ⟨value, rest⟩, events⟩ <;> rw [run] at retains
  · exact retains
  · exact retains
  · exact retains

end Settles

namespace Accounts

theorem pure (value : α) (same : view value = before) :
    (Pure.pure value : Parser α).Accounts before view := by
  intro tokens
  refine ⟨[], .nil, ?_⟩
  rintro _ _ ⟨rfl, rfl⟩
  rw [same, List.append_nil]

theorem bind {onward : α → Parser β} {result : β → List Text} (first : parser.Accounts before view)
    (second : ∀ value, (onward value).Accounts (view value) result) :
    (parser >>= onward).Accounts before result := by
  intro tokens
  change ∃ kept, Retains ((parser true tokens).andThen fun value rest =>
    onward value true rest).events kept ∧ ∀ value rest, ((parser true tokens).andThen
      fun value rest => onward value true rest).outcome = .matched value rest → _
  obtain ⟨kept, retains, shown⟩ := first tokens
  unfold Run.andThen
  cases outcome : (parser true tokens).outcome with
  | beyond => exact ⟨kept, retains, nofun⟩
  | failed => exact ⟨kept, retains, nofun⟩
  | matched value rest =>
      obtain ⟨more, behind, same⟩ := second value rest
      refine ⟨kept ++ more, retains.append behind, fun last final matched => ?_⟩
      rw [same last final matched, shown value rest outcome, List.append_assoc]

theorem map {onward : α → β} {result : β → List Text} (first : parser.Accounts before view)
    (same : ∀ value, result (onward value) = view value) :
    (parser >>= fun value => Pure.pure (onward value)).Accounts before result :=
  first.bind fun value => pure _ (same value)

/-- More may have been retained before. -/
theorem behind (accounts : parser.Accounts before view) (more : List Text) :
    parser.Accounts (more ++ before) fun value => more ++ view value := by
  intro tokens
  obtain ⟨kept, retains, shown⟩ := accounts tokens
  refine ⟨kept, retains, fun value rest matched => ?_⟩
  dsimp only
  rw [shown value rest matched, List.append_assoc]

theorem noteFinalDomain (domain : Text) :
    (Parser.noteFinalDomain domain).Accounts before fun _ => before ++ [domain] :=
  fun _ => ⟨[domain], .noted .nil, fun _ _ _ => rfl⟩

/-- A rule that does not match retains nothing. -/
theorem traced {rule : Rule} {body : Parser rule.Result} {view : rule.Result → List Text}
    (accounts : body.Accounts [] view) : (Parser.traced rule body).Settles view := by
  intro tokens
  cases tokens with
  | nil => exact .nil
  | cons token tokens =>
      obtain ⟨kept, retains, shown⟩ := accounts (token :: tokens)
      rw [Parser.traced]
      cases outcome : (body true (token :: tokens)).outcome with
      | beyond => exact .dropped (by simp) retains .nil
      | failed => exact .dropped (by simp) retains .nil
      | matched value rest =>
          have same : view value = kept ++ [] := by
            rw [shown value rest outcome, List.append_nil, List.nil_append]
          rw [Outcome.shown, same]
          exact .matched retains .nil

/-- The first alternative retains nothing if it fails. -/
theorem orElse {other : Parser α} (first : parser.Settles view)
    (second : other.Accounts [] view) : (parser.orElse other).Accounts [] view := by
  refine (first.attempt.accounts []).bind fun found => ?_
  cases found with
  | none => exact second
  | some value => exact pure value rfl

/-! ## Members -/

/-- What a view shows of the members of a list. -/
def ofMembers (view : α → List Text) (list : List (Commented α)) : List Text :=
  list.flatMap fun member => view member.body

theorem membersWithin (settles : parser.Settles view) :
    ∀ bound first, (Parser.membersWithin parser bound first).Accounts (view first) (ofMembers view)
  | 0, _ => fun _ => ⟨[], .nil, nofun⟩
  | bound + 1, first => by
      have alone : ∀ after, ofMembers view [⟨first, after⟩] = view first := by simp [ofMembers]
      refine Silent.closed.skipSeparators.accounts.bind fun after =>
        (Silent.closed.nextIs .endOfText).accounts.bind fun finish => ?_
      cases finish with
      | true => exact pure _ (alone after)
      | false =>
          refine (settles.attempt.accounts (view first)).bind fun found => ?_
          cases found with
          | none => exact pure _ ((alone after).trans (List.append_nil _).symm)
          | some second =>
              exact ((membersWithin settles bound second).behind (view first)).map fun _ => rfl

theorem members (settles : parser.Settles view) :
    (Parser.members parser).Accounts [] (ofMembers view) :=
  (settles.accounts []).bind fun first tokens => membersWithin settles tokens.length first tokens

end Accounts

/-! ## Rules -/

/-- The final domain of a mailbox, as the only one. -/
def mailboxDomains (mailbox : Mailbox) : List Text := [mailbox.spec.finalDomain]

theorem length_flatMap_mailboxDomains (mailboxes : List Mailbox) :
    (mailboxes.flatMap mailboxDomains).length = mailboxes.length := by
  simp [List.length_flatMap, mailboxDomains]

/-- The final domains of the mailboxes of an address. -/
def addressDomains (address : Address) : List Text := address.mailboxes.flatMap mailboxDomains

theorem settles_addrSpec : addrSpec.Settles fun spec => [spec.body.finalDomain] :=
  Accounts.traced <| Silent.closed.localPart.accounts.bind fun _ =>
    (Silent.closed.followers Silent.closed.domain).accounts.bind fun _ => (Accounts.noteFinalDomain _).map fun _ => rfl

theorem settles_routeAddr : routeAddr.Settles fun spec => [spec.body.finalDomain] := by
  refine Accounts.traced <| Silent.closed.skipComments.accounts.bind fun _ =>
    (Silent.closed.expect .lessThan).accounts.bind fun _ => Silent.closed.skipComments.accounts.bind fun _ =>
      Silent.closed.route.attempt.accounts.bind fun _ => (settles_addrSpec.accounts []).bind fun _ => ?_
  exact Silent.closed.skipComments.accounts.bind fun _ =>
    (Silent.closed.expect .greaterThan).accounts.map fun _ => rfl

theorem settles_routeSpec : routeSpec.Settles mailboxDomains :=
  Accounts.traced <| Silent.closed.phrase.attempt.accounts.bind fun _ =>
    (settles_routeAddr.accounts []).map fun _ => rfl

theorem settles_mailbox : mailbox.Settles mailboxDomains :=
  Accounts.traced <| .orElse settles_routeSpec <| (settles_addrSpec.accounts []).map fun _ => rfl

theorem settles_mailboxes : mailboxes.Settles (Accounts.ofMembers mailboxDomains) :=
  Accounts.traced (Accounts.members settles_mailbox)

theorem settles_group : group.Settles fun part => addressDomains (.group part) := by
  refine Accounts.traced <| Silent.closed.phrase.accounts.bind fun _ =>
    (Silent.closed.expect .colon).accounts.bind fun _ =>
      (settles_mailboxes.attempt.accounts []).bind fun found => ?_
  refine Silent.closed.skipComments.accounts.bind fun _ => (Silent.closed.expect .semicolon).accounts.map ?_
  intro _
  cases found with
  | none => rfl
  | some list => exact List.flatMap_map ..

theorem settles_address : address.Settles addressDomains :=
  Accounts.traced <| .orElse (settles_group.map fun _ => rfl) <|
    (settles_mailbox.accounts []).map fun _ => rfl

/-- What is retained of a field that is matched are the final domains of its mailboxes. -/
theorem settles_addresses :
    addresses.Settles fun list => list.mailboxes.flatMap mailboxDomains := by
  refine Accounts.traced fun tokens => ?_
  obtain ⟨kept, retains, shown⟩ := Accounts.members settles_address tokens
  rw [run_bind, Parser.attempt]
  rcases run : members address true tokens with ⟨_ | _ | ⟨list, rest⟩, events⟩ <;>
    rw [run] at retains shown
  · refine ⟨kept, retains, ?_⟩
    rintro _ _ ⟨⟩
  · refine ⟨kept ++ [], retains.append (.stopped .nil), ?_⟩
    rintro _ _ ⟨⟩
  · have same : (AddressList.mailboxes list).flatMap mailboxDomains = kept := by
      rw [← List.nil_append kept, ← shown list rest rfl, AddressList.mailboxes, List.flatMap_assoc]
      rfl
    cases rest with
    | nil =>
        refine ⟨kept ++ [], retains.append .nil, ?_⟩
        rintro _ _ ⟨⟩
    | cons next rest =>
        by_cases finish : next.kind = .endOfText
        · refine ⟨kept, ?_, ?_⟩
          · simpa [finish] using retains
          · simp [finish, same]
        · refine ⟨kept ++ [], ?_, ?_⟩
          · simpa [finish, stop] using retains.append (.stopped .nil)
          · simp [finish, stop]

end Parser

/-! ## Accepted fields -/

namespace Trace

theorem finalDomains_filter_isNote (events : List Event) :
    finalDomains (events.filter Event.isNote) = finalDomains events := by
  rw [finalDomains, List.filterMap_filter, finalDomains]
  congr 1
  funext event
  cases event <;> rfl

theorem finalDomains_mailboxEvents (mailboxes : List Mailbox) :
    finalDomains (mailboxes.flatMap Parser.mailboxEvents) =
      mailboxes.map fun mailbox => mailbox.spec.finalDomain := by
  induction mailboxes with
  | nil => rfl
  | cons mailbox mailboxes ih => simp [Parser.mailboxEvents, ih]

end Trace

open Trace

/-- With and without tracing, the final domains that are noted in a derived field are those of its
mailboxes. -/
theorem Derivation.IsAddressList.finalDomains_events {tokens : List Token} {list : AddressList}
    (derived : IsAddressList tokens list) (tracing : Bool) :
    finalDomains (Parser.addresses tracing tokens).events =
      list.mailboxes.map fun mailbox => mailbox.spec.finalDomain := by
  obtain ⟨finish, run⟩ := derived.run
  have untraced : finalDomains (Parser.addresses false tokens).events =
      list.mailboxes.map fun mailbox => mailbox.spec.finalDomain := by
    rw [run, finalDomains_mailboxEvents]
  cases tracing with
  | false => exact untraced
  | true =>
      rw [← untraced, ← Parser.IgnoresTracing.addresses tokens]
      exact (finalDomains_filter_isNote _).symm

theorem events_readField {tokens : List Token} {field : Text} (lexed : tokenize field = .ok tokens)
    (tracing : Bool) :
    (readField tracing field).events = (Parser.addresses tracing tokens).events := by
  unfold readField
  simp only [lexed]
  cases (Parser.addresses tracing tokens).outcome <;> rfl

/-- The line of a mailbox ends with what a function makes of its final domain. -/
theorem Mailbox.suffix_canonical (f : Text → Text) (mailbox : Mailbox) :
    '@' :: f mailbox.spec.finalDomain ++ ['\n'] <:+ mailbox.canonical f := by
  rw [canonical, AddrSpec.line, AddrSpec.write, List.append_assoc]
  exact List.suffix_append _ _

/-- No rule that failed in a derived field has noted a final domain. -/
theorem Derivation.IsAddressList.nothingAbandoned {tokens : List Token} {list : AddressList}
    (derived : IsAddressList tokens list) :
    NothingAbandoned (Parser.addresses true tokens).events := by
  obtain ⟨finish, run⟩ := derived.run
  have matched : (Parser.addresses true tokens).outcome = .matched list [finish] := by
    rw [Parser.IgnoresTracing.addresses.outcome_eq true, run]
  have retains := Parser.settles_addresses tokens
  rw [matched] at retains
  refine retains.nothingAbandoned ?_
  rw [derived.finalDomains_events true, List.length_map]
  exact Parser.length_flatMap_mailboxDomains _

/-- A field is accepted after each of its mailboxes has been canonicalized once, in order, and
nothing else has been.  The line of a mailbox ends with what became of its final domain.  No rule
that failed on the way has asked for a final domain. -/
theorem finalDomains_of_accepted (f : Text → Text) (tracing : Bool) (field : Text)
    (list : AddressList) (accepted : (readField tracing field).verdict = .ok list) :
    finalDomains (readField tracing field).events =
        list.mailboxes.map (fun mailbox => mailbox.spec.finalDomain) ∧
      (parseField f field).canonical = (list.mailboxes.map (Mailbox.canonical f)).flatten ∧
      List.Forall₂ (fun line domain => '@' :: f domain ++ ['\n'] <:+ line)
        (list.mailboxes.map (Mailbox.canonical f)) (finalDomains (readField tracing field).events) ∧
      NothingAbandoned (readField true field).events := by
  obtain ⟨tokens, lexed, derived⟩ := verdict_eq_ok_iff.1 accepted
  have noted : finalDomains (readField tracing field).events =
      list.mailboxes.map fun mailbox => mailbox.spec.finalDomain := by
    rw [events_readField lexed, derived.finalDomains_events tracing]
  refine ⟨noted, ?_, ?_, ?_⟩
  · have untraced : (readField false field).verdict = .ok list :=
      verdict_eq_ok_iff.2 ⟨tokens, lexed, derived⟩
    rw [parseField, Parse.ofReading, untraced, Parse.canonical, AddressList.canonical_eq_flatMap,
      List.flatMap_def]
  · rw [noted, List.forall₂_map_left_iff, List.forall₂_map_right_iff, List.forall₂_same]
    exact fun mailbox _ => mailbox.suffix_canonical f
  · rw [events_readField lexed]
    exact derived.nothingAbandoned

/-- The first mailbox has no domain, and the last domain of the second is not its only one. -/
theorem finalDomains_of_accepted_of_group :
    finalDomains (readField true "g:x<b>,\"y\"@d@e;".toList).events = [[], ['e']] ∧
      NothingAbandoned (readField true "g:x<b>,\"y\"@d@e;".toList).events := by
  have accepted : (readField true "g:x<b>,\"y\"@d@e;".toList).verdict = .ok
      [⟨.group ⟨⟨[.atom ['g']], []⟩,
        [⟨.angle (some ⟨[.atom ['x']], []⟩) ⟨⟨[.atom ['b']], []⟩, []⟩, []⟩,
          ⟨.plain ⟨⟨[.quoted ['y']], [[['d']], [['e']]]⟩, []⟩, []⟩], []⟩, []⟩] := by
    decide +kernel
  obtain ⟨noted, _, _, nothing⟩ := finalDomains_of_accepted id true _ _ accepted
  exact ⟨noted, nothing⟩

/-- The group does not close, so its mailbox has been canonicalized for nothing. -/
example : finalDomains (readField true "g:a@b".toList).events = [['b'], []] := by decide +kernel

end MailAddress
