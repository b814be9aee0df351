import MailAddress.Proofs.Forms.InPlace
import MailAddress.Proofs.Forms.Stability
import MailAddress.Proofs.Matching.Origins

/-!
# A canonicalizer makes domains and nothing else

The forms of an accepted field are texts with places for final domains.  The texts, the places and
the domains are the same for every canonicalizer, and the forms differ only in what it makes of the
domains.  Whether a field is accepted, what is wrong with it and what a canonicalizer is called with
do not depend on what the canonicalizer returns.
-/

namespace MailAddress

/-! ## Texts with places for domains -/

/-- A text, and then each domain as a function makes it with a text behind it. -/
def splice (f : Text → Text) (start : Text) (domains behind : List Text) : Text :=
  start ++ (domains.zip behind).flatMap fun place => f place.1 ++ place.2

/-- The texts between the domains are the same for every function. -/
inductive IsSpliced : ((Text → Text) → Text) → List Text → Prop
  /-- A text without domains. -/
  | fixed {text : (Text → Text) → Text} {start : Text} :
      (∀ f, text f = start) → IsSpliced text []
  /-- A text, a domain as it is made, and what is spliced behind it. -/
  | place {text behind : (Text → Text) → Text} {start domain : Text} {domains : List Text} :
      (∀ f, text f = start ++ f domain ++ behind f) → IsSpliced behind domains →
      IsSpliced text (domain :: domains)

namespace IsSpliced

variable {text other : (Text → Text) → Text} {domains others : List Text}

theorem exists_splice (spliced : IsSpliced text domains) :
    ∃ start behind, behind.length = domains.length ∧
      ∀ f, text f = splice f start domains behind := by
  induction spliced with
  | @fixed text start same => exact ⟨start, [], rfl, fun f => by simp [splice, same f]⟩
  | @place text behind start domain domains same _ ih =>
      obtain ⟨next, texts, length, rest⟩ := ih
      exact ⟨start, next :: texts, by simp [length], fun f => by simp [splice, same f, rest f]⟩

theorem append (first : IsSpliced text domains) (second : IsSpliced other others) :
    IsSpliced (fun f => text f ++ other f) (domains ++ others) := by
  induction first with
  | @fixed text start same =>
      cases second with
      | @fixed _ next other_same => exact .fixed fun f => by rw [same f, other_same f]
      | @place _ behind next domain _ other_same rest =>
          have layout : ∀ f, text f ++ other f = (start ++ next) ++ f domain ++ behind f := by
            simp [same, other_same]
          exact .place layout rest
  | @place text behind start domain domains same _ ih =>
      have layout : ∀ f, text f ++ other f = start ++ f domain ++ (behind f ++ other f) := by
        simp [same]
      exact .place layout ih

/-- A text that does not depend on the function. -/
theorem const (text : Text) : IsSpliced (fun _ => text) [] := .fixed fun _ => rfl

/-- A fixed text behind. -/
theorem appendText (spliced : IsSpliced text domains) (behind : Text) :
    IsSpliced (fun f => text f ++ behind) domains := by
  simpa using spliced.append (const behind)

/-- A fixed text in front. -/
theorem textAppend (front : Text) (spliced : IsSpliced text domains) :
    IsSpliced (fun f => front ++ text f) domains :=
  (const front).append spliced

/-! ## The parts of a field -/

theorem write (word : Word → Text) (spec : AddrSpec) :
    IsSpliced (fun f => spec.write f word) [spec.finalDomain] := by
  have layout : ∀ f, spec.write f word = (['.'].intercalate (spec.localPart.map word) ++
      routeText spec.domains.dropLast ++ ['@']) ++ f spec.finalDomain ++ [] := by
    simp [AddrSpec.write]
  exact .place layout (const [])

theorem bracketed (spec : Commented AddrSpec) :
    IsSpliced (fun f => spec.display (AddrSpec.displayAngle f)) [spec.body.finalDomain] :=
  (textAppend ['<'] ((write Word.display spec.body).appendText ['>'])).appendText _

theorem mailbox (mailbox : Mailbox) :
    IsSpliced (fun f => mailbox.written f) [mailbox.spec.finalDomain] := by
  cases mailbox with
  | plain spec => exact (write Word.display spec.body).appendText _
  | angle name spec =>
      cases name with
      | none => exact (bracketed spec).appendText _
      | some name => exact (textAppend _ (textAppend [' '] (bracketed spec))).appendText _

theorem members {α : Type} {write : (Text → Text) → α → Text} {within : α → List Text}
    (each : ∀ body, IsSpliced (fun f => write f body) (within body)) (members : List (Commented α)) :
    IsSpliced (fun f => displayMembers (write f) members)
      (members.flatMap fun member => within member.body) := by
  induction members with
  | nil => exact const []
  | cons member members ih =>
      have first := (each member.body).appendText (commentText member.comments)
      cases members with
      | nil => simpa [displayMembers_singleton, Commented.display] using first
      | cons next members =>
          have rest := first.append (textAppend [',', ' '] ih)
          simpa [displayMembers_cons_cons, Commented.display] using rest

theorem address (address : Address) :
    IsSpliced (fun f => address.written f)
      (address.mailboxes.map fun mailbox => mailbox.spec.finalDomain) := by
  cases address with
  | group part =>
      have inside := members mailbox part.members
      have same : part.members.flatMap (fun member => [member.body.spec.finalDomain]) =
          (Address.group part).mailboxes.map fun mailbox => mailbox.spec.finalDomain := by
        rw [Address.mailboxes, List.map_map, List.map_eq_flatMap]
        rfl
      rw [← same]
      exact (((textAppend _ (textAppend [':', ' '] inside)).appendText _).appendText [';']).appendText
        (commentText [])
  | mailbox part => exact mailbox part

theorem display (list : AddressList) :
    IsSpliced (fun f => list.display f)
      (list.mailboxes.map fun mailbox => mailbox.spec.finalDomain) := by
  rw [AddressList.mailboxes, List.map_flatMap]
  exact members address list

end IsSpliced

/-! ## Lines with places for domains -/

/-- What stands in front of the last at sign in the line of a mailbox. -/
def Mailbox.lead (mailbox : Mailbox) : Text :=
  ['.'].intercalate (mailbox.spec.localPart.map Word.content) ++
    routeText mailbox.spec.domains.dropLast

theorem AddressList.canonical_eq_zip (f : Text → Text) (list : AddressList) :
    list.canonical f = ((list.mailboxes.map Mailbox.lead).zip
      (list.mailboxes.map fun mailbox => mailbox.spec.finalDomain)).flatMap
        fun line => line.1 ++ '@' :: f line.2 ++ ['\n'] := by
  rw [AddressList.canonical_eq_flatMap, List.zip_map', List.flatMap_map]
  rfl

/-! ## Fields -/

theorem exists_verdict_of_isAccepted {f : Text → Text} {field : Text}
    (accepted : (parseField f field).isAccepted = true) :
    ∃ list, (readField false field).verdict = .ok list := by
  unfold parseField Parse.ofReading at accepted
  cases verdict : (readField false field).verdict with
  | ok list => exact ⟨list, rfl⟩
  | error fault =>
      rw [verdict] at accepted
      cases accepted

/-- Every parse of a refused field is the same, and the parses of an accepted field differ in their
forms only. -/
theorem parseField_verdict (f g : Text → Text) (field : Text) :
    (parseField f field).isAccepted = (parseField g field).isAccepted ∧
      (parseField f field).diagnostics = (parseField g field).diagnostics := by
  unfold parseField Parse.ofReading
  cases (readField false field).verdict <;> exact ⟨rfl, rfl⟩

theorem startsSpec_of_mem_callsInPlace {f : Text → Text} {field domain : Text}
    (called : domain ∈ callsInPlace f field) :
    ∃ tokens start, tokenize field = .ok tokens ∧ start <:+ tokens ∧ StartsSpec domain start := by
  rw [callsInPlace_eq] at called
  cases lexed : tokenize field with
  | error stuck => simp [readField, lexed] at called
  | ok tokens =>
      rw [events_readField lexed] at called
      obtain ⟨start, suffix, starts⟩ := (Parser.notesOnly_addresses tokens).2 domain called
      exact ⟨tokens, start, rfl, suffix, starts⟩

/-- Forms that are made in place are those of the field, and all calls are for final domains of
address specifications that are matched.  What the calls return changes neither the verdict, nor the
diagnostics, nor the calls.  It stands in the forms of an accepted field at places that the field
alone has fixed, once for each mailbox. -/
theorem parseInPlace_splices (field : Text) :
    (∀ f, parseInPlace f field = parseField f field ∧ ∀ domain ∈ callsInPlace f field,
      ∃ tokens start, tokenize field = .ok tokens ∧ start <:+ tokens ∧ StartsSpec domain start) ∧
    (∀ f g, (parseInPlace f field).isAccepted = (parseInPlace g field).isAccepted ∧
      (parseInPlace f field).diagnostics = (parseInPlace g field).diagnostics ∧
      callsInPlace f field = callsInPlace g field) ∧
    ((∃ f, (parseInPlace f field).isAccepted = true) →
      ∃ (list : AddressList) (leads domains behind : List Text) (start : Text), (readField false field).verdict = .ok list ∧
        domains = list.mailboxes.map (fun mailbox => mailbox.spec.finalDomain) ∧
        leads.length = domains.length ∧ behind.length = domains.length ∧
        ∀ f, callsInPlace f field = domains ∧
          parseInPlace f field = .accepted (splice f start domains behind)
            ((leads.zip domains).flatMap fun line => line.1 ++ '@' :: f line.2 ++ ['\n'])) := by
  refine ⟨fun f => ⟨parseInPlace_eq f field, fun domain => startsSpec_of_mem_callsInPlace⟩,
    fun f g => ?_, ?_⟩
  · obtain ⟨accepted, diagnostics⟩ := parseField_verdict f g field
    rw [parseInPlace_eq, parseInPlace_eq, callsInPlace_eq, callsInPlace_eq]
    exact ⟨accepted, diagnostics, rfl⟩
  · rintro ⟨g, accepted⟩
    rw [parseInPlace_eq] at accepted
    obtain ⟨list, verdict⟩ := exists_verdict_of_isAccepted accepted
    obtain ⟨tokens, lexed, derived⟩ := verdict_eq_ok_iff.1 verdict
    obtain ⟨start, behind, length, spliced⟩ := (IsSpliced.display list).exists_splice
    refine ⟨list, list.mailboxes.map Mailbox.lead, _, behind, start, verdict, rfl, by simp, length,
      fun f => ⟨?_, ?_⟩⟩
    · rw [callsInPlace_eq, events_readField lexed, derived.finalDomains_events]
    · rw [parseInPlace_eq, parseField_eq_accepted verdict, spliced f, list.canonical_eq_zip]

/-- The first mailbox has no domain, and a canonicalizer is asked for one.  The relay of the second
is out of its reach. -/
theorem parseInPlace_splices_of_group :
    ∃ (leads behind : List Text) (start : Text), leads.length = 2 ∧ behind.length = 2 ∧ ∀ f,
      callsInPlace f "g:x<b>,\"y\"@d@e;".toList = [[], ['e']] ∧
        parseInPlace f "g:x<b>,\"y\"@d@e;".toList =
          .accepted (splice f start [[], ['e']] behind)
            ((leads.zip [[], ['e']]).flatMap fun line => line.1 ++ '@' :: f line.2 ++ ['\n']) := by
  have accepted : (parseInPlace id "g:x<b>,\"y\"@d@e;".toList).isAccepted = true := by
    decide +kernel
  have calls : callsInPlace id "g:x<b>,\"y\"@d@e;".toList = [[], ['e']] := by decide +kernel
  obtain ⟨_, _, spliced⟩ := parseInPlace_splices "g:x<b>,\"y\"@d@e;".toList
  obtain ⟨_, leads, domains, behind, start, _, _, leads_length, behind_length, same⟩ :=
    spliced ⟨id, accepted⟩
  obtain rfl : domains = [[], ['e']] := (same id).1.symm.trans calls
  exact ⟨leads, behind, start, leads_length, behind_length, same⟩

end MailAddress
