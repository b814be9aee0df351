import MailAddress.Proofs.Forms.Settled
import MailAddress.Proofs.Lexing.Quotation
import MailAddress.Proofs.Lexing.Reading
import MailAddress.Proofs.Matching.LongestPhrases

/-!
# Displays are read back

The display of each well-formed part is read to tokens from which the settled part is derived.  The
parts are put together with blanks and structural characters, so no atom runs into another.

An address specification shows an at sign, and so begins no name, whatever follows it.  This is why
the members of a display are derived with a view to any tokens behind them.
-/

namespace MailAddress

open MailAddress.Derivation Character Token

variable {α β : Type} {host : Domain}

/-! ## Words -/

/-- A part is derived from tokens among which there is no comment. -/
def Bare (Item : List Token → α → Prop) (value : α) (tokens : List Token) : Prop :=
  Item tokens value ∧ commentsOf tokens = []

theorem bare_singleton {Item : List Token → α → Prop} {value : α} {token : Token}
    (other : token.kind ≠ .comment) (derived : Item [token] value) : Bare Item value [token] :=
  ⟨derived, commentsOf_cons_of_ne other⟩

theorem reads_word {word : Word} (formed : word.IsFormed ('\n' ∉ ·)) :
    ReadsTo (Bare IsWord word.settle) word.display := by
  have read_atom : ∀ text, isAtom text = true → ReadsTo (Bare IsWord (.atom text)) text := by
    intro text atom
    refine .lexeme (.atom atom) fun token kind carried => ?_
    rw [← show token.text = text from carried]
    exact bare_singleton (by rw [kind]; decide) (IsWord.atom .nil kind)
  cases word with
  | atom text => exact read_atom text formed
  | quoted content =>
      rw [Word.settle, Word.display, quote]
      split
      next atom => exact read_atom content atom
      next =>
        refine .lexeme (.quotedString (quotedTail_of_escaped formed)) fun token kind carried => ?_
        have text : token.text = '"' :: content.flatMap escapeSymbol ++ ['"'] := carried
        have derived := IsWord.quoted Comments.nil kind
        rw [text, unquote_of_escaped] at derived
        exact bare_singleton (by rw [kind]; decide) derived

theorem reads_label {allowed : Text → Prop} {label : Text} (formed : IsLabelText allowed label) :
    ReadsTo (Bare IsLabel label) label := by
  rcases formed.1 with atom | literal
  · refine .lexeme (.atom atom) fun token kind carried => ?_
    rw [← show token.text = label from carried]
    exact bare_singleton (by rw [kind]; decide) (IsLabel.label .nil (.inl kind))
  · refine .lexeme literal fun token kind carried => ?_
    rw [← show token.text = label from carried]
    exact bare_singleton (by rw [kind]; decide) (IsLabel.label .nil (.inr kind))

/-! ## Sequences -/

/-- Items with periods between them. -/
theorem reads_series {Item : List Token → β → Prop} {settle : α → β} {write : α → Text}
    (values : List α) (some : values ≠ [])
    (reads : ∀ value ∈ values, ReadsTo (Bare Item (settle value)) (write value)) :
    ReadsTo (Bare (IsSeries Item) (values.map settle)) (['.'].intercalate (values.map write)) := by
  induction values with
  | nil => exact absurd rfl some
  | cons value values ih =>
      have first := reads value List.mem_cons_self
      cases values with
      | nil =>
          have layout : ['.'].intercalate ([value].map write) = write value := by
            simp [List.intercalate]
          rw [layout]
          refine first.mono fun tokens item => ?_
          have series := IsSeries.items item.1 (IsTail.stop Comments.nil)
          rw [List.append_nil] at series
          exact ⟨series, item.2⟩
      | cons next values =>
          have layout : ['.'].intercalate ((value :: next :: values).map write) =
              write value ++ '.' :: ['.'].intercalate ((next :: values).map write) := by
            simp [List.intercalate]
          have others := ih (List.cons_ne_nil _ _) fun other member => reads other (.tail _ member)
          have tail : ReadsTo (Bare (IsTail Item) ((next :: values).map settle))
              ('.' :: ['.'].intercalate ((next :: values).map write)) := by
            refine others.structural rfl fun period tokens kind series => ?_
            obtain ⟨derived, bare⟩ := series
            cases derived with
            | items item tail =>
                refine ⟨.next .nil kind item tail, ?_⟩
                rw [commentsOf_cons_of_ne (by rw [kind]; decide), bare]
          rw [layout]
          refine first.append tail (endsAtom_cons (by decide)) fun left right item tail => ?_
          exact ⟨.items item.1 tail.1, by rw [commentsOf_append, item.2, tail.2, List.append_nil]⟩

theorem reads_domain {allowed : Text → Prop} {labels : Domain} (formed : labels.IsFormed allowed) :
    ReadsTo (Bare (IsSeries IsLabel) labels) labels.text := by
  have series : ReadsTo (Bare (IsSeries IsLabel) (labels.map id))
      (['.'].intercalate (labels.map id)) :=
    reads_series labels formed.1 fun label member => reads_label (formed.2 label member)
  rwa [List.map_id] at series

theorem endsAtom_routeText (domains : List Domain) : EndsAtom (routeText domains) := by
  cases domains with
  | nil => exact endsAtom_nil
  | cons domain domains => exact endsAtom_cons (by decide)

theorem reads_hops {allowed : Text → Prop} {domains : List Domain}
    (formed : ∀ domain ∈ domains, domain.IsFormed allowed) :
    ReadsTo (Bare IsHops domains) (routeText domains) := by
  induction domains with
  | nil => exact .nil ⟨.nil, rfl⟩
  | cons domain domains ih =>
      obtain ⟨first, others⟩ := List.forall_mem_cons.1 formed
      have layout : routeText (domain :: domains) = '@' :: domain.text ++ routeText domains := rfl
      have hop : ReadsTo (fun tokens => ∃ sign labels, tokens = sign :: labels ∧
          sign.kind = .atSign ∧ Bare (IsSeries IsLabel) domain labels) ('@' :: domain.text) :=
        (reads_domain first).structural rfl fun sign labels kind series =>
          ⟨sign, labels, rfl, kind, series⟩
      rw [layout]
      refine hop.append (ih others) (endsAtom_routeText domains) ?_
      rintro _ hops ⟨sign, labels, rfl, kind, series, no_comment⟩ ⟨derived, none⟩
      refine ⟨.cons kind series derived, ?_⟩
      rw [List.cons_append, commentsOf_cons_of_ne (by rw [kind]; decide), commentsOf_append,
        no_comment, none, List.append_nil]

theorem Domain.IsFormed.text_ne_nil {allowed : Text → Prop} {labels : Domain}
    (formed : labels.IsFormed allowed) : labels.text ≠ [] := by
  cases labels with
  | nil => exact absurd rfl formed.1
  | cons label labels =>
      have label_some : label ≠ [] := by
        rcases (formed.2 label List.mem_cons_self).1 with atom | literal
        · rintro rfl
          cases atom
        · exact literal.ne_nil
      cases labels with
      | nil => simpa [Domain.text, List.intercalate] using label_some
      | cons next labels => simp [Domain.text, List.intercalate]

/-- The domains of a settled specification are written one after the other. -/
theorem AddrSpec.IsFormed.write_eq {allowed : Text → Prop} {spec : AddrSpec}
    (formed : spec.IsFormed allowed) (word : Word → Text) :
    spec.write (orHost host) word =
      ['.'].intercalate (spec.localPart.map word) ++ routeText (spec.settle host).domains := by
  rw [AddrSpec.write, List.append_assoc]
  congr 1
  rcases List.eq_nil_or_concat spec.domains with none | ⟨relays, final, eq⟩
  · simp [AddrSpec.settle, none, routeText, AddrSpec.finalDomain, Canonicalization.apply]
  · have some : final.text ≠ [] := (formed.domains final (by simp [eq])).text_ne_nil
    simp [AddrSpec.settle, eq, routeText, AddrSpec.finalDomain, orHost_of_ne_nil some]

/-! ## Address specifications -/

theorem reads_localPart {words : List Word} (formed : AreWords ('\n' ∉ ·) words) :
    ReadsTo (Bare (IsSeries IsWord) (words.map Word.settle))
      (['.'].intercalate (words.map Word.display)) :=
  reads_series words formed.1 fun word member => reads_word (formed.2 word member)

theorem reads_addrSpec {spec : AddrSpec} (formed : spec.IsFormed ('\n' ∉ ·))
    (domain : spec.domains = [] → host.IsFormed ('\n' ∉ ·)) :
    ReadsTo (Bare IsAddrSpec (spec.settle host)) (spec.display (orHost host)) := by
  rw [AddrSpec.display, formed.write_eq]
  refine (reads_localPart formed.words).append (reads_hops (formed.settle domain).domains)
    (endsAtom_routeText _) fun words hops series derived => ?_
  refine ⟨.parts series.1 derived.1, ?_⟩
  rw [commentsOf_append, series.2, derived.2, List.append_nil]

theorem endsAtom_commentText (comments : List Text) : EndsAtom (commentText comments) := by
  cases comments with
  | nil => exact endsAtom_nil
  | cons comment comments => exact endsAtom_cons (by decide)

theorem reads_commentText {comments : List Text} (formed : AreComments comments) :
    ReadsTo (fun tokens => Comments tokens ∧ commentsOf tokens = comments)
      (commentText comments) := by
  induction comments with
  | nil => exact .nil ⟨.nil, rfl⟩
  | cons comment comments ih =>
      obtain ⟨first, others⟩ := List.forall_mem_cons.1 formed
      have read : ReadsTo (fun tokens => ∃ token : Token, tokens = [token] ∧
          token.kind = .comment ∧ token.text = comment) comment :=
        .lexeme first fun token kind carried => ⟨token, rfl, kind, carried⟩
      have layout : commentText (comment :: comments) = ' ' :: comment ++ commentText comments := rfl
      rw [layout]
      refine (read.blank.append (ih others) (endsAtom_commentText comments)) ?_
      rintro _ right ⟨token, rfl, kind, rfl⟩ ⟨all, same⟩
      refine ⟨List.forall_mem_cons.2 ⟨kind, all⟩, ?_⟩
      rw [commentsOf_append, same]
      simp [commentsOf, kind]

theorem reads_displayAngle {spec : AddrSpec} (formed : spec.IsFormed ('\n' ∉ ·))
    (domain : spec.domains = [] → host.IsFormed ('\n' ∉ ·)) :
    ReadsTo (Bare IsRouteAddr (spec.settle host)) (spec.displayAngle (orHost host)) := by
  have close : ReadsTo (fun tokens => ∃ greater : Token, tokens = [greater] ∧
      greater.kind = .greaterThan) ['>'] :=
    .lexeme (.structural rfl) fun greater kind _ => ⟨greater, rfl, kind⟩
  have inside : ReadsTo (fun tokens => ∃ words greater, tokens = words ++ [greater] ∧
      Bare IsAddrSpec (spec.settle host) words ∧ greater.kind = .greaterThan)
      (spec.display (orHost host) ++ ['>']) := by
    refine (reads_addrSpec formed domain).append close (endsAtom_cons (by decide)) ?_
    rintro words _ derived ⟨greater, rfl, kind⟩
    exact ⟨words, greater, rfl, derived, kind⟩
  refine inside.structural rfl ?_
  rintro less _ less_kind ⟨words, greater, rfl, ⟨derived, none⟩, kind⟩
  refine ⟨.brackets .nil less_kind .nil .none derived kind, ?_⟩
  rw [commentsOf_cons_of_ne (by rw [less_kind]; decide), commentsOf_append, none,
    commentsOf_cons_of_ne (by rw [kind]; decide)]
  rfl

/-- Words with blanks between them. -/
theorem reads_displayPhrase {words : List Word} (formed : ∀ word ∈ words, word.IsFormed ('\n' ∉ ·)) :
    ReadsTo (Bare IsWords (words.map Word.settle)) (displayPhrase words) := by
  induction words with
  | nil => exact .nil ⟨.nil, rfl⟩
  | cons word words ih =>
      obtain ⟨first, others⟩ := List.forall_mem_cons.1 formed
      have join : ∀ left right, Bare IsWord word.settle left →
          Bare IsWords (words.map Word.settle) right →
            Bare IsWords ((word :: words).map Word.settle) (left ++ right) := by
        intro left right item derived
        refine ⟨.cons item.1 derived.1, ?_⟩
        rw [commentsOf_append, item.2, derived.2, List.append_nil]
      cases words with
      | nil =>
          have layout : displayPhrase [word] = word.display ++ displayPhrase [] := by
            simp [displayPhrase, List.intercalate]
          rw [layout]
          exact (reads_word first).append (ih others) endsAtom_nil join
      | cons next words =>
          have layout : displayPhrase (word :: next :: words) =
              word.display ++ ' ' :: displayPhrase (next :: words) := by
            simp [displayPhrase, List.intercalate]
          rw [layout]
          exact (reads_word first).append (ih others).blank (endsAtom_cons (by decide)) join

/-! ## Members -/

/-- Tokens start with something that is no comment. -/
def StartsBare (tokens : List Token) : Prop :=
  ∃ kind, headKind tokens = some kind ∧ kind ≠ .comment

theorem StartsBare.append {tokens : List Token} (starts : StartsBare tokens) (rest : List Token) :
    StartsBare (tokens ++ rest) := by
  obtain ⟨kind, head, other⟩ := starts
  cases tokens with
  | nil => cases head
  | cons token tokens => exact ⟨kind, head, other⟩

theorem StartsBare.headKind_ne {tokens : List Token} (starts : StartsBare tokens) :
    headKind tokens ≠ some .comment := by
  obtain ⟨kind, head, other⟩ := starts
  rw [head]
  exact fun same => other (Option.some.inj same)

/-- Tokens without comments start with the one that leads. -/
theorem startsBare_of_leadKind {tokens : List Token} {kind : Kind}
    (lead : leadKind (tokens ++ []) = some kind) (none : commentsOf tokens = []) :
    StartsBare tokens := by
  cases tokens with
  | nil => cases lead
  | cons token tokens =>
      refine ⟨token.kind, rfl, fun comment => ?_⟩
      simp [commentsOf, comment] at none

/-- A member and the comments behind it, in front of any tokens that start with no comment. -/
def StandsAs (Member : List Token → List Token → α → Prop) (member : Commented α)
    (tokens : List Token) : Prop :=
  ∃ own comments, tokens = own ++ comments ∧ StartsBare own ∧ Comments comments ∧
    commentsOf comments = member.comments ∧
    ∀ following, headKind following ≠ some .comment →
      Member own (comments ++ following) member.body

/-- A specification with a domain begins no name. -/
theorem not_nameAhead_of_domains {tokens rest : List Token} {spec : AddrSpec}
    (derived : IsAddrSpec tokens spec) (some : spec.domains ≠ []) :
    ¬ NameAhead (tokens ++ rest) := by
  intro ahead
  obtain ⟨_, _, _, _, _, _, rfl⟩ := derived.exists_word ahead
  exact some rfl

section Mailboxes

variable {spec : Commented AddrSpec} {comments : List Text}

/-- All comments behind a mailbox without brackets are read as its own. -/
theorem reads_plain (formed : spec.body.IsFormed ('\n' ∉ ·)) (inside : AreComments spec.comments)
    (after : AreComments comments) (domain : spec.body.domains = [] → host.IsFormed ('\n' ∉ ·)) :
    ReadsTo (StandsAs IsMailbox (Mailbox.settle host ⟨.plain spec, comments⟩))
      (Commented.display (Mailbox.written (orHost host)) ⟨.plain spec, comments⟩) := by
  rw [Mailbox.display_plain]
  refine (reads_addrSpec formed domain).append (reads_commentText (inside.append after))
    (endsAtom_commentText _) ?_
  rintro words behind ⟨derived, none⟩ ⟨all, same⟩
  have starts : StartsBare words := by
    rcases derived.leadKind [] with lead | lead <;> exact startsBare_of_leadKind lead none
  refine ⟨words ++ behind, [], (List.append_nil _).symm, starts.append behind, .nil, rfl, ?_⟩
  intro following no_comment
  -- A specification without brackets takes all comments behind it.
  have whole := derived.append_comments all
  have plain := IsMailbox.plain whole no_comment
    (not_nameAhead_of_domains whole spec.body.domains_settle_ne_nil)
  rw [commentsOf_append, none, same] at plain
  exact plain

/-- Angle brackets and the comments behind them. -/
theorem reads_brackets (formed : spec.body.IsFormed ('\n' ∉ ·)) (inside : AreComments spec.comments)
    (after : AreComments comments) (domain : spec.body.domains = [] → host.IsFormed ('\n' ∉ ·)) :
    ReadsTo (fun tokens => ∃ brackets behind, tokens = brackets ++ behind ∧
        Bare IsRouteAddr (spec.body.settle host) brackets ∧ Comments behind ∧
        commentsOf behind = spec.comments ++ comments)
      (spec.body.displayAngle (orHost host) ++ commentText (spec.comments ++ comments)) :=
  (reads_displayAngle formed domain).append (reads_commentText (inside.append after))
    (endsAtom_commentText _) fun brackets behind derived all =>
      ⟨brackets, behind, rfl, derived, all⟩

theorem reads_angle (formed : spec.body.IsFormed ('\n' ∉ ·)) (inside : AreComments spec.comments)
    (after : AreComments comments) (domain : spec.body.domains = [] → host.IsFormed ('\n' ∉ ·)) :
    ReadsTo (StandsAs IsMailbox (Mailbox.settle host ⟨.angle none spec, comments⟩))
      (Commented.display (Mailbox.written (orHost host)) ⟨.angle none spec, comments⟩) := by
  rw [Mailbox.display_angle]
  refine (reads_brackets formed inside after domain).mono ?_
  rintro _ ⟨brackets, behind, rfl, ⟨derived, none⟩, all, same⟩
  refine ⟨brackets, behind, rfl, startsBare_of_leadKind (derived.leadKind []) none, all, same, ?_⟩
  intro following _
  have angle : IsMailbox brackets (behind ++ following) _ := .angle derived
  rw [none] at angle
  exact angle

/-- The comments between a name and its brackets are read as comments within the brackets. -/
theorem reads_named {name : Commented (List Word)} (words : AreWords ('\n' ∉ ·) name.body)
    (before : AreComments name.comments) (formed : spec.body.IsFormed ('\n' ∉ ·))
    (inside : AreComments spec.comments) (after : AreComments comments)
    (domain : spec.body.domains = [] → host.IsFormed ('\n' ∉ ·)) :
    ReadsTo (StandsAs IsMailbox (Mailbox.settle host ⟨.angle (some name) spec, comments⟩))
      (Commented.display (Mailbox.written (orHost host)) ⟨.angle (some name) spec, comments⟩) := by
  obtain ⟨body, between⟩ := name
  have target : ReadsTo (fun tokens => ∃ brackets behind, tokens = brackets ++ behind ∧
      IsRouteAddr brackets (spec.body.settle host) ∧ commentsOf brackets = between ∧
      Comments behind ∧ commentsOf behind = spec.comments ++ comments)
      (commentText between ++ ' ' ::
        (spec.body.displayAngle (orHost host) ++ commentText (spec.comments ++ comments))) := by
    refine (reads_commentText before).append (reads_brackets formed inside after domain).blank
      (endsAtom_cons (by decide)) ?_
    rintro front _ ⟨front_all, front_same⟩ ⟨brackets, behind, rfl, ⟨derived, none⟩, all, same⟩
    refine ⟨front ++ brackets, behind, by simp, derived.pad front_all, ?_, all, same⟩
    rw [commentsOf_append, none, front_same, List.append_nil]
  rw [Mailbox.display_named]
  refine (reads_displayPhrase words.2).append target
    ((endsAtom_commentText between).append (endsAtom_cons (by decide))) ?_
  rintro front _ ⟨name_derived, none⟩ ⟨brackets, behind, rfl, derived, between_same, all, same⟩
  obtain ⟨word, others, rfl⟩ := List.exists_cons_of_ne_nil words.1
  have starts : StartsBare front := by
    rcases name_derived.leadKind [] with lead | lead <;> exact startsBare_of_leadKind lead none
  refine ⟨front ++ brackets, behind, by simp, starts.append brackets, all, same, ?_⟩
  intro following _
  have named : IsMailbox (front ++ brackets) (behind ++ following) _ := .named name_derived derived
  rw [none, between_same] at named
  exact named

end Mailboxes

/-- A mailbox and the comments behind it are read as what they settle to. -/
theorem reads_mailbox (member : Commented Mailbox)
    (formed : member.body.IsFormed ('\n' ∉ ·) ∧ AreComments member.comments)
    (domain : member.body.spec.domains = [] → host.IsFormed ('\n' ∉ ·)) :
    ReadsTo (StandsAs IsMailbox (Mailbox.settle host member))
      (Commented.display (Mailbox.written (orHost host)) member) := by
  obtain ⟨mailbox, comments⟩ := member
  obtain ⟨formed, after⟩ := formed
  cases mailbox with
  | plain spec => exact reads_plain formed.1 formed.2 after domain
  | angle name spec =>
      cases name with
      | none => exact reads_angle formed.1 formed.2 after domain
      | some name => exact reads_named formed.1.1 formed.1.2 formed.2.1 formed.2.2 after domain

/-- These tokens are members of a list, whatever closes it, as long as that is no comment. -/
def StandAs (Member : List Token → List Token → α → Prop) (members : List (Commented α))
    (tokens : List Token) : Prop :=
  StartsBare tokens ∧ ∀ close, headKind close ≠ some .comment → IsMembers Member close tokens members

theorem StandsAs.standAs {Member : List Token → List Token → α → Prop} {member : Commented α}
    {tokens : List Token} (stands : StandsAs Member member tokens) :
    StandAs Member [member] tokens := by
  obtain ⟨own, comments, rfl, starts, all, same, derived⟩ := stands
  refine ⟨starts.append comments, fun close no_comment => ?_⟩
  have last := IsMembers.last (derived close no_comment) all.separators
  rw [same] at last
  exact last

/-- A comma puts a member in front of others. -/
theorem StandsAs.cons {Member : List Token → List Token → α → Prop} {member : Commented α}
    {members : List (Commented α)} {tokens others : List Token} {comma : Token}
    (stands : StandsAs Member member tokens) (kind : comma.kind = .comma)
    (others_stand : StandAs Member members others) :
    StandAs Member (member :: members) (tokens ++ comma :: others) := by
  obtain ⟨own, comments, rfl, starts, all, same, derived⟩ := stands
  refine ⟨(starts.append comments).append _, fun close no_comment => ?_⟩
  have separators : Separators (comments ++ [comma]) :=
    all.separators.append (List.forall_mem_singleton.2 (.inr kind))
  have other : comma.kind ≠ .comment := by rw [kind]; decide
  have first : Member own (comments ++ [comma] ++ (others ++ close)) member.body := by
    have behind := derived (comma :: (others ++ close)) fun head => other (Option.some.inj head)
    rwa [← List.singleton_append, ← List.append_assoc] at behind
  have list := IsMembers.cons first separators others_stand.1.headKind_ne
    (others_stand.2 close no_comment)
  rw [commentsOf_append, same, commentsOf_cons_of_ne other, commentsOf_nil, List.append_nil,
    List.append_assoc, List.singleton_append, ← List.append_assoc] at list
  exact list

/-- Members with a comma and a blank between them. -/
theorem reads_members {Member : List Token → List Token → β → Prop}
    {settle : Commented α → Commented β} {write : α → Text} (members : List (Commented α))
    (nonempty : members ≠ [])
    (reads : ∀ member ∈ members,
      ReadsTo (StandsAs Member (settle member)) (Commented.display write member)) :
    ReadsTo (StandAs Member (members.map settle)) (displayMembers write members) := by
  induction members with
  | nil => exact absurd rfl nonempty
  | cons member members ih =>
      have first := reads member List.mem_cons_self
      cases members with
      | nil =>
          rw [displayMembers_singleton]
          exact first.mono fun tokens stands => stands.standAs
      | cons next members =>
          have others := ih (List.cons_ne_nil _ _) fun other inside => reads other (.tail _ inside)
          have tail : ReadsTo (fun tokens => ∃ comma rest, tokens = comma :: rest ∧
              comma.kind = .comma ∧ StandAs Member ((next :: members).map settle) rest)
              (',' :: ' ' :: displayMembers write (next :: members)) :=
            others.blank.structural rfl fun comma rest kind stand => ⟨comma, rest, rfl, kind, stand⟩
          rw [displayMembers_cons_cons]
          refine first.append tail (endsAtom_cons (by decide)) ?_
          rintro left _ stands ⟨comma, rest, rfl, kind, others_stand⟩
          exact stands.cons kind others_stand

/-! ## Groups and fields -/

/-- These tokens make a group of a name, a colon and a semicolon. -/
def FillsGroup (members : List (Commented Mailbox)) (comments : List Text) (body : List Token) :
    Prop :=
  ∀ name colon semicolon word words following, IsWords name (word :: words) →
    colon.kind = .colon → semicolon.kind = .semicolon →
    IsGroup (name ++ colon :: (body ++ [semicolon])) following
      ⟨⟨word :: words, commentsOf name⟩, members, comments⟩

theorem reads_groupBody {group : Group} (formed : group.IsFormed ('\n' ∉ ·))
    (domain : ∀ member ∈ group.members, member.body.spec.domains = [] → host.IsFormed ('\n' ∉ ·)) :
    ReadsTo (FillsGroup (group.settle host).members group.comments)
      (displayMembers (Mailbox.written (orHost host)) group.members ++
        commentText group.comments) := by
  by_cases none : group.members = []
  · rw [Group.settle, none]
    refine (reads_commentText formed.comments).mono ?_
    intro tokens all name colon semicolon word words following derived colon_kind kind
    rw [← all.2]
    exact .empty derived colon_kind all.1 kind
  · have alone : group.comments = [] := formed.apart.resolve_left none
    have text : commentText ([] : List Text) = [] := rfl
    rw [alone, text, List.append_nil]
    refine (reads_members group.members none fun member inside =>
      reads_mailbox member (formed.members member inside) (domain member inside)).mono ?_
    intro tokens stand name colon semicolon word words following derived colon_kind kind
    refine .full derived colon_kind (stand.2 _ fun head => ?_) kind
    rw [headKind_cons, kind] at head
    cases head

/-- What stands behind the name of a group. -/
def ClosesGroup (members : List (Commented Mailbox)) (inside behind : List Text)
    (tokens : List Token) : Prop :=
  ∃ colon body semicolon comments, tokens = colon :: (body ++ semicolon :: comments) ∧
    colon.kind = .colon ∧ FillsGroup members inside body ∧ semicolon.kind = .semicolon ∧
    Comments comments ∧ commentsOf comments = behind

theorem reads_groupEnd {group : Group} {comments : List Text} (formed : group.IsFormed ('\n' ∉ ·))
    (after : AreComments comments)
    (domain : ∀ member ∈ group.members, member.body.spec.domains = [] → host.IsFormed ('\n' ∉ ·)) :
    ReadsTo (ClosesGroup (group.settle host).members group.comments comments)
      (':' :: ' ' :: (displayMembers (Mailbox.written (orHost host)) group.members ++
        commentText group.comments ++ ';' :: commentText comments)) := by
  have close : ReadsTo (fun tokens => ∃ semicolon behind, tokens = semicolon :: behind ∧
      semicolon.kind = .semicolon ∧ Comments behind ∧ commentsOf behind = comments)
      (';' :: commentText comments) :=
    (reads_commentText after).structural rfl fun semicolon behind kind all =>
      ⟨semicolon, behind, rfl, kind, all⟩
  have body : ReadsTo (fun tokens => ∃ body semicolon behind, tokens = body ++ semicolon :: behind ∧
      FillsGroup (group.settle host).members group.comments body ∧
      semicolon.kind = .semicolon ∧ Comments behind ∧ commentsOf behind = comments)
      (displayMembers (Mailbox.written (orHost host)) group.members ++
        commentText group.comments ++ ';' :: commentText comments) := by
    refine (reads_groupBody formed domain).append close (endsAtom_cons (by decide)) ?_
    rintro body _ fills ⟨semicolon, behind, rfl, ends⟩
    exact ⟨body, semicolon, behind, rfl, fills, ends⟩
  refine body.blank.structural rfl ?_
  rintro colon _ kind ⟨body, semicolon, behind, rfl, ends⟩
  exact ⟨colon, body, semicolon, behind, rfl, kind, ends⟩

theorem reads_group {group : Group} {comments : List Text} (formed : group.IsFormed ('\n' ∉ ·))
    (after : AreComments comments)
    (domain : ∀ member ∈ group.members, member.body.spec.domains = [] → host.IsFormed ('\n' ∉ ·)) :
    ReadsTo (StandsAs IsAddress (Address.settle host ⟨.group group, comments⟩))
      (Commented.display (Address.written (orHost host)) ⟨.group group, comments⟩) := by
  rw [Address.display_group]
  refine (reads_displayPhrase formed.name.2).append (reads_groupEnd formed after domain)
    (endsAtom_cons (by decide)) ?_
  rintro name _ ⟨derived, none⟩
    ⟨colon, body, semicolon, behind, rfl, colon_kind, fills, kind, all, same⟩
  obtain ⟨word, words, eq⟩ := List.exists_cons_of_ne_nil formed.name.1
  rw [eq, List.map_cons] at derived
  have starts : StartsBare name := by
    rcases derived.leadKind [] with lead | lead <;> exact startsBare_of_leadKind lead none
  refine ⟨name ++ colon :: (body ++ [semicolon]), behind, by simp, starts.append _, all, same, ?_⟩
  intro following _
  have part := fills name colon semicolon _ _ (behind ++ following) derived colon_kind kind
  rw [none, ← List.map_cons, ← eq] at part
  exact .group part

/-- A member of a field and the comments behind it are read as what they settle to. -/
theorem reads_address (member : Commented Address)
    (formed : member.body.IsFormed ('\n' ∉ ·) ∧ AreComments member.comments)
    (domain : ∀ mailbox ∈ member.body.mailboxes, mailbox.spec.domains = [] →
      host.IsFormed ('\n' ∉ ·)) :
    ReadsTo (StandsAs IsAddress (Address.settle host member))
      (Commented.display (Address.written (orHost host)) member) := by
  obtain ⟨address, comments⟩ := member
  cases address with
  | group part =>
      refine reads_group formed.1 formed.2 fun member inside => ?_
      exact domain member.body (List.mem_map_of_mem inside)
  | mailbox part =>
      refine (reads_mailbox ⟨part, comments⟩ formed (domain part List.mem_cons_self)).mono ?_
      rintro tokens ⟨own, behind, rfl, starts, all, same, derived⟩
      exact ⟨own, behind, rfl, starts, all, same, fun following no_comment =>
        .mailbox (derived following no_comment)⟩

/-- The display of a field is read as the list that the field settles to. -/
theorem exists_isAddressList_display {list : AddressList} (formed : list.IsFormed ('\n' ∉ ·))
    (domain : ∀ mailbox ∈ list.mailboxes, mailbox.spec.domains = [] → host.IsFormed ('\n' ∉ ·)) :
    ∃ tokens, tokenize (list.display (orHost host)) = .ok tokens ∧
      IsAddressList tokens (list.settle host) := by
  have reads : ReadsTo (StandAs IsAddress (list.settle host)) (list.display (orHost host)) :=
    reads_members list formed.1 fun member inside =>
      reads_address member (formed.2 member inside) fun mailbox within =>
        domain mailbox (List.mem_flatMap.2 ⟨member, inside, within⟩)
  obtain ⟨tokens, finish, lexed, stand, kind⟩ := reads.tokenize
  refine ⟨tokens ++ [finish], lexed, .field (stand.2 [finish] fun head => ?_) kind⟩
  rw [headKind_cons, kind] at head
  cases head

end MailAddress
