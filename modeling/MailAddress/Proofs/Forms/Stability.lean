import MailAddress.Proofs.Forms.Dangling

/-!
# Displays settle

The display of an accepted field is accepted in its turn, with the same canonical form, unless it
shows an at sign without a domain.  Its own display may differ from it, but then it is the last one:
all further displays are the same.
-/

namespace MailAddress

open MailAddress.Derivation

/-! ## Hosts -/

/-- Labels with single periods between them, and nothing else. -/
inductive IsHostName : List Token → Domain → Prop
  | last {label : Token} : label.kind = .atom ∨ label.kind = .domainLiteral →
      IsHostName [label] [label.text]
  | cons {label period : Token} {tokens : List Token} {labels : Domain} :
      label.kind = .atom ∨ label.kind = .domainLiteral → period.kind = .period →
      IsHostName tokens labels → IsHostName (label :: period :: tokens) (label.text :: labels)

/-- A text on one line that is its labels with periods between them, as it is read. -/
structure IsHost (host : Text) : Prop where
  free : '\n' ∉ host
  named : ∃ tokens finish labels, tokenize host = .ok (tokens ++ [finish]) ∧
    IsHostName tokens labels ∧ ['.'].intercalate labels = host

theorem IsHostName.isSeries {tokens : List Token} {labels : Domain}
    (named : IsHostName tokens labels) : IsSeries IsLabel tokens labels := by
  induction named with
  | last kind => exact .items (IsLabel.label .nil kind) (.stop .nil)
  | @cons label period tokens labels kind period_kind _ ih =>
      cases ih with
      | items item tail =>
          exact .items (IsLabel.label .nil kind) (.next .nil period_kind item tail)

theorem IsHost.exists_domain {host : Text} (named : IsHost host) :
    ∃ labels : Domain, labels.text = host ∧ labels.IsFormed ('\n' ∉ ·) := by
  obtain ⟨free, tokens, finish, labels, lexed, named, same⟩ := named
  obtain ⟨body, last, once⟩ := endsOnce_of_tokenize lexed
  obtain ⟨rfl, _⟩ := List.append_inj' once.eq rfl
  have feeds : Feeds ('\n' ∉ ·) tokens := fun token member =>
    ⟨once.read token member, isAllowed_of_not_mem lexed free token (List.mem_append_left _ member)⟩
  exact ⟨labels, same, named.isSeries.forall_mem (fun _ _ label => label.isLabelText) feeds⟩

/-! ## Passes -/

theorem parseField_eq_accepted {f : Text → Text} {field : Text} {list : AddressList}
    (accepted : (readField false field).verdict = .ok list) :
    parseField f field = .accepted (list.display f) (list.canonical f) := by
  rw [parseField, Parse.ofReading, accepted]

/-- A pass over a display settles the list. -/
theorem parseField_display {host : Domain} {list : AddressList} (formed : list.IsFormed ('\n' ∉ ·))
    (domain : ∀ mailbox ∈ list.mailboxes, mailbox.spec.domains = [] → host.IsFormed ('\n' ∉ ·)) :
    parseField (orHost host) (list.display (orHost host)) =
      .accepted ((list.settle host).display (orHost host)) (list.canonical (orHost host)) := by
  rw [parseField_eq_accepted (verdict_eq_ok_iff.2 (exists_isAddressList_display formed domain)),
    list.canonical_settle]

/-- The pass over the display of a settled list changes nothing. -/
theorem parseField_display_settle {host : Domain} {list : AddressList}
    (formed : (list.settle host).IsFormed ('\n' ∉ ·)) :
    parseField (orHost host) ((list.settle host).display (orHost host)) =
      .accepted ((list.settle host).display (orHost host)) (list.canonical (orHost host)) := by
  rw [parseField_display formed fun mailbox inside none =>
      absurd none (list.domains_settle_ne_nil mailbox inside),
    AddressList.display_settle list.isSettled_settle, list.canonical_settle]

/-- Without a host, the display of a list with a missing domain is refused. -/
theorem isAccepted_display_eq_false {list : AddressList} (formed : list.IsFormed ('\n' ∉ ·))
    (bad : ∃ mailbox ∈ list.mailboxes, mailbox.spec.domains = []) :
    (parseField (orHost []) (list.display (orHost []))).isAccepted = false := by
  cases verdict : (readField false (list.display (orHost []))).verdict with
  | error fault => rw [parseField, Parse.ofReading, verdict, Parse.isAccepted]
  | ok other =>
      obtain ⟨tokens, lexed, derived⟩ := verdict_eq_ok_iff.1 verdict
      exact absurd derived ((dangles_display formed bad).not_isAddressList lexed other)

/-- The parse of a field in which a host stands for the missing domains. -/
abbrev parseWithHost (host field : Text) : Parse :=
  parseField (Canonicalization.defaultHost host).apply field

/-- The display of an accepted field is accepted if and only if a host or a domain stands behind
each of its at signs.  Then its canonical form is that of the field, and its display stays as it is
from there on. -/
theorem parseWithHost_display (host field : Text) (list : AddressList)
    (named : host = [] ∨ IsHost host) (free : '\n' ∉ field)
    (accepted : (readField false field).verdict = .ok list) :
    ((parseWithHost host (parseWithHost host field).display).isAccepted = true ↔
        host ≠ [] ∨ ∀ mailbox ∈ list.mailboxes, mailbox.spec.domains ≠ []) ∧
      ∀ display canonical,
        parseWithHost host (parseWithHost host field).display = .accepted display canonical →
          canonical = (parseWithHost host field).canonical ∧
            parseWithHost host display = .accepted display canonical := by
  obtain ⟨labels, rfl, labels_formed⟩ : ∃ labels : Domain, labels.text = host ∧
      (labels = [] ∨ labels.IsFormed ('\n' ∉ ·)) := by
    rcases named with rfl | named
    · exact ⟨[], rfl, .inl rfl⟩
    · obtain ⟨labels, same, formed⟩ := named.exists_domain
      exact ⟨labels, same, .inr formed⟩
  obtain ⟨tokens, lexed, derived⟩ := verdict_eq_ok_iff.1 accepted
  have formed : list.IsFormed ('\n' ∉ ·) :=
    isFormed_of_isAddressList lexed derived (isAllowed_of_not_mem lexed free)
  have pass : parseWithHost labels.text = parseField (orHost labels) := rfl
  rw [pass, parseField_eq_accepted accepted, Parse.display, Parse.canonical]
  -- The display of a list with an unserved mailbox dangles, and that of any other settles.
  by_cases served : labels.text ≠ [] ∨ ∀ mailbox ∈ list.mailboxes, mailbox.spec.domains ≠ []
  · have domain : ∀ mailbox ∈ list.mailboxes, mailbox.spec.domains = [] →
        labels.IsFormed ('\n' ∉ ·) := by
      intro mailbox inside none
      have some : labels.text ≠ [] := served.resolve_right fun all => all mailbox inside none
      exact labels_formed.resolve_left fun empty => some (congrArg Domain.text empty)
    rw [parseField_display formed domain]
    refine ⟨iff_of_true rfl served, ?_⟩
    rintro _ _ ⟨rfl, rfl⟩
    exact ⟨rfl, parseField_display_settle (formed.settle domain)⟩
  · have unserved := served
    simp only [not_or, not_not, not_forall] at unserved
    obtain ⟨empty, mailbox, inside, none⟩ := unserved
    have refused :
        (parseField (orHost labels) (list.display (orHost labels))).isAccepted = false := by
      rcases labels_formed with rfl | labels_formed
      · exact isAccepted_display_eq_false formed ⟨mailbox, inside, none⟩
      · exact absurd empty labels_formed.text_ne_nil
    refine ⟨iff_of_false (by rw [refused]; decide) served, fun display canonical second => ?_⟩
    rw [second] at refused
    cases refused

/-- A comment in front of a name moves twice.  Without a host, the first display is refused. -/
theorem parseWithHost_display_of_moving_comment :
    parseWithHost ['h'] "(c)n<a>".toList = .accepted "n (c) <a@h>".toList "a@h\n".toList ∧
      parseWithHost ['h'] "n <a@h> (c)".toList =
        .accepted "n <a@h> (c)".toList "a@h\n".toList ∧
      (parseWithHost [] (parseWithHost [] "(c)n<a>".toList).display).isAccepted = false := by
  have host : IsHost ['h'] :=
    ⟨by decide, [⟨.atom, ['h'], ⟨0, 1⟩⟩], ⟨.endOfText, [], ⟨1, 1⟩⟩, [['h']], rfl,
      .last (.inl rfl), rfl⟩
  have free : '\n' ∉ "(c)n<a>".toList := by decide
  have accepted : (readField false "(c)n<a>".toList).verdict = .ok
      [⟨.mailbox (.angle (some ⟨[.atom ['n']], ["(c)".toList]⟩) ⟨⟨[.atom ['a']], []⟩, []⟩), []⟩] := by
    decide +kernel
  have served := parseWithHost_display ['h'] _ _ (.inr host) free accepted
  have unserved := parseWithHost_display [] _ _ (.inl rfl) free accepted
  refine ⟨by decide +kernel, ?_, ?_⟩
  · exact (served.2 "n <a@h> (c)".toList "a@h\n".toList (by decide +kernel)).2
  · rw [← Bool.not_eq_true]
    refine fun accepted => (unserved.1.1 accepted).elim (fun some => some rfl) fun all => ?_
    exact all _ List.mem_cons_self rfl

end MailAddress
