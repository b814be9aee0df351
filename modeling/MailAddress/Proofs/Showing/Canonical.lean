import MailAddress.Command.Run
import MailAddress.Proofs.Forms.Lines
import MailAddress.Proofs.Forms.Splicing
import MailAddress.Proofs.Showing.Escapes

/-!
# Canonical addresses on streams without colours

The canonical form of a field is printed like any other text, so a stream that takes no colours gets
it without escape sequences, even where a sequence belongs to an address.  An atom holds no control,
and within a domain literal a bracket stands behind a backslash only.  So a sequence gets into an
address by a quoted word or by the default host.  The separators of an address interrupt sequences, so
each word and the host can be looked at alone.
-/

namespace MailAddress

open Terminal

/-! ## Parts of an address -/

theorem isUncolored_of_isAtom {text : Text} (atom : isAtom text = true) : IsUncolored text := by
  refine isUncolored_of_not_mem fun inside => ?_
  simp only [isAtom, Bool.and_eq_true, List.all_eq_true] at atom
  exact absurd (atom.2 _ inside) (by decide)

section Literals

variable {c : Char} {text : Text}

/-- No sequence begins in the text, and none goes on with it. -/
def IsUncoloredBehind (text : Text) : Prop := text.head? ≠ some '[' ∧ IsUncolored text

theorem IsUncoloredBehind.cons (other : c ≠ '[') (behind : IsUncoloredBehind text) :
    IsUncoloredBehind (c :: text) :=
  ⟨by simpa using other, (isUncolored_cons_of_head behind.1).2 behind.2⟩

theorem BracketTail.isUncoloredBehind (form : BracketTail text) : IsUncoloredBehind text := by
  induction form with
  | close => exact .cons (by decide) ⟨nofun, isUncolored_nil⟩
  | space space _ ih =>
      refine ih.cons ?_
      rintro rfl
      cases space

theorem DomainTail.isUncoloredBehind (form : DomainTail text) : IsUncoloredBehind text := by
  induction form with
  | close form => exact form.isUncoloredBehind
  | pair _ ih =>
      -- The character of the pair may be a bracket, but the backslash begins no sequence.
      refine ⟨by simp, ?_⟩
      rw [isUncolored_cons_of_ne (by decide), isUncolored_cons_of_head ih.1]
      exact ih.2
  | text plain _ ih =>
      refine ih.cons ?_
      rintro rfl
      cases plain

theorem LiteralTail.isUncoloredBehind (form : LiteralTail text) : IsUncoloredBehind text := by
  induction form with
  | text form => exact form.isUncoloredBehind
  | space space _ ih =>
      refine ih.cons ?_
      rintro rfl
      cases space

end Literals

variable {allowed : Text → Prop}

theorem IsLabelText.isUncolored {label : Text} (formed : IsLabelText allowed label) :
    IsUncolored label := by
  rcases formed.1 with atom | literal
  · exact isUncolored_of_isAtom atom
  · cases literal with
    | structural found => exact absurd (Kind.symbol_of_ofStructural? found).2 (by decide)
    | domainLiteral form =>
        rw [isUncolored_cons_of_ne (by decide)]
        exact form.isUncoloredBehind.2

theorem Domain.IsFormed.isUncolored {labels : Domain} (formed : labels.IsFormed allowed) :
    IsUncolored labels.text :=
  (isUncolored_intercalate_iff (by decide) labels).2
    fun label member => (formed.2 label member).isUncolored

theorem interrupts_routeText (domains : List Domain) : Interrupts (routeText domains) := by
  cases domains with
  | nil => exact interrupts_nil
  | cons labels domains => exact interrupts_cons (by decide)

theorem isUncolored_routeText {domains : List Domain}
    (formed : ∀ labels ∈ domains, labels.IsFormed allowed) : IsUncolored (routeText domains) := by
  induction domains with
  | nil => exact isUncolored_nil
  | cons labels domains ih =>
      obtain ⟨first, others⟩ := List.forall_mem_cons.1 formed
      show IsUncolored ('@' :: labels.text ++ routeText domains)
      rw [isUncolored_append_iff (interrupts_routeText domains), isUncolored_cons_of_ne (by decide)]
      exact ⟨first.isUncolored, ih others⟩

/-! ## Addresses -/

/-- No sequence gets into the address of a mailbox, be it by a quoted word or by what stands for a
missing domain. -/
structure Mailbox.ShowsWhole (canonicalization : Canonicalization) (mailbox : Mailbox) : Prop where
  words : ∀ content, .quoted content ∈ mailbox.spec.localPart → IsUncolored content
  host : mailbox.spec.domains = [] → IsUncolored (canonicalization.apply [])

/-- A canonicalization only puts something in the place of a missing domain. -/
theorem Canonicalization.apply_of_ne_nil (canonicalization : Canonicalization) {domain : Text}
    (some : domain ≠ []) : canonicalization.apply domain = domain := by
  cases canonicalization with
  | unchanged => rfl
  | defaultHost host => exact if_neg (by simpa using some)

theorem AddrSpec.IsFormed.isUncolored_finalDomain_iff {spec : AddrSpec}
    (formed : spec.IsFormed allowed) (canonicalization : Canonicalization) :
    IsUncolored (canonicalization.apply spec.finalDomain) ↔
      (spec.domains = [] → IsUncolored (canonicalization.apply [])) := by
  rcases List.eq_nil_or_concat spec.domains with none | ⟨relays, final, eq⟩
  · simp [finalDomain, none]
  · have final_formed := formed.domains final (by simp [eq])
    have written : canonicalization.apply spec.finalDomain = final.text := by
      simp [finalDomain, eq, canonicalization.apply_of_ne_nil final_formed.text_ne_nil]
    rw [written]
    exact iff_of_true final_formed.isUncolored (by simp [eq])

theorem AreWords.isUncolored_iff {words : List Word} (formed : AreWords allowed words) :
    IsUncolored (['.'].intercalate (words.map Word.content)) ↔
      ∀ content, .quoted content ∈ words → IsUncolored content := by
  rw [isUncolored_intercalate_iff (by decide), List.forall_mem_map]
  constructor
  · exact fun uncolored content member => uncolored _ member
  · intro uncolored word member
    cases word with
    | atom text => exact isUncolored_of_isAtom (formed.2 _ member)
    | quoted content => exact uncolored content member

theorem Mailbox.IsFormed.isUncolored_iff {mailbox : Mailbox} (formed : mailbox.IsFormed allowed)
    (canonicalization : Canonicalization) :
    IsUncolored (mailbox.spec.write canonicalization.apply Word.content) ↔
      mailbox.ShowsWhole canonicalization := by
  have relays : ∀ labels ∈ mailbox.spec.domains.dropLast, labels.IsFormed allowed :=
    fun labels member => formed.spec.domains labels (List.dropLast_subset _ member)
  rw [AddrSpec.write, isUncolored_append_cons_iff (by decide),
    isUncolored_append_iff (interrupts_routeText _), formed.spec.words.isUncolored_iff,
    and_iff_left (isUncolored_routeText relays), formed.spec.isUncolored_finalDomain_iff]
  exact ⟨fun both => ⟨both.1, both.2⟩, fun whole => ⟨whole.words, whole.host⟩⟩

/-- The canonical form of a list holds a sequence only if the address of a mailbox does. -/
theorem AddressList.IsFormed.isUncolored_canonical_iff {list : AddressList}
    (formed : list.IsFormed allowed) (canonicalization : Canonicalization) :
    IsUncolored (list.canonical canonicalization.apply) ↔
      ∀ mailbox ∈ list.mailboxes, mailbox.ShowsWhole canonicalization := by
  have lines : list.canonical canonicalization.apply = list.mailboxes.flatMap fun mailbox =>
      mailbox.spec.write canonicalization.apply Word.content ++ ['\n'] :=
    list.canonical_eq_flatMap canonicalization.apply
  rw [lines, isUncolored_flatMap_line_iff]
  exact forall₂_congr fun mailbox member =>
    (formed.mailboxes mailbox member).isUncolored_iff canonicalization

end MailAddress
