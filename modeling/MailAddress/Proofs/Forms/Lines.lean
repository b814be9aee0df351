import Mathlib.Algebra.GroupWithZero.Nat
import MailAddress.Proofs.Forms.Parts
import MailAddress.Proofs.Matching.Fields

/-!
# Lines and addresses

The canonical form of a field is a line for each mailbox, and the addresses are the lines that are
found when it is split at the line feeds.  A line feed can also get into the address of a mailbox: a
pair in a quoted word may stand for it, and a domain literal may hold it among its spaces or as a
pair.  Then one mailbox is split into several addresses.  The addresses are those of the mailboxes
exactly if this does not happen.
-/

namespace MailAddress

open MailAddress.Derivation

/-! ## Splitting -/

section Splitting

variable {α : Type} [DecidableEq α] {a : α}

theorem length_splitOn (xs : List α) : (xs.splitOn a).length = xs.count a + 1 := by
  induction xs with
  | nil => simp
  | cons x xs ih =>
      rw [List.splitOn_cons_eq_if_modifyHead, List.count_cons]
      split
      next => simp [ih]
      next => simp [ih]

theorem not_mem_of_mem_splitOn {xs part : List α} (member : part ∈ xs.splitOn a) : a ∉ part := by
  induction xs generalizing part with
  | nil => simp_all
  | cons x xs ih =>
      rw [List.splitOn_cons_eq_if_modifyHead] at member
      split at member
      next =>
        rcases List.mem_cons.1 member with rfl | member
        · exact List.not_mem_nil
        · exact ih member
      next other =>
        cases split : xs.splitOn a with
        | nil => exact absurd split (List.splitOn_ne_nil a xs)
        | cons first others =>
            rw [split] at member
            rcases List.mem_cons.1 member with rfl | member
            · have first_free := ih (split ▸ List.mem_cons_self)
              simp only [List.mem_cons, not_or]
              exact ⟨fun same => other (by simp [same]), first_free⟩
            · exact ih (split ▸ List.mem_cons_of_mem _ member)

/-- Parts that are each closed by a separator are split one by one. -/
theorem splitOn_flatMap (parts : List (List α)) :
    (parts.flatMap (· ++ [a])).splitOn a = parts.flatMap (·.splitOn a) ++ [[]] := by
  induction parts with
  | nil => rfl
  | cons part parts ih =>
      rw [List.flatMap_cons, List.append_assoc, List.singleton_append,
        List.splitOn_append_cons_self, ih, List.flatMap_cons, List.append_assoc]

end Splitting

/-! ## Line feeds within an address -/

/-- No line feed gets into the address of a mailbox. -/
def Mailbox.IsUnbroken (mailbox : Mailbox) : Prop :=
  (∀ content, .quoted content ∈ mailbox.spec.localPart → '\n' ∉ content) ∧
    ∀ labels ∈ mailbox.spec.domains, ∀ label ∈ labels, '\n' ∉ label

theorem mem_wordsLine_iff {words : List Word} {c : Char} (other : c ≠ '.') :
    c ∈ wordsLine words ↔ ∃ word ∈ words, c ∈ word.content := by
  induction words with
  | nil => simp [wordsLine]
  | cons word words ih =>
      cases words with
      | nil => simp [wordsLine]
      | cons next words => simp [wordsLine, ih, other]

theorem mem_domain_text_iff {labels : Domain} {c : Char} (other : c ≠ '.') :
    c ∈ labels.text ↔ ∃ label ∈ labels, c ∈ label := by
  induction labels with
  | nil => simp [Domain.text, List.intercalate]
  | cons label labels ih =>
      cases labels with
      | nil => simp [Domain.text, List.intercalate]
      | cons next labels =>
          simp only [Domain.text, List.intercalate] at ih ⊢
          simp [ih, other]

theorem mem_domainsLine_iff {domains : List Domain} {c : Char} (other : c ≠ '@') :
    c ∈ domainsLine id domains ↔ ∃ labels ∈ domains, c ∈ labels.text := by
  induction domains with
  | nil => simp [domainsLine, other]
  | cons domain domains ih =>
      cases domains with
      | nil => simp [domainsLine, other]
      | cons next domains => simp [domainsLine, ih, other]

/-- An atom holds no line feed, so one gets in only by a quoted word or a label. -/
theorem Mailbox.IsFormed.isUnbroken_iff {allowed : Text → Prop} {mailbox : Mailbox}
    (formed : mailbox.spec.IsFormed allowed) :
    '\n' ∉ entry id mailbox.spec ↔ mailbox.IsUnbroken := by
  have atoms : ∀ text, Word.atom text ∈ mailbox.spec.localPart → '\n' ∉ text := by
    intro text member inside
    have atom : isAtom text = true := formed.words.2 _ member
    simp only [isAtom, Bool.and_eq_true, List.all_eq_true] at atom
    exact absurd (atom.2 _ inside) (by decide)
  have words : '\n' ∉ wordsLine mailbox.spec.localPart ↔
      ∀ content, .quoted content ∈ mailbox.spec.localPart → '\n' ∉ content := by
    rw [mem_wordsLine_iff (by decide)]
    constructor
    · intro free content member inside
      exact free ⟨_, member, inside⟩
    · rintro free ⟨word, member, inside⟩
      cases word with
      | atom text => exact atoms text member inside
      | quoted content => exact free content member inside
  have domains : '\n' ∉ domainsLine id mailbox.spec.domains ↔
      ∀ labels ∈ mailbox.spec.domains, ∀ label ∈ labels, '\n' ∉ label := by
    rw [mem_domainsLine_iff (by decide)]
    simp only [mem_domain_text_iff (show '\n' ≠ '.' by decide), not_exists, not_and]
  rw [entry, List.mem_append, not_or, words, domains, Mailbox.IsUnbroken]

/-! ## The addresses of a field -/

/-- The address of each mailbox, split at its line feeds. -/
theorem addresses_eq_flatMap {field : Text} {list : AddressList}
    (accepted : (readField false field).verdict = .ok list) :
    (parseField id field).addresses =
      list.mailboxes.flatMap fun mailbox => (entry id mailbox.spec).splitOn '\n' := by
  have canonical : (parseField id field).canonical = list.canonical id := by
    rw [parseField, Parse.ofReading, accepted]
    rfl
  have lines : list.canonical id =
      (list.mailboxes.map fun mailbox => entry id mailbox.spec).flatMap (· ++ ['\n']) := by
    rw [canonical_eq_lines, List.flatMap_map]
    rfl
  rw [Parse.addresses, canonical, lines, splitOn_flatMap, List.dropLast_concat, List.flatMap_map]

/-- There are as many addresses as mailboxes, and line feeds in their addresses. -/
theorem length_addresses {field : Text} {list : AddressList}
    (accepted : (readField false field).verdict = .ok list) :
    (parseField id field).addresses.length = list.mailboxes.length +
      (list.mailboxes.map fun mailbox => (entry id mailbox.spec).count '\n').sum := by
  rw [addresses_eq_flatMap accepted, List.length_flatMap]
  induction list.mailboxes with
  | nil => rfl
  | cons mailbox mailboxes ih =>
      simp only [List.map_cons, List.sum_cons, List.length_cons, length_splitOn] at ih ⊢
      omega

/-- The addresses of a field are those of its mailboxes if and only if no line feed gets into one,
and then only are there as many.  Whatever the field, no address holds a line feed, and a field
without one is among those where all is well. -/
theorem addresses_eq_map_entry_iff (field : Text) (list : AddressList)
    (accepted : (readField false field).verdict = .ok list) :
    ((parseField id field).addresses.length = list.mailboxes.length ↔
        ∀ mailbox ∈ list.mailboxes, mailbox.IsUnbroken) ∧
      ((parseField id field).addresses =
          list.mailboxes.map (fun mailbox => entry id mailbox.spec) ↔
        ∀ mailbox ∈ list.mailboxes, mailbox.IsUnbroken) ∧
      (∀ address ∈ (parseField id field).addresses, '\n' ∉ address) ∧
      ('\n' ∉ field → ∀ mailbox ∈ list.mailboxes, mailbox.IsUnbroken) := by
  obtain ⟨tokens, lexed, derived⟩ := verdict_eq_ok_iff.1 accepted
  have formed : list.IsFormed fun _ => True :=
    isFormed_of_isAddressList lexed derived fun _ _ => ⟨fun _ => trivial, fun _ => trivial⟩
  have unbroken_iff : ∀ mailbox ∈ list.mailboxes,
      ('\n' ∉ entry id mailbox.spec ↔ mailbox.IsUnbroken) := fun mailbox member =>
    Mailbox.IsFormed.isUnbroken_iff (formed.mailboxes mailbox member).spec
  have length_iff : (parseField id field).addresses.length = list.mailboxes.length ↔
      ∀ mailbox ∈ list.mailboxes, mailbox.IsUnbroken := by
    rw [length_addresses accepted, Nat.add_eq_left, List.sum_eq_zero_iff_forall_eq_nat]
    simp only [List.forall_mem_map, List.count_eq_zero]
    exact forall₂_congr unbroken_iff
  refine ⟨length_iff, ⟨fun same => ?_, fun unbroken => ?_⟩, ?_, ?_⟩
  · refine length_iff.1 ?_
    rw [same, List.length_map]
  · rw [addresses_eq_flatMap accepted, List.map_eq_flatMap]
    refine List.flatMap_congr fun mailbox member => ?_
    exact List.splitOn_eq_singleton ((unbroken_iff mailbox member).2 (unbroken mailbox member))
  · intro address member
    rw [addresses_eq_flatMap accepted, List.mem_flatMap] at member
    obtain ⟨mailbox, _, member⟩ := member
    exact not_mem_of_mem_splitOn member
  · intro free mailbox member
    have free_list : list.IsFormed ('\n' ∉ ·) :=
      isFormed_of_isAddressList lexed derived (isAllowed_of_not_mem lexed free)
    have spec := (free_list.mailboxes mailbox member).spec
    refine ⟨fun content inside => spec.words.2 _ inside, fun labels inside label label_inside => ?_⟩
    exact ((spec.domains labels inside).2 label label_inside).2

/-- A mailbox whose quoted word holds a pair of a backslash and a line feed has two addresses. -/
theorem addresses_of_line_feed_pair :
    (parseField id "\"a\\\nb\"@c".toList).addresses = ["a".toList, "b@c".toList] ∧
      (readField false "\"a\\\nb\"@c".toList).verdict.toOption.map
        (fun list => list.mailboxes.length) = some 1 := by
  decide +kernel

/-- Three mailboxes, two of them in a group, with a line feed between words. -/
def foldedField : Text := "a@b,\n t: \"c d\".e@f, g@h;".toList

/-- The same, and a line feed within a quoted word. -/
def brokenField : Text := "a@b,\n t: \"c\\\nd\".e@f, g@h;".toList

theorem exists_mailboxes {field : Text} {count : Nat}
    (counted : (readField false field).verdict.toOption.map (fun list => list.mailboxes.length) =
      some count) :
    ∃ list, (readField false field).verdict = .ok list ∧ list.mailboxes.length = count := by
  cases verdict : (readField false field).verdict with
  | error fault => simp [verdict, Except.toOption] at counted
  | ok list => exact ⟨list, rfl, by simpa [verdict, Except.toOption] using counted⟩

/-- A line feed between words leaves one address for each mailbox, and one within a word does not. -/
theorem addresses_eq_map_entry_iff_of_group :
    (∃ list, (readField false foldedField).verdict = .ok list ∧ list.mailboxes.length = 3 ∧
      (∀ mailbox ∈ list.mailboxes, mailbox.IsUnbroken) ∧
      (parseField id foldedField).addresses =
        list.mailboxes.map fun mailbox => entry id mailbox.spec) ∧
    ∃ list, (readField false brokenField).verdict = .ok list ∧ list.mailboxes.length = 3 ∧
      (parseField id brokenField).addresses.length = 4 ∧
      ¬ ∀ mailbox ∈ list.mailboxes, mailbox.IsUnbroken := by
  have folded_lines : (parseField id foldedField).addresses.length = 3 := by decide +kernel
  have broken_lines : (parseField id brokenField).addresses.length = 4 := by decide +kernel
  obtain ⟨folded, folded_accepted, folded_count⟩ : ∃ list,
      (readField false foldedField).verdict = .ok list ∧ list.mailboxes.length = 3 :=
    exists_mailboxes (by decide +kernel)
  obtain ⟨broken, broken_accepted, broken_count⟩ : ∃ list,
      (readField false brokenField).verdict = .ok list ∧ list.mailboxes.length = 3 :=
    exists_mailboxes (by decide +kernel)
  obtain ⟨folded_iff, entries_iff, -, -⟩ :=
    addresses_eq_map_entry_iff foldedField folded folded_accepted
  obtain ⟨broken_iff, -, -, -⟩ := addresses_eq_map_entry_iff brokenField broken broken_accepted
  have unbroken := folded_iff.1 (folded_lines.trans folded_count.symm)
  refine ⟨⟨folded, folded_accepted, folded_count, unbroken, entries_iff.2 unbroken⟩,
    broken, broken_accepted, broken_count, broken_lines, fun all => ?_⟩
  have lines := broken_iff.2 all
  omega

end MailAddress
