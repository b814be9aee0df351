import MailAddress.Proofs.Matching.Insertions

/-!
# Transparent comments

A comment is transparent: tokens are a list of addresses with it if and only if they are one without
it, and the canonical form is the same.  The one exception is the place between the name of a group
and the colon, where no comment may stand.

That a comment may go is shown for the languages of the grammar, production by production.
-/

namespace MailAddress

open MailAddress.Derivation

open scoped Computability

/-- What spells a language does so without any one of its comments. -/
def Drops (language : Language Kind) : Prop :=
  ∀ left comment right, comment.kind = .comment → Spells language (left ++ comment :: right) →
    Spells language (left ++ right)

namespace Drops

variable {first second language : Language Kind}

theorem mul (left_drops : Drops first) (right_drops : Drops second) : Drops (first * second) := by
  intro left comment right is_comment spells
  obtain ⟨_, _, eq, first_spells, second_spells⟩ := Spells.mul.1 spells
  rcases split_append eq.symm with ⟨_ | ⟨token, between⟩, more, rfl, same⟩ | ⟨between, rfl, rfl⟩
  · exact absurd rfl more
  · obtain ⟨rfl, rfl⟩ := List.cons.inj same
    have fewer := (left_drops _ _ _ is_comment first_spells).append second_spells
    simpa using fewer
  · rw [List.append_assoc]
    exact first_spells.append (right_drops _ _ _ is_comment second_spells)

theorem add (left_drops : Drops first) (right_drops : Drops second) : Drops (first + second) := by
  intro left comment right is_comment spells
  rcases Spells.add.1 spells with spells | spells
  · exact Spells.add.2 (.inl (left_drops _ _ _ is_comment spells))
  · exact Spells.add.2 (.inr (right_drops _ _ _ is_comment spells))

theorem one : Drops 1 := by
  intro left comment right _ spells
  simp [Spells.one] at spells

theorem kstar (drops : Drops language) : Drops language∗ := by
  intro left comment right is_comment spells
  generalize eq : left ++ comment :: right = tokens at spells
  refine spells.kstar_induction (motive := fun tokens => ∀ left, left ++ comment :: right = tokens →
    Spells language∗ (left ++ right)) ?_ ?_ left eq
  · simp
  · intro head tail head_spells tail_spells ih left eq
    rcases split_append eq.symm with ⟨_ | ⟨token, between⟩, more, rfl, same⟩ | ⟨between, rfl, same⟩
    · exact absurd rfl more
    · obtain ⟨rfl, rfl⟩ := List.cons.inj same
      have fewer := (drops _ _ _ is_comment head_spells).kstar_append tail_spells
      simpa using fewer
    · rw [List.append_assoc]
      exact head_spells.kstar_append (ih between same.symm)

theorem token {kind : Kind} (other : kind ≠ .comment) : Drops (Production.token kind) := by
  intro left comment right is_comment spells
  obtain ⟨token, eq, same⟩ := Spells.token.1 spells
  have member : comment ∈ [token] := by
    rw [← eq]
    exact List.mem_append_right _ List.mem_cons_self
  rw [← same, ← List.mem_singleton.1 member] at other
  exact absurd is_comment other

theorem comments : Drops Production.comments := by
  intro left comment right is_comment spells
  rw [Spells.comments] at spells ⊢
  exact fun token member => spells token (subset_insert member)

theorem separators : Drops Production.separators := by
  intro left comment right is_comment spells
  rw [Spells.separators] at spells ⊢
  exact fun token member => spells token (subset_insert member)

theorem keptByGrammar : KeptByGrammar Drops where
  one := one
  mul := mul
  add := add
  kstar := kstar
  comments := comments
  separators := separators
  token outside := token fun comment => outside (by simp [comment])

theorem addresses : Drops Production.addresses := by
  refine keptByGrammar.addresses ?_ (token (by decide))
  exact mul (mul comments (token (by decide))) keptByGrammar.domain

end Drops

/-! ## Fields -/

/-- With a comment in any place, tokens are a list of addresses if and only if they are one without
it and the place is not in front of the colon of a group. -/
theorem exists_isAddressList_insert_iff {comment : Token} {left right : List Token}
    (is_comment : comment.kind = .comment) (inside : right ≠ []) :
    (∃ list, IsAddressList (left ++ comment :: right) list) ↔
      (∃ list, IsAddressList (left ++ right) list) ∧ ¬ AtGroupColon left right := by
  constructor
  · rintro ⟨list, derived⟩
    have keeps := derived.keepsNames left comment right rfl is_comment
    have spells := Drops.addresses left comment right is_comment derived.spells
    exact ⟨exists_isAddressList spells, keeps⟩
  · rintro ⟨⟨list, derived⟩, no_colon⟩
    obtain ⟨other, padded, -⟩ := derived.insert is_comment inside no_colon
    exact ⟨other, padded⟩

/-- Tokens with a comment in front of one of them end as they did. -/
theorem Token.EndsOnly.insert {left right body : List Token} {comment finish : Token}
    (is_comment : comment.kind = .comment) (inside : right ≠ [])
    (only : Token.EndsOnly (left ++ right) body finish) :
    ∃ padded, Token.EndsOnly (left ++ comment :: right) padded finish := by
  obtain ⟨between, rfl, rfl⟩ := split_concat only.eq.symm inside
  refine ⟨left ++ comment :: between, by simp, only.kind, fun token member => ?_⟩
  rcases List.mem_append.1 member with member | member
  · exact only.others token (List.mem_append_left _ member)
  · rcases List.mem_cons.1 member with rfl | member
    · simp [is_comment]
    · exact only.others token (List.mem_append_right _ member)

/-- The canonical form shows nothing but the address specifications. -/
theorem canonical_eq_specs (f : Text → Text) (list : AddressList) :
    list.canonical f = (list.mailboxes.map Mailbox.spec).flatMap (line f) := by
  rw [canonical_eq_lines, List.flatMap_map]

/-- A comment in any place of a field changes neither acceptance nor the canonical form, unless it
stands in front of the colon of a group: then the tokens are no list of addresses. -/
theorem Session.call_addresses_insert_comment (session padded : Session) (f : Text → Text)
    (tracing : Bool) (field : Text) (comment : Token) (index : Nat)
    (lexed : tokenize field = .ok session.tokens) (is_comment : comment.kind = .comment)
    (inside : index < session.tokens.length)
    (inserted : padded.tokens = session.tokens.take index ++ comment :: session.tokens.drop index) :
    ((∃ position forms, (padded.call f tracing .addresses 0).2.answer = .matched position forms) ↔
      (∃ position forms,
        (session.call f tracing .addresses 0).2.answer = .matched position forms) ∧
      ¬ AtGroupColon (session.tokens.take index) (session.tokens.drop index)) ∧
    ∀ position forms position' forms',
      (session.call f tracing .addresses 0).2.answer = .matched position forms →
      (padded.call f tracing .addresses 0).2.answer = .matched position' forms' →
      forms'.canonical = forms.canonical := by
  obtain ⟨body, finish, once⟩ := endsOnce_of_tokenize lexed
  have only := once.endsOnly
  have nonempty : session.tokens.drop index ≠ [] := by simpa using inside
  obtain ⟨padded_body, padded_only⟩ : ∃ padded_body, Token.EndsOnly padded.tokens padded_body finish := by
    rw [inserted]
    exact Token.EndsOnly.insert is_comment nonempty (by rwa [List.take_append_drop])
  constructor
  · rw [exists_answer_iff only, exists_answer_iff padded_only, inserted,
      exists_isAddressList_insert_iff is_comment nonempty, List.take_append_drop]
  · intro position forms position' forms' answer padded_answer
    obtain ⟨list, rest, matched, -, rfl⟩ := answer_eq_matched_iff.1 answer
    obtain ⟨other, behind, padded_matched, -, rfl⟩ := answer_eq_matched_iff.1 padded_answer
    have derived := (only.matched_iff tracing).1 ⟨rest, matched⟩
    have padded_derived := (padded_only.matched_iff tracing).1 ⟨behind, padded_matched⟩
    rw [inserted] at padded_derived
    have keeps := padded_derived.keepsNames _ _ _ rfl is_comment
    rw [← List.take_append_drop index session.tokens] at derived
    obtain ⟨found, found_derived, same⟩ := derived.insert is_comment nonempty keeps
    obtain rfl := padded_derived.unique found_derived
    show found.canonical f = list.canonical f
    rw [canonical_eq_specs, canonical_eq_specs, same]

/-- The tokens of a group of one mailbox. -/
def namedTokens : List Token :=
  [⟨.atom, ['A'], ⟨0, 1⟩⟩, ⟨.colon, [], ⟨1, 2⟩⟩, ⟨.atom, ['a'], ⟨3, 4⟩⟩, ⟨.atSign, [], ⟨4, 5⟩⟩,
    ⟨.atom, ['b'], ⟨5, 6⟩⟩, ⟨.semicolon, [], ⟨6, 7⟩⟩, ⟨.endOfText, [], ⟨7, 7⟩⟩]

/-- A comment. -/
def aside : Token := ⟨.comment, "(x)".toList, ⟨0, 3⟩⟩

/-- A comment in front of a domain is transparent. -/
theorem Session.call_addresses_insert_comment_of_domain :
    ∃ position forms,
      (call ⟨namedTokens.take 4 ++ aside :: namedTokens.drop 4, 0, 0⟩ id true .addresses 0).2.answer =
        .matched position forms ∧ forms.canonical = "a@b\n".toList := by
  have transparent := call_addresses_insert_comment ⟨namedTokens, 0, 0⟩
    ⟨namedTokens.take 4 ++ aside :: namedTokens.drop 4, 0, 0⟩ id true "A: a@b;".toList aside 4 rfl rfl
    (by decide) rfl
  have answer : (call ⟨namedTokens, 0, 0⟩ id true .addresses 0).2.answer =
      .matched 6 ⟨"A: a@b;".toList, [], "a@b\n".toList⟩ := by
    decide +kernel
  have no_colon : ¬ AtGroupColon (namedTokens.take 4) (namedTokens.drop 4) := by
    rintro ⟨head, -⟩
    cases head
  obtain ⟨position, forms, matched⟩ := transparent.1.2 ⟨⟨_, _, answer⟩, no_colon⟩
  exact ⟨position, forms, matched, transparent.2 _ _ _ _ answer matched⟩

/-- A comment in front of the colon of a group is not. -/
theorem Session.call_addresses_of_comment_before_colon :
    tokenize "A: a@b;".toList = .ok namedTokens ∧
      (call ⟨namedTokens, 0, 0⟩ id false .addresses 0).2.answer =
        .matched 6 ⟨"A: a@b;".toList, [], "a@b\n".toList⟩ ∧
      (call ⟨namedTokens.take 1 ++ aside :: namedTokens.drop 1, 0, 0⟩ id false .addresses 0).2.answer =
        .failed := by
  decide +kernel

end MailAddress
