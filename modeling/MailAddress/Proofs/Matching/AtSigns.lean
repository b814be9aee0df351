import MailAddress.Proofs.Matching.LongestPhrases

/-!
# At signs

In a list of addresses a label comes behind every at sign, over comments.  So there is no list with
an at sign in front of a structural character or of the end.
-/

namespace MailAddress

open MailAddress.Derivation

open scoped Computability

/-- Behind every at sign a label leads. -/
def Answered (tokens : List Token) : Prop :=
  ∀ before sign behind, tokens = before ++ sign :: behind → sign.kind = .atSign →
    leadKind behind = some .atom ∨ leadKind behind = some .domainLiteral

/-- Behind every at sign of what spells a language, a label leads. -/
def Answers (language : Language Kind) : Prop := ∀ tokens, Spells language tokens → Answered tokens

theorem leadKind_append_of_some {tokens rest : List Token} {kind : Kind}
    (lead : leadKind tokens = some kind) : leadKind (tokens ++ rest) = some kind := by
  obtain ⟨comments, token, behind, rfl, all, rfl, other⟩ := exists_of_leadKind lead
  rw [List.append_assoc, all.leadKind_append, List.cons_append, leadKind_cons_of_ne other]

theorem Answered.append {left right : List Token} (first : Answered left)
    (second : Answered right) : Answered (left ++ right) := by
  intro before sign behind eq kind
  rcases List.append_eq_append_iff.1 eq with ⟨middle, rfl, rest⟩ | ⟨middle, rfl, rest⟩
  · exact second middle sign behind rest kind
  · cases middle with
    | nil => exact second [] sign behind rest.symm kind
    | cons token middle =>
        obtain ⟨rfl, rfl⟩ := List.cons.inj rest
        refine (first before sign middle rfl kind).imp ?_ ?_ <;> exact leadKind_append_of_some

namespace Answers

variable {first second language : Language Kind}

theorem mul (left : Answers first) (right : Answers second) : Answers (first * second) := by
  intro tokens spells
  obtain ⟨_, _, rfl, first_spells, second_spells⟩ := Spells.mul.1 spells
  exact (left _ first_spells).append (right _ second_spells)

theorem add (left : Answers first) (right : Answers second) : Answers (first + second) := by
  intro tokens spells
  rcases Spells.add.1 spells with spells | spells
  · exact left tokens spells
  · exact right tokens spells

theorem answered_nil : Answered [] := by
  intro before sign behind eq
  cases before <;> cases eq

theorem one : Answers 1 := by
  intro tokens spells
  rw [Spells.one.1 spells]
  exact answered_nil

theorem kstar (answers : Answers language) : Answers language∗ := by
  intro tokens spells
  exact spells.kstar_induction answered_nil fun _ _ first _ others =>
    (answers _ first).append others

theorem token {kind : Kind} (other : kind ≠ .atSign) : Answers (Production.token kind) := by
  intro tokens spells before sign behind eq sign_kind
  obtain ⟨token, rfl, same⟩ := Spells.token.1 spells
  have member : sign ∈ [token] := by
    rw [eq]
    exact List.mem_append_right _ List.mem_cons_self
  rw [List.mem_singleton.1 member, same] at sign_kind
  exact absurd sign_kind other

theorem keptByGrammar : KeptByGrammar Answers where
  one := one
  mul := mul
  add := add
  kstar := kstar
  comments := kstar (token (by decide))
  separators := kstar (add (token (by decide)) (token (by decide)))
  token outside := token fun sign => outside (by simp [sign])

/-- A domain leads with a label. -/
theorem atSign_domain : Answers (Production.token .atSign * Production.domain) := by
  intro tokens spells
  obtain ⟨front, labels, rfl, sign_spells, labels_spells⟩ := Spells.mul.1 spells
  obtain ⟨sign, rfl, _⟩ := Spells.token.1 sign_spells
  intro before other behind eq kind
  cases before with
  | cons token before =>
      exact keptByGrammar.domain labels labels_spells before other behind (List.cons.inj eq).2 kind
  | nil =>
      have same : labels = behind := (List.cons.inj eq).2
      rw [← same]
      obtain ⟨label, others, rfl, label_spells, _⟩ := Spells.mul.1 labels_spells
      obtain ⟨_, derived⟩ := exists_isLabel label_spells
      cases derived with
      | @label comments token all kind =>
          have other : token.kind ≠ .comment := by
            rcases kind with kind | kind <;> rw [kind] <;> decide
          rw [List.append_assoc, all.leadKind_append, List.singleton_append,
            leadKind_cons_of_ne other]
          exact kind.imp (congrArg some) (congrArg some)

theorem addresses : Answers Production.addresses := by
  refine keptByGrammar.addresses ?_ (token (by decide))
  rw [mul_assoc]
  exact mul keptByGrammar.comments atSign_domain

end Answers

end MailAddress
