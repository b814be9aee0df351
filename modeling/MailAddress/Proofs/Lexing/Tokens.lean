import MailAddress.Proofs.Lexing.Lexemes
import MailAddress.Tokenization

/-!
# The tokens of a text, step by step

The number of steps never runs out, so the scan of a text goes on with the scan of what follows the
first space or lexeme.  Read as a relation, this says which tokens a text has: those of its lexemes,
in order, and the token of the end.  Another relation says where the reading of a text gets stuck,
and every text is in one of the two.
-/

namespace MailAddress

open Character

namespace Token

variable {bound offset : Nat} {c : Char} {kind : Kind} {text lexeme rest : Text}

theorem scanWithin_eq_scan (enough : text.length ≤ bound) :
    scanWithin bound offset text = scan offset text := by
  rw [scan]
  induction bound using Nat.strongRecOn generalizing text offset with
  | _ bound ih =>
      cases text with
      | nil => cases bound <;> rfl
      | cons c rest =>
          obtain ⟨bound, rfl⟩ : ∃ b, bound = b + 1 := by
            refine ⟨bound - 1, ?_⟩
            simp only [List.length_cons] at enough
            omega
          simp only [List.length_cons, Nat.add_le_add_iff_right] at enough
          have same : ∀ {offset behind}, behind.length ≤ rest.length →
              scanWithin bound offset behind = scanWithin rest.length offset behind := by
            intro offset behind fewer
            rw [ih bound (Nat.lt_succ_self _) (Nat.le_trans fewer enough)]
            rcases Nat.lt_or_eq_of_le enough with less | equal
            · rw [ih rest.length (by omega) fewer]
            · rw [equal, ih bound (Nat.lt_succ_self _) (by omega)]
          simp only [scanWithin, List.length_cons, same (Nat.le_refl _)]
          cases found : Lexeme.read c rest with
          | broken cause consumed => rfl
          | found kind lexeme behind =>
              obtain ⟨split, form, _⟩ := Lexeme.isLexeme_of_read found
              have fewer : behind.length ≤ rest.length := by
                have length := congrArg List.length split
                have some := List.length_pos_iff.2 form.ne_nil
                simp only [List.length_cons, List.length_append] at length
                omega
              simp only [same fewer]

theorem scan_space (space : isSpace c = true) :
    scan offset (c :: rest) = scan (offset + 1) rest := by
  rw [scan, List.length_cons, scanWithin, if_pos space, scan]

theorem scan_lexeme (form : IsLexeme kind lexeme) (ends : kind = .atom → EndsAtom rest) :
    scan offset (lexeme ++ rest) =
      (scan (offset + lexeme.length) rest).map (ofLexeme kind lexeme offset :: ·) := by
  cases lexeme with
  | nil => exact absurd rfl form.ne_nil
  | cons c lexeme =>
      have found := Lexeme.read_of_isLexeme form ends
      rw [scan, List.cons_append, List.length_cons, scanWithin, if_neg (by simp [form.isSpace_head])]
      simp only [found]
      rw [scanWithin_eq_scan (by simp)]
      cases scan (offset + (c :: lexeme).length) rest <;> rfl

/-- A structural character is a token of its own. -/
theorem scan_structural (found : Kind.ofStructural? c = some kind) :
    scan offset (c :: rest) = (scan (offset + 1) rest).map (ofLexeme kind [c] offset :: ·) := by
  have no_atom : kind ≠ .atom := by
    rintro rfl
    exact absurd (Kind.symbol_of_ofStructural? found).2 (by decide)
  exact scan_lexeme (.structural found) fun same => absurd same no_atom

/-- Where no lexeme can be completed, the reading is stuck. -/
theorem scan_broken {cause : Cause} {consumed : Text} (solid : isSpace c = false)
    (broken : Lexeme.read c rest = .broken cause consumed) :
    scan offset (c :: rest) = .error ⟨cause, offset, offset + consumed.length⟩ := by
  rw [scan, List.length_cons, scanWithin, if_neg (by simp [solid]), broken]

/-- These are the tokens of a text that starts at an offset. -/
inductive Lexes : (offset : Nat) → Text → List Token → Prop
  /-- At the end. -/
  | finish {offset : Nat} : Lexes offset [] [finish offset]
  /-- Behind a space. -/
  | space {offset : Nat} {c : Char} {rest : Text} {tokens : List Token} :
      isSpace c = true → Lexes (offset + 1) rest tokens → Lexes offset (c :: rest) tokens
  /-- From a lexeme on. -/
  | lexeme {offset : Nat} {kind : Kind} {lexeme rest : Text} {tokens : List Token} :
      IsLexeme kind lexeme → (kind = .atom → EndsAtom rest) →
      Lexes (offset + lexeme.length) rest tokens →
      Lexes offset (lexeme ++ rest) (ofLexeme kind lexeme offset :: tokens)

/-- The reading of a text that starts at an offset gets stuck like this. -/
inductive Sticks : (offset : Nat) → Text → Stuck → Prop
  /-- At once, since no lexeme can be completed. -/
  | broken {offset : Nat} {c : Char} {rest consumed : Text} {cause : Cause} :
      isSpace c = false → Lexeme.read c rest = .broken cause consumed →
      Sticks offset (c :: rest) ⟨cause, offset, offset + consumed.length⟩
  /-- Behind a space. -/
  | space {offset : Nat} {c : Char} {rest : Text} {stuck : Stuck} :
      isSpace c = true → Sticks (offset + 1) rest stuck → Sticks offset (c :: rest) stuck
  /-- Behind a lexeme. -/
  | lexeme {offset : Nat} {kind : Kind} {lexeme rest : Text} {stuck : Stuck} :
      IsLexeme kind lexeme → (kind = .atom → EndsAtom rest) →
      Sticks (offset + lexeme.length) rest stuck → Sticks offset (lexeme ++ rest) stuck

/-- A reading comes to the end or gets stuck. -/
theorem lexes_or_sticks (offset : Nat) (text : Text) :
    (∃ tokens, Lexes offset text tokens) ∨ ∃ stuck, Sticks offset text stuck := by
  -- A lexeme may be of any length, so the induction is on the length of the text.
  induction length : text.length using Nat.strongRecOn generalizing text offset with
  | _ size ih =>
      cases text with
      | nil => exact .inl ⟨_, .finish⟩
      | cons c rest =>
          by_cases space : isSpace c = true
          · rcases ih rest.length (by simp [← length]) (offset + 1) rest rfl with
              ⟨tokens, lexes⟩ | ⟨stuck, sticks⟩
            · exact .inl ⟨_, .space space lexes⟩
            · exact .inr ⟨_, .space space sticks⟩
          · cases found : Lexeme.read c rest with
            | broken cause consumed => exact .inr ⟨_, .broken (Bool.eq_false_iff.2 space) found⟩
            | found kind lexeme behind =>
                obtain ⟨split, form, ends⟩ := Lexeme.isLexeme_of_read found
                have shorter : behind.length < size := by
                  have same := congrArg List.length split
                  have some := List.length_pos_iff.2 form.ne_nil
                  simp only [List.length_append] at same
                  omega
                rw [split]
                rcases ih behind.length shorter (offset + lexeme.length) behind rfl with
                  ⟨tokens, lexes⟩ | ⟨stuck, sticks⟩
                · exact .inl ⟨_, .lexeme form ends lexes⟩
                · exact .inr ⟨_, .lexeme form ends sticks⟩

theorem Lexes.scan_eq {tokens : List Token} (lexes : Lexes offset text tokens) :
    scan offset text = .ok tokens := by
  induction lexes with
  | finish => rfl
  | space space _ ih => rw [scan_space space, ih]
  | lexeme form ends _ ih =>
      rw [scan_lexeme form ends, ih]
      rfl

theorem Sticks.scan_eq {stuck : Stuck} (sticks : Sticks offset text stuck) :
    scan offset text = .error stuck := by
  induction sticks with
  | broken solid broken => exact scan_broken solid broken
  | space space _ ih => rw [scan_space space, ih]
  | lexeme form ends _ ih =>
      rw [scan_lexeme form ends, ih]
      rfl

theorem scan_eq_ok_iff {tokens : List Token} :
    scan offset text = .ok tokens ↔ Lexes offset text tokens := by
  refine ⟨fun scanned => ?_, Lexes.scan_eq⟩
  rcases lexes_or_sticks offset text with ⟨others, lexes⟩ | ⟨stuck, sticks⟩
  · rw [lexes.scan_eq] at scanned
    cases scanned
    exact lexes
  · rw [sticks.scan_eq] at scanned
    cases scanned

theorem scan_eq_error_iff {stuck : Stuck} :
    scan offset text = .error stuck ↔ Sticks offset text stuck := by
  refine ⟨fun scanned => ?_, Sticks.scan_eq⟩
  rcases lexes_or_sticks offset text with ⟨tokens, lexes⟩ | ⟨other, sticks⟩
  · rw [lexes.scan_eq] at scanned
    cases scanned
  · rw [sticks.scan_eq] at scanned
    cases scanned
    exact sticks

/-! ## What tokens there are -/

/-- A token as it is read from a lexeme. -/
def IsRead (token : Token) : Prop :=
  ∃ lexeme, IsLexeme token.kind lexeme ∧ token.text = if token.kind.carriesText then lexeme else []

/-- Tokens up to the end of a text, and the token of the end. -/
structure EndsOnce (tokens body : List Token) (finish : Token) : Prop where
  /-- The token of the end comes last. -/
  eq : tokens = body ++ [finish]
  /-- It is the token of the end. -/
  kind : finish.kind = .endOfText
  /-- All others are read from lexemes. -/
  read : ∀ token ∈ body, token.IsRead

theorem Lexes.endsOnce {tokens : List Token} (lexes : Lexes offset text tokens) :
    ∃ body finish, EndsOnce tokens body finish := by
  induction lexes with
  | finish => exact ⟨[], _, rfl, rfl, fun _ member => absurd member List.not_mem_nil⟩
  | space _ _ ih => exact ih
  | @lexeme offset kind lexeme rest tokens form _ _ ih =>
      obtain ⟨body, finish, rfl, last, read⟩ := ih
      refine ⟨ofLexeme kind lexeme offset :: body, finish, rfl, last, ?_⟩
      exact List.forall_mem_cons.2 ⟨⟨lexeme, form, rfl⟩, read⟩

/-- No lexeme is the end of the text. -/
theorem IsRead.kind_ne {token : Token} (read : token.IsRead) : token.kind ≠ .endOfText := by
  obtain ⟨lexeme, form, _⟩ := read
  intro finish
  rw [finish] at form
  cases form with
  | structural found =>
      unfold Kind.ofStructural? at found
      split at found <;> cases found

/-- The text of a token stands in the text it was read from. -/
theorem Lexes.mem_of_mem_text {tokens : List Token} (lexes : Lexes offset text tokens) :
    ∀ token ∈ tokens, ∀ c ∈ token.text, c ∈ text := by
  induction lexes with
  | finish =>
      intro token member c inside
      rw [List.mem_singleton.1 member] at inside
      cases inside
  | space _ _ ih =>
      intro token member c inside
      exact List.mem_cons_of_mem _ (ih token member c inside)
  | @lexeme offset kind lexeme rest tokens _ _ _ ih =>
      intro token member c inside
      rcases List.mem_cons.1 member with rfl | member
      · refine List.mem_append_left rest ?_
        unfold ofLexeme at inside
        split at inside
        next => exact inside
        next => cases inside
      · exact List.mem_append_right lexeme (ih token member c inside)

end Token

/-- The tokens of a field end once. -/
theorem endsOnce_of_tokenize {field : Text} {tokens : List Token}
    (lexed : tokenize field = .ok tokens) : ∃ body finish, Token.EndsOnce tokens body finish :=
  (Token.scan_eq_ok_iff.1 lexed).endsOnce

end MailAddress
