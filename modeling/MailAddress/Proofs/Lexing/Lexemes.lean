import MailAddress.Lexeme
import MailAddress.Quoting

/-!
# Lexemes as a grammar

What a scan finds is described by the form of the lexeme alone.  A scan closes exactly if the text
starts with a tail of that form, and the form tells where the tail ends.  So the same lexeme is found
in front of any other text.  Only an atom has no end of its own, and is found if no atom character
follows.
-/

namespace MailAddress

open Character

/-! ## Forms -/

/-- A comment behind its opening parenthesis, which stands in `depth` others. -/
inductive CommentTail : (depth : Nat) → Text → Prop
  /-- The outermost parenthesis closes. -/
  | close : CommentTail 0 [')']
  /-- A pair stands for no parenthesis. -/
  | pair {depth : Nat} {c : Char} {tail : Text} :
      CommentTail depth tail → CommentTail depth ('\\' :: c :: tail)
  /-- A comment opens within. -/
  | opening {depth : Nat} {tail : Text} :
      CommentTail (depth + 1) tail → CommentTail depth ('(' :: tail)
  /-- A comment closes within. -/
  | closing {depth : Nat} {tail : Text} :
      CommentTail depth tail → CommentTail (depth + 1) (')' :: tail)
  /-- Any other character but a line feed is text. -/
  | text {depth : Nat} {c : Char} {tail : Text} :
      c ≠ '\\' → c ≠ '(' → c ≠ ')' → c ≠ '\n' → CommentTail depth tail →
      CommentTail depth (c :: tail)

/-- A quoted string behind its opening quote. -/
inductive QuotedTail : Text → Prop
  /-- The quote closes. -/
  | close : QuotedTail ['"']
  /-- A pair closes nothing. -/
  | pair {c : Char} {tail : Text} : QuotedTail tail → QuotedTail ('\\' :: c :: tail)
  /-- Quoted text. -/
  | text {c : Char} {tail : Text} :
      isQuotedText c = true → QuotedTail tail → QuotedTail (c :: tail)

/-- The end of a domain literal: spaces and the closing bracket. -/
inductive BracketTail : Text → Prop
  /-- The bracket. -/
  | close : BracketTail [']']
  /-- A space in front of it. -/
  | space {c : Char} {tail : Text} : isSpace c = true → BracketTail tail → BracketTail (c :: tail)

/-- A domain literal behind its leading spaces. -/
inductive DomainTail : Text → Prop
  /-- The end. -/
  | close {tail : Text} : BracketTail tail → DomainTail tail
  /-- A pair closes nothing. -/
  | pair {c : Char} {tail : Text} : DomainTail tail → DomainTail ('\\' :: c :: tail)
  /-- Domain text. -/
  | text {c : Char} {tail : Text} :
      isDomainText c = true → DomainTail tail → DomainTail (c :: tail)

/-- A domain literal behind its opening bracket. -/
inductive LiteralTail : Text → Prop
  /-- The domain text begins. -/
  | text {tail : Text} : DomainTail tail → LiteralTail tail
  /-- A leading space. -/
  | space {c : Char} {tail : Text} : isSpace c = true → LiteralTail tail → LiteralTail (c :: tail)

/-- A lexeme of some kind. -/
inductive IsLexeme : Kind → Text → Prop
  /-- A structural character. -/
  | structural {kind : Kind} {c : Char} :
      Kind.ofStructural? c = some kind → IsLexeme kind [c]
  /-- One atom character or more. -/
  | atom {text : Text} : isAtom text = true → IsLexeme .atom text
  /-- A quoted string. -/
  | quotedString {tail : Text} : QuotedTail tail → IsLexeme .quotedString ('"' :: tail)
  /-- A domain literal. -/
  | domainLiteral {tail : Text} : LiteralTail tail → IsLexeme .domainLiteral ('[' :: tail)
  /-- A comment. -/
  | comment {tail : Text} : CommentTail 0 tail → IsLexeme .comment ('(' :: tail)

/-! ## Scans find these forms -/

namespace Scan

variable {c : Char} {depth : Nat} {text lexeme rest : Text} {scan : Scan}

@[simp] theorem push_eq_closed_iff :
    scan.push c = .closed lexeme rest ↔
      ∃ tail, lexeme = c :: tail ∧ scan = .closed tail rest := by
  cases scan with
  | closed tail behind =>
      simp only [push, closed.injEq]
      constructor
      · rintro ⟨rfl, rfl⟩
        exact ⟨tail, rfl, rfl, rfl⟩
      · rintro ⟨_, rfl, rfl, rfl⟩
        exact ⟨rfl, rfl⟩
  | stuck consumed => simp [push]

@[simp] theorem push_closed : (Scan.closed lexeme rest).push c = .closed (c :: lexeme) rest := rfl

theorem commentTail_of_closed (closed : comment depth text = .closed lexeme rest) :
    text = lexeme ++ rest ∧ CommentTail depth lexeme := by
  induction depth, text using Scan.comment.induct generalizing lexeme with
  | case1 depth => cases closed
  | case2 depth c text ih =>
      simp only [comment, push_eq_closed_iff] at closed
      obtain ⟨_, rfl, tail, rfl, closed⟩ := closed
      obtain ⟨rfl, form⟩ := ih closed
      exact ⟨rfl, .pair form⟩
  | case3 depth text ih =>
      simp only [comment, push_eq_closed_iff] at closed
      obtain ⟨tail, rfl, closed⟩ := closed
      obtain ⟨rfl, form⟩ := ih closed
      exact ⟨rfl, .opening form⟩
  | case4 text =>
      cases closed
      exact ⟨rfl, .close⟩
  | case5 depth text ih =>
      simp only [comment, push_eq_closed_iff] at closed
      obtain ⟨tail, rfl, closed⟩ := closed
      obtain ⟨rfl, form⟩ := ih closed
      exact ⟨rfl, .closing form⟩
  | case6 depth text => simp [comment] at closed
  | case7 depth c text no_pair no_opening no_close no_closing no_feed ih =>
      rw [comment] at closed
      · obtain ⟨tail, rfl, inner⟩ := push_eq_closed_iff.1 closed
        obtain ⟨rfl, form⟩ := ih inner
        refine ⟨rfl, .text ?_ no_opening ?_ no_feed form⟩
        · rintro rfl
          cases tail with
          | nil => cases form
          | cons second tail => exact no_pair second (tail ++ rest) rfl rfl
        · rintro rfl
          cases depth with
          | zero => exact no_close rfl rfl
          | succ depth => exact no_closing depth rfl rfl
      all_goals assumption

theorem comment_append (form : CommentTail depth lexeme) :
    comment depth (lexeme ++ rest) = .closed lexeme rest := by
  induction form with
  | close => rfl
  | pair _ ih => simp [comment, ih]
  | opening _ ih => simp [comment, ih]
  | closing _ ih => simp [comment, ih]
  | text no_backslash no_opening no_closing no_feed _ ih =>
      rw [List.cons_append, comment, ih, push_closed]
      all_goals
        intros
        contradiction

theorem comment_eq_closed_iff :
    comment depth text = .closed lexeme rest ↔ text = lexeme ++ rest ∧ CommentTail depth lexeme :=
  ⟨commentTail_of_closed, by rintro ⟨rfl, form⟩; exact comment_append form⟩

theorem quotedTail_of_closed (closed : quotedString text = .closed lexeme rest) :
    text = lexeme ++ rest ∧ QuotedTail lexeme := by
  induction text using Scan.quotedString.induct generalizing lexeme with
  | case1 => cases closed
  | case2 c text ih =>
      simp only [quotedString, push_eq_closed_iff] at closed
      obtain ⟨_, rfl, tail, rfl, closed⟩ := closed
      obtain ⟨rfl, form⟩ := ih closed
      exact ⟨rfl, .pair form⟩
  | case3 text =>
      cases closed
      exact ⟨rfl, .close⟩
  | case4 c text no_pair no_quote plain ih =>
      rw [quotedString, if_pos plain] at closed
      · obtain ⟨tail, rfl, inner⟩ := push_eq_closed_iff.1 closed
        obtain ⟨rfl, form⟩ := ih inner
        exact ⟨rfl, .text plain form⟩
      all_goals assumption
  | case5 c text no_pair no_quote plain =>
      rw [quotedString, if_neg plain] at closed
      · cases closed
      all_goals assumption

theorem quotedString_append (form : QuotedTail lexeme) :
    quotedString (lexeme ++ rest) = .closed lexeme rest := by
  induction form with
  | close => rfl
  | pair _ ih => simp [quotedString, ih]
  | @text c tail plain _ ih =>
      rw [List.cons_append, quotedString, if_pos plain, ih, push_closed]
      · rintro _ _ rfl
        exact absurd plain (by decide)
      · rintro rfl
        exact absurd plain (by decide)

theorem quotedString_eq_closed_iff :
    quotedString text = .closed lexeme rest ↔ text = lexeme ++ rest ∧ QuotedTail lexeme :=
  ⟨quotedTail_of_closed, by rintro ⟨rfl, form⟩; exact quotedString_append form⟩

theorem bracketTail_of_closed (closed : closingBracket text = .closed lexeme rest) :
    text = lexeme ++ rest ∧ BracketTail lexeme := by
  induction text using Scan.closingBracket.induct generalizing lexeme with
  | case1 => cases closed
  | case2 text =>
      cases closed
      exact ⟨rfl, .close⟩
  | case3 c text no_bracket space ih =>
      rw [closingBracket, if_pos space] at closed
      · obtain ⟨tail, rfl, inner⟩ := push_eq_closed_iff.1 closed
        obtain ⟨rfl, form⟩ := ih inner
        exact ⟨rfl, .space space form⟩
      all_goals assumption
  | case4 c text no_bracket space =>
      rw [closingBracket, if_neg space] at closed
      · cases closed
      all_goals assumption

theorem closingBracket_append (form : BracketTail lexeme) :
    closingBracket (lexeme ++ rest) = .closed lexeme rest := by
  induction form with
  | close => rfl
  | space space _ ih =>
      rw [List.cons_append, closingBracket, if_pos space, ih, push_closed]
      rintro rfl
      exact absurd space (by decide)

theorem domainTail_of_closed (closed : domainText text = .closed lexeme rest) :
    text = lexeme ++ rest ∧ DomainTail lexeme := by
  induction text using Scan.domainText.induct generalizing lexeme with
  | case1 => cases closed
  | case2 c text ih =>
      simp only [domainText, push_eq_closed_iff] at closed
      obtain ⟨_, rfl, tail, rfl, closed⟩ := closed
      obtain ⟨rfl, form⟩ := ih closed
      exact ⟨rfl, .pair form⟩
  | case3 c text no_pair plain ih =>
      rw [domainText, if_pos plain] at closed
      · obtain ⟨tail, rfl, inner⟩ := push_eq_closed_iff.1 closed
        obtain ⟨rfl, form⟩ := ih inner
        exact ⟨rfl, .text plain form⟩
      all_goals assumption
  | case4 c text no_pair plain =>
      rw [domainText, if_neg plain] at closed
      · obtain ⟨eq, form⟩ := bracketTail_of_closed closed
        exact ⟨eq, .close form⟩
      all_goals assumption

/-- A space within the brackets may be domain text, which makes no difference. -/
theorem domainText_append_of_bracketTail (form : BracketTail lexeme) :
    domainText (lexeme ++ rest) = .closed lexeme rest := by
  induction form with
  | close => simp [domainText, isDomainText, closingBracket]
  | @space c tail space form ih =>
      have no_pair : ∀ second behind, c = '\\' → tail ++ rest = second :: behind → False := by
        rintro _ _ rfl
        exact absurd space (by decide)
      rw [List.cons_append, domainText]
      · split
        · rw [ih, push_closed]
        · exact closingBracket_append (form.space space)
      · exact no_pair

theorem domainText_append (form : DomainTail lexeme) :
    domainText (lexeme ++ rest) = .closed lexeme rest := by
  induction form with
  | close form => exact domainText_append_of_bracketTail form
  | pair _ ih => simp [domainText, ih]
  | @text c tail plain _ ih =>
      rw [List.cons_append, domainText, if_pos plain, ih, push_closed]
      rintro _ _ rfl
      exact absurd plain (by decide)

theorem literalTail_of_closed (closed : domainLiteral text = .closed lexeme rest) :
    text = lexeme ++ rest ∧ LiteralTail lexeme := by
  induction text using Scan.domainLiteral.induct generalizing lexeme with
  | case1 => cases closed
  | case2 c text space ih =>
      rw [domainLiteral, if_pos space] at closed
      obtain ⟨tail, rfl, inner⟩ := push_eq_closed_iff.1 closed
      obtain ⟨rfl, form⟩ := ih inner
      exact ⟨rfl, .space space form⟩
  | case3 c text space =>
      rw [domainLiteral, if_neg space] at closed
      obtain ⟨eq, form⟩ := domainTail_of_closed closed
      exact ⟨eq, .text form⟩

/-- A leading space may be domain text, which makes no difference. -/
theorem domainLiteral_append_of_domainTail (form : DomainTail lexeme) :
    domainLiteral (lexeme ++ rest) = .closed lexeme rest := by
  have step : ∀ {c : Char} {tail : Text}, DomainTail (c :: tail) →
      (isSpace c = true → domainLiteral (tail ++ rest) = .closed tail rest) →
        domainLiteral (c :: tail ++ rest) = .closed (c :: tail) rest := by
    intro c tail form ih
    rw [List.cons_append, domainLiteral]
    split
    next space => rw [ih space, push_closed]
    next => exact domainText_append form
  induction form with
  | close form =>
      induction form with
      | close => exact step (.close .close) fun space => absurd space (by decide)
      | space space form ih => exact step (.close (.space space form)) fun _ => ih
  | pair form _ => exact step (.pair form) fun space => absurd space (by decide)
  | text plain form ih => exact step (.text plain form) fun _ => ih

theorem domainLiteral_append (form : LiteralTail lexeme) :
    domainLiteral (lexeme ++ rest) = .closed lexeme rest := by
  induction form with
  | text form => exact domainLiteral_append_of_domainTail form
  | space space _ ih => rw [List.cons_append, domainLiteral, if_pos space, ih, push_closed]

theorem domainLiteral_eq_closed_iff :
    domainLiteral text = .closed lexeme rest ↔ text = lexeme ++ rest ∧ LiteralTail lexeme :=
  ⟨literalTail_of_closed, by rintro ⟨rfl, form⟩; exact domainLiteral_append form⟩

end Scan

/-! ## Reading a lexeme -/

/-- No atom character comes first, so an atom may end in front of this text. -/
def EndsAtom (rest : Text) : Prop := ∀ c ∈ rest.head?, isAtomChar c = false

theorem endsAtom_nil : EndsAtom [] := by
  intro c head
  cases head

theorem endsAtom_cons {c : Char} {text : Text} (no_atom : isAtomChar c = false) :
    EndsAtom (c :: text) := by
  intro d head
  cases head
  exact no_atom

theorem EndsAtom.append {first second : Text} (ends : EndsAtom first) (others : EndsAtom second) :
    EndsAtom (first ++ second) := by
  cases first with
  | nil => exact others
  | cons c first =>
      intro d head
      exact ends d head

/-- A structural character is a symbol. -/
theorem isSymbol_of_ofStructural? {c : Char} {kind : Kind} (found : Kind.ofStructural? c = some kind) :
    isSymbol c = true := by
  unfold Kind.ofStructural? at found
  split at found
  case h_9 => cases found
  all_goals rfl

/-- No atom goes on with a structural character. -/
theorem endsAtom_structural {c : Char} {kind : Kind} (found : Kind.ofStructural? c = some kind)
    (rest : Text) : EndsAtom (c :: rest) := by
  refine endsAtom_cons ?_
  simp [isAtomChar, isSymbol_of_ofStructural? found]

theorem ofStructural?_of_isAtomChar {c : Char} (atom : isAtomChar c = true) :
    Kind.ofStructural? c = none := by
  cases found : Kind.ofStructural? c with
  | none => rfl
  | some kind =>
      have symbol := isSymbol_of_ofStructural? found
      rw [isSymbol_of_isAtomChar atom] at symbol
      cases symbol

namespace IsLexeme

variable {c : Char} {kind : Kind} {lexeme rest behind : Text}

theorem ne_nil (form : IsLexeme kind lexeme) : lexeme ≠ [] := by
  cases form with
  | atom atom =>
      rintro rfl
      cases atom
  | _ => exact List.cons_ne_nil _ _

/-- A lexeme starts with no space. -/
theorem isSpace_head (form : IsLexeme kind (c :: lexeme)) : isSpace c = false := by
  cases form with
  | structural found => exact isSpace_of_isSymbol (isSymbol_of_ofStructural? found)
  | atom atom =>
      simp only [isAtom, List.all_cons, Bool.and_eq_true] at atom
      exact isSpace_of_isAtomChar atom.2.1
  | _ => rfl

/-- The kinds that carry text are not structural. -/
theorem isAtom_of_atom (form : IsLexeme .atom lexeme) : isAtom lexeme = true := by
  cases form with
  | structural found => exact absurd (Kind.symbol_of_ofStructural? found).2 (by decide)
  | atom atom => exact atom

end IsLexeme

namespace Lexeme

variable {c : Char} {kind other : Kind} {cause : Cause} {lexeme rest behind : Text} {scan : Scan}

/-- What is read behind a first character. -/
theorem exists_of_ofScan (found : ofScan kind cause (scan.push c) = .found other lexeme rest) :
    ∃ tail, kind = other ∧ lexeme = c :: tail ∧ scan = .closed tail rest := by
  cases scan with
  | stuck consumed => cases found
  | closed tail behind =>
      cases found
      exact ⟨tail, rfl, rfl, rfl⟩

/-- What is read is a lexeme, and the text is split there. -/
theorem isLexeme_of_read (found : read c rest = .found kind lexeme behind) :
    c :: rest = lexeme ++ behind ∧ IsLexeme kind lexeme ∧ (kind = .atom → EndsAtom behind) := by
  unfold read at found
  split at found
  next structural_kind structural =>
    cases found
    refine ⟨rfl, .structural structural, ?_⟩
    rintro rfl
    unfold Kind.ofStructural? at structural
    split at structural <;> cases structural
  next =>
    split at found
    next parenthesis =>
      obtain ⟨tail, rfl, rfl, closed⟩ := exists_of_ofScan found
      obtain ⟨rfl, form⟩ := Scan.comment_eq_closed_iff.1 closed
      subst parenthesis
      exact ⟨rfl, .comment form, fun atom => by cases atom⟩
    next =>
      split at found
      next bracket =>
        obtain ⟨tail, rfl, rfl, closed⟩ := exists_of_ofScan found
        obtain ⟨rfl, form⟩ := Scan.domainLiteral_eq_closed_iff.1 closed
        subst bracket
        exact ⟨rfl, .domainLiteral form, fun atom => by cases atom⟩
      next =>
        split at found
        next quotes =>
          obtain ⟨tail, rfl, rfl, closed⟩ := exists_of_ofScan found
          obtain ⟨rfl, form⟩ := Scan.quotedString_eq_closed_iff.1 closed
          subst quotes
          exact ⟨rfl, .quotedString form, fun atom => by cases atom⟩
        next =>
          split at found
          next first =>
            cases found
            refine ⟨?_, .atom ?_, fun _ d head => ?_⟩
            · rw [List.cons_append, List.takeWhile_append_dropWhile]
            · simp [isAtom, first]
            · have stop := List.head?_dropWhile_not isAtomChar rest
              rw [Option.mem_def.1 head] at stop
              exact stop
          next => cases found

/-- A lexeme is read in front of any text that does not go on with an atom. -/
theorem read_of_isLexeme (form : IsLexeme kind (c :: lexeme))
    (ends : kind = .atom → EndsAtom behind) :
    read c (lexeme ++ behind) = .found kind (c :: lexeme) behind := by
  cases form with
  | structural found => simp [read, found]
  | atom atom =>
      simp only [isAtom, List.all_cons, Bool.and_eq_true] at atom
      obtain ⟨-, first, others⟩ := atom
      have others_atom : ∀ d ∈ lexeme, isAtomChar d = true := List.all_eq_true.1 others
      have stop : behind.takeWhile isAtomChar = [] ∧ behind.dropWhile isAtomChar = behind := by
        cases behind with
        | nil => exact ⟨rfl, rfl⟩
        | cons d behind =>
            have no_atom : isAtomChar d = false := ends rfl d rfl
            simp [no_atom]
      have no_symbol := isSymbol_of_isAtomChar first
      have no_opening : c ≠ '(' ∧ c ≠ '[' ∧ c ≠ '"' := by
        refine ⟨?_, ?_, ?_⟩ <;> rintro rfl <;> exact absurd no_symbol (by decide)
      simp only [read, ofStructural?_of_isAtomChar first, no_opening, first, if_false, if_true,
        List.takeWhile_append_of_pos others_atom, List.dropWhile_append_of_pos others_atom, stop,
        List.append_nil]
  | quotedString form =>
      simp [read, Kind.ofStructural?, Scan.quotedString_append form, ofScan]
  | domainLiteral form =>
      simp [read, Kind.ofStructural?, Scan.domainLiteral_append form, ofScan]
  | comment form => simp [read, Kind.ofStructural?, Scan.comment_append form, ofScan]

end Lexeme

end MailAddress
