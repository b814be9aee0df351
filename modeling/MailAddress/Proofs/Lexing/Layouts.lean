import Mathlib.Data.List.Chain
import MailAddress.Proofs.Lexing.Languages
import MailAddress.Proofs.Lexing.Tokens

/-!
# Layouts

A *layout* of a field is the field as lexemes with spaces around them.  Two atoms side by side have
a space between them at least.  This is all there is to reading a field: the tokens are those of its
layout, there is at most one layout, and a field without one has no tokens.
-/

namespace MailAddress

open Character LexicalGrammar

/-! ## Fields as lexemes and gaps -/

/-- A lexeme and the spaces behind it. -/
structure Piece where
  /-- The kind of the lexeme. -/
  kind : Kind
  /-- The lexeme. -/
  lexeme : Text
  /-- The spaces behind it. -/
  gap : Text

/-- The text of a piece. -/
def Piece.text (piece : Piece) : Text := piece.lexeme ++ piece.gap

namespace Layout

/-- The text of pieces side by side. -/
def piecesText (pieces : List Piece) : Text := pieces.flatMap Piece.text

/-- The tokens of pieces that start at an offset, and the token of the end. -/
def tokensFrom : (offset : Nat) → List Piece → List Token
  | offset, [] => [Token.finish offset]
  | offset, piece :: pieces =>
      Token.ofLexeme piece.kind piece.lexeme offset ::
        tokensFrom (offset + piece.lexeme.length + piece.gap.length) pieces

/-- Two atoms side by side have a gap between them. -/
def Apart (first second : Piece) : Prop :=
  first.kind = .atom → second.kind = .atom → first.gap ≠ []

/-- Pieces of lexemes and spaces, with gaps where they have to be. -/
structure ArePieces (pieces : List Piece) : Prop where
  /-- The lexemes are words of the lexical grammar. -/
  lexemes : ∀ piece ∈ pieces, piece.lexeme ∈ lexemes piece.kind
  /-- The gaps are spaces. -/
  gaps : ∀ piece ∈ pieces, piece.gap ∈ spaces
  /-- Atoms do not touch. -/
  apart : pieces.IsChain Apart

end Layout

/-- A field as spaces, and lexemes with spaces behind each. -/
structure Layout (field : Text) where
  /-- The spaces in front of the first lexeme. -/
  lead : Text
  /-- The lexemes. -/
  pieces : List Piece
  /-- Side by side, these are the field. -/
  text_eq : lead ++ Layout.piecesText pieces = field
  /-- It starts with spaces. -/
  lead_mem : lead ∈ spaces
  /-- Lexemes follow. -/
  arePieces : Layout.ArePieces pieces

namespace Layout

/-- The tokens of a layout. -/
def tokens {field : Text} (layout : Layout field) : List Token :=
  tokensFrom layout.lead.length layout.pieces

variable {offset : Nat} {piece next : Piece} {pieces others : List Piece} {field text : Text}
variable {tokens : List Token}

/-! ## Pieces and gaps -/

theorem arePieces_nil : ArePieces [] :=
  ⟨fun _ member => absurd member List.not_mem_nil, fun _ member => absurd member List.not_mem_nil,
    .nil⟩

theorem arePieces_cons :
    ArePieces (piece :: pieces) ↔
      piece.lexeme ∈ lexemes piece.kind ∧ piece.gap ∈ spaces ∧
        (∀ next ∈ pieces.head?, Apart piece next) ∧ ArePieces pieces := by
  constructor
  · rintro ⟨lexemes, gaps, apart⟩
    obtain ⟨lexeme, lexemes⟩ := List.forall_mem_cons.1 lexemes
    obtain ⟨gap, gaps⟩ := List.forall_mem_cons.1 gaps
    obtain ⟨first, apart⟩ := List.isChain_cons.1 apart
    exact ⟨lexeme, gap, first, lexemes, gaps, apart⟩
  · rintro ⟨lexeme, gap, first, lexemes, gaps, apart⟩
    exact ⟨List.forall_mem_cons.2 ⟨lexeme, lexemes⟩, List.forall_mem_cons.2 ⟨gap, gaps⟩,
      List.isChain_cons.2 ⟨first, apart⟩⟩

/-- Only an atom starts with an atom character. -/
theorem eq_atom_of_isAtomChar {kind : Kind} {c : Char} (form : IsLexeme kind (c :: text))
    (starts : isAtomChar c = true) : kind = .atom := by
  cases form with
  | structural found =>
      have symbol := isSymbol_of_ofStructural? found
      rw [isSymbol_of_isAtomChar starts] at symbol
      cases symbol
  | atom => rfl
  | _ => exact absurd starts (by decide)

/-- Behind an atom come a space, a lexeme of another kind, or nothing. -/
theorem ArePieces.endsAtom {gap : Text} (are : ArePieces pieces) (blank : gap ∈ spaces)
    (apart : ∀ next ∈ pieces.head?, next.kind = .atom → gap ≠ []) :
    EndsAtom (gap ++ piecesText pieces) := by
  cases gap with
  | cons c gap =>
      refine endsAtom_cons ?_
      have space : isSpace c = true := mem_spaces_iff.1 blank c List.mem_cons_self
      simp [isAtomChar, space]
  | nil =>
      cases pieces with
      | nil => exact endsAtom_nil
      | cons next pieces =>
          obtain ⟨member, _⟩ := arePieces_cons.1 are
          have form := isLexeme_iff.2 member
          have other : next.kind ≠ .atom := fun atom => apart next rfl atom rfl
          obtain ⟨c, rest, eq⟩ := List.exists_cons_of_ne_nil form.ne_nil
          have no_atom : isAtomChar c = false := by
            rw [eq] at form
            exact Bool.eq_false_iff.2 fun starts => other (eq_atom_of_isAtomChar form starts)
          have layout : piecesText (next :: pieces) =
              c :: (rest ++ next.gap ++ piecesText pieces) := by
            simp [piecesText, Piece.text, eq]
          rw [List.nil_append, layout]
          exact endsAtom_cons no_atom

/-! ## The tokens of a layout are read -/

theorem lexes_spaces {gap : Text} (blank : gap ∈ spaces)
    (lexes : Token.Lexes (offset + gap.length) text tokens) :
    Token.Lexes offset (gap ++ text) tokens := by
  rw [mem_spaces_iff] at blank
  induction gap generalizing offset with
  | nil => exact lexes
  | cons c gap ih =>
      obtain ⟨space, others⟩ := List.forall_mem_cons.1 blank
      rw [List.length_cons, Nat.add_comm gap.length 1, ← Nat.add_assoc] at lexes
      exact .space space (ih others lexes)

theorem ArePieces.lexes (are : ArePieces pieces) (offset : Nat) :
    Token.Lexes offset (piecesText pieces) (tokensFrom offset pieces) := by
  induction pieces generalizing offset with
  | nil => exact .finish
  | cons piece pieces ih =>
      obtain ⟨member, blank, apart, others⟩ := arePieces_cons.1 are
      have layout : piecesText (piece :: pieces) =
          piece.lexeme ++ (piece.gap ++ piecesText pieces) := by
        simp [piecesText, Piece.text]
      have ends : piece.kind = .atom → EndsAtom (piece.gap ++ piecesText pieces) := fun atom =>
        others.endsAtom blank fun next head => apart next head atom
      rw [layout]
      exact .lexeme (isLexeme_iff.2 member) ends (lexes_spaces blank (ih others _))

/-- What is read has a layout with these tokens. -/
theorem exists_of_lexes (lexes : Token.Lexes offset text tokens) :
    ∃ lead pieces, text = lead ++ piecesText pieces ∧ lead ∈ spaces ∧ ArePieces pieces ∧
      tokens = tokensFrom (offset + lead.length) pieces := by
  induction lexes with
  | finish => exact ⟨[], [], rfl, mem_spaces_iff.2 (by simp), arePieces_nil, rfl⟩
  | @space offset c rest tokens space _ ih =>
      obtain ⟨lead, pieces, rfl, blank, are, rfl⟩ := ih
      refine ⟨c :: lead, pieces, rfl, ?_, are, ?_⟩
      · exact mem_spaces_iff.2 (List.forall_mem_cons.2 ⟨space, mem_spaces_iff.1 blank⟩)
      · rw [List.length_cons, Nat.add_comm lead.length 1, ← Nat.add_assoc]
  | @lexeme offset kind lexeme rest tokens form ends _ ih =>
      obtain ⟨gap, pieces, rfl, blank, are, rfl⟩ := ih
      refine ⟨[], ⟨kind, lexeme, gap⟩ :: pieces, by simp [piecesText, Piece.text],
        mem_spaces_iff.2 (by simp), ?_, rfl⟩
      refine arePieces_cons.2 ⟨isLexeme_iff.1 form, blank, ?_, are⟩
      -- Without a gap, an atom behind an atom would be read as the same atom.
      rintro next head atom next_atom rfl
      obtain ⟨others, rfl⟩ : ∃ others, pieces = next :: others := by
        cases pieces with
        | nil => cases head
        | cons first others => exact ⟨others, by rw [Option.some.inj head]⟩
      have next_form := isLexeme_iff.2 (arePieces_cons.1 are).1
      rw [next_atom] at next_form
      obtain ⟨c, behind, eq⟩ := List.exists_cons_of_ne_nil next_form.ne_nil
      have starts : isAtomChar c = true := by
        have holds := next_form.isAtom_of_atom
        simp only [eq, isAtom, List.all_cons, Bool.and_eq_true] at holds
        exact holds.2.1
      have stops : isAtomChar c = false := ends atom c (by simp [piecesText, Piece.text, eq])
      rw [starts] at stops
      cases stops

theorem tokenize_eq_ok_iff :
    tokenize field = .ok tokens ↔ ∃ layout : Layout field, tokens = layout.tokens := by
  rw [tokenize, Token.scan_eq_ok_iff]
  constructor
  · intro lexes
    obtain ⟨lead, pieces, eq, blank, are, rfl⟩ := exists_of_lexes lexes
    exact ⟨⟨lead, pieces, eq.symm, blank, are⟩, by rw [Layout.tokens, Nat.zero_add]⟩
  · rintro ⟨⟨lead, pieces, rfl, blank, are⟩, rfl⟩
    refine lexes_spaces blank ?_
    rw [Nat.zero_add]
    exact are.lexes _

/-! ## There is one layout at most -/

theorem tokensFrom_ne_nil (offset : Nat) (pieces : List Piece) : tokensFrom offset pieces ≠ [] := by
  cases pieces <;> exact List.cons_ne_nil _ _

/-- The tokens tell where the lexemes are, and so what they are. -/
theorem eq_of_tokensFrom_eq {lead first : Text}
    (texts : lead ++ piecesText pieces = first ++ piecesText others)
    (same : tokensFrom (offset + lead.length) pieces = tokensFrom (offset + first.length) others) :
    lead = first ∧ pieces = others := by
  induction pieces generalizing offset lead first others with
  | nil =>
      cases others with
      | nil => exact ⟨by simpa [piecesText] using texts, rfl⟩
      | cons next others =>
          obtain ⟨_, tails⟩ := List.cons.inj same
          exact absurd tails.symm (tokensFrom_ne_nil _ _)
  | cons piece pieces ih =>
      cases others with
      | nil =>
          obtain ⟨_, tails⟩ := List.cons.inj same
          exact absurd tails (tokensFrom_ne_nil _ _)
      | cons next others =>
          obtain ⟨kind, lexeme, gap⟩ := piece
          obtain ⟨next_kind, next_lexeme, next_gap⟩ := next
          obtain ⟨heads, tails⟩ := List.cons.inj same
          simp only [Token.ofLexeme, Token.mk.injEq, Span.mk.injEq] at heads
          obtain ⟨rfl, _, starts, stops⟩ := heads
          simp only [piecesText, List.flatMap_cons, Piece.text, List.append_assoc] at texts
          obtain ⟨same_lead, behind⟩ := List.append_inj texts (by omega)
          obtain ⟨same_lexeme, gaps⟩ := List.append_inj behind (by omega)
          subst same_lead same_lexeme
          obtain ⟨rfl, rfl⟩ := ih gaps tails
          exact ⟨rfl, rfl⟩

instance (field : Text) : Subsingleton (Layout field) := by
  constructor
  intro layout other
  have read := tokenize_eq_ok_iff.2 ⟨layout, rfl⟩
  have same := Except.ok.inj (read.symm.trans (tokenize_eq_ok_iff.2 ⟨other, rfl⟩))
  obtain ⟨lead, pieces, text_eq, _, _⟩ := layout
  obtain ⟨first, others, other_eq, _, _⟩ := other
  rw [Layout.tokens, Layout.tokens, ← Nat.zero_add lead.length, ← Nat.zero_add first.length] at same
  obtain ⟨rfl, rfl⟩ := eq_of_tokensFrom_eq (text_eq.trans other_eq.symm) same
  rfl

end Layout

/-! ## Reading a field is laying it out -/

/-- The tokens of a field are those of its layout.  A field has one layout at most, and its reading
gets stuck if it has none. -/
theorem tokenize_iff_layout (field : Text) :
    (∀ tokens, tokenize field = .ok tokens ↔ ∃ layout : Layout field, tokens = layout.tokens) ∧
      Subsingleton (Layout field) ∧
      ((∃ stuck, tokenize field = .error stuck) ↔ IsEmpty (Layout field)) := by
  refine ⟨fun tokens => Layout.tokenize_eq_ok_iff, inferInstance, ?_⟩
  constructor
  · rintro ⟨stuck, failed⟩
    refine ⟨fun layout => ?_⟩
    have read := Layout.tokenize_eq_ok_iff.2 ⟨layout, rfl⟩
    rw [failed] at read
    cases read
  · intro none
    cases read : tokenize field with
    | error stuck => exact ⟨stuck, rfl⟩
    | ok tokens =>
        obtain ⟨layout, _⟩ := Layout.tokenize_eq_ok_iff.1 read
        exact none.elim layout

/-- Between atoms there is a space, and an escaped parenthesis does not nest. -/
example : (tokenize "a b(\\()".toList).toOption =
    some (Layout.tokensFrom 0
      [⟨.atom, ['a'], [' ']⟩, ⟨.atom, ['b'], []⟩, ⟨.comment, "(\\()".toList, []⟩]) := by
  decide

end MailAddress
