import MailAddress.Proofs.Lexing.Readers

/-!
# Readers by offset

A scan is given what stands behind an offset.  A *cursor* is given the whole text and the offset, and
counts the offset up itself.  It asks whether it is still within the text before it looks at a
character, and looks one character further for a pair.

The scanners of this module are those of the lexemes by cursor.  They say at which offset a lexeme
ends, or at which they get stuck.  The depth of a comment is counted from zero in front of its first
parenthesis.  A reader that is made of them goes as the one that reads what stands behind its cursor.
-/

namespace MailAddress

open Character

namespace Cursor

variable {source rest : Text} {c : Char} {offset : Nat}

/-! ## Scanners by offset -/

/-- Whether a pair stands at an offset. -/
def isPair (source : Text) (offset : Nat) : Bool :=
  decide (offset + 1 < source.length) && source[offset]? == some '\\'

/-- The offset behind the characters of a class. -/
def skipWhile (holds : Char → Bool) (source : Text) (offset : Nat) : Nat :=
  if inside : offset < source.length then
    if holds source[offset] then skipWhile holds source (offset + 1) else offset
  else offset
termination_by source.length - offset

/-- The offset behind the characters of a class and pairs. -/
def skipUnescaped (holds : Char → Bool) (source : Text) (offset : Nat) : Nat :=
  if inside : offset < source.length then
    if holds source[offset] then skipUnescaped holds source (offset + 1)
    else if isPair source offset then skipUnescaped holds source (offset + 2)
    else offset
  else offset
termination_by source.length - offset

/-- The offset behind a closing character. -/
def close (closing : Char) (source : Text) (offset : Nat) : Except Nat Nat :=
  if source[offset]? = some closing then .ok (offset + 1) else .error offset

/-- The offset behind a comment, from within so many parentheses. -/
def comment (source : Text) (depth : Int) (offset : Nat) : Except Nat Nat :=
  if inside : offset < source.length then
    if isPair source offset then comment source depth (offset + 2)
    else if source[offset] = '(' then comment source (depth + 1) (offset + 1)
    else if source[offset] = ')' then
      if depth - 1 = 0 then .ok (offset + 1) else comment source (depth - 1) (offset + 1)
    else if source[offset] = '\n' then .error offset
    else comment source depth (offset + 1)
  else .error offset
termination_by source.length - offset

/-- The offset behind a domain literal. -/
def domainLiteral (source : Text) (start : Nat) : Except Nat Nat :=
  let text := skipWhile isSpace source (start + 1)
  close ']' source (skipWhile isSpace source (skipUnescaped isDomainText source text))

/-- The offset behind a quoted string. -/
def quotedString (source : Text) (start : Nat) : Except Nat Nat :=
  close '"' source (skipUnescaped isQuotedText source (start + 1))

/-- The offset behind an atom. -/
def atom (source : Text) (start : Nat) : Except Nat Nat :=
  let stop := skipWhile isAtomChar source start
  if stop = start then .error start else .ok stop

/-- A lexeme of a kind up to where it ends, or a reading that is stuck for some cause. -/
def ofStop (kind : Kind) (cause : Cause) (start : Nat) : Except Nat Nat → Except Stuck (Kind × Nat)
  | .ok stop => .ok (kind, stop)
  | .error cursor => .error ⟨cause, start, cursor⟩

/-- The kind of the lexeme that starts with a character at an offset, and the offset behind it. -/
def lexeme (source : Text) (start : Nat) (c : Char) : Except Stuck (Kind × Nat) :=
  match Kind.ofStructural? c with
  | some kind => .ok (kind, start + 1)
  | none =>
      if c = '(' then ofStop .comment .unterminatedComment start (comment source 0 start)
      else if c = '[' then
        ofStop .domainLiteral .unterminatedDomainLiteral start (domainLiteral source start)
      else if c = '"' then
        ofStop .quotedString .unterminatedQuotedString start (quotedString source start)
      else ofStop .atom (.unexpectedCharacter c) start (atom source start)

/-! ## What stands behind an offset -/

/-- What stands behind an offset within the text is the character there and what follows it. -/
theorem drop_eq_cons_iff :
    source.drop offset = c :: rest ↔
      ∃ inside : offset < source.length, source[offset] = c ∧ source.drop (offset + 1) = rest := by
  constructor
  · intro behind
    have inside : offset < source.length := by
      refine Nat.lt_of_not_le fun past => ?_
      rw [List.drop_of_length_le past] at behind
      cases behind
    rw [List.drop_eq_getElem_cons inside] at behind
    injection behind with first others
    exact ⟨inside, first, others⟩
  · rintro ⟨inside, rfl, rfl⟩
    exact List.drop_eq_getElem_cons inside

theorem drop_succ (behind : source.drop offset = c :: rest) : source.drop (offset + 1) = rest :=
  (drop_eq_cons_iff.1 behind).2.2

theorem getElem?_of_cons (behind : source.drop offset = c :: rest) : source[offset]? = some c := by
  obtain ⟨inside, rfl, -⟩ := drop_eq_cons_iff.1 behind
  exact List.getElem?_eq_getElem inside

theorem getElem?_of_nil (past : source.drop offset = []) : source[offset]? = none :=
  List.getElem?_eq_none (List.drop_eq_nil_iff.1 past)

theorem isPair_of_cons (behind : source.drop offset = c :: rest) :
    isPair source offset = Text.startsPair (c :: rest) := by
  have length := congrArg List.length (drop_succ behind)
  rw [List.length_drop] at length
  rw [isPair, getElem?_of_cons behind]
  cases rest with
  | nil =>
      have past : ¬ offset + 1 < source.length := by
        rw [List.length_nil] at length
        omega
      simp [past, Text.startsPair]
  | cons d rest =>
      have within : offset + 1 < source.length := by
        rw [List.length_cons] at length
        omega
      by_cases backslash : c = '\\' <;> simp [within, backslash, Text.startsPair]

/-- A character starts no pair if it is no backslash or nothing follows it. -/
theorem startsPair_eq_false (no_pair : ∀ d others, c = '\\' → rest = d :: others → False) :
    Text.startsPair (c :: rest) = false := by
  unfold Text.startsPair
  split
  next d others same =>
    injection same with first others_eq
    exact (no_pair d others first others_eq).elim
  next => rfl

theorem startsPair_of_ne (other : c ≠ '\\') : Text.startsPair (c :: rest) = false :=
  startsPair_eq_false fun _ _ same _ => other same

theorem startsPair_backslash (c : Char) (rest : Text) : Text.startsPair ('\\' :: c :: rest) = true :=
  rfl

/-! ## One step of a loop -/

variable {holds : Char → Bool} {count : Int}

theorem skipWhile_of_nil (past : source.drop offset = []) : skipWhile holds source offset = offset := by
  rw [skipWhile, dif_neg (Nat.not_lt.2 (List.drop_eq_nil_iff.1 past))]

theorem skipWhile_of_cons (behind : source.drop offset = c :: rest) :
    skipWhile holds source offset =
      if holds c then skipWhile holds source (offset + 1) else offset := by
  obtain ⟨inside, first, -⟩ := drop_eq_cons_iff.1 behind
  rw [skipWhile, dif_pos inside, first]

theorem skipUnescaped_of_nil (past : source.drop offset = []) :
    skipUnescaped holds source offset = offset := by
  rw [skipUnescaped, dif_neg (Nat.not_lt.2 (List.drop_eq_nil_iff.1 past))]

theorem skipUnescaped_of_holds (behind : source.drop offset = c :: rest) (held : holds c = true) :
    skipUnescaped holds source offset = skipUnescaped holds source (offset + 1) := by
  obtain ⟨inside, first, -⟩ := drop_eq_cons_iff.1 behind
  rw [skipUnescaped, dif_pos inside, first, if_pos held]

theorem skipUnescaped_of_pair (behind : source.drop offset = '\\' :: c :: rest)
    (special : ¬holds '\\' = true) :
    skipUnescaped holds source offset = skipUnescaped holds source (offset + 2) := by
  obtain ⟨inside, first, -⟩ := drop_eq_cons_iff.1 behind
  rw [skipUnescaped, dif_pos inside, first, if_neg special, isPair_of_cons behind,
    if_pos (startsPair_backslash c rest)]

theorem skipUnescaped_of_single (behind : source.drop offset = c :: rest)
    (special : ¬holds c = true) (single : Text.startsPair (c :: rest) = false) :
    skipUnescaped holds source offset = offset := by
  obtain ⟨inside, first, -⟩ := drop_eq_cons_iff.1 behind
  rw [skipUnescaped, dif_pos inside, first, if_neg special, isPair_of_cons behind, single,
    if_neg Bool.false_ne_true]

theorem comment_of_nil (past : source.drop offset = []) :
    comment source count offset = .error offset := by
  rw [comment, dif_neg (Nat.not_lt.2 (List.drop_eq_nil_iff.1 past))]

theorem comment_of_pair (behind : source.drop offset = '\\' :: c :: rest) :
    comment source count offset = comment source count (offset + 2) := by
  obtain ⟨inside, -⟩ := drop_eq_cons_iff.1 behind
  rw [comment, dif_pos inside, isPair_of_cons behind, if_pos (startsPair_backslash c rest)]

theorem comment_of_single (behind : source.drop offset = c :: rest)
    (single : Text.startsPair (c :: rest) = false) :
    comment source count offset =
      if c = '(' then comment source (count + 1) (offset + 1)
      else if c = ')' then
        if count - 1 = 0 then .ok (offset + 1) else comment source (count - 1) (offset + 1)
      else if c = '\n' then .error offset
      else comment source count (offset + 1) := by
  obtain ⟨inside, first, -⟩ := drop_eq_cons_iff.1 behind
  rw [comment, dif_pos inside, first, isPair_of_cons behind, single, if_neg Bool.false_ne_true]

end Cursor

/-! ## Scanners follow scans -/

/-- The offset at which a scan from an offset ends or gets stuck. -/
def Scan.stop (offset : Nat) : Scan → Except Nat Nat
  | .closed lexeme _ => .ok (offset + lexeme.length)
  | .stuck consumed => .error (offset + consumed.length)

theorem Scan.stop_push (c : Char) (scan : Scan) (offset : Nat) :
    (scan.push c).stop offset = scan.stop (offset + 1) := by
  cases scan <;> simp [push, stop, Nat.add_assoc, Nat.add_comm 1]

namespace Cursor

variable {source rest text : Text} {c : Char} {offset : Nat}

/-- Within a comment, one parenthesis more is open than there are comments around it. -/
theorem comment_follows (depth : Nat) (behind : source.drop offset = text) :
    comment source (depth + 1) offset = (Scan.comment depth text).stop offset := by
  induction depth, text using Scan.comment.induct generalizing offset with
  | case1 depth => rw [comment_of_nil behind, Scan.comment, Scan.stop, List.length_nil, Nat.add_zero]
  | case2 depth c text ih =>
      rw [comment_of_pair behind, Scan.comment, Scan.stop_push, Scan.stop_push]
      exact ih (drop_succ (drop_succ behind))
  | case3 depth text ih =>
      rw [comment_of_single behind (startsPair_of_ne (by decide)), if_pos rfl, Scan.comment,
        Scan.stop_push]
      exact ih (drop_succ behind)
  | case4 text =>
      rw [comment_of_single behind (startsPair_of_ne (by decide)), if_neg (by decide), if_pos rfl]
      rfl
  | case5 depth text ih =>
      rw [comment_of_single behind (startsPair_of_ne (by decide)), if_neg (by decide), if_pos rfl,
        if_neg (by omega), Scan.comment, Scan.stop_push, Int.add_sub_cancel]
      exact ih (drop_succ behind)
  | case6 depth text =>
      rw [comment_of_single behind (startsPair_of_ne (by decide)), if_neg (by decide),
        if_neg (by decide), if_pos rfl, Scan.comment]
      rfl
  | case7 depth c text no_pair no_opening no_close no_closing no_feed ih =>
      have no_parenthesis : c ≠ ')' := by
        rintro rfl
        cases depth with
        | zero => exact no_close rfl rfl
        | succ depth => exact no_closing depth rfl rfl
      rw [comment_of_single behind (startsPair_eq_false no_pair), if_neg no_opening,
        if_neg no_parenthesis, if_neg no_feed, Scan.comment, Scan.stop_push]
      · exact ih (drop_succ behind)
      all_goals assumption

theorem quotedString_follows (behind : source.drop offset = text) :
    close '"' source (skipUnescaped isQuotedText source offset) =
      (Scan.quotedString text).stop offset := by
  induction text using Scan.quotedString.induct generalizing offset with
  | case1 => rw [skipUnescaped_of_nil behind, close, getElem?_of_nil behind]; rfl
  | case2 c text ih =>
      rw [skipUnescaped_of_pair behind (by decide), Scan.quotedString, Scan.stop_push,
        Scan.stop_push]
      exact ih (drop_succ (drop_succ behind))
  | case3 text =>
      rw [skipUnescaped_of_single behind (by decide) (startsPair_of_ne (by decide)), close,
        getElem?_of_cons behind, if_pos rfl]
      rfl
  | case4 c text no_pair no_quote plain ih =>
      rw [skipUnescaped_of_holds behind plain, Scan.quotedString, if_pos plain, Scan.stop_push]
      · exact ih (drop_succ behind)
      all_goals assumption
  | case5 c text no_pair no_quote plain =>
      rw [skipUnescaped_of_single behind plain (startsPair_eq_false no_pair), close,
        getElem?_of_cons behind, if_neg fun same => no_quote (Option.some.inj same),
        Scan.quotedString, if_neg plain]
      · rfl
      all_goals assumption

theorem closingBracket_follows (behind : source.drop offset = text) :
    close ']' source (skipWhile isSpace source offset) = (Scan.closingBracket text).stop offset := by
  induction text using Scan.closingBracket.induct generalizing offset with
  | case1 => rw [skipWhile_of_nil behind, close, getElem?_of_nil behind]; rfl
  | case2 text =>
      rw [skipWhile_of_cons behind, if_neg (by decide), close, getElem?_of_cons behind, if_pos rfl]
      rfl
  | case3 c text no_bracket space ih =>
      rw [skipWhile_of_cons behind, if_pos space, Scan.closingBracket, if_pos space, Scan.stop_push]
      · exact ih (drop_succ behind)
      all_goals assumption
  | case4 c text no_bracket space =>
      rw [skipWhile_of_cons behind, if_neg space, close, getElem?_of_cons behind,
        if_neg fun same => no_bracket (Option.some.inj same), Scan.closingBracket, if_neg space]
      · rfl
      all_goals assumption

theorem domainText_follows (behind : source.drop offset = text) :
    close ']' source (skipWhile isSpace source (skipUnescaped isDomainText source offset)) =
      (Scan.domainText text).stop offset := by
  induction text using Scan.domainText.induct generalizing offset with
  | case1 => rw [skipUnescaped_of_nil behind, closingBracket_follows behind]; rfl
  | case2 c text ih =>
      rw [skipUnescaped_of_pair behind (by decide), Scan.domainText, Scan.stop_push, Scan.stop_push]
      exact ih (drop_succ (drop_succ behind))
  | case3 c text no_pair plain ih =>
      rw [skipUnescaped_of_holds behind plain, Scan.domainText, if_pos plain, Scan.stop_push]
      · exact ih (drop_succ behind)
      all_goals assumption
  | case4 c text no_pair plain =>
      rw [skipUnescaped_of_single behind plain (startsPair_eq_false no_pair),
        closingBracket_follows behind, Scan.domainText, if_neg plain]
      all_goals assumption

theorem domainLiteral_follows (behind : source.drop offset = text) :
    close ']' source (skipWhile isSpace source
        (skipUnescaped isDomainText source (skipWhile isSpace source offset))) =
      (Scan.domainLiteral text).stop offset := by
  induction text using Scan.domainLiteral.induct generalizing offset with
  | case1 => rw [skipWhile_of_nil behind, domainText_follows behind]; rfl
  | case2 c text space ih =>
      rw [skipWhile_of_cons behind, if_pos space, Scan.domainLiteral, if_pos space, Scan.stop_push]
      exact ih (drop_succ behind)
  | case3 c text space =>
      rw [skipWhile_of_cons behind, if_neg space, domainText_follows behind, Scan.domainLiteral,
        if_neg space]

/-- Skipping the characters of a class leaves what `dropWhile` leaves. -/
theorem skipWhile_follows (holds : Char → Bool) (behind : source.drop offset = text) :
    skipWhile holds source offset = offset + (text.takeWhile holds).length ∧
      source.drop (skipWhile holds source offset) = text.dropWhile holds := by
  induction text generalizing offset with
  | nil => rw [skipWhile_of_nil behind, behind]; exact ⟨rfl, rfl⟩
  | cons c text ih =>
      rw [skipWhile_of_cons behind, List.takeWhile_cons, List.dropWhile_cons]
      by_cases held : holds c = true
      · obtain ⟨stop, rest⟩ := ih (drop_succ behind)
        simp only [held, if_true, stop, List.length_cons]
        exact ⟨by omega, by rw [← rest, stop]⟩
      · simp only [held, Bool.false_eq_true, if_false]
        exact ⟨rfl, behind⟩

theorem le_skipWhile (holds : Char → Bool) (source : Text) (offset : Nat) :
    offset ≤ skipWhile holds source offset := by
  rw [(skipWhile_follows holds rfl).1]
  exact Nat.le_add_right _ _

end Cursor

/-! ## Lexemes -/

/-- The kind of a lexeme from an offset and the offset behind it, or why the reading is stuck. -/
def Lexeme.stop (start : Nat) : Lexeme → Except Stuck (Kind × Nat)
  | .found kind lexeme _ => .ok (kind, start + lexeme.length)
  | .broken cause consumed => .error ⟨cause, start, start + consumed.length⟩

namespace Cursor

variable {source rest : Text} {c : Char} {start stop : Nat} {kind : Kind}

theorem ofStop_stop (kind : Kind) (cause : Cause) (start : Nat) (scan : Scan) :
    ofStop kind cause start (scan.stop start) = (Lexeme.ofScan kind cause scan).stop start := by
  cases scan <;> rfl

theorem comment_eq (behind : source.drop start = '(' :: rest) :
    comment source 0 start = ((Scan.comment 0 rest).push '(').stop start := by
  rw [comment_of_single behind (startsPair_of_ne (by decide)), if_pos rfl, Scan.stop_push]
  exact comment_follows 0 (drop_succ behind)

theorem domainLiteral_eq (behind : source.drop start = c :: rest) :
    domainLiteral source start = ((Scan.domainLiteral rest).push c).stop start := by
  rw [Scan.stop_push, ← domainLiteral_follows (drop_succ behind)]
  rfl

theorem quotedString_eq (behind : source.drop start = c :: rest) :
    quotedString source start = ((Scan.quotedString rest).push c).stop start := by
  rw [Scan.stop_push, ← quotedString_follows (drop_succ behind)]
  rfl

theorem atom_eq (behind : source.drop start = c :: rest) :
    ofStop .atom (.unexpectedCharacter c) start (atom source start) =
      (if isAtomChar c then
        Lexeme.found .atom (c :: rest.takeWhile isAtomChar) (rest.dropWhile isAtomChar)
      else .broken (.unexpectedCharacter c) []).stop start := by
  obtain ⟨stop, -⟩ := skipWhile_follows isAtomChar behind
  rw [atom, stop, List.takeWhile_cons]
  by_cases first : isAtomChar c = true
  · simp [first, ofStop, Lexeme.stop]
  · simp [first, ofStop, Lexeme.stop]

/-- The lexeme at an offset is the one that is read of what stands there. -/
theorem lexeme_eq (behind : source.drop start = c :: rest) :
    lexeme source start c = (Lexeme.read c rest).stop start := by
  unfold lexeme Lexeme.read
  cases Kind.ofStructural? c with
  | some kind => rfl
  | none =>
      by_cases parenthesis : c = '('
      · subst parenthesis
        simp only [if_true, comment_eq behind, ofStop_stop]
      by_cases bracket : c = '['
      · subst bracket
        simp only [parenthesis, if_true, if_false, domainLiteral_eq behind, ofStop_stop]
      by_cases quotes : c = '"'
      · subst quotes
        simp only [parenthesis, bracket, if_true, if_false, quotedString_eq behind, ofStop_stop]
      simp only [parenthesis, bracket, quotes, if_false, atom_eq behind]

/-- A lexeme that ends has been read, and it is what stands up to its end. -/
theorem exists_lexeme_of_ok (behind : source.drop start = c :: rest)
    (found : lexeme source start c = .ok (kind, stop)) :
    ∃ text, source.drop start = text ++ source.drop stop ∧ stop = start + text.length ∧
      IsLexeme kind text ∧ (kind = .atom → EndsAtom (source.drop stop)) := by
  rw [lexeme_eq behind] at found
  cases read : Lexeme.read c rest with
  | broken cause consumed =>
      rw [read] at found
      cases found
  | found other text after =>
      rw [read] at found
      cases found
      obtain ⟨split, form, ends⟩ := Lexeme.isLexeme_of_read read
      have after_eq : source.drop (start + text.length) = after := by
        rw [← List.drop_drop, behind, split, List.drop_left]
      exact ⟨text, by rw [after_eq, behind, split], rfl, form, after_eq ▸ ends⟩

/-- A lexeme takes a character at least. -/
theorem lt_of_lexeme_eq_ok (inside : start < source.length)
    (found : lexeme source start source[start] = .ok (kind, stop)) : start < stop := by
  obtain ⟨text, -, rfl, form, -⟩ := exists_lexeme_of_ok (List.drop_eq_getElem_cons inside) found
  have := List.length_pos_iff.2 form.ne_nil
  omega

end Cursor

/-! ## Readers -/

namespace TokenReader

open Cursor

/-- The token of a kind between two offsets. -/
def tokenBetween (source : Text) (kind : Kind) (start stop : Nat) : Token :=
  ⟨kind, if kind.carriesText then (source.drop start).take (stop - start) else [], ⟨start, stop⟩⟩

/-- A reading by offset: spaces are skipped, and a lexeme is read, until there is none or the end. -/
def readByOffset (reader : TokenReader) : TokenReader × Option (List Token) :=
  let start := skipWhile isSpace reader.source reader.cursor
  if inside : start < reader.source.length then
    match found : lexeme reader.source start reader.source[start] with
    | .ok (kind, stop) =>
        readByOffset { reader with
          cursor := stop
          tokens := reader.tokens ++ [tokenBetween reader.source kind start stop] }
    | .error stuck =>
        ({ reader with
            tokens := []
            cursor := stuck.cursor
            faults := reader.faults ++ [stuck.fault] }, none)
  else
    let all := reader.tokens ++ [Token.finish start]
    ({ reader with tokens := all, cursor := start }, some all)
termination_by reader.source.length - reader.cursor
decreasing_by
  have forward := lt_of_lexeme_eq_ok inside found
  have stays := le_skipWhile isSpace reader.source reader.cursor
  omega

/-! ## Readers by offset follow readers -/

section Follows

variable {reader : TokenReader} {source text : Text} {offset start stop : Nat} {kind : Kind}

/-- A scan goes on behind the spaces. -/
theorem scan_skipWhile (behind : source.drop offset = text) :
    Token.scan offset text = Token.scan (skipWhile isSpace source offset)
      (source.drop (skipWhile isSpace source offset)) := by
  induction text generalizing offset with
  | nil => rw [skipWhile_of_nil behind, behind]
  | cons c text ih =>
      rw [skipWhile_of_cons behind]
      by_cases space : isSpace c = true
      · rw [if_pos space, Token.scan_space space]
        exact ih (drop_succ behind)
      · rw [if_neg space, behind]

theorem scan_rest_of_skipped (skipped : skipWhile isSpace reader.source reader.cursor = start) :
    Token.scan reader.cursor reader.rest = Token.scan start (reader.source.drop start) := by
  subst skipped
  exact scan_skipWhile rfl

/-- What stands behind the spaces is no space. -/
theorem isSpace_of_skipped (inside : start < source.length)
    (skipped : skipWhile isSpace source offset = start) : isSpace source[start] = false := by
  have solid := List.head?_dropWhile_not isSpace (source.drop offset)
  rw [← (skipWhile_follows isSpace rfl).2, skipped, List.drop_eq_getElem_cons inside,
    List.head?_cons] at solid
  exact solid

/-- Spaces lead to the end of the text, if they lead so far, or to where they start beyond it. -/
theorem eq_max_of_past (past : source.length ≤ start)
    (skipped : skipWhile isSpace source offset = start) : start = max offset source.length := by
  have fewer := (List.takeWhile_prefix (p := isSpace) (l := source.drop offset)).length_le
  rw [List.length_drop] at fewer
  rw [(skipWhile_follows isSpace rfl).1] at skipped
  omega

/-- What is left at the end is the token of the end. -/
theorem read_of_past (past : reader.source.length ≤ start)
    (skipped : skipWhile isSpace reader.source reader.cursor = start) :
    reader.read =
      ({ reader with tokens := reader.tokens ++ [Token.finish start], cursor := start },
        some (reader.tokens ++ [Token.finish start])) := by
  have lexed : Token.scan reader.cursor reader.rest = .ok [Token.finish start] := by
    rw [scan_rest_of_skipped skipped, List.drop_of_length_le past]
    rfl
  rw [read_of_ok lexed, ← eq_max_of_past past skipped]

/-- What is read of a lexeme is its token and what is read behind it. -/
theorem read_of_lexeme (inside : start < reader.source.length)
    (skipped : skipWhile isSpace reader.source reader.cursor = start)
    (found : lexeme reader.source start reader.source[start] = .ok (kind, stop)) :
    reader.read = TokenReader.read
      { reader with
        cursor := stop
        tokens := reader.tokens ++ [tokenBetween reader.source kind start stop] } := by
  obtain ⟨text, split, rfl, form, ends⟩ :=
    exists_lexeme_of_ok (List.drop_eq_getElem_cons inside) found
  have token : tokenBetween reader.source kind start (start + text.length) =
      Token.ofLexeme kind text start := by
    rw [tokenBetween, split, Nat.add_sub_cancel_left, List.take_left]
    rfl
  have lexed : Token.scan reader.cursor reader.rest =
      (Token.scan (start + text.length) (reader.source.drop (start + text.length))).map
        (Token.ofLexeme kind text start :: ·) := by
    rw [scan_rest_of_skipped skipped, split, Token.scan_lexeme form ends]
  have forward := le_skipWhile isSpace reader.source reader.cursor
  have length := congrArg List.length split
  rw [List.length_append, List.length_drop, List.length_drop] at length
  rw [token]
  cases behind : Token.scan (start + text.length) (reader.source.drop (start + text.length)) with
  | error stuck =>
      rw [behind] at lexed
      rw [read_of_error lexed, read_of_error behind]
  | ok tokens =>
      have ends_alike : max reader.cursor reader.source.length =
          max (start + text.length) reader.source.length := by
        omega
      rw [behind] at lexed
      rw [read_of_ok lexed, read_of_ok behind, ends_alike, List.append_assoc]
      rfl

/-- Where a lexeme gets stuck, the reading does. -/
theorem read_of_stuck {stuck : Stuck} (inside : start < reader.source.length)
    (skipped : skipWhile isSpace reader.source reader.cursor = start)
    (found : lexeme reader.source start reader.source[start] = .error stuck) :
    reader.read =
      ({ reader with
          tokens := []
          cursor := stuck.cursor
          faults := reader.faults ++ [stuck.fault] },
        none) := by
  have behind := List.drop_eq_getElem_cons inside
  rw [lexeme_eq behind] at found
  cases read : Lexeme.read reader.source[start] (reader.source.drop (start + 1)) with
  | found kind text after =>
      rw [read] at found
      cases found
  | broken cause consumed =>
      rw [read] at found
      cases found
      refine read_of_error ?_
      rw [scan_rest_of_skipped skipped, behind,
        Token.scan_broken (isSpace_of_skipped inside skipped) read]

end Follows

/-- A reader by offset goes as the reader of what stands behind its cursor, wherever it stands and
whatever it holds. -/
theorem readByOffset_eq_read (reader : TokenReader) : reader.readByOffset = reader.read := by
  induction reader using readByOffset.induct with
  | case1 reader start inside kind stop found ih =>
      rw [readByOffset, dif_pos inside, read_of_lexeme inside rfl found, ← ih]
      split
      next other_kind other_stop same =>
        cases found.symm.trans same
        rfl
      next stuck same => cases found.symm.trans same
  | case2 reader start inside stuck found =>
      rw [readByOffset, dif_pos inside, read_of_stuck inside rfl found]
      split
      next other_kind other_stop same => cases found.symm.trans same
      next other same =>
        cases found.symm.trans same
        rfl
  | case3 reader start past =>
      rw [readByOffset, dif_neg past, read_of_past (Nat.le_of_not_lt past) rfl]

end TokenReader

end MailAddress
