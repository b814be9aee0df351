import MailAddress.Proofs.Matching.Abandonment

/-!
# Where final domains come from

A canonicalizer is called while a field is read, also in alternatives that are given up and in
fields that are refused.  Whatever it is called with is the final domain of an address specification
that is matched at some token of the field.  It is no relay, and no part of a specification that is
not matched.
-/

namespace MailAddress

open Trace

/-- An address specification with this final domain is matched at the start of these tokens. -/
def StartsSpec (domain : Text) (tokens : List Token) : Prop :=
  ∃ spec rest, (Parser.addrSpec false tokens).outcome = .matched spec rest ∧
    spec.body.finalDomain = domain

namespace Parser

variable {α β : Type} {parser : Parser α} {holds : Text → List Token → Prop} {tokens : List Token}

/-- What follows a match ends the tokens, and each final domain that is noted has the property at
one of the tokens. -/
def NotesOnly (holds : Text → List Token → Prop) (parser : Parser α) : Prop :=
  ∀ tokens,
    (∀ value rest, (parser false tokens).outcome = .matched value rest → rest <:+ tokens) ∧
      ∀ domain ∈ finalDomains (parser false tokens).events,
        ∃ start, start <:+ tokens ∧ holds domain start

namespace NotesOnly

theorem pure (value : α) : (Pure.pure value : Parser α).NotesOnly holds := by
  intro tokens
  refine ⟨?_, nofun⟩
  rintro _ _ ⟨rfl, rfl⟩
  exact List.suffix_rfl

/-- A parser without events that reads tokens. -/
theorem silent {language : Language Kind} (reads : parser.Reads language)
    (quiet : ∀ tokens, (parser false tokens).events = []) : parser.NotesOnly holds := by
  intro tokens
  rw [quiet tokens]
  refine ⟨fun value rest matched => ?_, nofun⟩
  obtain ⟨read, rfl, _⟩ := reads tokens value rest matched
  exact List.suffix_append read rest

theorem advance : Parser.advance.NotesOnly holds := by
  intro tokens
  cases tokens with
  | nil => exact ⟨nofun, nofun⟩
  | cons token tokens =>
      refine ⟨?_, nofun⟩
      rintro _ _ ⟨rfl, rfl⟩
      exact List.suffix_cons token tokens

theorem bind {onward : α → Parser β} (first : parser.NotesOnly holds)
    (second : ∀ value, (onward value).NotesOnly holds) : (parser >>= onward).NotesOnly holds := by
  intro tokens
  obtain ⟨first_suffix, first_notes⟩ := first tokens
  rw [run_bind, Run.andThen]
  cases outcome : (parser false tokens).outcome with
  | beyond => exact ⟨(fun _ _ found => by cases found), first_notes⟩
  | failed => exact ⟨(fun _ _ found => by cases found), first_notes⟩
  | matched value rest =>
      obtain ⟨second_suffix, second_notes⟩ := second value rest
      have suffix := first_suffix value rest outcome
      refine ⟨fun last final matched => (second_suffix last final matched).trans suffix, ?_⟩
      intro domain noted
      rw [finalDomains_append, List.mem_append] at noted
      cases noted with
      | inl noted => exact first_notes domain noted
      | inr noted =>
          obtain ⟨start, inside, here⟩ := second_notes domain noted
          exact ⟨start, inside.trans suffix, here⟩

theorem attempt (only : parser.NotesOnly holds) : parser.attempt.NotesOnly holds := by
  intro tokens
  obtain ⟨suffix, notes⟩ := only tokens
  rw [Parser.attempt]
  rcases run : parser false tokens with ⟨_ | _ | ⟨value, rest⟩, events⟩ <;> rw [run] at suffix notes
  · exact ⟨(fun _ _ found => by cases found), notes⟩
  · refine ⟨?_, notes⟩
    rintro _ _ ⟨rfl, rfl⟩
    exact List.suffix_rfl
  · refine ⟨?_, notes⟩
    rintro _ _ ⟨rfl, rfl⟩
    exact suffix value rest rfl

theorem closed : Compositional (NotesOnly holds) where
  pure := pure
  bind := bind
  attempt := attempt
  fail _ := ⟨nofun, nofun⟩
  beyond _ := ⟨nofun, nofun⟩
  stop _ := ⟨nofun, nofun⟩
  advance := advance
  peekThen _ only tokens := by
    cases tokens with
    | nil => exact ⟨nofun, nofun⟩
    | cons token tokens => exact only token (token :: tokens)
  skipComments := silent reads_skipComments fun _ => rfl
  skipSeparators := silent reads_skipSeparators fun _ => rfl
  bounded only tokens := only tokens.length tokens
  traced _ only := only

/-- A parser that notes nothing whatever notes no final domain. -/
theorem finalDomains_eq_nil (only : parser.NotesOnly fun _ _ => False) (tokens : List Token) :
    finalDomains (parser false tokens).events = [] := by
  refine List.eq_nil_iff_forall_not_mem.2 fun domain noted => ?_
  obtain ⟨_, _, absurd⟩ := (only tokens).2 domain noted
  exact absurd

end NotesOnly

/-- The local part and the domains note nothing, and behind them the final domain is noted. -/
theorem notesOnly_addrSpec : Parser.addrSpec.NotesOnly StartsSpec := by
  intro tokens
  refine ⟨fun value rest matched => ?_, fun domain noted => ⟨tokens, List.suffix_rfl, ?_⟩⟩
  · obtain ⟨read, rfl, _⟩ := reads_addrSpec tokens value rest matched
    exact List.suffix_append read rest
  · have words_quiet := NotesOnly.closed.localPart.finalDomains_eq_nil tokens
    unfold StartsSpec
    rw [addrSpec, run_traced, run_bind] at noted ⊢
    rcases words_run : localPart false tokens with ⟨_ | _ | ⟨words, middle⟩, events⟩ <;>
      rw [words_run] at noted words_quiet
    · simp [Run.andThen, words_quiet] at noted
    · simp [Run.andThen, words_quiet] at noted
    · have hops_quiet : finalDomains (followers .atSign Parser.domain false middle).events = [] :=
        (NotesOnly.closed.followers NotesOnly.closed.domain).finalDomains_eq_nil middle
      simp only [Run.andThen_matched, run_bind] at noted ⊢
      rcases hops_run : followers .atSign Parser.domain false middle with
        ⟨_ | _ | ⟨domains, rest⟩, others⟩ <;> rw [hops_run] at noted hops_quiet
      · simp [Run.andThen, words_quiet, hops_quiet] at noted
      · simp [Run.andThen, words_quiet, hops_quiet] at noted
      · have same : domain = AddrSpec.finalDomain ⟨words.body, domains.body⟩ := by
          simpa [noteFinalDomain, words_quiet, hops_quiet] using noted
        exact ⟨_, rest, rfl, same.symm⟩

/-- What a canonicalizer is called with is the final domain of an address specification that is
matched at one of the tokens. -/
theorem notesOnly_addresses : addresses.NotesOnly StartsSpec :=
  NotesOnly.closed.addresses notesOnly_addrSpec

end Parser

end MailAddress
