import MailAddress.Proofs.Matching.Brackets

/-!
# Groups do not nest

A token of a field stands in a group or outside of all groups, and between angle brackets or not.
Between angle brackets only the closing one changes that.  Outside of them a colon opens a group and
a semicolon closes it, and a colon in a group has no place at all.

All tokens of a derived list of addresses have their places.  A mailbox leads back to where it stands,
in a group as well as outside.  A group does so outside, and in another group it has no place.
-/

namespace MailAddress

namespace Derivation

/-- Where a token stands. -/
structure Place where
  /-- Behind the colon of a group that is not closed. -/
  inGroup : Bool
  /-- Behind an angle bracket that is not closed. -/
  inBrackets : Bool
deriving DecidableEq, Repr

namespace Place

/-- Outside of all groups and brackets. -/
def outside : Place := ⟨false, false⟩

/-- In a group and outside of brackets. -/
def grouped : Place := ⟨true, false⟩

/-- The place behind a token of some kind, unless the token has none. -/
def next? (place : Place) : Kind → Option Place
  | .lessThan => some { place with inBrackets := true }
  | .greaterThan => some { place with inBrackets := false }
  | .colon =>
      if place.inBrackets then some place
      else if place.inGroup then none
      else some { place with inGroup := true }
  | .semicolon => if place.inBrackets then some place else some { place with inGroup := false }
  | _ => some place

/-- The place behind some tokens, unless one of them has none. -/
def after? (place : Place) (tokens : List Token) : Option Place :=
  tokens.foldlM (fun place token => place.next? token.kind) place

end Place

variable {place : Place} {inGroup : Bool} {tokens following close left right : List Token}
variable {token : Token}

theorem Place.after?_cons (place : Place) (token : Token) (tokens : List Token) :
    place.after? (token :: tokens) = (place.next? token.kind).bind (·.after? tokens) :=
  List.foldlM_cons

theorem Place.after?_append (place : Place) (left right : List Token) :
    place.after? (left ++ right) = (place.after? left).bind (·.after? right) :=
  List.foldlM_append

/-- The place behind these tokens is the one in front of them. -/
def Stays (place : Place) (tokens : List Token) : Prop := place.after? tokens = some place

theorem Stays.nil : Stays place [] := rfl

theorem Stays.after?_append (stays : Stays place left) :
    place.after? (left ++ right) = place.after? right := by
  rw [Place.after?_append, stays, Option.bind_some]

theorem Stays.append (stays : Stays place left) (others : Stays place right) :
    Stays place (left ++ right) :=
  stays.after?_append.trans others

/-! ## Tokens that mark no place -/

/-- The kinds of token behind which another place may come. -/
def markKinds : List Kind := [.lessThan, .greaterThan, .colon, .semicolon]

theorem Place.next?_of_not_mem {kind : Kind} (unmarked : kind ∉ markKinds) :
    place.next? kind = some place := by
  cases kind <;> first | rfl | exact absurd (by decide) unmarked

/-- Tokens that each lead back to where they stand. -/
theorem stays_of_next (next : ∀ token ∈ tokens, place.next? token.kind = some place) :
    Stays place tokens := by
  induction tokens with
  | nil => exact .nil
  | cons token tokens ih =>
      rw [Stays, Place.after?_cons, next token List.mem_cons_self]
      exact ih fun other member => next other (List.mem_cons_of_mem token member)

theorem stays_of_unmarked (unmarked : ∀ token ∈ tokens, token.kind ∉ markKinds) :
    Stays place tokens :=
  stays_of_next fun token member => Place.next?_of_not_mem (unmarked token member)

theorem stays_of_kinds {kinds : List Kind} (inside : ∀ token ∈ tokens, token.kind ∈ kinds)
    (unmarked : ∀ kind ∈ kinds, kind ∉ markKinds) : Stays place tokens :=
  stays_of_unmarked fun token member => unmarked _ (inside token member)

theorem Separators.stays (all : Separators tokens) : Stays place tokens := by
  refine stays_of_unmarked fun token member => ?_
  rcases all token member with kind | kind <;> rw [kind] <;> decide

theorem IsWords.stays {words : List Word} (derived : IsWords tokens words) : Stays place tokens :=
  stays_of_kinds derived.kind_of_mem (by decide)

theorem IsAddrSpec.stays {spec : AddrSpec} (derived : IsAddrSpec tokens spec) : Stays place tokens :=
  stays_of_kinds derived.kind_mem_specKinds (by decide)

/-! ## Mailboxes -/

/-- Between angle brackets no other token counts. -/
theorem IsBracketFree.stays (free : IsBracketFree tokens) : Stays ⟨inGroup, true⟩ tokens := by
  refine stays_of_next fun token member => ?_
  obtain ⟨no_less, no_greater⟩ := free token member
  cases kind : token.kind <;> first | rfl | contradiction

theorem IsRouteAddr.stays {spec : AddrSpec} (derived : IsRouteAddr tokens spec) :
    Stays ⟨inGroup, false⟩ tokens := by
  obtain ⟨before, less, inside, greater, rfl, all, less_kind, free, kind⟩ := derived.exists_brackets
  rw [Stays, all.separators.stays.after?_append, Place.after?_cons, less_kind]
  have closes : (Place.mk inGroup true).after? (inside ++ [greater]) = some ⟨inGroup, false⟩ := by
    rw [free.stays.after?_append, Place.after?_cons, kind]
    rfl
  exact closes

/-- A mailbox leads back to where it stands, in a group as well as outside. -/
theorem IsMailbox.stays {value : Mailbox} (derived : IsMailbox tokens following value) :
    Stays ⟨inGroup, false⟩ tokens := by
  cases derived with
  | plain spec => exact spec.stays
  | angle spec => exact spec.stays
  | named name spec => exact name.stays.append spec.stays

theorem IsMembers.stays {α : Type} {Member : List Token → List Token → α → Prop}
    {list : List (Commented α)}
    (each : ∀ tokens following value, Member tokens following value → Stays place tokens)
    (derived : IsMembers Member close tokens list) : Stays place tokens := by
  induction derived with
  | last member all => exact (each _ _ _ member).append all.stays
  | cons member all _ _ ih => exact (each _ _ _ member).append (all.stays.append ih)

/-! ## Groups -/

theorem Stays.leave (stays : Stays .grouped tokens) (kind : token.kind = .semicolon) :
    Place.grouped.after? (tokens ++ [token]) = some .outside := by
  rw [stays.after?_append, Place.after?_cons, kind]
  rfl

/-- A group is a name, a colon and what leads out of the group. -/
theorem IsGroup.exists_name {value : Group} (derived : IsGroup tokens following value) :
    ∃ name words colon rest, tokens = name ++ colon :: rest ∧ IsWords name words ∧
      colon.kind = .colon ∧ Place.grouped.after? rest = some .outside := by
  cases derived with
  | empty name colon all kind => exact ⟨_, _, _, _, rfl, name, colon, Stays.leave all.separators.stays kind⟩
  | @full _ inside _ _ _ _ _ _ name colon members kind =>
      have body : Stays .grouped inside := members.stays fun _ _ _ mailbox => mailbox.stays
      exact ⟨_, _, _, _, rfl, name, colon, Stays.leave body kind⟩

/-- A group leads back to where it stands, outside of all groups. -/
theorem IsGroup.stays {value : Group} (derived : IsGroup tokens following value) :
    Stays .outside tokens := by
  obtain ⟨name, words, colon, rest, rfl, derived, kind, behind⟩ := derived.exists_name
  rw [Stays, derived.stays.after?_append, Place.after?_cons, kind]
  exact behind

/-- A group has no place in another. -/
theorem IsGroup.after?_grouped {value : Group} (derived : IsGroup tokens following value) :
    Place.grouped.after? tokens = none := by
  obtain ⟨name, words, colon, rest, rfl, derived, kind, -⟩ := derived.exists_name
  rw [derived.stays.after?_append, Place.after?_cons, kind]
  rfl

theorem IsAddress.stays {value : Address} (derived : IsAddress tokens following value) :
    Stays .outside tokens := by
  cases derived with
  | group part => exact part.stays
  | mailbox part => exact part.stays

/-- Members that include a group have no place in another. -/
theorem IsMembers.after?_grouped {list : AddressList} (derived : IsMembers IsAddress close tokens list)
    {member : Commented Address} {part : Group} (inside : member ∈ list)
    (group : member.body = .group part) : Place.grouped.after? tokens = none := by
  induction derived with
  | @last tokens separators value derived all =>
      rw [List.mem_singleton.1 inside] at group
      cases derived with
      | group derived => rw [Place.after?_append, derived.after?_grouped, Option.bind_none]
      | mailbox => cases group
  | @cons tokens separators rest value values derived all _ _ ih =>
      cases derived with
      | group derived => rw [Place.after?_append, derived.after?_grouped, Option.bind_none]
      | mailbox derived =>
          rcases List.mem_cons.1 inside with rfl | inside
          · cases group
          · have front : Stays .grouped tokens := derived.stays
            rw [front.after?_append, all.stays.after?_append]
            exact ih inside

/-- All tokens of a list of addresses have their places, and it ends outside of all groups. -/
theorem IsAddressList.stays {list : AddressList} (derived : IsAddressList tokens list) :
    Stays .outside tokens := by
  cases derived with
  | field members kind =>
      refine (members.stays fun _ _ _ member => member.stays).append ?_
      exact stays_of_unmarked (List.forall_mem_singleton.2 (by rw [kind]; decide))

/-- What stands behind the name and the colon of a group in a list of addresses has its place. -/
theorem IsAddressList.after?_grouped_ne_none {name behind : List Token} {colon : Token}
    {list : AddressList} (derived : IsAddressList (name ++ colon :: (tokens ++ behind)) list)
    (stays : Stays .outside name) (kind : colon.kind = .colon) :
    Place.grouped.after? tokens ≠ none := by
  intro misplaced
  have whole := derived.stays
  have opens : Place.outside.next? .colon = some .grouped := rfl
  rw [Stays, stays.after?_append, Place.after?_cons, kind, opens, Option.bind_some,
    Place.after?_append, misplaced] at whole
  cases whole

end Derivation

end MailAddress
